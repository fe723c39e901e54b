import SolidIrcd.Common
import SolidIrcd.Lib.CString
import SolidIrcd.Lib.Firsts
import SolidIrcd.Lib.Token
import Mathlib.Data.List.GetD

/-! `canonize` of `s_user.c`: the targets of a command without the repeated ones. Both cursors of `strtoken` cut the text
they walk, and the walk through the text that grows puts each separator back. -/

namespace SolidIrcd.Canonize

open Scan Firsts

/-- What `strtoken` returns and leaves: the token, `*save`, and the text cut behind the token. -/
structure Taken where
  token : Option Nat
  save : Option Nat
  bytes : Text
  deriving DecidableEq, Repr

/-- `strtoken`, from `str` or from the saved position, with a set of separators that holds only `fs`. -/
def strtoken (bytes : Text) (pos : Option Nat) (fs : Char) : Taken :=
  match pos with
  | none => ⟨none, none, bytes⟩
  | some pos =>
    let tmp := scan (· == fs) bytes pos
    if bytes.getD tmp nul = nul then ⟨none, none, bytes⟩
    else
      let stop := scan (skipped fs) bytes tmp
      if bytes.getD stop nul = nul then ⟨some tmp, none, bytes⟩
      else ⟨some tmp, some (stop + 1), bytes.set stop nul⟩

/-- What is left of a text from a saved position on. -/
def left (bytes : Text) (pos : Option Nat) : Nat := pos.elim 0 (bytes.length + 1 - ·)

/-- `if (p2) p2[-1] = ','`. -/
def restore (cbuf : Text) (p2 : Option Nat) : Text := p2.elim cbuf fun p2 => cbuf.set (p2 - 1) ','

@[simp] theorem length_restore (cbuf : Text) (p2 : Option Nat) : (restore cbuf p2).length = cbuf.length := by
  cases p2 <;> simp [restore]

@[simp] theorem length_strtoken (bytes : Text) (pos : Option Nat) (fs : Char) :
    (strtoken bytes pos fs).bytes.length = bytes.length := by
  unfold strtoken
  split
  · rfl
  · dsimp only
    repeat' split
    all_goals simp

theorem left_strtoken_lt (found : (strtoken bytes pos fs).token = some t) :
    left (strtoken bytes pos fs).bytes (strtoken bytes pos fs).save < left bytes pos := by
  cases pos with
  | none => cases found
  | some pos =>
    have ahead := le_scan (· == fs) bytes pos
    have beyond := le_scan (skipped fs) bytes (scan (· == fs) bytes pos)
    have inside : bytes.getD (scan (· == fs) bytes pos) nul ≠ nul → scan (· == fs) bytes pos < bytes.length := fun solid =>
      Nat.lt_of_not_le fun outside => solid (List.getD_eq_default bytes nul outside)
    unfold left
    rw [length_strtoken]
    unfold strtoken at found ⊢
    dsimp only at found ⊢
    split
    · rename_i ended
      rw [if_pos ended] at found
      cases found
    · rename_i solid
      have bound := inside solid
      split
      · simp only [Option.elim_none, Option.elim_some]
        omega
      · simp only [Option.elim_some]
        omega

/-- The loop that looks for `s` in `cbuf` and puts back the separators it passes. -/
def seek (s cbuf : Text) (pos : Option Nat) : Taken :=
  match _ : (strtoken cbuf pos ',').token with
  | none => strtoken cbuf pos ','
  | some t =>
    let taken := strtoken cbuf pos ','
    if mycmp s (textAt taken.bytes t) then taken else seek s (restore taken.bytes taken.save) taken.save
  termination_by left cbuf pos
  decreasing_by
    have less := left_strtoken_lt ‹_›
    simpa [left] using less

/-- The search for a target, which is left out while `cbuf` is empty. -/
def search (s cbuf : Text) (l : Bool) : Taken := if l then seek s cbuf (some 0) else ⟨none, none, cbuf⟩

/-- `strcpy` to a place inside an array. -/
def strcpyAt (dest : Text) (cp : Nat) (src : Text) : Text := dest.take cp ++ strcpy (dest.drop cp) src

/-- The loop of `canonize`; `cp` is where the next target goes and `l` says that there is one in `cbuf`. -/
def canonizeLoop (buffer cbuf : Text) (p : Option Nat) (cp : Nat) (l : Bool) : Text :=
  match _ : (strtoken buffer p ',').token with
  | none => cbuf
  | some s =>
    let taken := strtoken buffer p ','
    let t := search (textAt taken.bytes s) cbuf l
    if t.token = none then
      let cut := if l then t.bytes.set (cp - 1) ',' else t.bytes
      canonizeLoop taken.bytes (strcpyAt cut cp (textAt taken.bytes s)) taken.save
        (taken.save.elim cp fun p => cp + (p - s)) true
    else canonizeLoop taken.bytes (restore t.bytes t.save) taken.save cp l
  termination_by left buffer p
  decreasing_by all_goals exact left_strtoken_lt ‹_›

/-- `canonize`: what `cbuf` holds at the end. -/
def canonize (buffer cbuf : Text) : Text := canonizeLoop buffer (cbuf.set 0 nul) (some 0) 0 false

/-- `for (nick = strtoken(&p, list, ","); nick; nick = strtoken(&p, NULL, ","))`: the targets a command comes to. -/
def targets (bytes : Text) (pos : Option Nat) : List Text :=
  match _ : (strtoken bytes pos ',').token with
  | none => []
  | some t =>
    let taken := strtoken bytes pos ','
    textAt taken.bytes t :: targets taken.bytes taken.save
  termination_by left bytes pos
  decreasing_by exact left_strtoken_lt ‹_›

/-! ### One token -/

theorem textAt_of_getD_nul (ended : bytes.getD cursor nul = nul) : textAt bytes cursor = [] := by
  rw [textAt]
  cases rest : bytes.drop cursor with
  | nil => rfl
  | cons head tail =>
    have first : bytes[cursor]? = some head := by
      rw [← List.head?_drop, rest]
      rfl
    rw [List.getD_eq_getElem?_getD, first] at ended
    simp only [Option.getD_some] at ended
    simp [ended]

theorem textAt_of_getD (solid : bytes.getD cursor nul ≠ nul) :
    textAt bytes cursor = bytes.getD cursor nul :: textAt bytes (cursor + 1) := by
  rw [List.getD_eq_getElem?_getD] at solid ⊢
  cases here : bytes[cursor]? with
  | none => exact absurd (by rw [here]; rfl) solid
  | some byte =>
    rw [here] at solid
    exact textAt_cons here solid

/-- What `strtoken` does, by the tokens that are still to come. -/
inductive Takes (fs : Char) (bytes : Text) : List Text → Taken → Prop
  | ended : Takes fs bytes [] ⟨none, none, bytes⟩
  | last (t : Nat) (item : textAt bytes t = token) : Takes fs bytes [token] ⟨some t, none, bytes⟩
  | cut (t stop : Nat) (here : bytes[stop]? = some fs) (item : textAt (bytes.set stop nul) t = token)
      (width : stop = t + token.length) (later : tokens fs (textAt bytes (stop + 1)) = list) :
      Takes fs bytes (token :: list) ⟨some t, some (stop + 1), bytes.set stop nul⟩

theorem strtoken_takes (bytes : Text) (pos : Nat) (other : fs ≠ nul) :
    Takes fs bytes (tokens fs (textAt bytes pos)) (strtoken bytes (some pos) fs) := by
  have gap : textAt bytes (scan (· == fs) bytes pos) = (textAt bytes pos).dropWhile (· == fs) :=
    textAt_scan (by simpa using other.symm) bytes pos
  have same := tokens_dropWhile fs (textAt bytes pos)
  rw [← gap] at same
  unfold strtoken
  dsimp only
  generalize scan (· == fs) bytes pos = tmp at gap same
  split
  · rename_i ended
    rw [textAt_of_getD_nul ended] at same
    rw [← same]
    exact .ended
  · rename_i solid
    have opens := textAt_of_getD solid
    have first : bytes.getD tmp nul ≠ fs := by
      have rejected := List.head?_dropWhile_not (· == fs) (textAt bytes pos)
      rw [← gap, opens] at rejected
      simpa using rejected
    have word := tokens_word first (textAt bytes (tmp + 1))
    rw [← opens] at word
    have clean := nul_not_mem_textAt bytes tmp
    have behind : textAt bytes (scan (skipped fs) bytes tmp) = (textAt bytes tmp).dropWhile (· != fs) := by
      rw [textAt_scan (by simp [skipped]), dropWhile_skipped clean]
    have whole := List.takeWhile_append_dropWhile (p := (· != fs)) (l := textAt bytes tmp)
    rw [same, ← behind] at word
    rw [← behind] at whole
    split
    · rename_i ended
      rw [textAt_of_getD_nul ended, List.append_nil] at whole
      rw [textAt_of_getD_nul ended, whole] at word
      rw [word]
      exact .last tmp rfl
    · rename_i more
      have stops := textAt_of_getD more
      have separator : bytes.getD (scan (skipped fs) bytes tmp) nul = fs := by
        have rejected := List.head?_dropWhile_not (· != fs) (textAt bytes tmp)
        rw [← behind, stops] at rejected
        simpa using rejected
      have here : bytes[scan (skipped fs) bytes tmp]? = some fs := by
        rw [List.getD_eq_getElem?_getD] at separator
        cases byte : bytes[scan (skipped fs) bytes tmp]? with
        | none =>
          rw [byte] at separator
          exact absurd separator.symm other
        | some byte' =>
          rw [byte] at separator
          exact congrArg some separator
      have found : find fs bytes tmp = some (scan (skipped fs) bytes tmp) := by rw [find, if_pos here]
      have item := textAt_cut found other
      obtain ⟨front, split, absent, place⟩ := textAt_of_find found other
      rw [word, stops, separator, tokens_separator]
      refine .cut tmp _ here item ?_ rfl
      rw [split, takeWhile_of_split absent]
      exact place

/-! ### The walk through `cbuf` -/

theorem seek_of_ended (ended : (strtoken cbuf pos ',').token = none) : seek s cbuf pos = strtoken cbuf pos ',' := by
  unfold seek
  split
  · rfl
  · rename_i t found
    rw [ended] at found
    cases found

theorem seek_of_token (found : (strtoken cbuf pos ',').token = some t) :
    seek s cbuf pos = if mycmp s (textAt (strtoken cbuf pos ',').bytes t) then strtoken cbuf pos ','
      else seek s (restore (strtoken cbuf pos ',').bytes (strtoken cbuf pos ',').save) (strtoken cbuf pos ',').save := by
  rw [seek]
  split
  · rename_i ended
    rw [ended] at found
    cases found
  · rename_i t' found'
    rw [found'] at found
    cases found
    rfl

theorem restore_cut (here : bytes[stop]? = some ',') : restore (bytes.set stop nul) (some (stop + 1)) = bytes := by
  obtain ⟨inside, same⟩ := List.getElem?_eq_some_iff.mp here
  rw [restore, Option.elim_some, Nat.add_sub_cancel, List.set_set, ← same, List.set_getElem_self]

/-- The walk finds whether the item is in the list, and with the last separator back the list is as it was. -/
theorem seek_spec (s cbuf : Text) (pos : Nat) :
    (seek s cbuf (some pos)).token.isSome = (tokens ',' (textAt cbuf pos)).any (mycmp s) ∧
      restore (seek s cbuf (some pos)).bytes (seek s cbuf (some pos)).save = cbuf ∧
      ((seek s cbuf (some pos)).token = none → (seek s cbuf (some pos)).bytes = cbuf) := by
  have takes := strtoken_takes cbuf pos (show ',' ≠ nul by decide)
  generalize same : strtoken cbuf (some pos) ',' = taken at takes
  generalize tokens ',' (textAt cbuf pos) = kept at takes
  induction kept generalizing pos taken with
  | nil =>
    cases takes with
    | ended =>
      rw [seek_of_ended (by rw [same]), same]
      exact ⟨rfl, rfl, fun _ => rfl⟩
  | cons item kept ih =>
    cases takes with
    | last t is =>
      rw [seek_of_token (t := t) (by rw [same]), same, List.any_cons, List.any_nil, Bool.or_false]
      dsimp only
      rw [is]
      cases mycmp s item with
      | true => exact ⟨rfl, rfl, nofun⟩
      | false =>
        rw [if_neg Bool.false_ne_true, seek_of_ended rfl]
        exact ⟨rfl, rfl, fun _ => rfl⟩
    | cut t stop here is width later =>
      rw [seek_of_token (t := t) (by rw [same]), same, List.any_cons]
      dsimp only
      rw [restore_cut here, is]
      cases mycmp s item with
      | true => exact ⟨rfl, restore_cut here, nofun⟩
      | false => exact ih (stop + 1) _ rfl (later ▸ strtoken_takes cbuf (stop + 1) (by decide))

/-! ### The list that grows -/

/-- `cbuf` holds the kept targets and grew no further than they need. -/
structure Holds (size : Nat) (kept : List Text) (cbuf : Text) : Prop where
  text : ∃ rest, cbuf = [','].intercalate kept ++ nul :: rest
  clean : nul ∉ [','].intercalate kept
  solid : ∀ piece ∈ kept, piece ≠ [] ∧ ',' ∉ piece
  sized : cbuf.length = max size (([','].intercalate kept).length + 1)

/-- Where the next target goes. -/
inductive Place : List Text → Nat → Bool → Prop
  | first : Place [] 0 false
  | next (nonempty : kept ≠ []) : Place kept (([','].intercalate kept).length + 1) true

theorem Holds.textAt_eq (holds : Holds size kept cbuf) : textAt cbuf 0 = [','].intercalate kept := by
  obtain ⟨rest, rfl⟩ := holds.text
  exact textAt_terminated holds.clean rest

theorem Holds.tokens_eq (holds : Holds size kept cbuf) : tokens ',' (textAt cbuf 0) = kept := by
  rw [holds.textAt_eq]
  exact tokens_intercalate kept holds.solid

theorem length_strcpyAt (inside : cp ≤ dest.length) (src : Text) :
    (strcpyAt dest cp src).length = max dest.length (cp + src.length + 1) := by
  simp only [strcpyAt, strcpy, List.length_append, List.length_take, List.length_cons, List.length_drop]
  omega

/-- Where a target goes behind the others. -/
theorem Place.length_append (place : Place kept cp l) (item : Text) :
    ([','].intercalate (kept ++ [item])).length = cp + item.length := by
  cases place with
  | first => simp
  | next nonempty =>
    rw [intercalate_snoc ',' nonempty, List.length_append, List.length_cons]
    omega

theorem Holds.append (holds : Holds size kept cbuf) (place : Place kept cp l)
    (solid : item ≠ [] ∧ ',' ∉ item) (clean : nul ∉ item) :
    Holds size (kept ++ [item]) (strcpyAt (if l then cbuf.set (cp - 1) ',' else cbuf) cp item) := by
  obtain ⟨rest, same⟩ := holds.text
  have inside : cp ≤ (if l then cbuf.set (cp - 1) ',' else cbuf).length := by
    have width : cp ≤ ([','].intercalate kept).length + 1 := by cases place <;> omega
    have sized := holds.sized
    cases l <;> simp <;> omega
  have kept_solid : ∀ piece ∈ kept ++ [item], piece ≠ [] ∧ ',' ∉ piece := by
    intro piece member
    rcases List.mem_append.mp member with before | last
    · exact holds.solid piece before
    · exact List.mem_singleton.mp last ▸ solid
  have sized : (strcpyAt (if l then cbuf.set (cp - 1) ',' else cbuf) cp item).length =
      max size (([','].intercalate (kept ++ [item])).length + 1) := by
    rw [length_strcpyAt inside, place.length_append]
    have before := holds.sized
    have width : ([','].intercalate kept).length ≤ cp := by cases place <;> simp
    cases l <;> simp <;> omega
  cases place with
  | first => exact ⟨⟨cbuf.drop (item.length + 1), by simp [strcpyAt, strcpy]⟩, by simpa using clean, kept_solid, sized⟩
  | next nonempty =>
    have joined := intercalate_snoc ',' nonempty item
    refine ⟨⟨rest.drop (item.length + 1), ?_⟩, ?_, kept_solid, sized⟩
    · have width : ([','].intercalate kept ++ [',']).length = ([','].intercalate kept).length + 1 := List.length_append
      rw [joined, if_pos rfl, Nat.add_sub_cancel, same, List.set_append_right _ _ (Nat.le_refl _),
        Nat.sub_self, List.set_cons_zero,
        List.append_cons, strcpyAt, List.take_left' width, List.drop_left' width, strcpy]
      simp
    · rw [joined, List.mem_append, List.mem_cons, not_or, not_or]
      exact ⟨holds.clean, by decide, clean⟩

/-! ### The loop -/

theorem canonizeLoop_of_ended (ended : (strtoken buffer p ',').token = none) :
    canonizeLoop buffer cbuf p cp l = cbuf := by
  unfold canonizeLoop
  split
  · rfl
  · rename_i s found
    rw [ended] at found
    cases found

theorem canonizeLoop_of_token (found : (strtoken buffer p ',').token = some s)
    (same : textAt (strtoken buffer p ',').bytes s = item) :
    canonizeLoop buffer cbuf p cp l =
      if (search item cbuf l).token = none then
        canonizeLoop (strtoken buffer p ',').bytes
          (strcpyAt (if l then (search item cbuf l).bytes.set (cp - 1) ',' else (search item cbuf l).bytes) cp item)
          (strtoken buffer p ',').save ((strtoken buffer p ',').save.elim cp fun p => cp + (p - s)) true
      else canonizeLoop (strtoken buffer p ',').bytes (restore (search item cbuf l).bytes (search item cbuf l).save)
        (strtoken buffer p ',').save cp l := by
  rw [canonizeLoop]
  split
  · rename_i ended
    rw [ended] at found
    cases found
  · rename_i s' found'
    rw [found'] at found
    cases found
    subst same
    rfl

theorem search_spec (holds : Holds size kept cbuf) (place : Place kept cp l) (item : Text) :
    (search item cbuf l).token.isSome = kept.any (mycmp item) ∧
      restore (search item cbuf l).bytes (search item cbuf l).save = cbuf ∧
      ((search item cbuf l).token = none → (search item cbuf l).bytes = cbuf) := by
  cases place with
  | first => exact ⟨rfl, rfl, fun _ => rfl⟩
  | next nonempty =>
    have spec := seek_spec item cbuf 0
    rw [holds.tokens_eq] at spec
    exact spec

/-- One target: it is kept or passed over, and the next one has its place. -/
theorem canonizeLoop_step (holds : Holds size kept cbuf) (place : Place kept cp l)
    (found : (strtoken buffer p ',').token = some s) (same : textAt (strtoken buffer p ',').bytes s = item)
    (solid : item ≠ [] ∧ ',' ∉ item) (width : ∀ next, (strtoken buffer p ',').save = some next → next = s + item.length + 1) :
    ∃ cbuf' cp' l', Holds size (keep mycmp kept item) cbuf' ∧
      ((strtoken buffer p ',').save ≠ none → Place (keep mycmp kept item) cp' l') ∧
      canonizeLoop buffer cbuf p cp l = canonizeLoop (strtoken buffer p ',').bytes cbuf'
        (strtoken buffer p ',').save cp' l' := by
  obtain ⟨some_iff, restored, whole⟩ := search_spec holds place item
  rw [canonizeLoop_of_token found same, keep, ← some_iff]
  cases token : (search item cbuf l).token with
  | some t =>
    rw [Option.isSome_some, if_pos rfl, if_neg (Option.some_ne_none t), restored]
    exact ⟨cbuf, cp, l, holds, fun _ => place, rfl⟩
  | none =>
    have clean : nul ∉ item := same ▸ nul_not_mem_textAt _ _
    rw [Option.isSome_none, if_neg Bool.false_ne_true, if_pos rfl, whole token]
    refine ⟨_, _, _, holds.append place solid clean, ?_, rfl⟩
    intro more
    cases save : (strtoken buffer p ',').save with
    | none => exact absurd save more
    | some next =>
      have length := place.length_append item
      rw [Option.elim_some, width next save, show cp + (s + item.length + 1 - s) = cp + item.length + 1 by omega, ← length]
      exact .next (by simp)

theorem canonizeLoop_spec (buffer : Text) (pos : Nat) (holds : Holds size kept cbuf) (place : Place kept cp l) :
    Holds size ((tokens ',' (textAt buffer pos)).foldl (keep mycmp) kept) (canonizeLoop buffer cbuf (some pos) cp l) := by
  have takes := strtoken_takes buffer pos (show ',' ≠ nul by decide)
  have solid (item : Text) (member : item ∈ tokens ',' (textAt buffer pos)) :
      item ≠ [] ∧ ',' ∉ item := mem_tokens member
  generalize same : strtoken buffer (some pos) ',' = taken at takes
  generalize tokens ',' (textAt buffer pos) = list at takes solid
  induction list generalizing buffer pos cbuf kept cp l taken with
  | nil =>
    cases takes with
    | ended =>
      rw [canonizeLoop_of_ended (by rw [same])]
      exact holds
  | cons item list ih =>
    have good := solid item (List.mem_cons_self ..)
    have rest := fun other member => solid other (List.mem_cons_of_mem _ member)
    cases takes with
    | last t is =>
      have found : (strtoken buffer (some pos) ',').token = some t := by rw [same]
      obtain ⟨cbuf', cp', l', holds', -, step⟩ := canonizeLoop_step holds place found (by rw [same, is]) good (by simp [same])
      rw [step, same, canonizeLoop_of_ended rfl]
      exact holds'
    | cut t stop here is width later =>
      have found : (strtoken buffer (some pos) ',').token = some t := by rw [same]
      have behind : textAt (buffer.set stop nul) (stop + 1) = textAt buffer (stop + 1) :=
        textAt_set_before nul (Nat.lt_succ_self stop)
      have next (next : Nat) (saved : (strtoken buffer (some pos) ',').save = some next) : next = t + item.length + 1 := by
        rw [same, Option.some.injEq] at saved
        omega
      obtain ⟨cbuf', cp', l', holds', place', step⟩ := canonizeLoop_step holds place found (by rw [same, is]) good next
      rw [step, same]
      refine ih (buffer.set stop nul) (stop + 1) holds' (place' (by simp [same])) _ rfl ?_ rest
      have takes' := strtoken_takes (buffer.set stop nul) (stop + 1) (show ',' ≠ nul by decide)
      rwa [behind, later] at takes'

theorem canonize_holds (buffer : Text) (array : cbuf ≠ []) :
    Holds cbuf.length ((tokens ',' (textAt buffer 0)).eraseDupsBy mycmp) (canonize buffer cbuf) := by
  rw [eraseDupsBy_eq_foldl]
  refine canonizeLoop_spec buffer 0 ?_ .first
  obtain ⟨byte, rest, rfl⟩ := List.exists_cons_of_ne_nil array
  exact ⟨⟨rest, rfl⟩, List.not_mem_nil, nofun, by simp⟩

theorem length_firsts_le (text : Text) :
    ([','].intercalate ((tokens ',' text).eraseDupsBy mycmp)).length ≤ text.length := by
  by_cases empty : (tokens ',' text).eraseDupsBy mycmp = []
  · simp [empty]
  · have fewer := ((eraseDupsBy_sublist mycmp (tokens ',' text)).flatMap (· ++ [','])).length_le
    rw [flatMap_intercalate ',' empty, List.length_append, List.length_singleton] at fewer
    have whole := length_tokens_le ',' text
    omega

/-! ### The commands -/

theorem targets_of_ended (ended : (strtoken bytes pos ',').token = none) : targets bytes pos = [] := by
  unfold targets
  split
  · rfl
  · rename_i t found
    rw [ended] at found
    cases found

theorem targets_of_token (found : (strtoken bytes pos ',').token = some t) :
    targets bytes pos = textAt (strtoken bytes pos ',').bytes t :: targets
      (strtoken bytes pos ',').bytes (strtoken bytes pos ',').save := by
  rw [targets]
  split
  · rename_i ended
    rw [ended] at found
    cases found
  · rename_i t' found'
    rw [found'] at found
    cases found
    rfl

theorem targets_eq_tokens (bytes : Text) (pos : Nat) : targets bytes (some pos) = tokens ',' (textAt bytes pos) := by
  have takes := strtoken_takes bytes pos (show ',' ≠ nul by decide)
  generalize same : strtoken bytes (some pos) ',' = taken at takes
  generalize tokens ',' (textAt bytes pos) = list at takes
  induction list generalizing bytes pos taken with
  | nil =>
    cases takes with
    | ended => rw [targets_of_ended (by rw [same])]
  | cons item list ih =>
    cases takes with
    | last t is => rw [targets_of_token (t := t) (by rw [same]), same, is, targets_of_ended rfl]
    | cut t stop here is width later =>
      have behind : textAt (bytes.set stop nul) (stop + 1) = textAt bytes (stop + 1) :=
        textAt_set_before nul (Nat.lt_succ_self stop)
      have takes' := strtoken_takes (bytes.set stop nul) (stop + 1) (show ',' ≠ nul by decide)
      rw [behind, later] at takes'
      rw [targets_of_token (t := t) (by rw [same]), same, is]
      exact congrArg _ (ih (bytes.set stop nul) (stop + 1) _ rfl takes')

/-- Whatever list `canonize` is given, it returns the first of every class of targets that `mycmp` does not tell apart, and
a command that walks them comes to each once. -/
theorem canonize_firsts (buffer : Text) (array : cbuf ≠ []) :
    textAt (canonize buffer cbuf) 0 = [','].intercalate ((tokens ',' (textAt buffer 0)).eraseDupsBy mycmp) ∧
      (textAt (canonize buffer cbuf) 0).length ≤ (textAt buffer 0).length ∧
      ((textAt buffer 0).length < cbuf.length → (canonize buffer cbuf).length = cbuf.length) ∧
      (∀ again, again ≠ [] → textAt (canonize (canonize buffer cbuf) again) 0 = textAt (canonize buffer cbuf) 0) ∧
      targets (canonize buffer cbuf) (some 0) = (tokens ',' (textAt buffer 0)).eraseDupsBy mycmp ∧
      Distinct mycmp (targets (canonize buffer cbuf) (some 0)) := by
  have holds := canonize_holds buffer array
  have walk : targets (canonize buffer cbuf) (some 0) = (tokens ',' (textAt buffer 0)).eraseDupsBy mycmp := by
    rw [targets_eq_tokens, holds.tokens_eq]
  have shorter := length_firsts_le (textAt buffer 0)
  refine ⟨holds.textAt_eq, holds.textAt_eq ▸ shorter, ?_, ?_, walk, walk ▸ distinct_eraseDupsBy mycmp _⟩
  · intro room
    have sized := holds.sized
    omega
  · intro again other
    rw [(canonize_holds (canonize buffer cbuf) other).textAt_eq, holds.tokens_eq, eraseDupsBy_eraseDupsBy, holds.textAt_eq]

theorem canonize_firsts_nicks :
    let cbuf := List.replicate 8192 nul
    let buffer := "bob,,alice,BOB,al,alice".toList ++ [nul]
    textAt (canonize buffer cbuf) 0 = [','].intercalate ((tokens ',' (textAt buffer 0)).eraseDupsBy mycmp) ∧
      (textAt (canonize buffer cbuf) 0).length ≤ (textAt buffer 0).length ∧
      ((textAt buffer 0).length < cbuf.length → (canonize buffer cbuf).length = cbuf.length) ∧
      (∀ again, again ≠ [] → textAt (canonize (canonize buffer cbuf) again) 0 = textAt (canonize buffer cbuf) 0) ∧
      targets (canonize buffer cbuf) (some 0) = (tokens ',' (textAt buffer 0)).eraseDupsBy mycmp ∧
      Distinct mycmp (targets (canonize buffer cbuf) (some 0)) := by
  intro cbuf buffer
  exact canonize_firsts buffer (List.cons_ne_nil nul _)

example : (tokens ',' "bob,,alice,BOB,al,alice".toList).eraseDupsBy mycmp = ["bob".toList, "alice".toList, "al".toList] := by
  decide +kernel

end SolidIrcd.Canonize
