import Mathlib.Data.Char
import Mathlib.Data.List.Find
import Mathlib.Data.List.Nodup
import SolidIrcd.Parse.Msgtab

/-! The command tree of `parse.c`: how `init_tree_parse` builds it from the message table,
and that `tree_parse` finds in it what a search of the table finds. -/

namespace SolidIrcd.Parse

open Scan (Text)
open Function (update)

/-- `final` of a node: NULL, the mark `(void *) 1`, or what is left of a command. -/
inductive Final where
  | null
  | here
  | rest (text : Text)

inductive MessageTree where
  | node (final : Final) (msg : Option Message) (pointers : Char → Option MessageTree)

/-- `strcmp`, which sorts the table. -/
def strcmpLe : Text → Text → Bool
  | [], _ => true
  | _ :: _, [] => false
  | c :: first, d :: second => if c = d then strcmpLe first second else c < d

def mcmp (m1 m2 : Message) : Bool := strcmpLe m1.cmd m2.cmd

/-- `'A'` to `'Z'`. -/
def letters : List Char := "ABCDEFGHIJKLMNOPQRSTUVWXYZ".toList

/-- The entry a pointer shows starts with the prefix. -/
def heads (pre : Text) : List Message → Bool
  | [] => false
  | mptr :: _ => pre.isPrefixOf mptr.cmd

/-- The `for` of `do_msg_tree`. All pointers are NULL before it. -/
def forLetters (doMsgTree : Text → List Message → Option (MessageTree × List Message)) (pre : Text) :
    List Char → (Char → Option MessageTree) → List Message → Option ((Char → Option MessageTree) × List Message)
  | [], pointers, mptr => some (pointers, mptr)
  | _ :: _, _, [] => none
  | c :: letters, pointers, head :: next =>
    if head.cmd[pre.length]? = some c then
      match doMsgTree (pre ++ [c]) (head :: next) with
      | none => none
      | some (mtree1, mptr) =>
        if heads pre mptr then forLetters doMsgTree pre letters (update pointers c (some mtree1)) mptr
        else some (update pointers c (some mtree1), mptr)
    else forLetters doMsgTree pre letters pointers (head :: next)

/-- `do_msg_tree`, with what is left of the work buffer of its caller for the prefix and
its NUL; no result where that does not fit, or where the source gives up. -/
def doMsgTree : (room : Nat) → (pre : Text) → List Message → Option (MessageTree × List Message)
  | 0, _, _ => none
  | _ + 1, _, [] => none
  | room + 1, pre, mptr :: next =>
    if pre.isPrefixOf mptr.cmd then
      if !heads pre next then
        some (.node (.rest (mptr.cmd.drop pre.length)) (some mptr) fun _ => none, next)
      else if mycmp mptr.cmd pre then
        (forLetters (doMsgTree room) pre letters (fun _ => none) next).map fun (pointers, left) =>
          (.node .here (some mptr) pointers, left)
      else
        (forLetters (doMsgTree room) pre letters (fun _ => none) (mptr :: next)).map fun (pointers, left) =>
          (.node .null none pointers, left)
    else none

def newprefSize : Nat := 64

/-- `init_tree_parse`; it exits when an entry is left. -/
def initTreeParse (mptr : List Message) : Option MessageTree :=
  match doMsgTree newprefSize [] (mptr.mergeSort mcmp) with
  | some (tree, []) => some tree
  | _ => none

/-- `r &= 0xdf`. -/
def clearCase (r : Char) : Char := if r.toNat / 32 % 2 = 1 then Char.ofNat (r.toNat - 32) else r

/-- `tree_parse` from a node on. -/
def MessageTree.treeParse : MessageTree → Text → Option Message
  | _, [] => none
  | .node _ _ pointers, r :: cmd =>
    let r := clearCase r
    if r < 'A' ∨ 'Z' < r then none
    else
      match pointers r with
      | none => none
      | some (.node .here msg pointers) =>
        if cmd = [] then msg else treeParse (.node .here msg pointers) cmd
      | some (.node (.rest final) msg pointers) =>
        if mycmp final cmd then msg else treeParse (.node (.rest final) msg pointers) cmd
      | some (.node .null msg pointers) => treeParse (.node .null msg pointers) cmd

/-- The end of a turn of `tree_parse`, at the node it has come to, and the turns behind it. -/
def MessageTree.settle (tree : MessageTree) (cmd : Text) : Option Message :=
  match tree with
  | .node .here msg _ => if cmd = [] then msg else tree.treeParse cmd
  | .node (.rest final) msg _ => if mycmp final cmd then msg else tree.treeParse cmd
  | .node .null _ _ => tree.treeParse cmd

theorem treeParse_cons (final : Final) (msg : Option Message) (pointers : Char → Option MessageTree) (r : Char) (cmd : Text) :
    (MessageTree.node final msg pointers).treeParse (r :: cmd) =
      if clearCase r < 'A' ∨ 'Z' < clearCase r then none else (pointers (clearCase r)).bind (·.settle cmd) := by
  rw [MessageTree.treeParse]
  split
  · rfl
  · split <;> simp_all [MessageTree.settle]

theorem mem_letters : c ∈ letters ↔ 65 ≤ c.toNat ∧ c.toNat ≤ 90 := by
  have codes : letters.map Char.toNat = List.range' 65 26 := by decide
  have member : c ∈ letters ↔ c.toNat ∈ letters.map Char.toNat := by
    rw [List.mem_map]
    exact ⟨fun inside => ⟨c, inside, rfl⟩, fun ⟨d, inside, same⟩ => Char.toNat_inj.mp same ▸ inside⟩
  rw [member, codes, List.mem_range'_1]
  omega

theorem toUpper_of_letter (letter : c ∈ letters) : toUpper c = c := by
  obtain ⟨low, high⟩ := mem_letters.mp letter
  rw [← Char.toNat_inj, toNat_toUpper, if_neg (by omega)]

theorem toNat_clearCase (r : Char) :
    (clearCase r).toNat = if r.toNat / 32 % 2 = 1 then r.toNat - 32 else r.toNat := by
  unfold clearCase
  split
  next odd =>
    have valid : (r.toNat - 32).isValidChar := by
      have bounds : r.toNat.isValidChar := r.valid
      simp only [Nat.isValidChar] at bounds ⊢
      omega
    rw [Char.ofNat, dif_pos valid]
    rfl
  next => rfl

theorem clearCase_lt : clearCase r < 'A' ∨ 'Z' < clearCase r ↔ toUpper r ∉ letters := by
  have low : clearCase r < 'A' ↔ (clearCase r).toNat < 65 := UInt32.lt_iff_toNat_lt
  have high : 'Z' < clearCase r ↔ 90 < (clearCase r).toNat := UInt32.lt_iff_toNat_lt
  rw [low, high, mem_letters, toNat_clearCase, toNat_toUpper]
  split <;> split <;> omega

/-- Of a letter both ways of raising the case make the same. -/
theorem clearCase_eq (letter : toUpper r ∈ letters) : clearCase r = toUpper r := by
  rw [mem_letters, toNat_toUpper] at letter
  rw [← Char.toNat_inj, toNat_clearCase, toNat_toUpper]
  split at letter <;> split <;> omega

section Blocks

variable {α κ : Type} [LinearOrder κ] {key : α → κ} {c : κ}

/-- In a list sorted by a key the elements of the least key come first. -/
private theorem lt_of_mem_dropWhile {l : List α} (sorted : l.Pairwise (key · ≤ key ·)) (least : ∀ x ∈ l, c ≤ key x) :
    ∀ x ∈ l.dropWhile (key · == c), c < key x := by
  induction l with
  | nil => simp
  | cons a l ih =>
    obtain ⟨first, rest⟩ := List.pairwise_cons.mp sorted
    by_cases here : key a = c
    · simpa [here] using ih rest fun x member => least x (List.mem_cons_of_mem _ member)
    · have above : c < key a := lt_of_le_of_ne (least a (List.mem_cons_self ..)) (Ne.symm here)
      intro x member
      rw [List.dropWhile_cons, if_neg (by simpa using here)] at member
      rcases List.mem_cons.mp member with rfl | later
      · exact above
      · exact lt_of_lt_of_le above (first x later)

end Blocks

/-- The letter that a command has behind a prefix of that length. -/
def letterAt (length : Nat) (message : Message) : Char := message.cmd.getD length Scan.nul

/-- What `do_msg_tree` is given: commands of capital letters that all have the prefix, in order. -/
structure Block (pre : Text) (own : List Message) : Prop where
  under : ∀ message ∈ own, pre <+: message.cmd
  capital : ∀ message ∈ own, ∀ c ∈ message.cmd, c ∈ letters
  ordered : own.Pairwise fun first second => strcmpLe first.cmd second.cmd = true ∧ first.cmd ≠ second.cmd

/-- A node answers for its commands. -/
def Serves (tree : MessageTree) (pre : Text) (own : List Message) : Prop :=
  ∀ word, tree.settle word = own.find? fun message => mycmp message.cmd (pre ++ word)

theorem strcmpLe_append (pre first second : Text) : strcmpLe (pre ++ first) (pre ++ second) = strcmpLe first second := by
  induction pre with
  | nil => rfl
  | cons c pre ih => simpa [strcmpLe] using ih

theorem Block.sublist (block : Block pre own) (part : own'.Sublist own) : Block pre own' :=
  ⟨fun message member => block.under message (part.subset member),
    fun message member => block.capital message (part.subset member), block.ordered.sublist part⟩

/-- Only the first command can be the prefix itself. -/
theorem Block.longer (block : Block pre (first :: own)) (member : message ∈ own) : pre.length < message.cmd.length := by
  obtain ⟨before, -⟩ := List.pairwise_cons.mp block.ordered
  obtain ⟨le, ne⟩ := before message member
  obtain ⟨rest, same⟩ := block.under message (List.mem_cons_of_mem _ member)
  obtain ⟨rest', same'⟩ := block.under first (List.mem_cons_self ..)
  rw [← same, ← same', strcmpLe_append] at le
  cases rest with
  | nil =>
    cases rest' with
    | nil => exact absurd (same'.symm.trans same) ne
    | cons c rest' => simp [strcmpLe] at le
  | cons c rest =>
    rw [← same, List.length_append, List.length_cons]
    omega

theorem under_letter (under : pre <+: message.cmd) (longer : pre.length < message.cmd.length) :
    message.cmd = pre ++ letterAt pre.length message :: message.cmd.drop (pre.length + 1) := by
  obtain ⟨rest, same⟩ := under
  rw [letterAt, ← same]
  cases rest with
  | nil =>
    rw [← same, List.append_nil] at longer
    omega
  | cons c rest => simp

theorem letterAt_mem (block : Block pre own) (longer : ∀ message ∈ own, pre.length < message.cmd.length)
    (member : message ∈ own) : letterAt pre.length message ∈ letters := by
  apply block.capital message member
  rw [under_letter (block.under message member) (longer message member)]
  simp

theorem Block.letters_ordered (block : Block pre own) (longer : ∀ message ∈ own, pre.length < message.cmd.length) :
    own.Pairwise (letterAt pre.length · ≤ letterAt pre.length ·) := by
  apply block.ordered.imp_of_mem
  intro first second inFirst inSecond before
  have le := before.1
  rw [under_letter (block.under first inFirst) (longer first inFirst),
    under_letter (block.under second inSecond) (longer second inSecond), strcmpLe_append] at le
  by_cases same : letterAt pre.length first = letterAt pre.length second
  · exact le_of_eq same
  · simp only [strcmpLe, same, if_false, decide_eq_true_eq] at le
    exact le_of_lt le

/-- A letter's pointer is NULL, or its node answers for the commands that go on with it. -/
def Filled (pre : Text) (own : List Message) (d : Char) : Option MessageTree → Prop
  | none => ∀ message ∈ own, letterAt pre.length message ≠ d
  | some tree => Serves tree (pre ++ [d]) (own.filter (letterAt pre.length · == d))

theorem heads_extended (outside : heads pre others = false) (c : Char) : heads (pre ++ [c]) others = false := by
  cases others with
  | nil => rfl
  | cons first others =>
    simp only [heads, Bool.eq_false_iff, ne_eq, List.isPrefixOf_iff_prefix] at outside ⊢
    exact fun longer => outside ((List.prefix_append ..).trans longer)

/-- Commands whose next letter comes after this one are no business of its node. -/
theorem heads_later (block : Block pre own) (longer : ∀ message ∈ own, pre.length < message.cmd.length)
    (above : ∀ message ∈ own, c < letterAt pre.length message) (outside : heads pre others = false) :
    heads (pre ++ [c]) (own ++ others) = false := by
  cases own with
  | nil => exact heads_extended outside c
  | cons first own =>
    have member : first ∈ first :: own := List.mem_cons_self ..
    simp only [heads, List.cons_append, Bool.eq_false_iff, ne_eq, List.isPrefixOf_iff_prefix]
    rintro ⟨rest, same⟩
    rw [under_letter (block.under first member) (longer first member), List.append_assoc,
      List.append_cancel_left_eq] at same
    have equal : c = letterAt pre.length first := (List.cons.inj same).1
    exact absurd (equal ▸ above first member) (lt_irrefl _)

theorem Block.next (block : Block pre own) (longer : ∀ message ∈ own, pre.length < message.cmd.length)
    (letter : ∀ message ∈ own, letterAt pre.length message = c) : Block (pre ++ [c]) own where
  under := by
    intro message member
    refine ⟨message.cmd.drop (pre.length + 1), ?_⟩
    conv_rhs => rw [under_letter (block.under message member) (longer message member), letter message member]
    simp
  capital := block.capital
  ordered := block.ordered

theorem Filled.behind (filled : Filled pre left d pointer) (letter : ∀ message ∈ front, letterAt pre.length message = c)
    (other : d ≠ c) : Filled pre (front ++ left) d pointer := by
  cases pointer with
  | none =>
    intro message member
    rcases List.mem_append.mp member with before | behind
    · exact fun same => other (same.symm.trans (letter message before))
    · exact filled message behind
  | some tree =>
    have gone : front.filter (letterAt pre.length · == d) = [] := by
      rw [List.filter_eq_nil_iff]
      intro message member
      simpa [letter message member] using Ne.symm other
    rw [Filled, List.filter_append, gone, List.nil_append]
    exact filled

theorem Serves.filled (serves : Serves tree (pre ++ [c]) front) (letter : ∀ message ∈ front, letterAt pre.length message = c)
    (above : ∀ message ∈ left, c < letterAt pre.length message) : Filled pre (front ++ left) c (some tree) := by
  have kept : front.filter (letterAt pre.length · == c) = front :=
    List.filter_eq_self.mpr fun message member => by simp [letter message member]
  have gone : left.filter (letterAt pre.length · == c) = [] := by
    rw [List.filter_eq_nil_iff]
    intro message member
    simpa using ne_of_gt (above message member)
  rw [Filled, List.filter_append, kept, gone, List.append_nil]
  exact serves

/-- The loop hands every letter its commands and stops behind the last of them. -/
theorem forLetters_serves {child : Text → List Message → Option (MessageTree × List Message)}
    (outside : heads pre others = false)
    (serves : ∀ c own others, own ≠ [] → Block (pre ++ [c]) own → (∀ message ∈ own, message.cmd.length < limit) →
      heads (pre ++ [c]) others = false →
        ∃ tree, child (pre ++ [c]) (own ++ others) = some (tree, others) ∧ Serves tree (pre ++ [c]) own)
    (alphabet : List Char) (ascending : alphabet.Pairwise (· < ·)) (pointers : Char → Option MessageTree)
    (own : List Message) (nonempty : own ≠ []) (block : Block pre own)
    (longer : ∀ message ∈ own, pre.length < message.cmd.length) (short : ∀ message ∈ own, message.cmd.length < limit)
    (inside : ∀ message ∈ own, letterAt pre.length message ∈ alphabet) (free : ∀ d ∈ alphabet, pointers d = none) :
    ∃ pointers', forLetters child pre alphabet pointers (own ++ others) = some (pointers', others) ∧
      (∀ d ∉ alphabet, pointers' d = pointers d) ∧ ∀ d ∈ alphabet, Filled pre own d (pointers' d) := by
  induction alphabet generalizing pointers own with
  | nil =>
    obtain ⟨first, rest, rfl⟩ := List.exists_cons_of_ne_nil nonempty
    exact absurd (inside first (List.mem_cons_self ..)) (List.not_mem_nil)
  | cons c alphabet ih =>
    obtain ⟨above, ascending'⟩ := List.pairwise_cons.mp ascending
    have notLater : c ∉ alphabet := fun member => lt_irrefl _ (above c member)
    have least : ∀ message ∈ own, c ≤ letterAt pre.length message := by
      intro message member
      rcases List.mem_cons.mp (inside message member) with same | later
      · exact le_of_eq same.symm
      · exact le_of_lt (above _ later)
    have sorted := block.letters_ordered longer
    obtain ⟨first, rest, rfl⟩ := List.exists_cons_of_ne_nil nonempty
    have firstMember : first ∈ first :: rest := List.mem_cons_self ..
    have letter : first.cmd[pre.length]? = some (letterAt pre.length first) := by
      rw [letterAt, List.getD_eq_getElem?_getD, List.getElem?_eq_getElem (longer first firstMember)]
      rfl
    rw [List.cons_append, forLetters, letter]
    by_cases here : letterAt pre.length first = c
    · have whole := List.takeWhile_append_dropWhile (p := (letterAt pre.length · == c)) (l := first :: rest)
      have later := lt_of_mem_dropWhile sorted least
      have now : ∀ message ∈ (first :: rest).takeWhile (letterAt pre.length · == c), letterAt pre.length message = c := by
        intro message member
        simpa using List.mem_takeWhile_imp member
      have some : (first :: rest).takeWhile (letterAt pre.length · == c) ≠ [] := by simp [here]
      rw [if_pos (by rw [here]), ← List.cons_append]
      generalize (first :: rest).takeWhile (letterAt pre.length · == c) = front at whole now some
      generalize (first :: rest).dropWhile (letterAt pre.length · == c) = left at whole later
      rw [← whole] at block longer short inside ⊢
      have inFront : front ⊆ front ++ left := List.subset_append_left ..
      have inLeft : left ⊆ front ++ left := List.subset_append_right ..
      have blockLeft : Block pre left := block.sublist (List.sublist_append_right ..)
      have longerLeft : ∀ message ∈ left, pre.length < message.cmd.length := fun m member => longer m (inLeft member)
      have blockFront : Block (pre ++ [c]) front :=
        (block.sublist (List.sublist_append_left ..)).next (fun m member => longer m (inFront member)) now
      obtain ⟨tree, built, answers⟩ := serves c front (left ++ others) some blockFront
        (fun m member => short m (inFront member)) (heads_later blockLeft longerLeft later outside)
      rw [List.append_assoc, built]
      simp only
      cases left with
      | nil =>
        rw [List.nil_append, outside]
        refine ⟨_, rfl, ?_, ?_⟩
        · intro d notMember
          exact Function.update_of_ne (List.ne_of_not_mem_cons notMember) _ _
        · intro d member
          by_cases same : d = c
          · subst same
            rw [Function.update_self]
            exact answers.filled now later
          · rw [Function.update_of_ne same, free d member]
            exact Filled.behind (by simp [Filled]) now same
      | cons next left =>
        have goesOn : heads pre (next :: left ++ others) = true := by
          simpa [heads] using blockLeft.under next (List.mem_cons_self ..)
        have inside' : ∀ message ∈ next :: left, letterAt pre.length message ∈ alphabet := by
          intro message member
          exact (List.mem_cons.mp (inside message (inLeft member))).resolve_left (ne_of_gt (later message member))
        have free' : ∀ d ∈ alphabet, update pointers c (.some tree) d = none := by
          intro d member
          rw [Function.update_of_ne (ne_of_gt (above d member))]
          exact free d (List.mem_cons_of_mem _ member)
        obtain ⟨pointers', looped, kept, filled⟩ := ih ascending' (update pointers c (.some tree)) (next :: left)
          (by simp) blockLeft longerLeft (fun m member => short m (inLeft member)) inside' free'
        rw [goesOn]
        refine ⟨pointers', looped, ?_, ?_⟩
        · intro d notMember
          rw [kept d (List.not_mem_of_not_mem_cons notMember)]
          exact Function.update_of_ne (List.ne_of_not_mem_cons notMember) _ _
        · intro d member
          by_cases same : d = c
          · subst same
            rw [kept d notLater, Function.update_self]
            exact answers.filled now later
          · exact (filled d ((List.mem_cons.mp member).resolve_left same)).behind now same
    · have start : c < letterAt pre.length first := lt_of_le_of_ne (least first firstMember) (Ne.symm here)
      have later : ∀ message ∈ first :: rest, c < letterAt pre.length message := by
        intro message member
        rcases List.mem_cons.mp member with rfl | behind
        · exact start
        · exact lt_of_lt_of_le start ((List.pairwise_cons.mp sorted).1 message behind)
      have inside' : ∀ message ∈ first :: rest, letterAt pre.length message ∈ alphabet := by
        intro message member
        exact (List.mem_cons.mp (inside message member)).resolve_left (ne_of_gt (later message member))
      obtain ⟨pointers', looped, kept, filled⟩ := ih ascending' pointers (first :: rest) nonempty block longer short inside'
        fun d member => free d (List.mem_cons_of_mem _ member)
      rw [if_neg (by simpa using here)]
      refine ⟨pointers', looped, fun d notMember => kept d (List.not_mem_of_not_mem_cons notMember), ?_⟩
      intro d member
      rcases List.mem_cons.mp member with rfl | behind
      · rw [kept d notLater, free d member]
        exact fun message member => ne_of_gt (later message member)
      · exact filled d behind

theorem letters_ascending : letters.Pairwise (· < ·) := by decide

/-- At a node whose pointers are right, the rest of the word is looked up. -/
theorem treeParse_filled {pointers : Char → Option MessageTree} (block : Block pre own)
    (longer : ∀ message ∈ own, pre.length < message.cmd.length) (filled : ∀ d ∈ letters, Filled pre own d (pointers d))
    (final : Final) (msg : Option Message) (r : Char) (word : Text) :
    (MessageTree.node final msg pointers).treeParse (r :: word) =
      own.find? fun message => mycmp message.cmd (pre ++ r :: word) := by
  have split (message : Message) (member : message ∈ own) (c : Char) : mycmp message.cmd (pre ++ c :: word) = true ↔
      letterAt pre.length message = toUpper c ∧ mycmp (message.cmd.drop (pre.length + 1)) word = true := by
    have upper := toUpper_of_letter (letterAt_mem block longer member)
    rw [mycmp_iff, mycmp_iff]
    conv_lhs => rw [under_letter (block.under message member) (longer message member)]
    simp [upper]
  rw [treeParse_cons]
  by_cases letter : toUpper r ∈ letters
  · rw [if_neg (by rw [clearCase_lt]; exact not_not_intro letter), clearCase_eq letter]
    have here := filled (toUpper r) letter
    cases pointer : pointers (toUpper r) with
    | none =>
      rw [pointer] at here
      refine (List.find?_eq_none.mpr ?_).symm
      intro message member found
      exact here message member ((split message member r).mp found).1
    | some tree =>
      rw [pointer] at here
      rw [Option.bind_some, here word, List.find?_filter]
      apply List.find?_congr
      intro message member
      rw [List.append_assoc, List.singleton_append, Bool.eq_iff_iff, decide_eq_true_iff, beq_iff_eq, split message member,
        split message member, toUpper_of_letter letter]
      exact ⟨fun found => found.2, fun found => ⟨found.1, found⟩⟩
  · rw [if_pos (clearCase_lt.mpr letter)]
    refine (List.find?_eq_none.mpr ?_).symm
    intro message member found
    exact letter (((split message member r).mp found).1 ▸ letterAt_mem block longer member)

/-- Nothing longer than a prefix is the prefix. -/
theorem find?_prefix {own : List Message} {pre : Text} (longer : ∀ message ∈ own, pre.length < message.cmd.length) :
    own.find? (fun message => mycmp message.cmd pre) = none := by
  rw [List.find?_eq_none]
  intro message member found
  have same := congrArg List.length (mycmp_iff.mp found)
  have more := longer message member
  simp only [List.length_map] at same
  omega

/-- One command alone: what is left of it decides. -/
theorem serves_final (under : pre <+: message.cmd) :
    Serves (.node (.rest (message.cmd.drop pre.length)) (some message) fun _ => none) pre [message] := by
  intro word
  obtain ⟨rest, same⟩ := under
  have match_ : mycmp message.cmd (pre ++ word) = mycmp rest word := by
    rw [← same, Bool.eq_iff_iff, mycmp_iff, mycmp_iff, List.map_append, List.map_append, List.append_cancel_left_eq]
  have lost : (MessageTree.node (.rest rest) (some message) fun _ => none).treeParse word = none := by
    cases word with
    | nil => rfl
    | cons r word =>
      rw [treeParse_cons]
      split <;> rfl
  have dropped : message.cmd.drop pre.length = rest := by rw [← same, List.drop_left]
  rw [MessageTree.settle.eq_def, dropped]
  simp only [lost, List.find?_cons, match_, List.find?_nil]
  cases mycmp rest word <;> rfl

theorem serves_null {pointers : Char → Option MessageTree} (block : Block pre own)
    (longer : ∀ message ∈ own, pre.length < message.cmd.length) (filled : ∀ d ∈ letters, Filled pre own d (pointers d)) :
    Serves (.node .null none pointers) pre own := by
  intro word
  cases word with
  | nil =>
    rw [List.append_nil, find?_prefix longer]
    rfl
  | cons r word => exact treeParse_filled block longer filled .null none r word

theorem serves_here {pointers : Char → Option MessageTree} (block : Block message.cmd (message :: own))
    (filled : ∀ d ∈ letters, Filled message.cmd own d (pointers d)) :
    Serves (.node .here (some message) pointers) message.cmd (message :: own) := by
  intro word
  cases word with
  | nil => simp [MessageTree.settle]
  | cons r word =>
    have other : mycmp message.cmd (message.cmd ++ r :: word) = false := by
      rw [Bool.eq_false_iff]
      intro found
      have same := congrArg List.length (mycmp_iff.mp found)
      simp at same
    rw [List.find?_cons, other]
    exact treeParse_filled (block.sublist (List.sublist_cons_self ..)) (fun _ member => block.longer member) filled
      .here (some message) r word

/-- `do_msg_tree` takes the commands of its prefix and makes a node that answers for them. -/
theorem doMsgTree_serves (room : Nat) (pre : Text) (own others : List Message) (nonempty : own ≠ [])
    (block : Block pre own) (short : ∀ message ∈ own, message.cmd.length < pre.length + room)
    (outside : heads pre others = false) :
    ∃ tree, doMsgTree room pre (own ++ others) = some (tree, others) ∧ Serves tree pre own ∧
      (own.length ≠ 1 → (∀ message ∈ own, message.cmd ≠ pre) → tree.settle = tree.treeParse) := by
  induction room generalizing pre own others with
  | zero =>
    obtain ⟨first, rest, rfl⟩ := List.exists_cons_of_ne_nil nonempty
    have bound := (block.under first (List.mem_cons_self ..)).length_le
    have less := short first (List.mem_cons_self ..)
    omega
  | succ room ih =>
    obtain ⟨first, rest, rfl⟩ := List.exists_cons_of_ne_nil nonempty
    have firstMember : first ∈ first :: rest := List.mem_cons_self ..
    have under : pre.isPrefixOf first.cmd = true := List.isPrefixOf_iff_prefix.mpr (block.under first firstMember)
    have child (c : Char) (own others : List Message) (some : own ≠ []) (block : Block (pre ++ [c]) own)
        (short : ∀ message ∈ own, message.cmd.length < pre.length + (room + 1))
          (outside : heads (pre ++ [c]) others = false) :
        ∃ tree, doMsgTree room (pre ++ [c]) (own ++ others) = .some (tree, others) ∧ Serves tree (pre ++ [c]) own := by
      obtain ⟨tree, built, serves, -⟩ := ih (pre ++ [c]) own others some block (fun message member => by
        have less := short message member
        simp only [List.length_append, List.length_singleton]
        omega) outside
      exact ⟨tree, built, serves⟩
    rw [List.cons_append, doMsgTree, if_pos under]
    cases rest with
    | nil =>
      rw [List.nil_append, outside]
      exact ⟨_, rfl, serves_final (block.under first firstMember), fun several => absurd rfl several⟩
    | cons second rest =>
      have more : heads pre (second :: rest ++ others) = true := by
        simpa [heads] using block.under second (by simp)
      have blockRest : Block pre (second :: rest) := block.sublist (List.sublist_cons_self ..)
      have longerRest : ∀ message ∈ second :: rest, pre.length < message.cmd.length := fun _ member => block.longer member
      have reach := forLetters_serves outside child letters letters_ascending fun _ => none
      rw [more]
      by_cases same : first.cmd = pre
      · obtain ⟨pointers, looped, -, filled⟩ := reach (second :: rest) (List.cons_ne_nil _ _) blockRest longerRest
          (fun message member => short message (List.mem_cons_of_mem _ member))
          (fun message member => letterAt_mem blockRest longerRest member) fun _ _ => rfl
        subst same
        rw [looped, mycmp_refl]
        exact ⟨_, rfl, serves_here block filled, fun _ others => absurd rfl (others first firstMember)⟩
      · have longer : ∀ message ∈ first :: second :: rest, pre.length < message.cmd.length := by
          intro message member
          rcases List.mem_cons.mp member with rfl | behind
          · have prefixed := block.under message firstMember
            exact Nat.lt_of_le_of_ne prefixed.length_le fun size => same (prefixed.eq_of_length size).symm
          · exact longerRest message behind
        have differs : mycmp first.cmd pre = false := by
          rw [Bool.eq_false_iff]
          intro found
          have size := congrArg List.length (mycmp_iff.mp found)
          have more := longer first firstMember
          simp only [List.length_map] at size
          omega
        obtain ⟨pointers, looped, -, filled⟩ := reach (first :: second :: rest) (List.cons_ne_nil _ _) block longer short
          (fun message member => letterAt_mem block longer member) fun _ _ => rfl
        rw [differs, ← List.cons_append, looped]
        exact ⟨_, rfl, serves_null block longer filled, fun _ _ => rfl⟩

theorem strcmpLe_total (first second : Text) : (strcmpLe first second || strcmpLe second first) = true := by
  induction first generalizing second with
  | nil => simp [strcmpLe]
  | cons c first ih =>
    cases second with
    | nil => simp [strcmpLe]
    | cons d second =>
      by_cases same : c = d
      · simp [strcmpLe, same, ih second]
      · simp [strcmpLe, same, Ne.symm same]

theorem strcmpLe_trans (first second third : Text) (left : strcmpLe first second = true)
    (right : strcmpLe second third = true) : strcmpLe first third = true := by
  induction first generalizing second third with
  | nil => rfl
  | cons c first ih =>
    cases second with
    | nil => simp [strcmpLe] at left
    | cons d second =>
      cases third with
      | nil => simp [strcmpLe] at right
      | cons e third =>
        simp only [strcmpLe] at left right ⊢
        by_cases same : c = d
        · by_cases same' : d = e
          · simp only [same, same', if_true] at left right ⊢
            exact ih second third left right
          · simpa [same, same'] using right
        · by_cases same' : d = e
          · subst same'
            simpa [same] using left
          · have below : c < d := by simpa [same] using left
            have below' : d < e := by simpa [same'] using right
            simp [lt_trans below below', ne_of_lt (lt_trans below below')]

/-- A message table: its commands are different words of capital letters, each with its NUL
no longer than the work buffer. -/
structure Table (table : List Message) : Prop where
  several : 2 ≤ table.length
  distinct : (table.map Message.cmd).Nodup
  named : ∀ message ∈ table, message.cmd ≠ []
  capital : ∀ message ∈ table, ∀ c ∈ message.cmd, c ∈ letters
  short : ∀ message ∈ table, message.cmd.length < newprefSize

theorem Table.find?_perm {sorted : List Message} (wellFormed : Table table) (same : sorted.Perm table) (word : Text) :
    sorted.find? (fun message => mycmp message.cmd word) = table.find? fun message => mycmp message.cmd word := by
  refine List.find?_eq_find?_of_perm same ?_
  rintro first ⟨inFirst, found⟩ second ⟨inSecond, found'⟩
  have first' := same.subset inFirst
  have second' := same.subset inSecond
  have upper (message : Message) (member : message ∈ table) : message.cmd.map toUpper = message.cmd := by
    rw [List.map_congr_left fun c inside => toUpper_of_letter (wellFormed.capital message member c inside)]
    exact List.map_id' _
  apply List.inj_on_of_nodup_map wellFormed.distinct first' second'
  rw [← upper first first', ← upper second second', mycmp_iff.mp found, mycmp_iff.mp found']

/-- Looking up a word in the tree is looking it up in the table. -/
theorem treeParse_initTreeParse (wellFormed : Table table) :
    ∃ tree, initTreeParse table = some tree ∧ ∀ word, tree.treeParse word = treeParse table word := by
  have same := List.mergeSort_perm table mcmp
  have ordered : (table.mergeSort mcmp).Pairwise fun first second => mcmp first second = true :=
    List.pairwise_mergeSort (fun first second third => strcmpLe_trans first.cmd second.cmd third.cmd)
      (fun first second => strcmpLe_total first.cmd second.cmd) table
  have distinct : (table.mergeSort mcmp).Pairwise fun first second => first.cmd ≠ second.cmd :=
    List.pairwise_map.mp ((same.map Message.cmd).nodup_iff.mpr wellFormed.distinct)
  have block : Block [] (table.mergeSort mcmp) :=
    ⟨fun _ _ => List.nil_prefix, fun message member => wellFormed.capital message (same.subset member), ordered.and distinct⟩
  have several : (table.mergeSort mcmp).length = table.length := same.length_eq
  have nonempty : table.mergeSort mcmp ≠ [] := by
    intro none
    rw [none] at several
    have two := wellFormed.several
    simp at several
    omega
  obtain ⟨tree, built, serves, root⟩ := doMsgTree_serves newprefSize [] (table.mergeSort mcmp) [] nonempty block
    (fun message member => by simpa using wellFormed.short message (same.subset member)) rfl
  rw [List.append_nil] at built
  refine ⟨tree, by rw [initTreeParse, built], fun word => ?_⟩
  have two := wellFormed.several
  rw [← root (by omega) fun message member => wellFormed.named message (same.subset member), serves word]
  exact wellFormed.find?_perm same word

/-- A command as one number, which is quicker to compare than a text. -/
private def commandCode (cmd : Text) : Nat := cmd.foldl (fun value c => value * 128 + c.toNat) 0

private theorem msgtab_table : Table msgtab where
  several := by decide +kernel
  distinct := by
    have codes : ((msgtab.map Message.cmd).map commandCode).Nodup := by decide +kernel
    exact codes.of_map
  named := by
    have all : msgtab.all (fun message => message.cmd ≠ []) = true := by decide +kernel
    simpa using List.all_eq_true.mp all
  capital := by
    have all : msgtab.all (fun message => message.cmd.all fun c => 65 ≤ c.toNat && c.toNat ≤ 90) = true := by decide +kernel
    simpa [mem_letters] using all
  short := by
    have all : msgtab.all (fun message => message.cmd.length < newprefSize) = true := by decide +kernel
    simpa using List.all_eq_true.mp all

theorem treeParse_msgtab :
    ∃ tree, initTreeParse msgtab = some tree ∧ ∀ word, tree.treeParse word = treeParse msgtab word :=
  treeParse_initTreeParse msgtab_table

end SolidIrcd.Parse
