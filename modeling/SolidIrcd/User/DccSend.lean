import SolidIrcd.User.Ctcp
import SolidIrcd.User.Dccallow

/-! The filter for offers of files: `check_dccsend` and its place in `m_message` of `s_user.c`,
and the texts for which it stops just the files it is to stop. -/

namespace SolidIrcd.DccSend

open Ctcp
open Dccallow (Link)
open Scan (Text)

def exploits2char : List Text := ["js", "pl", "vb"].map String.toList

def exploits3char : List Text :=
  ["ade", "adp", "asx", "bas", "bat", "chm", "cla", "cmd", "com", "cpl", "crt", "eml", "exe", "hlp", "hta", "inf", "ins",
    "isp", "jse", "lnk", "mdb", "mde", "msc", "msi", "msp", "mst", "ocx", "pcd", "pif", "reg", "scr", "sct", "shb", "shs",
    "url", "vbe", "vbs", "wsc", "wsf", "wsh", "dll", "ini", "mrc", "doc", "xls", "htm", "zip", "rar", "sit"].map String.toList

def exploits4char : List Text := ["html"].map String.toList

def exploits5char : List Text := ["class", "email"].map String.toList

/-- One end of a message. -/
structure Client where
  cptr : Nat
  /-- `IsPerson`. -/
  person : Bool
  anOper : Bool
  /-- `MyConnect`, which is what `MyFludConnect` asks of a user. -/
  myConnect : Bool
  uline : Bool
  dccallow : List Link

/-- `allow_dcc`. -/
def allowDcc (to' from' : Client) : Bool := to'.dccallow.contains ⟨.me, from'.cptr⟩

/-- The loop for `ext`, which goes down from the end and does not look at the first letter. -/
def findExt (filename : Text) : Nat → Option Text
  | 0 => none
  | ext + 1 => if filename[ext + 1]? = some '.' then some (filename.drop (ext + 2)) else findExt filename ext

/-- The list for an extension of this length; none is needed for an empty one. -/
def extensionListed (ext : Text) : Bool :=
  let among (farray : List Text) := farray.any (mycmp · ext)
  match ext.length with
  | 0 => true
  | 2 => among exploits2char
  | 3 => among exploits3char
  | 4 => among exploits4char
  | 5 => among exploits5char
  | _ => false

/-- `filename` up to the next blank. -/
def filenameOf (msg : Text) : Text := ((msg.drop 8).dropWhile (· == ' ')).takeWhile (· != ' ')

/-- What the two notices say of the file. -/
structure Refused where
  tmpext : Text
  tmpfn : Text
  deriving DecidableEq

/-- `check_dccsend`. -/
def checkDccsend (from' to' : Client) (msg : Text) : Option Refused :=
  if from'.cptr = to'.cptr ∨ !from'.person ∨ from'.anOper ∨ !(to'.myConnect && to'.person) then none
  else
    let filename := filenameOf msg
    if filename = [] then none
    else
      match findExt filename filename.length with
      | none => none
      | some ext => if extensionListed ext && !allowDcc to' from' then some ⟨ext, filename.take 127⟩ else none

/-- What else decides about a message to a user: hooks, the limit of targets, +R, floods and silences. -/
structure Others where
  flushed : Bool
  targetLimit : Bool
  nonReg : Bool
  flud : Bool
  silenced : Bool

inductive Outcome where
  /-- `m_message` returns, whatever other targets there are. -/
  | returned
  | dropped
  | refused (file : Refused)
  | delivered
  deriving DecidableEq

/-- What comes of the text, by `check_for_ctcp`. -/
def ctcpOutcome (others : Others) (sptr acptr : Client) (text : Text) : Option Outcome :=
  match checkForCtcp text with
  | .none => none
  | .dccsend dccmsg => if others.flud then some .returned else (checkDccsend sptr acptr dccmsg).map .refused
  | _ => if others.flud then some .returned else none

/-- `m_message` with a user for a target. -/
def mMessage (others : Others) (notice : Bool) (sptr acptr : Client) (text : Text) : Outcome :=
  -- no flood/dcc/whatever checks, just send
  if acptr.uline then .delivered
  else if sptr.myConnect && sptr.person && others.flushed then .returned
  else if sptr.myConnect && sptr.person && others.targetLimit then .dropped
  else if sptr.uline then .delivered
  else if others.nonReg then .dropped
  else
    match if !notice && acptr.myConnect then ctcpOutcome others sptr acptr text else none with
    | some outcome => outcome
    | none => if others.silenced then .dropped else .delivered

/-! What the filter is for. -/

/-- The extension is on a list, or is empty. -/
def Listed (ext : Text) : Prop := ext = [] ∨ ∃ known ∈ exploits2char ++ exploits3char ++ exploits4char ++ exploits5char, mycmp known ext = true

/-- The name of a file ends in such an extension. -/
def Blocked (name : Text) : Prop := ∃ stem ext, name = stem ++ '.' :: ext ∧ '.' ∉ ext ∧ Listed ext

def Blank (gap : Text) : Prop := ∀ c ∈ gap, c = ' '

/-- The name of the file in the arguments of an offer: what stands between quotes, or the first word. -/
inductive Names : Text → Text → Prop where
  | quoted (name after : Text) (clean : '"' ∉ name) : Names ('"' :: name ++ '"' :: after) name
  | word (name after : Text) (filled : name ≠ []) (plain : name.head? ≠ some '"') (solid : ' ' ∉ name)
      (ends : after = [] ∨ after.head? = some ' ') : Names (name ++ after) name

/-- A section offers a file: DCC SEND, with any blanks between the words. -/
structure Offers (content name : Text) : Prop where
  spelled : ∃ dcc gap send gap' arguments, content = dcc ++ gap ++ send ++ gap' ++ arguments ∧ mycmp "DCC".toList dcc = true ∧
    gap ≠ [] ∧ Blank gap ∧ mycmp "SEND".toList send = true ∧ gap' ≠ [] ∧ Blank gap' ∧ Names arguments name

/-- A file that is to be stopped is offered in the text. -/
def OffersBlocked (text : Text) : Prop := ∃ lead ∈ sections text, ∃ name, Offers lead.content name ∧ Blocked name

/-- Who may not send files to whom: a user who is no operator, to another user of this server who
has not allowed it. -/
structure Guarded (sptr acptr : Client) : Prop where
  apart : sptr.cptr ≠ acptr.cptr
  person : sptr.person = true
  user : sptr.anOper = false ∧ sptr.uline = false
  here : acptr.myConnect = true ∧ acptr.person = true ∧ acptr.uline = false
  unwanted : allowDcc acptr sptr = false

/-- An offer of a file that is to be stopped does not arrive, and nothing else is stopped for that. -/
structure Complete (sptr acptr : Client) (text : Text) : Prop where
  stops : Guarded sptr acptr → OffersBlocked text → ∀ others, mMessage others false sptr acptr text ≠ .delivered
  spares : ¬ OffersBlocked text → ∀ others notice file, mMessage others notice sptr acptr text ≠ .refused file

/-- The text reads `DCC SEND`, with one blank, and then a word that ends in a blocked extension
behind something else. -/
def Plain (onward : Text) : Prop := ∃ send gap stem ext after, onward = send ++ gap ++ stem ++ '.' :: ext ++ after ∧
  mycmp "DCC SEND".toList send = true ∧ Blank gap ∧ stem ≠ [] ∧ ' ' ∉ stem ∧ ' ' ∉ ext ∧ '.' ∉ ext ∧ Listed ext ∧
  (after = [] ∨ after.head? = some ' ')

/-- The first section that is no ACTION stands for the text. -/
structure Legible (text : Text) : Prop where
  /-- What is offered, there or behind it, is offered there in plain words. -/
  plain : OffersBlocked text → ∃ lead, leading text = some lead ∧ Plain lead.onward
  /-- What reads so is an offer, or some other is made. -/
  honest : ∀ lead, leading text = some lead → Plain lead.onward → OffersBlocked text

/-! The loops of `check_dccsend`. -/

/-- There is one last dot. -/
theorem last_dot {stem stem' ext ext' : Text} (same : stem ++ '.' :: ext = stem' ++ '.' :: ext') (clean : '.' ∉ ext)
    (clean' : '.' ∉ ext') : ext = ext' := by
  have found := congrArg (Mask.splitLast '.') same
  rw [Mask.splitLast_join clean, Mask.splitLast_join clean'] at found
  exact (Prod.mk.inj (Option.some.inj found)).2

/-- From an index behind which there is no dot, the loop finds the last one, unless it is the first letter. -/
theorem findExt_iff {filename ext : Text} (index : Nat) (clean : '.' ∉ filename.drop (index + 1)) :
    findExt filename index = some ext ↔ ∃ stem, filename = stem ++ '.' :: ext ∧ stem ≠ [] ∧ '.' ∉ ext := by
  induction index with
  | zero =>
    refine ⟨nofun, ?_⟩
    rintro ⟨stem, rfl, some', -⟩
    obtain ⟨c, stem, rfl⟩ := List.exists_cons_of_ne_nil some'
    exact absurd (List.mem_append_right stem (List.mem_cons_self ..)) clean
  | succ index ih =>
    rw [findExt]
    split
    next dot =>
      obtain ⟨long, dot⟩ := List.getElem?_eq_some_iff.mp dot
      have joined : filename = filename.take (index + 1) ++ '.' :: filename.drop (index + 2) := by
        rw [← dot, ← List.drop_eq_getElem_cons long, List.take_append_drop]
      constructor
      · rintro ⟨⟩
        refine ⟨filename.take (index + 1), joined, ?_, clean⟩
        intro none'
        have lengths := congrArg List.length none'
        simp only [List.length_take, List.length_nil] at lengths
        omega
      · rintro ⟨stem, split', -, free⟩
        exact congrArg some (last_dot (joined.symm.trans split') clean free)
    next other =>
      refine ih fun member => ?_
      by_cases long : index + 1 < filename.length
      · rw [List.drop_eq_getElem_cons long] at member
        obtain here | later := List.mem_cons.mp member
        · exact other (List.getElem?_eq_some_iff.mpr ⟨long, here.symm⟩)
        · exact clean later
      · rw [List.drop_eq_nil_of_le (Nat.le_of_not_lt long)] at member
        cases member

theorem extensionListed_iff (ext : Text) : extensionListed ext = true ↔ Listed ext := by
  have two : ∀ known ∈ exploits2char, known.length = 2 := by decide
  have three : ∀ known ∈ exploits3char, known.length = 3 := by decide
  have four : ∀ known ∈ exploits4char, known.length = 4 := by decide
  have five : ∀ known ∈ exploits5char, known.length = 5 := by decide
  constructor
  · intro listed
    unfold extensionListed at listed
    simp only [Listed, List.mem_append]
    split at listed
    next empty => exact .inl (List.length_eq_zero_iff.mp empty)
    all_goals first
      | cases listed
      | obtain ⟨known, member, same⟩ := List.any_eq_true.mp listed
        exact .inr ⟨known, by tauto, same⟩
  · rintro (rfl | ⟨known, member, same⟩)
    · rfl
    · have length := length_of_mycmp same
      simp only [List.mem_append] at member
      -- every list has extensions of one length
      have among : ∀ farray : List Text, known ∈ farray → farray.any (mycmp · ext) = true :=
        fun farray here => List.any_eq_true.mpr ⟨known, here, same⟩
      obtain ((member | member) | member) | member := member
      · rw [two known member] at length
        simpa only [extensionListed, ← length] using among _ member
      · rw [three known member] at length
        simpa only [extensionListed, ← length] using among _ member
      · rw [four known member] at length
        simpa only [extensionListed, ← length] using among _ member
      · rw [five known member] at length
        simpa only [extensionListed, ← length] using among _ member

/-- The word is what stands behind the blanks, up to a blank or the end. -/
theorem filenameOf_iff {msg name : Text} (some' : name ≠ []) : filenameOf msg = name ↔
    ∃ gap after, msg.drop 8 = gap ++ name ++ after ∧ Blank gap ∧ ' ' ∉ name ∧ (after = [] ∨ after.head? = some ' ') := by
  constructor
  · rintro rfl
    refine ⟨(msg.drop 8).takeWhile (· == ' '), ((msg.drop 8).dropWhile (· == ' ')).dropWhile (· != ' '), ?_, ?_, ?_, ?_⟩
    · rw [filenameOf, List.append_assoc, List.takeWhile_append_dropWhile, List.takeWhile_append_dropWhile]
    · exact fun c member => by simpa using List.mem_takeWhile_imp member
    · exact fun member => by simpa using List.mem_takeWhile_imp member
    · have stop := List.head?_dropWhile_not (· != ' ') ((msg.drop 8).dropWhile (· == ' '))
      cases rest : ((msg.drop 8).dropWhile (· == ' ')).dropWhile (· != ' ') with
      | nil => exact .inl rfl
      | cons c rest' =>
        rw [rest] at stop
        exact .inr (by simpa using stop)
  · rintro ⟨gap, after, joined, blank, solid, ends⟩
    obtain ⟨c, name, rfl⟩ := List.exists_cons_of_ne_nil some'
    have first : c ≠ ' ' := fun same => solid (same ▸ List.mem_cons_self ..)
    have stays : ∀ d ∈ c :: name, (d != ' ') = true := fun d member => bne_iff_ne.mpr fun same => solid (same ▸ member)
    have stop : after.takeWhile (· != ' ') = [] := by
      obtain rfl | head := ends
      · rfl
      · obtain ⟨rest, rfl⟩ := List.head?_eq_some_iff.mp head
        simp
    rw [filenameOf, joined, List.append_assoc,
      List.dropWhile_append_of_pos fun d member => beq_iff_eq.mpr (blank d member), List.cons_append,
      List.dropWhile_cons_of_neg (by simpa using first), ← List.cons_append, List.takeWhile_append_of_pos stays, stop,
      List.append_nil]

/-- A literal in two parts. -/
theorem starts_append_left (first second text : Text) :
    starts (first ++ second) text = (starts first text && starts second (text.drop first.length)) := by
  unfold starts
  rw [Bool.eq_iff_iff, Bool.and_eq_true, mycmp_iff, mycmp_iff, mycmp_iff, List.length_append, List.take_add, List.map_append,
    List.map_append]
  constructor
  · intro same
    refine List.append_inj same ?_
    have lengths := congrArg List.length same
    simp only [List.length_append, List.length_map, List.length_take, List.length_drop] at lengths ⊢
    omega
  · rintro ⟨one, two⟩
    rw [one, two]

/-- What the filter reads as a file that is to be stopped. -/
theorem plain_iff (onward : Text) : Plain onward ↔ starts "DCC SEND".toList onward = true ∧ filenameOf onward ≠ [] ∧
    ∃ ext, findExt (filenameOf onward) (filenameOf onward).length = some ext ∧ extensionListed ext = true := by
  have found : ∀ ext, findExt (filenameOf onward) (filenameOf onward).length = some ext ↔
      ∃ stem, filenameOf onward = stem ++ '.' :: ext ∧ stem ≠ [] ∧ '.' ∉ ext := by
    intro ext
    refine findExt_iff _ ?_
    rw [List.drop_eq_nil_of_le (Nat.le_succ _)]
    exact List.not_mem_nil
  constructor
  · rintro ⟨send, gap, stem, ext, after, rfl, spelled, blank, some', solid, solid', free, listed, ends⟩
    have eight : send.length = 8 := (length_of_mycmp spelled).symm
    have name : filenameOf (send ++ gap ++ stem ++ '.' :: ext ++ after) = stem ++ '.' :: ext := by
      refine (filenameOf_iff (by simp)).mpr ⟨gap, after, ?_, blank, by simp [solid, solid'], ends⟩
      simp only [List.append_assoc, ← eight, List.drop_left]
    refine ⟨?_, by rw [name]; simp, ext, (found ext).mpr ⟨stem, name, some', free⟩, (extensionListed_iff ext).mpr listed⟩
    have taken : (send ++ gap ++ stem ++ '.' :: ext ++ after).take 8 = send := by
      simp only [List.append_assoc, ← eight, List.take_left]
    rw [starts, show "DCC SEND".toList.length = 8 from rfl, taken, spelled]
  · rintro ⟨begins, some', ext, here, listed⟩
    obtain ⟨stem, name, filled, free⟩ := (found ext).mp here
    obtain ⟨gap, after, joined, blank, solid, ends⟩ := (filenameOf_iff some').mp rfl
    rw [name] at joined solid
    simp only [List.mem_append, List.mem_cons, not_or] at solid
    refine ⟨onward.take 8, gap, stem, ext, after, ?_, begins, blank, filled, solid.1, solid.2.2, free,
      (extensionListed_iff ext).mp listed, ends⟩
    simp only [List.append_assoc] at joined ⊢
    rw [List.cons_append] at joined ⊢
    rw [← joined, List.take_append_drop]

/-- Whom `check_dccsend` looks at. -/
theorem checkDccsend_some {from' to' : Client} {msg : Text} {file : Refused}
    (stopped : checkDccsend from' to' msg = some file) :
    (from'.cptr ≠ to'.cptr ∧ from'.person = true ∧ from'.anOper = false ∧ to'.myConnect = true ∧ to'.person = true ∧
      allowDcc to' from' = false) ∧ filenameOf msg ≠ [] ∧
      ∃ ext, findExt (filenameOf msg) (filenameOf msg).length = some ext ∧ extensionListed ext = true := by
  unfold checkDccsend at stopped
  split at stopped
  next => cases stopped
  next goes =>
    dsimp only at stopped
    split at stopped
    next => cases stopped
    next some' =>
      split at stopped
      next => cases stopped
      next ext found =>
        split at stopped
        next both =>
          obtain ⟨listed, unwanted⟩ := Bool.and_eq_true_iff.mp both
          simp only [not_or, Bool.not_eq_true', Bool.not_eq_true, Bool.not_eq_false, Bool.and_eq_true] at goes unwanted
          obtain ⟨apart, person, user, here⟩ := goes
          exact ⟨⟨apart, person, user, here.1, here.2, unwanted⟩, some', ext, found, listed⟩
        next => cases stopped

theorem checkDccsend_guarded {from' to' : Client} (guarded : Guarded from' to') {msg : Text} (some' : filenameOf msg ≠ [])
    {ext : Text} (found : findExt (filenameOf msg) (filenameOf msg).length = some ext) (listed : extensionListed ext = true) :
    ∃ file, checkDccsend from' to' msg = some file := by
  have goes : ¬ (from'.cptr = to'.cptr ∨ !from'.person ∨ from'.anOper ∨ !(to'.myConnect && to'.person)) := by
    simp [guarded.apart, guarded.person, guarded.user.1, guarded.here.1, guarded.here.2.1]
  rw [checkDccsend, if_neg goes]
  dsimp only
  rw [if_neg some', found]
  dsimp only
  rw [listed, guarded.unwanted]
  exact ⟨_, rfl⟩

/-- The filter meets a file that is to be stopped. -/
def Met (text : Text) : Prop := ∃ lead, leading text = some lead ∧ Plain lead.onward

/-- `check_for_ctcp` gives the text on to `check_dccsend`. -/
theorem checkForCtcp_dccsend (text onward : Text) : checkForCtcp text = .dccsend onward ↔
    ∃ lead, leading text = some lead ∧ lead.onward = onward ∧ starts "DCC SEND".toList onward = true := by
  rw [checkForCtcp_eq]
  cases found : leading text with
  | none => simp [classify]
  | some lead =>
    have cut := cut_of_mem (List.mem_of_find?_eq_some found)
    have two : starts "DCC SEND".toList lead.onward =
        (starts "DCC".toList lead.content && starts " SEND".toList (lead.content.drop 3)) := by
      rw [cut.starts (by decide)]
      exact starts_append_left "DCC".toList " SEND".toList lead.content
    simp only [classify, Option.some.injEq, exists_eq_left']
    constructor
    · intro same
      split at same
      next dcc =>
        split at same
        next send =>
          obtain rfl := Found.dccsend.inj same
          exact ⟨rfl, by rw [two, dcc, send]; rfl⟩
        next => cases same
      next => cases same
    · rintro ⟨rfl, begins⟩
      rw [two, Bool.and_eq_true] at begins
      rw [if_pos begins.1, if_pos begins.2]

theorem met_iff (text : Text) : Met text ↔ ∃ onward, checkForCtcp text = .dccsend onward ∧ filenameOf onward ≠ [] ∧
    ∃ ext, findExt (filenameOf onward) (filenameOf onward).length = some ext ∧ extensionListed ext = true := by
  constructor
  · rintro ⟨lead, found, plain⟩
    obtain ⟨begins, read⟩ := (plain_iff lead.onward).mp plain
    exact ⟨lead.onward, (checkForCtcp_dccsend _ _).mpr ⟨lead, found, rfl, begins⟩, read⟩
  · rintro ⟨onward, given, read⟩
    obtain ⟨lead, found, rfl, begins⟩ := (checkForCtcp_dccsend _ _).mp given
    exact ⟨lead, found, (plain_iff lead.onward).mpr ⟨begins, read⟩⟩

/-- What is refused has been met, between those whom it concerns. -/
theorem met_of_refused {others : Others} {notice : Bool} {sptr acptr : Client} {text : Text} {file : Refused}
    (refused : mMessage others notice sptr acptr text = .refused file) : Guarded sptr acptr ∧ Met text := by
  unfold mMessage at refused
  split at refused
  next => cases refused
  next target =>
    split at refused
    next => cases refused
    next =>
      split at refused
      next => cases refused
      next =>
        split at refused
        next => cases refused
        next source =>
          split at refused
          next => cases refused
          next =>
            split at refused
            next outcome screened =>
              subst refused
              split at screened
              next =>
                unfold ctcpOutcome at screened
                split at screened
                next => cases screened
                next dccmsg given =>
                  split at screened
                  next => cases screened
                  next =>
                    obtain ⟨file', stopped, same⟩ := Option.map_eq_some_iff.mp screened
                    obtain ⟨⟨apart, person, user, here, here', unwanted⟩, read⟩ := checkDccsend_some stopped
                    exact ⟨⟨apart, person, ⟨user, by simpa using source⟩, ⟨here, here', by simpa using target⟩, unwanted⟩,
                      (met_iff text).mpr ⟨dccmsg, given, read⟩⟩
                next => split at screened <;> cases screened
              next => cases screened
            next => split at refused <;> cases refused

/-- What is met comes to nothing where it is not wanted. -/
theorem ctcpOutcome_of_met {sptr acptr : Client} {text : Text} (guarded : Guarded sptr acptr)
    (met : Met text) (others : Others) :
    ∃ outcome, ctcpOutcome others sptr acptr text = some outcome ∧ outcome ≠ .delivered ∧
      (others.flud = false → ∃ file, outcome = .refused file) := by
  obtain ⟨onward, given, some', ext, found, listed⟩ := (met_iff text).mp met
  obtain ⟨file, stopped⟩ := checkDccsend_guarded guarded some' found listed
  rw [ctcpOutcome, given]
  dsimp only
  cases others.flud with
  | true => exact ⟨.returned, rfl, nofun, nofun⟩
  | false =>
    rw [stopped]
    exact ⟨.refused file, rfl, nofun, fun _ => ⟨file, rfl⟩⟩

theorem stopped_of_met {sptr acptr : Client} {text : Text} (guarded : Guarded sptr acptr) (met : Met text) (others : Others) :
    mMessage others false sptr acptr text ≠ .delivered := by
  obtain ⟨outcome, screened, stays, -⟩ := ctcpOutcome_of_met guarded met others
  unfold mMessage
  rw [guarded.here.2.2, guarded.user.2, guarded.here.1, Bool.not_false, Bool.and_self, if_pos rfl, screened]
  simp only [Bool.false_eq_true, if_false]
  split
  next => nofun
  next =>
    split
    next => nofun
    next =>
      split
      next => nofun
      next => exact stays

def noOthers : Others := ⟨false, false, false, false, false⟩

theorem refused_of_met {sptr acptr : Client} {text : Text} (guarded : Guarded sptr acptr) (met : Met text) :
    ∃ file, mMessage noOthers false sptr acptr text = .refused file := by
  obtain ⟨outcome, screened, -, refused⟩ := ctcpOutcome_of_met guarded met noOthers
  obtain ⟨file, rfl⟩ := refused rfl
  refine ⟨file, ?_⟩
  unfold mMessage
  rw [guarded.here.2.2, guarded.user.2, guarded.here.1, Bool.not_false, Bool.and_self, if_pos rfl, screened]
  simp [noOthers]

/-- Where nothing else stops it, the rest arrives. -/
theorem delivered_of_not_met (sptr acptr : Client) {text : Text} (free : ¬ Met text) :
    mMessage noOthers false sptr acptr text = .delivered := by
  have passes : ctcpOutcome noOthers sptr acptr text = none := by
    unfold ctcpOutcome
    split
    next => rfl
    next dccmsg given =>
      cases stopped : checkDccsend sptr acptr dccmsg with
      | none => rfl
      | some file => exact absurd ((met_iff text).mpr ⟨dccmsg, given, (checkDccsend_some stopped).2⟩) free
    next => rfl
  unfold mMessage
  simp only [noOthers, Bool.and_false, Bool.false_eq_true, if_false] at passes ⊢
  rw [passes]
  cases acptr.uline <;> cases sptr.uline <;> cases acptr.myConnect <;> rfl

/-- The filter is right for a sender and a receiver exactly when it does not concern them, or the
first section that is no ACTION stands for the text. -/
theorem dccsend_exact (sptr acptr : Client) (text : Text) :
    Complete sptr acptr text ↔ (Guarded sptr acptr → Legible text) := by
  constructor
  · intro complete guarded
    constructor
    · intro offered
      by_contra free
      exact complete.stops guarded offered _ (delivered_of_not_met sptr acptr free)
    · intro lead found plain
      by_contra free
      obtain ⟨file, refused⟩ := refused_of_met guarded ⟨lead, found, plain⟩
      exact complete.spares free _ _ file refused
  · intro legible
    constructor
    · intro guarded offered
      exact stopped_of_met guarded ((legible guarded).plain offered)
    · intro free others notice file refused
      obtain ⟨guarded, lead, found, plain⟩ := met_of_refused refused
      exact free ((legible guarded).honest lead found plain)

/-- What begins like an offer begins a section with DCC. -/
theorem starts_of_plain {text : Text} {lead : Section} (member : lead ∈ sections text) (plain : Plain lead.onward) :
    starts "DCC".toList lead.content = true := by
  have begins := ((plain_iff _).mp plain).1
  rw [show "DCC SEND".toList = "DCC".toList ++ " SEND".toList from rfl, starts_append_left, Bool.and_eq_true] at begins
  rw [← (cut_of_mem member).starts (by decide)]
  exact begins.1

theorem Offers.starts {content name : Text} (offers : Offers content name) : starts "DCC".toList content = true := by
  obtain ⟨dcc, gap, send, gap', arguments, rfl, spelled, -⟩ := offers.spelled
  have three : "DCC".toList.length = dcc.length := length_of_mycmp spelled
  rw [Ctcp.starts, three, List.append_assoc, List.append_assoc, List.append_assoc, List.take_left]
  exact spelled

/-- A text without a section that begins with DCC. -/
theorem legible_of_no_dcc {text : Text} (none : ∀ lead ∈ sections text, starts "DCC".toList lead.content = false) :
    Legible text where
  plain := by
    rintro ⟨lead, member, name, offers, -⟩
    exact absurd offers.starts (Bool.not_eq_true _ ▸ none lead member)
  honest lead found plain := by
    have member := List.mem_of_find?_eq_some found
    exact absurd (starts_of_plain member plain) (Bool.not_eq_true _ ▸ none lead member)

def eve : Client := ⟨1, true, false, true, false, []⟩

def bob : Client := ⟨2, true, false, true, false, []⟩

theorem eve_bob_guarded : Guarded eve bob := ⟨by decide, rfl, ⟨rfl, rfl⟩, ⟨rfl, rfl, rfl⟩, rfl⟩

def offer : Text := "DCC SEND a.exe 1 2 3".toList

/-- An offer behind another CTCP. -/
def hidden : Text := [] ++ delimiter :: "VERSION".toList ++ delimiter :: ([] ++ delimiter :: offer ++ delimiter :: [])

theorem hidden_sections : sections hidden = [⟨"VERSION".toList,
    "VERSION".toList ++ delimiter :: ([] ++ delimiter :: offer ++ delimiter :: [])⟩,
    ⟨offer, offer ++ delimiter :: []⟩] := by
  rw [hidden, sections_join _ (by decide) (by decide), sections_join _ (by decide) (by decide), sections_none rfl]

theorem hidden_offers : OffersBlocked hidden := by
  refine ⟨⟨offer, offer ++ delimiter :: []⟩, by rw [hidden_sections]; simp, "a.exe".toList, ⟨?_⟩, ?_⟩
  · exact ⟨"DCC".toList, [' '], "SEND".toList, [' '], "a.exe 1 2 3".toList, rfl, rfl,
      nofun, by simp [Blank], rfl, nofun, by simp [Blank],
      .word "a.exe".toList " 1 2 3".toList nofun (by decide) (by decide) (.inr rfl)⟩
  · exact ⟨['a'], "exe".toList, rfl, by decide, .inr ⟨"exe".toList, by decide, rfl⟩⟩

/-- It arrives. -/
theorem hidden_offer_delivered : Guarded eve bob ∧ OffersBlocked hidden ∧
    mMessage noOthers false eve bob hidden = .delivered ∧ ¬ Complete eve bob hidden := by
  have free : ¬ Met hidden := by
    rintro ⟨lead, found, plain⟩
    rw [leading, hidden_sections] at found
    obtain rfl := Option.some.inj found
    exact absurd ((plain_iff _).mp plain).1 (by decide)
  have arrives := delivered_of_not_met eve bob free
  exact ⟨eve_bob_guarded, hidden_offers, arrives, fun complete => complete.stops eve_bob_guarded hidden_offers _ arrives⟩

end SolidIrcd.DccSend
