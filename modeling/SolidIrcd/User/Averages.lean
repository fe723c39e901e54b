import Mathlib
import SolidIrcd.Hash
import SolidIrcd.Lib.Decimal
import SolidIrcd.User.Probability

/-! What RWHO asks of the table of `probability.c`: the character sets of the match flag P, and the averages over the
pairs of the names. -/

namespace SolidIrcd.Probability

open Scan (Text)

/-- PCS_NICK, PCS_USER and PCS_GCOS. -/
inductive Kind where
  | nick | user | gcos
  deriving DecidableEq, Repr

def baseSize : Nat := pMaxChar + 1 - pMinChar

/-- What `probability_init` resets and `probability_loadsets` fills; `adjacent` says which kinds `pavg_adjacent` averages, in
place of `pavg_skip`. -/
structure Sets where
  pcharset : Nat → Kind → Bool
  ploadedsets : Kind → Bool
  pfoldedsets : Kind → Bool
  adjacent : Kind → Bool

/-- `probability_init`. -/
def probabilityInit : Sets := ⟨fun _ _ => false, fun _ => false, fun _ => false, fun _ => false⟩

def Sets.inSet (sets : Sets) (kind : Kind) (c : Char) : Bool := sets.pcharset c.toNat kind

/-- The letters that begin a set: the kind, and whether it is folded. -/
def letter (c : Char) : Option (Kind × Bool) :=
  match c with
  | 'n' => some (.nick, true)
  | 'N' => some (.nick, false)
  | 'u' => some (.user, true)
  | 'U' => some (.user, false)
  | 'g' => some (.gcos, true)
  | 'G' => some (.gcos, false)
  | _ => none

/-- A value of a set. -/
def value (s : Text) : Option (Int × Text) :=
  let (read, rest) := Decimal.strtolAuto s
  let val := Decimal.toInt read
  if rest = s then none
  else if val < pMinChar ∨ val > pMaxChar then none
  else some (val, rest)

/-- A value, or a range of them: the first, the last, and the text behind. -/
def range (s : Text) : Option (Int × Int × Text) :=
  match value s with
  | none => none
  | some (val, rest) =>
    if rest.head? = some '-' then
      match value (rest.drop 1) with
      | none => none
      | some (val2, rest) => if val2 < val then none else some (val, val2, rest)
    else some (val, val, rest)

def Sets.addRange (sets : Sets) (kind : Kind) (val val2 : Int) : Sets :=
  { sets with pcharset := fun c k => sets.pcharset c k || (k == kind && decide (val ≤ c ∧ c ≤ val2)) }

theorem value_some (found : value s = some (val, rest)) :
    rest = (Decimal.strtolAuto s).2 ∧ (pMinChar : Int) ≤ val ∧ val ≤ (pMaxChar : Int) := by
  unfold value at found
  dsimp only at found
  split at found
  · cases found
  · split at found
    · cases found
    · cases found
      exact ⟨rfl, by omega, by omega⟩

theorem length_value_le (found : value s = some (val, rest)) : rest.length ≤ s.length := by
  rw [(value_some found).1]
  exact Decimal.length_strtolAuto_le s

/-- A range begins with a value, and ends with the same or another one. -/
theorem range_some (found : range s = some (val, val2, rest)) :
    ∃ rest', value s = some (val, rest') ∧ ((val2 = val ∧ rest = rest') ∨ value (rest'.drop 1) = some (val2, rest)) := by
  unfold range at found
  split at found
  · cases found
  · rename_i head
    split at found
    · split at found
      · cases found
      · rename_i tail
        split at found
        · cases found
        · cases found
          exact ⟨_, head, .inr tail⟩
    · cases found
      exact ⟨_, head, .inl ⟨rfl, rfl⟩⟩

theorem length_range_le (found : range s = some (val, val2, rest)) : rest.length ≤ s.length := by
  obtain ⟨rest', head, ⟨-, rfl⟩ | tail⟩ := range_some found
  · exact length_value_le head
  · have shorter := length_value_le head
    have shorter' := length_value_le tail
    rw [List.length_drop] at shorter'
    omega

/-- The loop over the values of one set, which stand between commas. -/
def Sets.loadValues (sets : Sets) (kind : Kind) (s : Text) : Option (Sets × Text) :=
  match _found : range s with
  | none => none
  | some (val, val2, rest) =>
    let sets := sets.addRange kind val val2
    if _more : rest.head? = some ',' then sets.loadValues kind (rest.drop 1) else some (sets, rest)
  termination_by s.length
  decreasing_by
    have shorter := length_range_le _found
    obtain ⟨_, tail, rfl⟩ := List.exists_cons_of_ne_nil (fun empty : rest = [] => by simp [empty] at _more)
    simp only [List.drop_succ_cons, List.drop_zero, List.length_cons] at shorter ⊢
    omega

theorem length_loadValues_le (found : Sets.loadValues sets kind s = some (sets', rest)) : rest.length ≤ s.length := by
  fun_induction Sets.loadValues sets kind s with
  | case1 => cases found
  | case2 sets s val val2 rest' ranged sets'' more ih =>
    have shorter := length_range_le ranged
    have later := ih found
    rw [List.length_drop] at later
    omega
  | case3 sets s val val2 rest' ranged sets'' last =>
    rw [Option.some.injEq, Prod.mk.injEq] at found
    exact found.2 ▸ length_range_le ranged

/-- The letter of a set, and the `a` behind it. -/
def Sets.opened (sets : Sets) (kind : Kind) (folded adjacent : Bool) : Sets :=
  { sets with
    pfoldedsets := fun k => sets.pfoldedsets k || (k == kind && folded)
    adjacent := fun k => sets.adjacent k || (k == kind && adjacent)
    ploadedsets := fun k => sets.ploadedsets k || k == kind }

/-- `probability_loadsets`; where it returns 0 the request is refused, and the next one begins with `probability_init`. -/
def Sets.loadsets (sets : Sets) (text : Text) : Option Sets :=
  match text with
  | [] => some sets
  | c :: s =>
    match letter c with
    | none => none
    | some (kind, folded) =>
      let adjacent := s.head? == some 'a'
      match _found : (sets.opened kind folded adjacent).loadValues kind (if adjacent then s.drop 1 else s) with
      | none => none
      | some (sets, rest) => sets.loadsets rest
  termination_by text.length
  decreasing_by
    have shorter := length_loadValues_le _found
    split at shorter <;> simp only [List.length_drop, List.length_cons] at shorter ⊢ <;> omega

/-- `probability_fini`, up to the averages. -/
def Sets.fini (sets : Sets) : Sets :=
  let load (sets : Sets) (kind : Kind) (text : Text) := if sets.ploadedsets kind then sets else (sets.loadsets text).getD sets
  load (load (load sets .nick "n48-57,65-90,97-122".toList) .user "u48-57,65-90,97-122".toList) .gcos "g65-90,97-122".toList

/-- `c - PMINCHAR` in an `unsigned char`. -/
def index (c : Char) : Nat := if c.toNat < pMinChar then c.toNat + 256 - pMinChar else c.toNat - pMinChar

/-- The cells of `probabilities` that are added for a pair. -/
def pairCells (folded : Bool) (pair : Char × Char) : List (Nat × Nat) :=
  if folded then
    let lc1 := index (toLower pair.1)
    let lc2 := index (toLower pair.2)
    let c1 := index (toUpper pair.1)
    let c2 := index (toUpper pair.2)
    (c1, c2) :: ((if lc1 ≠ c1 then (lc1, c2) :: (if lc2 ≠ c2 then [(lc1, lc2)] else []) else []) ++
      (if lc2 ≠ c2 then [(c1, lc2)] else []))
  else [(index pair.1, index pair.2)]

/-- The pairs that the loop of `pavg_adjacent` counts; its second test is of `c2` again. -/
def pairsAdjacent (inSet : Char → Bool) : Text → List (Char × Char)
  | [] => []
  | [_] => []
  | c1 :: c2 :: s =>
    if !inSet c2 then pairsAdjacent inSet s
    else if !inSet c2 then pairsAdjacent inSet (c2 :: s)
    else (c1, c2) :: pairsAdjacent inSet (c2 :: s)

/-- The pairs that the loop of `pavg_skip` counts. -/
def pairsSkip (inSet : Char → Bool) : Text → List (Char × Char)
  | [] => []
  | c1 :: s =>
    if !inSet c1 then pairsSkip inSet s
    else
      match _found : s.dropWhile fun c => !inSet c with
      | [] => []
      | c2 :: rest => (c1, c2) :: pairsSkip inSet (c2 :: rest)
  termination_by s => s.length
  decreasing_by
    · exact Nat.lt_succ_self _
    · have short := (List.dropWhile_suffix (l := s) fun c => !inSet c).length_le
      rw [_found] at short
      simp only [List.length_cons] at short ⊢
      omega

/-- The cells that are looked at, and what is divided by. -/
structure Work where
  cells : List (Nat × Nat)
  divisors : List Int
  deriving DecidableEq, Repr

def Work.append (first second : Work) : Work := ⟨first.cells ++ second.cells, first.divisors ++ second.divisors⟩

/-- The pairs that count, by the function that averages the kind. -/
def Sets.pairs (sets : Sets) (kind : Kind) (s : Text) : List (Char × Char) :=
  (if sets.adjacent kind then pairsAdjacent else pairsSkip) (sets.inSet kind) s

/-- `pavg_adjacent` and `pavg_skip`: the average, or -1 without pairs. -/
def pavg (sets : Sets) (probabilities : Table) (kind : Kind) (s : Text) : Int × Work :=
  let pairs := sets.pairs kind s
  let cells := pairs.flatMap (pairCells (sets.pfoldedsets kind))
  let total := (cells.map fun cell => probabilities cell.1 cell.2).sum
  if pairs.length = 0 then (-1, ⟨cells, []⟩) else (total.tdiv pairs.length, ⟨cells, [(pairs.length : Int)]⟩)

/-- What `set_probabilities` sums up for a kind: `ncount`, `ntotal`, which is an `unsigned`, and `nmax`. -/
structure Tally where
  count : Int
  total : Int
  max : Int
  deriving DecidableEq, Repr

def Tally.add (tally : Tally) (i : Int) : Tally :=
  if i ≥ 0 then ⟨tally.count + 1, (tally.total + i) % 4294967296, if i > tally.max then i else tally.max⟩ else tally

/-- The divisions by `ncount` and `nmax`. -/
def Tally.divisors (tally : Tally) : List Int := if tally.total ≠ 0 then [tally.count, tally.max] else []

/-- The name of a kind. -/
def Client.text (client : Client) : Kind → Text
  | .nick => client.name
  | .user => client.username
  | .gcos => client.info

/-- What `set_probabilities` does for a kind. -/
def Sets.scale (sets : Sets) (probabilities : Table) (persons : List Client) (kind : Kind) : Work :=
  let averages := persons.map fun ac => pavg sets probabilities kind (ac.text kind)
  let tally := (averages.map Prod.fst).foldl Tally.add ⟨0, 0, 0⟩
  ⟨averages.flatMap (·.2.cells), averages.flatMap (·.2.divisors) ++ tally.divisors⟩

/-- `set_probabilities`. -/
def Sets.setProbabilities (sets : Sets) (probabilities : Table) (clients : List Client) : Work :=
  let persons := clients.filter Client.person
  ((sets.scale probabilities persons .nick).append (sets.scale probabilities persons .user)).append
    (sets.scale probabilities persons .gcos)

/-- `get_probabilities`, without the products, which are floating point. -/
def Sets.getProbabilities (sets : Sets) (probabilities : Table) (ac : Client) : Work :=
  ((pavg sets probabilities .nick ac.name).2.append (pavg sets probabilities .user ac.username).2).append
    (pavg sets probabilities .gcos ac.info).2

/-! ### Characters and cells -/

def Printable (c : Char) : Prop := pMinChar ≤ c.toNat ∧ c.toNat ≤ pMaxChar

instance : DecidablePred Printable := fun c => inferInstanceAs (Decidable (pMinChar ≤ c.toNat ∧ c.toNat ≤ pMaxChar))

/-- A cell lies in the table. -/
def Inside (cell : Nat × Nat) : Prop := cell.1 < baseSize ∧ cell.2 < baseSize

structure Work.Safe (work : Work) : Prop where
  cells : ∀ cell ∈ work.cells, Inside cell
  divisors : ∀ divisor ∈ work.divisors, divisor ≠ 0

theorem toNat_toLower (c : Char) :
    (toLower c).toNat = if 65 ≤ c.toNat ∧ c.toNat ≤ 90 then c.toNat + 32 else c.toNat := by
  have low : c.val ≥ 'A'.val ↔ 65 ≤ c.toNat := UInt32.le_iff_toNat_le
  have high : c.val ≤ 'Z'.val ↔ c.toNat ≤ 90 := UInt32.le_iff_toNat_le
  unfold toLower Char.toLower
  split
  next capital =>
    rw [low, high] at capital
    rw [if_pos capital]
    have offset : ('a'.val - 'A'.val).toNat = 32 := by decide
    have sum : (c.val + ('a'.val - 'A'.val)).toNat = (c.toNat + 32) % 4294967296 := by
      rw [UInt32.toNat_add, offset]
      rfl
    change (c.val + ('a'.val - 'A'.val)).toNat = c.toNat + 32
    omega
  next other =>
    rw [low, high] at other
    rw [if_neg other]

theorem index_lt_iff (c : Char) : index c < baseSize ↔ Printable c := by
  unfold index baseSize Printable pMaxChar pMinChar
  split <;> omega

theorem printable_toLower (c : Char) : Printable (toLower c) ↔ Printable c := by
  simp only [Printable, toNat_toLower, pMaxChar, pMinChar]
  split <;> omega

theorem printable_toUpper (c : Char) : Printable (toUpper c) ↔ Printable c := by
  simp only [Printable, toNat_toUpper, pMaxChar, pMinChar]
  split <;> omega

/-- A pair with a printable second character stays in the table exactly when the first one is printable. -/
theorem pairCells_inside (folded : Bool) (second : Printable pair.2) :
    (∀ cell ∈ pairCells folded pair, Inside cell) ↔ Printable pair.1 := by
  have place (c : Char) : index (toLower c) < baseSize ↔ Printable c := by rw [index_lt_iff, printable_toLower]
  have place' (c : Char) : index (toUpper c) < baseSize ↔ Printable c := by rw [index_lt_iff, printable_toUpper]
  cases folded with
  | false => simp [pairCells, Inside, index_lt_iff, second]
  | true =>
    simp only [pairCells, ↓reduceIte, List.forall_mem_cons, List.forall_mem_append]
    constructor
    · intro inside
      exact (place' pair.1).mp inside.1.1
    · intro first
      have a := (place' pair.1).mpr first
      have b := (place' pair.2).mpr second
      have c := (place pair.1).mpr first
      have d := (place pair.2).mpr second
      refine ⟨⟨a, b⟩, ?_, ?_⟩
      · split
        · refine List.forall_mem_cons.mpr ⟨⟨c, b⟩, ?_⟩
          split
          · exact List.forall_mem_singleton.mpr ⟨c, d⟩
          · nofun
        · nofun
      · split
        · exact List.forall_mem_singleton.mpr ⟨a, d⟩
        · nofun

/-! ### The pairs -/

theorem mem_pairsSkip {inSet : Char → Bool} {s : Text} (member : pair ∈ pairsSkip inSet s) :
    inSet pair.1 = true ∧ inSet pair.2 = true := by
  fun_induction pairsSkip inSet s with
  | case1 => cases member
  | case2 c1 s outside ih => exact ih member
  | case3 c1 s inside last => cases member
  | case4 c1 s inside c2 rest found ih =>
    obtain rfl | later := List.mem_cons.mp member
    · have stop := List.head?_dropWhile_not (fun c => !inSet c) s
      rw [found] at stop
      exact ⟨by simpa using inside, by simpa using stop⟩
    · exact ih later

theorem mem_pairsAdjacent {inSet : Char → Bool} {s : Text} (member : pair ∈ pairsAdjacent inSet s) :
    inSet pair.2 = true := by
  fun_induction pairsAdjacent inSet s with
  | case1 => cases member
  | case2 => cases member
  | case3 c1 c2 s outside ih => exact ih member
  | case4 c1 c2 s inside outside ih => exact absurd outside inside
  | case5 c1 c2 s inside _ ih =>
    obtain rfl | later := List.mem_cons.mp member
    · simpa using inside
    · exact ih later

/-- A longest run of characters outside of the set, in front of a character of the set, ends in a character that cannot be
printed, and the loop comes to that character as the first of a pair: the run has an odd number of characters where it
begins the text and an even number elsewhere. -/
def Stray (inSet : Char → Bool) (s : Text) : Prop :=
  ∃ front run c1 c2 back, s = front ++ (run ++ c1 :: c2 :: back) ∧ (∀ c ∈ run, inSet c = false) ∧
    ¬ Printable c1 ∧ inSet c2 = true ∧
    ((front = [] ∧ run.length % 2 = 0) ∨ ((∃ c, front.getLast? = some c ∧ inSet c = true) ∧ run.length % 2 = 1))

section

variable {inSet : Char → Bool}

/-- A character of the set begins nothing stray by itself. -/
theorem stray_cons_of_mem (inside : inSet c2 = true) (first : Printable c2) :
    Stray inSet (c1 :: c2 :: s) ↔ ¬ Printable c1 ∨ Stray inSet (c2 :: s) := by
  constructor
  · rintro ⟨front, run, d1, d2, back, split, outside, bare, member, place⟩
    match front, run with
    | [], [] =>
      cases split
      exact .inl bare
    | [], [e] =>
      obtain ⟨-, even⟩ | ⟨⟨c, last, -⟩, -⟩ := place
      · cases even
      · cases last
    | [], e :: e' :: run =>
      cases split
      rw [outside c2 (by simp)] at inside
      cases inside
    | [e], [] =>
      obtain ⟨empty, -⟩ | ⟨-, odd⟩ := place
      · cases empty
      · cases odd
    | [e], e' :: run =>
      cases split
      rw [outside c2 (by simp)] at inside
      cases inside
    | e :: e' :: front, run =>
      cases split
      refine .inr ⟨c2 :: front, run, d1, d2, back, rfl, outside, bare, member, .inr ?_⟩
      obtain ⟨empty, -⟩ | later := place
      · cases empty
      · simpa using later
  · rintro (bare | ⟨front, run, d1, d2, back, split, outside, bare, member, place⟩)
    · exact ⟨[], [], c1, c2, s, rfl, by simp, bare, inside, .inl ⟨rfl, rfl⟩⟩
    · refine ⟨c1 :: front, run, d1, d2, back, by rw [split, List.cons_append], outside, bare, member, .inr ?_⟩
      obtain ⟨rfl, -⟩ | ⟨⟨c, last, own⟩, odd⟩ := place
      · -- the text would begin with a character outside of the set
        cases run with
        | nil =>
          cases split
          exact absurd first bare
        | cons e run =>
          cases split
          rw [outside c2 (by simp)] at inside
          cases inside
      · refine ⟨⟨c, ?_, own⟩, odd⟩
        rw [List.getLast?_cons, last]
        rfl

/-- Two characters are passed over together. -/
theorem stray_cons_of_not_mem (outer : inSet c2 = false) : Stray inSet (c1 :: c2 :: s) ↔ Stray inSet s := by
  constructor
  · rintro ⟨front, run, d1, d2, back, split, outside, bare, member, place⟩
    match front, run with
    | [], [] =>
      cases split
      rw [outer] at member
      cases member
    | [], [e] =>
      obtain ⟨-, even⟩ | ⟨⟨c, last, -⟩, -⟩ := place
      · cases even
      · cases last
    | [], e :: e' :: run =>
      cases split
      refine ⟨[], run, d1, d2, back, rfl, fun c inside => outside c (by simp [inside]), bare, member, .inl ⟨rfl, ?_⟩⟩
      obtain ⟨-, even⟩ | ⟨⟨c, last, -⟩, -⟩ := place
      · simp only [List.length_cons] at even
        omega
      · cases last
    | [e], [] =>
      obtain ⟨empty, -⟩ | ⟨-, odd⟩ := place
      · cases empty
      · cases odd
    | [e], e' :: run =>
      cases split
      refine ⟨[], run, d1, d2, back, rfl, fun c inside => outside c (by simp [inside]), bare, member, .inl ⟨rfl, ?_⟩⟩
      obtain ⟨empty, -⟩ | ⟨-, odd⟩ := place
      · cases empty
      · rw [List.length_cons] at odd
        omega
    | [e, e'], run =>
      cases split
      obtain ⟨empty, -⟩ | ⟨⟨c, last, own⟩, -⟩ := place
      · cases empty
      · cases last
        change inSet c2 = true at own
        rw [outer] at own
        cases own
    | e :: e' :: e'' :: front, run =>
      cases split
      refine ⟨e'' :: front, run, d1, d2, back, rfl, outside, bare, member, .inr ?_⟩
      obtain ⟨empty, -⟩ | later := place
      · cases empty
      · simpa using later
  · rintro ⟨front, run, d1, d2, back, rfl, outside, bare, member, place⟩
    obtain ⟨rfl, even⟩ | ⟨⟨c, last, own⟩, odd⟩ := place
    · cases first : inSet c1 with
      | true =>
        refine ⟨[c1], c2 :: run, d1, d2, back, rfl, List.forall_mem_cons.mpr ⟨outer, outside⟩, bare, member,
          .inr ⟨⟨c1, rfl, first⟩, ?_⟩⟩
        rw [List.length_cons]
        omega
      | false =>
        refine ⟨[], c1 :: c2 :: run, d1, d2, back, rfl, ?_, bare, member, .inl ⟨rfl, ?_⟩⟩
        · exact List.forall_mem_cons.mpr ⟨first, List.forall_mem_cons.mpr ⟨outer, outside⟩⟩
        · simp only [List.length_cons]
          omega
    · refine ⟨c1 :: c2 :: front, run, d1, d2, back, rfl, outside, bare, member, .inr ⟨⟨c, ?_, own⟩, odd⟩⟩
      rw [List.getLast?_cons, List.getLast?_cons, last]
      rfl

theorem not_stray_short (short : s.length ≤ 1) : ¬ Stray inSet s := by
  rintro ⟨front, run, c1, c2, back, rfl, -⟩
  simp only [List.length_append, List.length_cons] at short
  omega

theorem pairsAdjacent_printable (printable : ∀ c, inSet c = true → Printable c) (s : Text) :
    (∀ pair ∈ pairsAdjacent inSet s, Printable pair.1) ↔ ¬ Stray inSet s := by
  fun_induction pairsAdjacent inSet s with
  | case1 => simp [not_stray_short]
  | case2 => simp [not_stray_short]
  | case3 c1 c2 s outside ih => rw [ih, stray_cons_of_not_mem (by simpa using outside)]
  | case4 c1 c2 s inside outside ih => exact absurd outside inside
  | case5 c1 c2 s inside _ ih =>
    have member : inSet c2 = true := by simpa using inside
    rw [List.forall_mem_cons, ih, stray_cons_of_mem member (printable c2 member), not_or, not_not]

end

/-! ### The sets -/

/-- Only printable characters are in a set. -/
def Sets.Fine (sets : Sets) : Prop := ∀ c kind, sets.inSet kind c = true → Printable c

theorem range_bounds (found : range s = some (val, val2, rest)) : (pMinChar : Int) ≤ val ∧ val2 ≤ (pMaxChar : Int) := by
  obtain ⟨rest', head, ⟨rfl, -⟩ | tail⟩ := range_some found
  · exact (value_some head).2
  · exact ⟨(value_some head).2.1, (value_some tail).2.2⟩

theorem Sets.Fine.addRange (fine : Sets.Fine sets) (found : range s = some (val, val2, rest)) (kind : Kind) :
    (sets.addRange kind val val2).Fine := by
  intro c k member
  simp only [Sets.inSet, Sets.addRange, Bool.or_eq_true, Bool.and_eq_true, decide_eq_true_eq] at member
  obtain old | ⟨-, low, high⟩ := member
  · exact fine c k old
  · obtain ⟨least, most⟩ := range_bounds found
    unfold Printable
    omega

theorem Sets.Fine.loadValues (fine : Sets.Fine sets) (found : sets.loadValues kind s = some (sets', rest)) :
    sets'.Fine := by
  fun_induction Sets.loadValues sets kind s with
  | case1 => cases found
  | case2 sets s val val2 rest' ranged sets'' more ih => exact ih (fine.addRange ranged kind) found
  | case3 sets s val val2 rest' ranged sets'' last =>
    rw [Option.some.injEq, Prod.mk.injEq] at found
    exact found.1 ▸ fine.addRange ranged kind

theorem Sets.Fine.loadsets (fine : Sets.Fine sets) (found : sets.loadsets text = some sets') : sets'.Fine := by
  fun_induction Sets.loadsets sets text with
  | case1 => exact Option.some.inj found ▸ fine
  | case2 => cases found
  | case3 => cases found
  | case4 sets c s kind folded begins adjacent sets'' rest loaded ih =>
    have opened : (sets.opened kind folded adjacent).Fine := fine
    exact ih (opened.loadValues loaded) found

theorem Sets.Fine.load (fine : Sets.Fine sets) (text : Text) : ((sets.loadsets text).getD sets).Fine := by
  cases found : sets.loadsets text with
  | none => exact fine
  | some sets' => exact fine.loadsets found

theorem Sets.Fine.fini (fine : Sets.Fine sets) : sets.fini.Fine := by
  have step {sets : Sets} (fine : sets.Fine) (kind : Kind) (text : Text) :
      (if sets.ploadedsets kind then sets else (sets.loadsets text).getD sets).Fine := by
    split
    · exact fine
    · exact fine.load text
  exact step (step (step fine _ _) _ _) _ _

theorem fine_of_accepted (accepted : List.foldlM Sets.loadsets probabilityInit texts = some sets) : sets.Fine := by
  have start : probabilityInit.Fine := fun c kind member => by cases member
  generalize probabilityInit = first at accepted start
  induction texts generalizing first with
  | nil => exact Option.some.inj accepted ▸ start
  | cons text texts ih =>
    rw [List.foldlM_cons] at accepted
    obtain ⟨sets', loaded, later⟩ := Option.bind_eq_some_iff.mp accepted
    exact ih sets' later (start.loadsets loaded)

/-! ### The divisions -/

/-- A sum that is not zero has a summand that is not zero. -/
structure Tally.Sound (tally : Tally) : Prop where
  count : 0 ≤ tally.count
  max : 0 ≤ tally.max
  summand : tally.total ≠ 0 → tally.count ≠ 0 ∧ tally.max ≠ 0

theorem Tally.Sound.add (sound : Tally.Sound tally) (i : Int) : (tally.add i).Sound := by
  unfold Tally.add
  split
  · rename_i counted
    have low := sound.count
    have high := sound.max
    refine ⟨by simp only; omega, ?_, ?_⟩
    · simp only
      split <;> omega
    · intro total
      simp only at total ⊢
      refine ⟨by omega, ?_⟩
      split
      · omega
      · rename_i most
        intro zero
        -- neither the old sum nor the new summand is anything but zero
        have same : i = 0 := by omega
        have before : tally.total ≠ 0 := by
          intro empty
          rw [empty, same] at total
          exact total rfl
        exact (sound.summand before).2 zero
  · exact sound

theorem Tally.Sound.foldl (sound : Tally.Sound tally) (values : List Int) : (values.foldl Tally.add tally).Sound := by
  induction values generalizing tally with
  | nil => exact sound
  | cons i values ih => exact ih (sound.add i)

theorem Tally.Sound.divisors (sound : Tally.Sound tally) : ∀ divisor ∈ tally.divisors, divisor ≠ 0 := by
  unfold Tally.divisors
  split
  · rename_i total
    obtain ⟨count, max⟩ := sound.summand total
    exact List.forall_mem_cons.mpr ⟨count, List.forall_mem_singleton.mpr max⟩
  · nofun

theorem pavg_divisors (sets : Sets) (probabilities : Table) (kind : Kind) (s : Text) :
    ∀ divisor ∈ (pavg sets probabilities kind s).2.divisors, divisor ≠ 0 := by
  unfold pavg
  dsimp only
  split
  · simp
  · rename_i counted
    exact List.forall_mem_singleton.mpr (by omega)

/-- Where an average stays in the table. -/
theorem pavg_inside (fine : Sets.Fine sets) (probabilities : Table) (kind : Kind) (s : Text) :
    (∀ cell ∈ (pavg sets probabilities kind s).2.cells, Inside cell) ↔
      (sets.adjacent kind = true → ¬ Stray (sets.inSet kind) s) := by
  have cells :
      (pavg sets probabilities kind s).2.cells = (sets.pairs kind s).flatMap (pairCells (sets.pfoldedsets kind)) := by
    unfold pavg
    dsimp only
    split <;> rfl
  rw [cells, Sets.pairs]
  cases adjacent : sets.adjacent kind with
  | true =>
    have place : ∀ pair ∈ pairsAdjacent (sets.inSet kind) s,
        (∀ cell ∈ pairCells (sets.pfoldedsets kind) pair, Inside cell) ↔ Printable pair.1 :=
      fun pair member => pairCells_inside _ (fine _ kind (mem_pairsAdjacent member))
    simp only [↓reduceIte, forall_const, List.forall_mem_flatMap]
    rw [← pairsAdjacent_printable (fun c member => fine c kind member)]
    exact forall₂_congr place
  | false =>
    simp only [Bool.false_eq_true, ↓reduceIte, false_imp_iff, iff_true, List.forall_mem_flatMap]
    intro pair member
    obtain ⟨first, second⟩ := mem_pairsSkip member
    exact (pairCells_inside _ (fine _ kind second)).mpr (fine _ kind first)

theorem Work.safe_append (first second : Work) : (first.append second).Safe ↔ first.Safe ∧ second.Safe := by
  constructor
  · intro safe
    exact ⟨⟨fun cell member => safe.cells cell (List.mem_append_left _ member),
        fun divisor member => safe.divisors divisor (List.mem_append_left _ member)⟩,
      ⟨fun cell member => safe.cells cell (List.mem_append_right _ member),
        fun divisor member => safe.divisors divisor (List.mem_append_right _ member)⟩⟩
  · intro ⟨one, other⟩
    exact ⟨List.forall_mem_append.mpr ⟨one.cells, other.cells⟩, List.forall_mem_append.mpr ⟨one.divisors, other.divisors⟩⟩

theorem pavg_safe (fine : Sets.Fine sets) (probabilities : Table) (kind : Kind) (s : Text) :
    (pavg sets probabilities kind s).2.Safe ↔ (sets.adjacent kind = true → ¬ Stray (sets.inSet kind) s) := by
  rw [← pavg_inside fine probabilities kind s]
  exact ⟨Work.Safe.cells, fun cells => ⟨cells, pavg_divisors sets probabilities kind s⟩⟩

theorem scale_safe (fine : Sets.Fine sets) (probabilities : Table) (persons : List Client) (kind : Kind) :
    (sets.scale probabilities persons kind).Safe ↔
      ∀ ac ∈ persons, sets.adjacent kind = true → ¬ Stray (sets.inSet kind) (ac.text kind) := by
  constructor
  · intro safe ac member
    refine (pavg_inside fine probabilities kind (ac.text kind)).mp fun cell inside => safe.cells cell ?_
    exact List.mem_flatMap.mpr ⟨_, List.mem_map_of_mem member, inside⟩
  · intro clear
    constructor
    · intro cell member
      obtain ⟨_, averaged, inside⟩ := List.mem_flatMap.mp member
      obtain ⟨ac, there, rfl⟩ := List.mem_map.mp averaged
      exact (pavg_inside fine probabilities kind (ac.text kind)).mpr (clear ac there) cell inside
    · refine List.forall_mem_append.mpr ⟨?_, ?_⟩
      · intro divisor member
        obtain ⟨_, averaged, inside⟩ := List.mem_flatMap.mp member
        obtain ⟨ac, -, rfl⟩ := List.mem_map.mp averaged
        exact pavg_divisors sets probabilities kind (ac.text kind) divisor inside
      · exact Tally.Sound.divisors (Tally.Sound.foldl ⟨Int.le_refl 0, Int.le_refl 0, fun total => absurd rfl total⟩ _)

theorem forall_kind {property : Kind → Prop} :
    (∀ kind, property kind) ↔ (property .nick ∧ property .user) ∧ property .gcos :=
  ⟨fun all => ⟨⟨all .nick, all .user⟩, all .gcos⟩, fun each kind => by
    cases kind with
    | nick => exact each.1.1
    | user => exact each.1.2
    | gcos => exact each.2⟩

/-- For the sets of any request that is accepted and any users, the table is indexed inside its bounds and nothing is divided
by zero exactly when no name that `pavg_adjacent` averages has a stray character. -/
theorem averages_inside_iff (accepted : List.foldlM Sets.loadsets probabilityInit texts = some sets) (probabilities : Table)
    (clients : List Client) :
    ((sets.fini.setProbabilities probabilities clients).Safe ∧ ∀ client ∈ clients, client.person = true →
        (sets.fini.getProbabilities probabilities client).Safe ∧ ∀ cell ∈ client.visits, Inside cell) ↔
      ∀ client ∈ clients, client.person = true → ∀ kind, sets.fini.adjacent kind = true →
        ¬ Stray (sets.fini.inSet kind) (client.text kind) := by
  have fine := (fine_of_accepted accepted).fini
  have persons (property : Client → Prop) : (∀ ac ∈ clients.filter Client.person, property ac) ↔
      ∀ client ∈ clients, client.person = true → property client := by
    simp only [List.mem_filter, and_imp]
  have scales : (sets.fini.setProbabilities probabilities clients).Safe ↔
      ∀ client ∈ clients, client.person = true → ∀ kind, sets.fini.adjacent kind = true →
        ¬ Stray (sets.fini.inSet kind) (client.text kind) := by
    rw [← persons, Sets.setProbabilities, Work.safe_append, Work.safe_append, scale_safe fine,
      scale_safe fine, scale_safe fine]
    simp only [forall_kind, forall_and]
  rw [scales, and_iff_left_iff_imp]
  intro clear client member person
  constructor
  · rw [Sets.getProbabilities, Work.safe_append, Work.safe_append, pavg_safe fine, pavg_safe fine, pavg_safe fine]
    exact forall_kind.mp (clear client member person)
  · intro cell visited
    have bounds : cell.1 ≤ pMaxChar - pMinChar ∧ cell.2 ≤ pMaxChar - pMinChar := by
      simp only [Client.visits, List.mem_append] at visited
      obtain (named | named) | named := visited
      · exact visits_inside _ cell named
      · exact visits_inside _ cell named
      · exact visits_inside _ cell named
    unfold Inside baseSize
    unfold pMaxChar pMinChar at bounds ⊢
    omega

/-! ### A request with a stray character -/

/-- Nothing that was loaded is lost. -/
structure Sets.Extends (sets sets' : Sets) : Prop where
  adjacent : ∀ kind, sets.adjacent kind = true → sets'.adjacent kind = true
  inSet : ∀ kind c, sets.inSet kind c = true → sets'.inSet kind c = true

theorem Sets.Extends.refl (sets : Sets) : sets.Extends sets := ⟨fun _ => id, fun _ _ => id⟩

theorem Sets.Extends.trans (first : Sets.Extends sets sets') (second : sets'.Extends sets'') : sets.Extends sets'' :=
  ⟨fun kind held => second.adjacent kind (first.adjacent kind held),
    fun kind c held => second.inSet kind c (first.inSet kind c held)⟩

theorem Sets.extends_addRange (sets : Sets) (kind : Kind) (val val2 : Int) :
    sets.Extends (sets.addRange kind val val2) := by
  refine ⟨fun _ => id, fun k c held => ?_⟩
  unfold Sets.inSet at held
  simp [Sets.inSet, Sets.addRange, held]

theorem Sets.extends_opened (sets : Sets) (kind : Kind) (folded adjacent : Bool) :
    sets.Extends (sets.opened kind folded adjacent) :=
  ⟨fun k held => by simp [Sets.opened, held], fun _ _ => id⟩

theorem Sets.extends_loadValues (loaded : Sets.loadValues sets kind s = some (sets', rest)) : sets.Extends sets' := by
  fun_induction Sets.loadValues sets kind s with
  | case1 => cases loaded
  | case2 sets s val val2 rest' ranged sets'' more ih => exact (sets.extends_addRange kind val val2).trans (ih loaded)
  | case3 sets s val val2 rest' ranged sets'' last =>
    rw [Option.some.injEq, Prod.mk.injEq] at loaded
    exact loaded.1 ▸ sets.extends_addRange kind val val2

theorem Sets.extends_loadsets (loaded : Sets.loadsets sets text = some sets') : sets.Extends sets' := by
  fun_induction Sets.loadsets sets text with
  | case1 sets => exact Option.some.inj loaded ▸ .refl sets
  | case2 => cases loaded
  | case3 => cases loaded
  | case4 sets c s kind folded begins adjacent sets'' rest values ih =>
    exact ((sets.extends_opened kind folded adjacent).trans (Sets.extends_loadValues values)).trans (ih loaded)

theorem Sets.extends_fini (sets : Sets) : sets.Extends sets.fini := by
  have step (sets : Sets) (kind : Kind) (text : Text) :
      sets.Extends (if sets.ploadedsets kind then sets else (sets.loadsets text).getD sets) := by
    split
    · exact .refl sets
    · cases loaded : sets.loadsets text with
      | none => exact .refl sets
      | some sets' => exact Sets.extends_loadsets loaded
  exact ((step sets _ _).trans (step _ _ _)).trans (step _ _ _)

theorem loadsets_of_letter (begins : letter c = some (kind, folded))
    (values : (Sets.opened sets kind folded (s.head? == some 'a')).loadValues kind
      (if s.head? == some 'a' then s.drop 1 else s) =
      some (sets', rest)) : sets.loadsets (c :: s) = sets'.loadsets rest := by
  rw [Sets.loadsets]
  split
  · rename_i missing
    rw [begins] at missing
    cases missing
  · rename_i kind' folded' begins'
    rw [begins, Option.some.injEq, Prod.mk.injEq] at begins'
    obtain ⟨rfl, rfl⟩ := begins'
    dsimp only
    split
    · rename_i missing
      rw [values] at missing
      cases missing
    · rename_i sets'' rest' values'
      rw [values, Option.some.injEq, Prod.mk.injEq] at values'
      obtain ⟨rfl, rfl⟩ := values'
      rfl

/-- The capitals for the real names, folded, and averaged by `pavg_adjacent`. -/
def capitals : Sets := (probabilityInit.opened .gcos true true).addRange .gcos 65 90

theorem capitals_accepted : List.foldlM Sets.loadsets probabilityInit ["ga65-90".toList] = some capitals := by
  have values : (probabilityInit.opened .gcos true true).loadValues .gcos "65-90".toList = some (capitals, []) := by
    rw [Sets.loadValues]
    rfl
  have loaded : probabilityInit.loadsets "ga65-90".toList = some capitals := by
    have begins : letter 'g' = some (.gcos, true) := rfl
    refine (loadsets_of_letter begins values).trans ?_
    rw [Sets.loadsets]
  rw [List.foldlM_cons, loaded]
  rfl

/-- A user with a control character in front of a capital. -/
def bold : Client := ⟨1, "ann".toList, "ann".toList, "\x02A".toList, true, true, true⟩

/-- The control character is subtracted from as if it were in the set. -/
theorem bold_outside : ∃ sets, List.foldlM Sets.loadsets probabilityInit ["ga65-90".toList] = some sets ∧
    ¬ (sets.fini.setProbabilities (fun _ _ => 0) [bold]).Safe := by
  refine ⟨capitals, capitals_accepted, ?_⟩
  intro safe
  have fine := (fine_of_accepted capitals_accepted).fini
  have grown := capitals.extends_fini
  rw [Sets.setProbabilities, Work.safe_append, scale_safe fine] at safe
  refine safe.2 bold (by decide) (grown.adjacent .gcos rfl) ?_
  exact ⟨[], [], '\x02', 'A', [], rfl, nofun, by decide, grown.inSet .gcos 'A' rfl, .inl ⟨rfl, rfl⟩⟩

theorem averages_inside_capitals :
    ((capitals.fini.setProbabilities (fun _ _ => 0) [bold]).Safe ∧ ∀ client ∈ [bold], client.person = true →
        (capitals.fini.getProbabilities (fun _ _ => 0) client).Safe ∧ ∀ cell ∈ client.visits, Inside cell) ↔
      ∀ client ∈ [bold], client.person = true → ∀ kind, capitals.fini.adjacent kind = true →
        ¬ Stray (capitals.fini.inSet kind) (client.text kind) :=
  averages_inside_iff capitals_accepted (fun _ _ => 0) [bold]

end SolidIrcd.Probability
