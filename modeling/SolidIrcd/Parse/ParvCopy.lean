import SolidIrcd.Lib.CString
import SolidIrcd.Parse.Grammar

/-! `make_parv_copy` writes the parameters of a command as one text again, and the parameter loop of `parse` finds them
in it. -/

namespace SolidIrcd.Parse

open Scan

/-- The loop of `make_parv_copy`; it is at `parv[1]` where `first`. -/
def parvCopy (first : Bool) : List Text → Text
  | [] => []
  | tmp :: parv =>
    (if first then [] else [' ']) ++ ((if parv = [] then [':'] else []) ++ (tmp ++ parvCopy false parv))

/-- `make_parv_copy`, of `parv[1]` on. -/
def makeParvCopy (pbuf : Text) (parv : List Text) : Text := strcpy pbuf (parvCopy true parv)

/-- The parameters that the loop finds in a buffer. -/
def resplit (room : Nat) (bytes : Text) : List Text :=
  (paramLoop room bytes 0).2.1.map (textAt (paramLoop room bytes 0).2.2)

/-- A parameter vector of `parse`: only the last can be empty, hold a space or start with a colon. -/
structure Parv (parv : List Text) : Prop where
  nonempty : parv ≠ []
  words : ∀ parameter ∈ parv.dropLast, Word parameter
  clean : ∀ parameter ∈ parv, nul ∉ parameter

theorem parvCopy_opens (nonempty : parv ≠ []) : (parvCopy false parv).head? = some ' ' := by
  cases parv with
  | nil => exact absurd rfl nonempty
  | cons tmp parv => rfl

theorem params_parvCopy (first : Bool) {parv : List Text} (nonempty : parv ≠ [])
    (words : ∀ parameter ∈ parv.dropLast, Word parameter)
    {room : Nat} (few : parv.length ≤ max 1 room) : params room (parvCopy first parv) = parv := by
  induction parv generalizing first room with
  | nil => exact absurd rfl nonempty
  | cons tmp parv ih =>
    -- a space in front does not matter
    suffices spaced : params room
      (' ' :: ((if parv = [] then [':'] else []) ++ (tmp ++ parvCopy false parv))) = tmp :: parv by
      cases first with
      | false => exact spaced
      | true => rwa [params_spaces] at spaced
    cases parv with
    | nil =>
      have last := params_trailing room tmp
      rwa [if_pos rfl, parvCopy, List.append_nil]
    | cons next parv =>
      have size : (tmp :: next :: parv).length = parv.length + 2 := rfl
      obtain ⟨more, rfl⟩ : ∃ more, room = more + 2 := ⟨room - 2, by omega⟩
      have word : Word tmp := words tmp List.mem_cons_self
      have opens := parvCopy_opens (List.cons_ne_nil next parv)
      have fewer : (next :: parv).length ≤ max 1 (more + 1) := by
        simp only [List.length_cons] at few ⊢
        omega
      have later := ih false (List.cons_ne_nil next parv)
        (fun parameter member => words parameter (List.mem_cons_of_mem _ member)) fewer
      rw [if_neg (List.cons_ne_nil next parv), List.nil_append, ← List.cons_append, params_word word (.inr opens), later]

theorem nul_not_mem_parvCopy (first : Bool) {parv : List Text} (clean : ∀ parameter ∈ parv, nul ∉ parameter) :
    nul ∉ parvCopy first parv := by
  induction parv generalizing first with
  | nil => exact List.not_mem_nil
  | cons tmp parv ih =>
    obtain ⟨here, later⟩ := List.forall_mem_cons.mp clean
    rw [parvCopy]
    simp only [List.mem_append, not_or]
    refine ⟨?_, ?_, here, ih false later⟩
    · cases first <;> decide
    · split <;> decide

theorem resplit_makeParvCopy (good : Parv parv) (few : parv.length ≤ max 1 room) (pbuf : Text) :
    resplit room (makeParvCopy pbuf parv) = parv := by
  have clean := nul_not_mem_parvCopy true good.clean
  have ended := ended_terminated (parvCopy true parv) (pbuf.drop ((parvCopy true parv).length + 1))
  rw [resplit, makeParvCopy, strcpy, paramLoop_params room ended (Nat.zero_le _), textAt_terminated clean]
  exact params_parvCopy true good.nonempty good.words few

theorem Middles.words (middles : Middles text parameters) : ∀ parameter ∈ parameters, Word parameter := by
  induction middles with
  | nil => simp
  | cons gap word rest ih => exact List.forall_mem_cons.mpr ⟨word, ih⟩

theorem Grammar.words {most : Nat} (grammar : Grammar most text parameters) :
    ∀ parameter ∈ parameters.dropLast, Word parameter := by
  cases grammar with
  | plain _ rest => exact fun parameter member => rest.words parameter (List.dropLast_subset _ member)
  | colon _ _ rest => simpa using rest.words
  | last _ rest => simpa using rest.words

/-- Whatever line `parse` splits, the copy of its parameters is split into the same ones, by any loop that may find as
many. -/
theorem parse_makeParvCopy (env : Env) (cptr : Client) (beyond : Text) {run : Run} (clean : nul ∉ text)
    (ran : parse env cptr (text ++ nul :: beyond) = run) (split : run.outcome.isSplit = true) (nonempty : 2 ≤ run.parc)
    (few : run.parc ≤ max 2 (room + 1)) (pbuf : Text) :
    Parv run.parameters ∧ resplit room (makeParvCopy pbuf run.parameters) = run.parameters := by
  obtain ⟨word, behind, mptr, -, -, -, -, grammar⟩ := parse_splits env cptr beyond clean ran split
  have count : run.parameters.length + 1 = run.parc := by rw [Run.parameters, List.length_map, Run.parc]
  have good : Parv run.parameters := by
    refine ⟨?_, grammar.words, ?_⟩
    · intro empty
      rw [empty, List.length_nil] at count
      omega
    · intro parameter member
      obtain ⟨offset, -, rfl⟩ := List.mem_map.mp member
      exact nul_not_mem_textAt _ _
  exact ⟨good, resplit_makeParvCopy good (by omega) pbuf⟩

theorem parse_makeParvCopy_nick :
    let run := parse alone unregistered ("NICK  a b :c d".toList ++ [nul])
    Parv run.parameters ∧ resplit 14 (makeParvCopy [] run.parameters) = run.parameters := by
  intro run
  exact parse_makeParvCopy alone unregistered [] (by decide) rfl (by decide +kernel)
    (by decide +kernel) (by decide +kernel) []

end SolidIrcd.Parse
