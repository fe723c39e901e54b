import SolidIrcd.Channel.MaskMatch
import SolidIrcd.UserBan.Print

/-! What KLINE and GLINE share: the parameters, the duration and the target mask. -/

namespace SolidIrcd.UserBan

open Scan (Text)
open Mask (matchMask splitFirst)

/-- The mask at the first `@`, or a host alone. -/
def userHost (target : Text) : Text × Text := (splitFirst '@' target).getD (['*'], target)

/-- The duration, the target and the reason, from the parameters behind the command;
`usual` is the duration when there is none. -/
def banParams (usual : Int) (parv : List Text) : Option (Int × Text × Text) :=
  let given (reason : Option Text) : Text := reason.getD "<no reason>".toList
  match parv with
  | [] => none
  | first :: rest =>
    let (lval, target) := Decimal.strtol first
    if target ≠ [] then some (usual, first, given rest.head?)
    else
      match rest with
      | [] => none
      | target :: rest => some (Decimal.toInt lval, target, given rest.head?)

/-- Negative times, and times greater than a year, are permanent. -/
def banMinutes (minutes : Int) : Int := if minutes < 0 ∨ minutes > 365 * 24 * 60 then 0 else minutes

/-- The text of `rbuf`: the reason with the date behind it. -/
def datedReason (reason date : Text) : Text := (reason ++ " (".toList ++ date ++ [')']).take 511

/-- A mask that matches two texts at random is refused. -/
def tooWide (user host : Text) : Bool :=
  matchMask user "akjhfkahfasfjd".toList && matchMask host "ldksjfl.kss...kdjfd.jfklsjf".toList

theorem tooWide_of_head (star : c ≠ '*') (question : c ≠ '?') (differs : toUpper 'l' ≠ toUpper c) (user host : Text) :
    tooWide user (c :: host) = false := by
  have apart : matchMask (c :: host) "ldksjfl.kss...kdjfd.jfklsjf".toList = false :=
    Mask.matchMask_of_head star question differs _ _
  rw [tooWide, apart, Bool.and_false]

theorem banMinutes_nonneg (minutes : Int) : 0 ≤ banMinutes minutes := by
  unfold banMinutes
  split <;> omega

theorem userHost_parts (target : Text) :
    (∀ c, c ∈ (userHost target).1 ∨ c ∈ (userHost target).2 → c ∈ target ∨ c = '*') ∧
      (userHost target).1.length + (userHost target).2.length ≤ target.length + 1 := by
  unfold userHost
  cases parts : Mask.splitFirst '@' target with
  | none =>
    refine ⟨by simp [or_comm], ?_⟩
    simp only [Option.getD_none, List.length_cons, List.length_nil]
    omega
  | some pair =>
    obtain ⟨user, host⟩ := pair
    obtain rfl := Mask.splitFirst_text parts
    simp only [Option.getD_some, List.mem_append, List.mem_cons, List.length_append, List.length_cons]
    constructor
    · rintro c (front | back)
      · exact .inl (.inl front)
      · exact .inl (.inr (.inr back))
    · omega

theorem banParams_parts (params : banParams usual parv = some (minutes, target, reason)) :
    target ∈ parv ∧ (reason ∈ parv ∨ reason = "<no reason>".toList) ∧
      target.length + reason.length ≤ parv.flatten.length + 11 := by
  unfold banParams at params
  simp only at params
  split at params
  next => cases params
  next first rest =>
    split at params
    next =>
      simp only [Option.some.injEq, Prod.mk.injEq] at params
      obtain ⟨-, rfl, rfl⟩ := params
      cases rest with
      | nil => simp
      | cons second rest => simp; omega
    next =>
      split at params
      next => cases params
      next second rest =>
        simp only [Option.some.injEq, Prod.mk.injEq] at params
        obtain ⟨-, rfl, rfl⟩ := params
        cases rest with
        | nil => simp
        | cons third rest => simp; omega

/-- A character that the ban code does not put in itself is one of the target. -/
theorem mem_target (made : makeHostbasedBan (some (userHost target).1) (userHost target).2 = some ban)
    (foreign : c ≠ '*' ∧ c ≠ '.' ∧ c ≠ '/' ∧ isDigit c = false) (member : c ∈ ban.userText ∨ c ∈ ban.hostText) :
    c ∈ target := by
  obtain ⟨parts, -⟩ := userHost_parts target
  obtain ⟨star, dot, slash, digit⟩ := foreign
  have inside : c ∈ (userHost target).1 ∨ c ∈ (userHost target).2 := by
    obtain user | host := member
    · obtain text | text := userText_cases made
      · exact .inl (text ▸ user)
      · rw [text, List.mem_singleton] at user
        exact absurd user star
    · obtain there | same | same | number := mem_hostText made host
      · exact .inr there
      · exact absurd same dot
      · exact absurd same slash
      · simp [digit] at number
  exact (parts c inside).resolve_right star

end SolidIrcd.UserBan
