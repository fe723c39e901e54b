import SolidIrcd.Parse.Grammar

/-! What `parse` charges a client for a line. -/

namespace SolidIrcd.Parse

open Scan

/-- The bytes behind the command word, where `parse` gets as far as to add them to `since`: not for a numeric, and
not for a command it does not know. -/
def charge (treeParse : Text → Option Message) (text : Text) : Option Nat :=
  if isNumeric text then none
  else
    match treeParse (text.takeWhile (· != ' ')) with
    | none => none
    | some message =>
      if _raw : ' ' ∈ text ∧ message.func = .mPrivate ∧ isRaw (afterFirst ' ' text) ∧ ':' ∈ afterFirst ' ' text then
        charge treeParse (afterFirst ':' (afterFirst ' ' text))
      else some (if ' ' ∈ text then (afterFirst ' ' text).length else text.length)
termination_by text.length
decreasing_by
  have first := length_afterFirst_lt _raw.1
  have second := length_afterFirst_lt _raw.2.2.2
  omega

/-- A line that has no command at all is not charged either. -/
def lineCharge (env : Env) (cptr : Client) (text : Text) : Option Nat :=
  if commandText env cptr text = [] then none else charge env.treeParse (commandText env cptr text)

/-- Every known command is charged: what is not, leads to a numeric or to a command that does not exist. -/
theorem uncharged {treeParse : Text → Option Message} (free : charge treeParse text = none) :
    ∃ target, Reaches treeParse text target ∧
      (isNumeric target = true ∨ treeParse (target.takeWhile (· != ' ')) = none) := by
  fun_induction charge treeParse text with
  | case1 text numeric => exact ⟨text, .here, .inl numeric⟩
  | case2 text _ unknown => exact ⟨text, .here, .inr unknown⟩
  | case3 text _ message known raw ih =>
    obtain ⟨target, reaches, ends⟩ := ih free
    exact ⟨target, .raw known raw.2.1 raw.2.2.1 raw.2.2.2 reaches, ends⟩
  | case4 => cases free

/-- What is added to `since`, by the mode that exempts and by NO_OPER_FLOOD. -/
def penalty (noMsgThrottle isAnOper : Bool) (receiveM behind : Nat) : Nat :=
  if noMsgThrottle then 0
  else if isAnOper then if receiveM % 10 = 0 then 0 else 1
  else 2 + behind / 120

theorem two_le_penalty (receiveM behind : Nat) : 2 ≤ penalty false false receiveM behind := Nat.le_add_right 2 _

end SolidIrcd.Parse
