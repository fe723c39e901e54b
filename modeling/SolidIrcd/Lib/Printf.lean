import SolidIrcd.Lib.Decimal

/-! `vsnprintf` of the GNU C library, for formats without flags, width and precision. A
conversion that it does not know takes no argument and is written out, without its length
modifiers; an integer in the place of a string is taken for its address. -/

namespace SolidIrcd.Printf

open Scan (Text)

inductive Arg where
  | str (text : Text)
  | int (value : Int)
  deriving DecidableEq, Repr

def isModifier (c : Char) : Bool := c ∈ "hlqLjzZt".toList

/-- What lies in memory: the string at an address, or nothing that may be read. -/
abbrev Memory := Int → Option Text

def Memory.string (memory : Memory) (address : Int) : Option Text :=
  if address = 0 then some "(null)".toList else memory address

/-- What a conversion writes, and the arguments behind it. Without a result, the program ends. -/
def convert (memory : Memory) (spec : Char) (args : List Arg) : Option (Text × List Arg) :=
  if spec = 's' then
    match args with
    | .str text :: args => some (text, args)
    | .int value :: args => (memory.string value).map (·, args)
    | [] => none
  else if spec = 'd' then
    match args with
    | .int value :: args => some (Decimal.print value, args)
    | _ => none
  else if spec = '%' then some (['%'], args)
  -- the other conversions, and a number read from a string, are left out
  else if spec ∈ "iouxXeEfFgGaAbBcCSpnm".toList then none
  else some (['%', spec], args)

/-- `inside` tells that a percent sign has been read and its conversion not yet. -/
def format (memory : Memory) (inside : Bool) : Text → List Arg → Option Text
  | [], _ => if inside then none else some []
  | c :: rest, args =>
    if inside then
      if isModifier c then format memory true rest args
      else (convert memory c args).bind fun (text, args) => (format memory false rest args).map (text ++ ·)
    else if c = '%' then format memory true rest args
    else (format memory false rest args).map (c :: ·)

def vsnprintf (memory : Memory) (pattern : Text) (args : List Arg) : Option Text := format memory false pattern args

variable (memory : Memory)

theorem format_literal (plain : '%' ∉ text) (rest : Text) (args : List Arg) :
    format memory false (text ++ rest) args = (format memory false rest args).map (text ++ ·) := by
  induction text with
  | nil => simp
  | cons c text ih =>
    obtain ⟨first, others⟩ := not_or.mp (List.mem_cons.not.mp plain)
    rw [List.cons_append, format, if_neg Bool.false_ne_true, if_neg (Ne.symm first), ih others, Option.map_map]
    rfl

theorem format_conversion {spec : Char} (direct : isModifier spec = false) (rest : Text) (args : List Arg) :
    format memory false ('%' :: spec :: rest) args =
      (convert memory spec args).bind fun (text, args) => (format memory false rest args).map (text ++ ·) := by
  rw [format, if_neg Bool.false_ne_true, if_pos rfl, format, if_pos rfl, direct, if_neg Bool.false_ne_true]

@[simp] theorem format_str (rest text : Text) (args : List Arg) :
    format memory false ('%' :: 's' :: rest) (.str text :: args) = (format memory false rest args).map (text ++ ·) :=
  format_conversion memory (by decide) rest _

/-- A length without a conversion behind it. -/
theorem format_space (rest : Text) (args : List Arg) :
    format memory false ('%' :: 'l' :: ' ' :: rest) args = (format memory false rest args).map ("% ".toList ++ ·) := by
  rw [format, if_neg Bool.false_ne_true, if_pos rfl, format, if_pos rfl, if_pos (by decide), format, if_pos rfl,
    if_neg (by decide)]
  rfl

/-- The next string is then looked for at the address that the integer stands for. -/
theorem format_address (rest : Text) (value : Int) (args : List Arg) :
    format memory false ('%' :: 's' :: rest) (.int value :: args) =
      (memory.string value).bind fun text => (format memory false rest args).map (text ++ ·) := by
  rw [format_conversion memory (by decide), convert, if_pos rfl]
  cases memory.string value <;> rfl

end SolidIrcd.Printf
