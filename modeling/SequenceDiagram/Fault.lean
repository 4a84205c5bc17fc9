import SequenceDiagram.Text.Quoted

/-!
# Faults

The causes for which an operation is given up. A line that is not understood is no fault: it is
reported and the rest of the text is read.

## Main definitions

* `digitLimit`: how many digits a numeral or a written number may have
* `digitCount`: how many digits a number is written with
* `Fault`: the causes
* `Fault.message`: what is said about each
* `Fault.check`: a result, unless there are faults
-/

namespace SequenceDiagram

/-- How many digits a numeral or a written number may have. -/
def digitLimit : Nat := 4300

/-- How many digits an integer is written with. -/
def digitCount (n : Int) : Nat := (Nat.repr n.natAbs).length

/-- A cause for which an operation is given up. -/
inductive Fault where
  /-- A palette was asked for by a name that none of the available ones has. -/
  | unknownTheme (name : String) (available : List String)
  /-- A colour was set for a use that a palette does not have. -/
  | unknownColour (use : String)
  /-- A numeral has more than `digitLimit` digits. -/
  | longNumeral (digits : Nat)
  /-- A whole number was to be written that has more than `digitLimit` digits. -/
  | longNumber
  /-- A whole number out of the range of decimals was to be worked out beside a decimal. -/
  | largeOperand
  /-- A whole number was to be halved whose half is out of the range of decimals. -/
  | largeHalf
  /-- A separator was added outside an alternative. -/
  | straySeparator
  /-- The outermost block was to be closed. -/
  | closedRoot
deriving DecidableEq

namespace Fault

/-- The limit on digits, as messages state it. -/
def limitText : String :=
  "Exceeds the limit (" ++ toString digitLimit ++ " digits) for integer string conversion"

/-- What is said about a fault. -/
def message : Fault → String
  | unknownTheme name available =>
    "Unknown theme " ++ Text.quoted name ++ ". Available themes: " ++ ", ".intercalate available
  | unknownColour use =>
    "DiagramColors.__init__() got " ++
      -- The name that stands for the palette itself is taken, and no name of a colour.
      if use = "self" then "multiple values for argument 'self'"
      else "an unexpected keyword argument '" ++ use ++ "'"
  | longNumeral digits =>
    limitText ++ ": value has " ++ toString digits ++
      " digits; use sys.set_int_max_str_digits() to increase the limit"
  | longNumber => limitText ++ "; use sys.set_int_max_str_digits() to increase the limit"
  | largeOperand => "int too large to convert to float"
  | largeHalf => "integer division result too large for a float"
  | straySeparator => "else markers belong to an alt block"
  | closedRoot => "cannot close the root container"

/-- A result, unless there are faults; of several, the first one counts. -/
def check (faults : List Fault) (result : α) : Except Fault α :=
  match faults with
  | [] => .ok result
  | f :: _ => .error f

@[simp] theorem check_nil (result : α) : check [] result = .ok result := rfl

theorem check_eq_ok_iff {faults : List Fault} {result r : α} :
    check faults result = .ok r ↔ faults = [] ∧ result = r := by
  cases faults <;> simp [check]

end Fault

end SequenceDiagram
