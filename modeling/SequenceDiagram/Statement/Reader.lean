import SequenceDiagram.Statement.Basic
import SequenceDiagram.Statement.Scan

/-!
# Reading statements

One reader for each form of statement, or for each family of forms. A reader takes a whole line,
without regard to what else the line might be. Every form but the comment may be indented.

## Main definitions

* `Statement.readAliased?`, `Statement.readParticipant?`: participants
* `Statement.readOpenParallel?`, `Statement.readWord?`, `Statement.readLabelled?`: blocks
* `Statement.readNumberFrom?`, `Statement.readNumberOff?`: numbering
* `Statement.readState?`, `Statement.readSignal?`: notes and messages
* `Statement.readComment?`, `Statement.readBlank?`: lines that say nothing
-/

namespace SequenceDiagram.Statement

open Scan

/-- A participant with a label in quotes and a name. -/
def readAliased? (line : List Char) : Option Statement := do
  let rest ← word? "participant".toList (blanks line)
  let label ← word? ['"'] (spaces rest)
  let rest ← word? ['"'] (label.dropWhile (· ≠ '"'))
  let rest ← word? "as".toList (spaces rest)
  let name ← quotable? (spaces rest)
  return .aliased (String.ofList (label.takeWhile (· ≠ '"'))) (String.ofList name)

/-- A participant whose name is its label. -/
def readParticipant? (line : List Char) : Option Statement := do
  let rest ← word? "participant".toList (blanks line)
  if rest.head? = some ' ' ∨ rest.head? = some '"' then
    let name ← quotable? (spaces rest)
    return .participant (String.ofList name)
  else none

/-- A word and nothing else, as a statement. -/
def readWord? (w : List Char) (s : Statement) (line : List Char) : Option Statement := do
  let rest ← word? w (blanks line)
  if atEnd (spaces rest) then some s else none

/-- The word `parallel` and an opening brace. -/
def readOpenParallel? (line : List Char) : Option Statement := do
  let rest ← word? "parallel".toList (blanks line)
  let rest ← word? ['\x7b'] (spaces rest)
  if atEnd (spaces rest) then some .openParallel else none

/-- A keyword and its label. -/
def readLabelled? (w : List Char) (s : String → Statement) (line : List Char) :
    Option Statement := do
  let rest ← word? w (blanks line)
  let label ← label? rest
  return s (String.ofList label)

/-- Numbering from a numeral on. -/
def readNumberFrom? (line : List Char) : Option Statement := do
  let rest ← word? "autonumber".toList (blanks line)
  let numeral := (spaces rest).takeWhile Char.isDigit
  let rest := spaces ((spaces rest).dropWhile Char.isDigit)
  if numeral ≠ [] ∧ atEnd rest then some (.numberFrom (String.ofList numeral)) else none

/-- The end of numbering. -/
def readNumberOff? (line : List Char) : Option Statement := do
  let rest ← word? "autonumber".toList (blanks line)
  let rest ← word? "off".toList (spaces rest)
  if atEnd (spaces rest) then some .numberOff else none

/-- The characters of a name before a colon. -/
def isNameChar (c : Char) : Bool := c ≠ ':' && c ≠ ' '

/-- A name, a colon and a text, each possibly after spaces. -/
def readNamedText? (cs : List Char) : Option (List Char × List Char) := do
  let rest := spaces cs
  let text ← word? [':'] (spaces (rest.dropWhile isNameChar))
  let text ← text? (spaces text)
  return (rest.takeWhile isNameChar, text)

/-- A note over a participant. -/
def readState? (line : List Char) : Option Statement := do
  let rest ← word? "state".toList (blanks line)
  let rest ← word? "over".toList (spaces rest)
  let (name, text) ← readNamedText? rest
  return .state (String.ofList name) (String.ofList text)

/-- The characters of the name before an arrow. -/
def isSourceChar (c : Char) : Bool := c ≠ '-' && c ≠ ' ' && c ≠ '<'

/-- What follows an arrow up to its first head, and whether it has two dashes. -/
def readShaft? (cs : List Char) : Option (Bool × List Char) :=
  match word? "-->".toList cs with
  | some rest => some (true, rest)
  | none => (word? "->".toList cs).map fun rest => (false, rest)

/-- A message from one participant to another. -/
def readSignal? (line : List Char) : Option Statement := do
  let source := (blanks line).takeWhile isSourceChar
  let rest := spaces ((blanks line).dropWhile isSourceChar)
  let double := rest.head? = some '<'
  let (dotted, rest) ← readShaft? (past '<' rest)
  let openHead := rest.head? = some '>'
  let (target, text) ← readNamedText? (past '>' rest)
  return .signal (String.ofList source) double dotted openHead (String.ofList target)
    (String.ofList text)

/-- A comment, which starts at the very beginning of the line. -/
def readComment? (line : List Char) : Option Statement := do
  let rest ← word? ['#'] line
  let _ ← text? rest
  return .comment

/-- A line of spaces and tabs. -/
def readBlank? (line : List Char) : Option Statement :=
  if atEnd (blanks line) then some .blank else none

end SequenceDiagram.Statement
