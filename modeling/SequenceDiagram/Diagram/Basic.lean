import SequenceDiagram.Element.Heights
import SequenceDiagram.Fault
import SequenceDiagram.Participant

/-!
# Diagrams

A diagram that is being built: its participants, its body, the block that is open, the counter
of messages, and the heights computed so far. New elements go to the end of the open block.

## Main definitions

* `Diagram`: the state of a diagram
* `Diagram.register`, `Diagram.mention`: mentions of participants
* `Diagram.add`, `Diagram.addAt`: a new element in the open block or at a path
* `Diagram.openBlock`, `Diagram.closeBlock`: entering and leaving blocks
* `Diagram.addSignal`, `Diagram.addNote`, `Diagram.addSeparator`: the leaves
* `Diagram.heightAt`: the height of the element at a path

## Main results

* `Diagram.register_twice`: a second mention of a name changes nothing
-/

namespace SequenceDiagram

/-- The state of a diagram that is being built. -/
structure Diagram where
  roster : Roster := []
  /-- The elements of the outermost block. -/
  body : List Element := []
  /-- The path of the open block. -/
  active : Path := []
  /-- The number of the next message, if messages are numbered. -/
  counter : Option Int := none
  heights : Heights := []

namespace Diagram

/-- The diagram before anything is said. -/
def empty : Diagram := {}

/-- The outermost block. -/
def root (d : Diagram) : Element := .block .sequence d.body

/-- The element at a path. -/
def element? (d : Diagram) (p : Path) : Option Element := d.root.get? p

/-- The elements of the block at a path. -/
def childrenAt (d : Diagram) (p : Path) : List Element :=
  ((d.element? p).map Element.children).getD []

/-- The kind of the open block. -/
def activeKind (d : Diagram) : BlockKind := ((d.element? d.active).bind Element.kind?).getD .sequence

/-- The diagram after a mention of a name. -/
def register (d : Diagram) (name : String) (label : Option String) : Diagram :=
  { d with roster := d.roster.register name label }

/-- The diagram after a mention of every participant that an element is about. -/
def mention (d : Diagram) (e : Element) : Diagram :=
  e.participants.foldl (fun d name => d.register name none) d

/-- The diagram with an element at the end of the block at a path. -/
def addAt (d : Diagram) (p : Path) (e : Element) : Diagram :=
  { d with body := (d.root.append p e).children, heights := d.heights.forget p }

/-- The diagram with an element at the end of the open block. -/
def add (d : Diagram) (e : Element) : Diagram := d.addAt d.active e

/-- The diagram with a new block at the end of the open one, which is now open. -/
def openBlock (d : Diagram) (k : BlockKind) : Diagram :=
  { d.add (.block k []) with active := d.active ++ [(d.childrenAt d.active).length] }

/-- The diagram after the open block is closed. -/
def closeBlock (d : Diagram) : Except Fault Diagram :=
  if d.active = [] then .error .closedRoot else .ok { d with active := d.active.dropLast }

/-- Lines of text with the number of a message before the first. -/
def numberLines (n : Int) (lines : List String) : List String :=
  lines.modifyHead fun l => "[" ++ toString n ++ "] " ++ l

/-- A message with its number, if messages are numbered. -/
def number (d : Diagram) (s : Signal) : Except Fault (Signal × Diagram) :=
  match d.counter with
  | none => .ok (s, d)
  | some n =>
    if digitLimit < digitCount n then .error .longNumber
    else .ok ({ s with text := numberLines n s.text }, { d with counter := some (n + 1) })

/-- The diagram with a message at the end of the open block. Its participants are mentioned
before it is numbered, and remain so if that fails. -/
def addSignal (d : Diagram) (s : Signal) : Option Fault × Diagram :=
  let d := d.mention (.signal s)
  match d.number s with
  | .ok (s, d) => (none, d.add (.signal s))
  | .error f => (some f, d)

/-- The diagram with a note at the end of the open block. -/
def addNote (d : Diagram) (n : Note) : Diagram := (d.mention (.note n)).add (.note n)

/-- The diagram with a separator at the end of the open block, which must be an alternative. -/
def addSeparator (d : Diagram) (condition : String) : Except Fault Diagram :=
  if d.activeKind.isAlternative then .ok (d.add (.separator condition))
  else .error .straySeparator

/-- The height of the element at a path, and the diagram that remembers it. -/
def heightAt (d : Diagram) (p : Path) : Nat × Diagram :=
  match d.element? p with
  | none => (0, d)
  | some e =>
    let (h, m) := d.heights.measure p e
    (h, { d with heights := m })

@[simp] theorem root_addAt (d : Diagram) (p : Path) (e : Element) :
    (d.addAt p e).root = d.root.append p e := by
  cases p <;> rfl

@[simp] theorem element?_root (d : Diagram) : d.element? [] = some d.root := by
  simp [element?]

@[simp] theorem body_empty : empty.body = [] := rfl

@[simp] theorem mention_signal (d : Diagram) (s : Signal) :
    d.mention (.signal s) = (d.register s.source none).register s.target none := rfl

@[simp] theorem mention_note (d : Diagram) (n : Note) :
    d.mention (.note n) = d.register n.participant none := rfl

theorem register_twice (d : Diagram) (name : String) (label other : Option String) :
    (d.register name label).register name other = d.register name label := by
  unfold register
  rw [Roster.register_of_mem ((Roster.mem_names_register ..).2 (.inr rfl))]

end Diagram

end SequenceDiagram
