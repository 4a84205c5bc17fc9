import SequenceDiagram.Proofs.Diagram.Event
import SequenceDiagram.Proofs.Statement.Precedence

/-!
# Written elements

An element is written down along a walk through it, one statement for each event, and a
participant as a declaration. The statements can be written on lines if names, labels and texts
can.

## Main definitions

* `Event.statement`, `Participant.declaration`: the statements of an event and of a participant
* `Signal.IsWritable`, `Note.IsWritable`, `BlockKind.IsWritable`: what statements can say
* `Element.IsWritable`: the same of an element in a block of some kind
* `Participant.IsDeclarable`: a participant that a declaration gives back

## Main results

* `Event.isWritable_statement`, `Participant.isWritable_declaration`: the statements are writable
-/

namespace SequenceDiagram

/-! ## Lines of text -/

/-- Lines that can be written behind the colon of a message or a note. -/
structure AreTextLines (ls : List String) : Prop extends Text.AreLabelLines ls where
  head : ∀ l ∈ ls.head?, l.toList.head? ≠ some ' '
  last : ∀ l ∈ ls.getLast?, l.toList.getLast? ≠ some '\r'

theorem Text.AreLabelLines.newline_notMem {ls : List String} (h : AreLabelLines ls) :
    '\n' ∉ (label ls).toList := notMem_label (by simp) (by simp) h.newline

theorem AreTextLines.isText {ls : List String} (h : AreTextLines ls) : IsText (Text.label ls) := by
  refine ⟨⟨h.newline_notMem, ?_⟩, ?_⟩
  · intro hm
    obtain ⟨l, hl, hr⟩ := Text.getLast?_label hm (by simp)
    exact h.last l hl hr
  · intro hm
    obtain ⟨l, hl, hs⟩ := Text.head?_label hm (by simp)
    exact h.head l hl hs

/-! ## Statements of events -/

/-- The statement that opens a block. The outermost block has none. -/
def BlockKind.opening : BlockKind → Statement
  | sequence => .blank
  | parallel => .openParallel
  | framed keyword label => if keyword = "opt" then .openOption else .openLoop label
  | alternative condition => .openAlternative condition

/-- The statement that closes a block. The outermost block has none. -/
def BlockKind.closing : BlockKind → Statement
  | sequence => .blank
  | parallel => .closeParallel
  | framed .. | alternative .. => .closeFrame

/-- The statement that an event is written as. -/
def Event.statement : Event → Statement
  | signal s => .signal s.source s.double s.dotted s.openHead s.target (Text.label s.text)
  | note n => .state n.participant (Text.label n.text)
  | separator condition => .separator condition
  | enter k => k.opening
  | leave k => k.closing

/-- The participants that an event is about. -/
def Event.participants : Event → List String
  | signal s => [s.source, s.target]
  | note n => [n.participant]
  | separator _ | enter _ | leave _ => []

/-- A message that a statement can say. -/
structure Signal.IsWritable (s : Signal) : Prop where
  source : IsName s.source
  target : IsName s.target
  text : AreTextLines s.text

/-- A note that a statement can say. -/
structure Note.IsWritable (n : Note) : Prop where
  participant : IsName n.participant
  text : AreTextLines n.text

/-- A kind of block that a statement can open: not the outermost one, and in a frame only an option
without a label or a loop with one. -/
def BlockKind.IsWritable : BlockKind → Prop
  | sequence => False
  | parallel => True
  | framed keyword label => keyword = "opt" ∧ label = "" ∨ keyword = "loop" ∧ IsLabel label
  | alternative condition => IsLabel condition

/-- An event that a statement can say. -/
def Event.IsWritable : Event → Prop
  | signal s => s.IsWritable
  | note n => n.IsWritable
  | separator condition => IsLabel condition
  | enter k | leave k => k.IsWritable

/-- An element that statements can say in a block of kind `k`: separators stand in alternatives
only. -/
def Element.IsWritable (k : BlockKind) : Element → Prop
  | signal s => s.IsWritable
  | note n => n.IsWritable
  | separator condition => k.isAlternative = true ∧ IsLabel condition
  | block inner _ => inner.IsWritable

theorem Event.isWritable_statement {ev : Event} (h : ev.IsWritable) :
    ev.statement.IsWritable := by
  cases ev with
  | signal s => exact ⟨h.source, h.target, h.text.isText⟩
  | note n => exact ⟨h.participant, h.text.isText⟩
  | separator c => exact h
  | enter k =>
    cases k with
    | sequence => exact trivial
    | parallel => exact trivial
    | alternative c => exact h
    | framed keyword label =>
      rcases h with ⟨rfl, -⟩ | ⟨rfl, hl⟩
      · exact trivial
      · exact hl
  | leave k => cases k <;> exact trivial

/-! ## Declarations -/

namespace Participant

/-- The statement that declares a participant. -/
def declaration (p : Participant) : Statement := .aliased (Text.label p.text) p.name

/-- A participant that its declaration gives back. -/
structure IsDeclarable (p : Participant) : Prop where
  name : IsName p.name
  text : Text.AreLabelLines p.text
  quote : ∀ l ∈ p.text, '"' ∉ l.toList
  position : p.position = 0

theorem isWritable_declaration {p : Participant} (h : p.IsDeclarable) :
    p.declaration.IsWritable := by
  constructor
  · exact ⟨h.text.newline_notMem, Text.notMem_label (by simp) (by simp) h.quote⟩
  · exact ⟨h.name.newline, h.name.quote⟩

/-- A declaration gives the participant back, which has no other label than its own. -/
theorem create_declaration {p : Participant} (h : p.IsDeclarable) :
    create p.name (some (Text.label p.text)) = p := by
  rw [create, Option.getD_some, Text.labelLines_label h.text, ← h.position]

end Participant

end SequenceDiagram
