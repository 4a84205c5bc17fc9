import SequenceDiagram.Quantity.Numeral
import SequenceDiagram.Text.Escape

/-!
# Markup

A document is a tree of elements with attributes, in which measures are still quantities. It
becomes text in one place only: an element is an opening tag, what is in it, and a closing tag.

The measures of an element are worked out before what is in it is written, and are written after
that. So the first fault met is well defined, and it is what becomes of the whole text.

## Main definitions

* `Tag`, `Attribute`: what an opening tag is made of
* `Markup`: markup as a tree
* `Markup.render`: markup as text
* `Markup.faults`: the faults met in writing markup
* `Markup.write`: markup as text, unless there are faults

## Main results

* `Markup.renderAll_append`, `Markup.faultsAll_append`: elements are written one after another
* `Markup.write_eq_ok_iff`: what is written has no faults and is the markup as text
-/

namespace SequenceDiagram

/-- The tags of a document. -/
inductive Tag where
  | svg
  | defs
  | linearGradient
  | stop
  | g
  | rect
  | line
  | polygon
  | text
deriving DecidableEq

/-- The name of a tag. -/
def Tag.name : Tag → String
  | svg => "svg"
  | defs => "defs"
  | linearGradient => "linearGradient"
  | stop => "stop"
  | g => "g"
  | rect => "rect"
  | line => "line"
  | polygon => "polygon"
  | text => "text"

/-- A piece of the value of an attribute. -/
inductive Fragment where
  /-- Text as it is written. -/
  | verbatim (s : String)
  | measure (q : Quantity)
deriving DecidableEq

namespace Fragment

/-- The written form of a piece. -/
def render : Fragment → String
  | verbatim s => s
  | measure q => q.numeral

/-- The measure that a piece consists of. -/
def measure? : Fragment → Option Quantity
  | verbatim _ => none
  | measure q => some q

end Fragment

/-- An attribute, with the pieces of its value. -/
structure Attribute where
  name : String
  value : List Fragment
deriving DecidableEq

namespace Attribute

/-- An attribute whose value is a text. -/
def verbatim (name value : String) : Attribute := ⟨name, [.verbatim value]⟩

/-- An attribute whose value is a measure. -/
def measure (name : String) (q : Quantity) : Attribute := ⟨name, [.measure q]⟩

/-- The written form of an attribute, with the space before it. -/
def render (a : Attribute) : String :=
  " " ++ a.name ++ "=\"" ++ String.join (a.value.map Fragment.render) ++ "\""

/-- The measures that occur in some attributes. -/
def measures (attributes : List Attribute) : List Quantity :=
  attributes.flatMap fun a => a.value.filterMap Fragment.measure?

/-- The faults met in working out the measures of some attributes. -/
def reckoningFaults (attributes : List Attribute) : List Fault :=
  (measures attributes).filterMap Quantity.reckoningFault?

/-- The faults met in writing the measures of some attributes. -/
def writingFaults (attributes : List Attribute) : List Fault :=
  (measures attributes).filterMap Quantity.writingFault?

end Attribute

/-- Markup as a tree. -/
inductive Markup where
  /-- Text that is already in its written form. -/
  | verbatim (s : String)
  | element (tag : Tag) (attributes : List Attribute) (children : List Markup)

namespace Markup

/-- Text in which the characters of the markup are escaped. -/
def text (s : String) : Markup := verbatim (Text.escape s)

/-- An opening tag. -/
def openTag (tag : Tag) (attributes : List Attribute) : String :=
  "<" ++ tag.name ++ String.join (attributes.map Attribute.render) ++ ">"

/-- A closing tag. -/
def closeTag (tag : Tag) : String := "</" ++ tag.name ++ ">"

mutual

/-- Markup as text. -/
def render : Markup → String
  | verbatim s => s
  | element tag attributes children =>
    openTag tag attributes ++ renderAll children ++ closeTag tag

/-- Several pieces of markup as text. -/
def renderAll : List Markup → String
  | [] => ""
  | m :: ms => m.render ++ renderAll ms

end

mutual

/-- The faults met in writing markup, in the order in which they are met. -/
def faults : Markup → List Fault
  | verbatim _ => []
  | element _ attributes children =>
    Attribute.reckoningFaults attributes ++ faultsAll children ++
      Attribute.writingFaults attributes

/-- The faults met in writing several pieces of markup. -/
def faultsAll : List Markup → List Fault
  | [] => []
  | m :: ms => m.faults ++ faultsAll ms

end

/-- Several pieces of markup as text, unless there are faults. -/
def write (ms : List Markup) : Except Fault String := Fault.check (faultsAll ms) (renderAll ms)

/-- An opening tag, unless there are faults. -/
def writeOpenTag (tag : Tag) (attributes : List Attribute) : Except Fault String :=
  Fault.check (Attribute.reckoningFaults attributes ++ Attribute.writingFaults attributes)
    (openTag tag attributes)

@[simp] theorem renderAll_nil : renderAll [] = "" := rfl

@[simp] theorem renderAll_cons (m : Markup) (ms : List Markup) :
    renderAll (m :: ms) = m.render ++ renderAll ms := rfl

theorem renderAll_append (ms ns : List Markup) :
    renderAll (ms ++ ns) = renderAll ms ++ renderAll ns := by
  induction ms with
  | nil => simp
  | cons m ms ih => simp [ih, String.append_assoc]

@[simp] theorem faultsAll_nil : faultsAll [] = [] := rfl

@[simp] theorem faultsAll_cons (m : Markup) (ms : List Markup) :
    faultsAll (m :: ms) = m.faults ++ faultsAll ms := rfl

theorem faultsAll_append (ms ns : List Markup) :
    faultsAll (ms ++ ns) = faultsAll ms ++ faultsAll ns := by
  induction ms with
  | nil => rfl
  | cons m ms ih => simp [ih]

@[simp] theorem write_nil : write [] = .ok "" := rfl

theorem write_eq_ok_iff {ms : List Markup} {s : String} :
    write ms = .ok s ↔ faultsAll ms = [] ∧ renderAll ms = s := Fault.check_eq_ok_iff

end Markup

end SequenceDiagram
