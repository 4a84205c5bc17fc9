import SequenceDiagram.Diagram.Reading
import SequenceDiagram.Markup.Document

/-!
# Compiling a description

A text is read and the diagram it describes is drawn, in one step. Lines that were not understood
are reported beside the document.

## Main definitions

* `Options`: the choices of a user
* `Compilation`: a document and the report that goes with it
* `compile`: from a text to a document and its report
-/

namespace SequenceDiagram

/-- The choices of a user; what is not chosen has its default. -/
structure Options where
  theme : Option String := none
  stroke : Option String := none
  fill : Option String := none
  arrowFill : Option String := none
  gradientTop : Option String := none
  gradientBottom : Option String := none
  font : Option String := none
  /-- What separates the messages of a report. -/
  separator : Option String := none

/-- The palette of the options: a theme with single colours replaced. -/
def Options.palette (o : Options) : Except Fault Palette := do
  let p ← Palette.named o.theme
  return p.replace [(.stroke, o.stroke), (.fill, o.fill), (.arrowFill, o.arrowFill),
    (.gradientTop, o.gradientTop), (.gradientBottom, o.gradientBottom)]

/-- A document and the report that goes with it. -/
structure Compilation where
  diagnostics : List Diagnostic
  document : String
  separator : String

namespace Compilation

/-- Whether nothing is reported. -/
def ok (c : Compilation) : Bool := c.diagnostics.isEmpty

/-- The report as one text. -/
def report (c : Compilation) : String := Diagnostic.report c.separator c.diagnostics

end Compilation

/-- The diagram that a text describes, and what is reported about the text. -/
def read (text : String) : Reading := Diagram.empty.readText Form.table text

/-- The document of a text and its report. -/
def compile (text : String) (options : Options) : Except Fault Compilation := do
  let palette ← options.palette
  let r := SequenceDiagram.read text
  match r.fault with
  | some f => .error f
  | none =>
    let document ← r.diagram.draw.1.document palette options.font
    return { diagnostics := r.report
             document := document
             separator := options.separator.getD "\n" }

end SequenceDiagram
