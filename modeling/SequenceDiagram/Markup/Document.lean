import SequenceDiagram.Drawing.Picture
import SequenceDiagram.Markup.Shape

/-!
# Documents

A picture becomes a document of its own: one outermost element, with the definition of the
gradient before the shapes. A picture without shapes is replaced by a sentence.

## Main definitions

* `documentAttributes`: the attributes of the outermost element
* `document`: a document of given measures
* `Picture.markup`, `Picture.document`: the document of a picture, as markup and as text
-/

namespace SequenceDiagram

/-- The attributes of the outermost element. A font that is not empty is its style. -/
def documentAttributes (width height : Quantity) (font : Option String) : List Attribute :=
  [.verbatim "xmlns" "http://www.w3.org/2000/svg", .verbatim "version" "1.1",
    .measure "width" width, .measure "height" height] ++
  match font with
  | some f => if f.isEmpty then [] else [.verbatim "style" ("font-family:" ++ Text.escape f)]
  | none => []

/-- A document of the given measures. -/
def document (width height : Quantity) (definitions body : List Markup) (font : Option String) :
    Markup :=
  .element .svg (documentAttributes width height font) (.element .defs [] definitions :: body)

namespace Picture

/-- What stands in place of a document when there is nothing to draw. -/
def placeholder : String := "Nothing to draw yet."

/-- The document of a picture as markup. -/
def markup (p : Picture) (palette : Palette) (font : Option String) : Markup :=
  SequenceDiagram.document (.whole p.width) (.whole p.height) [palette.gradient gradientName]
    (p.shapes.map (Shape.markup palette)) font

/-- The document of a picture as text. -/
def document (p : Picture) (palette : Palette) (font : Option String) : Except Fault String :=
  if p.shapes.isEmpty then .ok placeholder else Markup.write [p.markup palette font]

@[simp] theorem document_of_shapes_eq_nil {p : Picture} (h : p.shapes = []) (palette : Palette)
    (font : Option String) : p.document palette font = .ok placeholder := by
  simp [document, h]

/-- The document of a picture is its markup, or stands for a picture without shapes. -/
theorem document_eq_ok {p : Picture} {palette : Palette} {font : Option String}
    {document : String} (h : p.document palette font = .ok document) :
    p.shapes = [] ∧ document = placeholder ∨ document = (p.markup palette font).render := by
  unfold Picture.document at h
  split at h
  · rename_i hs
    exact .inl ⟨List.isEmpty_iff.1 hs, by simpa using h.symm⟩
  · rw [Markup.write_eq_ok_iff] at h
    exact .inr (by simpa using h.2.symm)

end Picture

end SequenceDiagram
