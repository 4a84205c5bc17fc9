import SequenceDiagram.Proofs.Drawing.Labels
import SequenceDiagram.Proofs.Markup.Nested
import SequenceDiagram.Proofs.Text.Unescape

/-!
# Texts of a document

The texts of a document can be read off it, since no text in it can be taken for a tag, and they
say what the diagram says: no label is lost, altered or put in another place on the way from the
tree through shapes and markup into the document.

## Main definitions

* `Piece.content?`: the characters up to the end of a text
* `Piece.texts`: the contents of the texts in a row of pieces

## Main results

* `Shape.texts_markup`: the texts in the markup of a shape
* `Picture.texts_markup`: the texts in the document of a picture
* `Picture.document_eq_placeholder_iff`: which picture has no document of its own
* `compile_texts`: the texts in the document of a description
-/

namespace SequenceDiagram

namespace Piece

/-- The characters up to the closing tag of a text, if nothing else stands before it. -/
def content? : List Piece → Option (List Char)
  | char c :: ps => (content? ps).map (c :: ·)
  | closing .text :: _ => some []
  | _ => none

/-- The contents of the texts in a row of pieces, in their order. -/
def texts : List Piece → List (Option String)
  | [] => []
  | opening .text _ :: ps => (content? ps).map String.ofList :: texts ps
  | _ :: ps => texts ps

@[simp] theorem texts_nil : texts [] = [] := rfl

@[simp] theorem texts_closing (tag : Tag) (ps : List Piece) :
    texts (closing tag :: ps) = texts ps := rfl

@[simp] theorem texts_char (cs : List Char) (ps : List Piece) :
    texts (cs.map char ++ ps) = texts ps := by
  induction cs with
  | nil => rfl
  | cons c cs ih => exact ih

theorem texts_opening {tag : Tag} (h : tag ≠ .text) (attributes : List (String × String))
    (ps : List Piece) : texts (opening tag attributes :: ps) = texts ps := by
  cases tag <;> first | rfl | exact absurd rfl h

theorem content?_append (cs : List Char) (ps : List Piece) :
    content? (cs.map char ++ closing .text :: ps) = some cs := by
  induction cs with
  | nil => rfl
  | cons c cs ih => simp [content?, ih]

end Piece

open Piece

namespace Markup

/-- An element that is no text has the texts that are in it. -/
theorem texts_element {tag : Tag} (h : tag ≠ .text) (attributes : List Attribute)
    (children : List Markup) (ps : List Piece) :
    texts ((element tag attributes children).pieces ++ ps) =
      texts (children.flatMap pieces ++ closing tag :: ps) := by
  rw [pieces, piecesAll_eq_flatMap, List.cons_append, texts_opening h, List.append_assoc]
  rfl

/-- The content of a text that is written into a document. -/
theorem texts_text (attributes : List Attribute) (content : String) (ps : List Piece) :
    texts ((element .text attributes [text content]).pieces ++ ps) =
      some (Text.escape content) :: texts ps := by
  have hp : (element .text attributes [text content]).pieces ++ ps =
      opening .text (attributes.map Attribute.written) ::
        ((Text.escape content).toList.map char ++ closing .text :: ps) := by
    simp [pieces, text]
  rw [hp, texts, content?_append, texts_char, texts_closing, Option.map_some,
    String.ofList_toList]

end Markup

/-! ## Shapes and pictures -/

namespace Shape

variable (p : Palette)

mutual

/-- **The texts in the markup of a shape** are its texts in escaped form. -/
theorem texts_markup (ps : List Piece) : (s : Shape) →
    texts ((s.markup p).pieces ++ ps) = s.labels.map (some ∘ Text.escape) ++ texts ps
  | area .. => by rw [markup, Markup.texts_element (by decide)]; rfl
  | box .. => by rw [markup, Markup.texts_element (by decide)]; rfl
  | line .. => by rw [markup, Markup.texts_element (by decide)]; rfl
  | polygon .. => by rw [markup, Markup.texts_element (by decide)]; rfl
  | text .. => by rw [markup, Markup.texts_text]; rfl
  | group x y shapes => by
    rw [markup, shifted, Markup.texts_element (by decide), markupAll_eq_map,
      texts_flatMap_markup (closing .g :: ps) shapes, texts_closing, labels, labelsAll_eq_flatMap]

theorem texts_flatMap_markup (ps : List Piece) : (ss : List Shape) →
    texts ((ss.map (markup p)).flatMap Markup.pieces ++ ps) =
      (ss.flatMap labels).map (some ∘ Text.escape) ++ texts ps
  | [] => rfl
  | s :: ss => by
    rw [List.map_cons, List.flatMap_cons, List.append_assoc, texts_markup _ s,
      texts_flatMap_markup ps ss, List.flatMap_cons, List.map_append, List.append_assoc]

end

end Shape

/-- The definition of a gradient has no texts. -/
theorem Palette.texts_gradient (p : Palette) (name : String) (ps : List Piece) :
    texts ((p.gradient name).pieces ++ ps) = texts ps := by
  simp [gradient, gradientStop, Markup.pieces, texts_opening]

/-- **The texts in the document of a picture** are its texts in escaped form. -/
theorem Picture.texts_markup (p : Picture) (palette : Palette) (font : Option String) :
    texts (p.markup palette font).pieces =
      (p.shapes.flatMap Shape.labels).map (some ∘ Text.escape) := by
  rw [← List.append_nil (p.markup palette font).pieces, markup, SequenceDiagram.document,
    Markup.texts_element (by decide), List.flatMap_cons, List.append_assoc,
    Markup.texts_element (by decide), List.flatMap_singleton, Palette.texts_gradient, texts_closing,
    Shape.texts_flatMap_markup, texts_closing, texts_nil, List.append_nil]

/-! ## Documents -/

/-- A document begins with a tag, as what stands for an empty picture does not. -/
theorem Picture.render_markup_ne_placeholder (p : Picture) (palette : Palette)
    (font : Option String) : (p.markup palette font).render ≠ placeholder := by
  intro h
  have hl := congrArg String.toList h
  rw [Markup.toList_render] at hl
  simp [markup, SequenceDiagram.document, Markup.pieces, Piece.write, placeholder] at hl

/-- The document that is written for a picture stands for an empty one exactly if it is empty. -/
theorem Picture.document_eq_placeholder_iff {p : Picture} {palette : Palette}
    {font : Option String} {document : String} (h : p.document palette font = .ok document) :
    document = placeholder ↔ p.shapes = [] := by
  constructor
  · intro hp
    rcases document_eq_ok h with ⟨hnil, -⟩ | hdoc
    · exact hnil
    · exact absurd (hdoc.symm.trans hp) (render_markup_ne_placeholder p palette font)
  · intro hnil
    rw [document_of_shapes_eq_nil hnil] at h
    exact (Except.ok.inj h).symm

/-- **No label is lost, doubled, altered or moved** on the way into the document. A document that
does not stand for an empty picture can be read as a row of tags and characters in one way only,
and the contents of its texts, read back from their escaped form, are what the diagram says: the
lines of the label of every participant twice, and then, a block before the elements in it, the
lines of messages and notes, the keywords of frames, and comments and conditions in brackets. -/
theorem compile_texts {text : String} {options : Options} {c : Compilation}
    (h : compile text options = .ok c) (hp : c.document ≠ Picture.placeholder) :
    ∃ ps : List Piece,
      (∀ qs : List Piece, (∀ q ∈ qs, q.IsSafe) ∧ c.document.toList = qs.flatMap Piece.write ↔
        qs = ps) ∧
      (texts ps).map (Option.map Text.unescape) = (read text).diagram.labels.map some := by
  obtain ⟨palette, -, -, hd, -, -⟩ := compile_eq_ok_iff.1 h
  have hdoc := (Picture.document_eq_ok hd).resolve_left fun hn => hp hn.2
  have hs := ((read text).diagram.draw.1.isSafe_markup palette options.font).pieces
  have hm : (read text).diagram.MemorySound := Diagram.memorySound_empty.readText text
  rw [hdoc, Markup.toList_render]
  refine ⟨((read text).diagram.draw.1.markup palette options.font).pieces, ?_, ?_⟩
  · intro qs
    constructor
    · rintro ⟨hq, hw⟩
      exact Piece.flatMap_write_inj hq hs hw.symm
    · rintro rfl
      exact ⟨hs, rfl⟩
  · rw [Picture.texts_markup, hm.labels_draw, List.map_map]
    simp

/-- A message that looks like markup, in an alternative and with a number. -/
theorem compile_texts_injection :
    let text := "autonumber 7\nalt x<y\nA->B: </text>&amp;\nelse \"\nstate over A: a\\nb"
    ∃ c, ∃ ps : List Piece, compile text {} = .ok c ∧ c.document ≠ Picture.placeholder ∧
      (∀ p ∈ ps, p.IsSafe) ∧ c.document.toList = ps.flatMap Piece.write ∧
      (texts ps).map (Option.map Text.unescape) =
        ["A", "A", "B", "B", "alt", "[x<y]", "[7] </text>&amp;", "[\"]", "a", "b"].map some := by
  intro text
  have hok : (compile text {}).isOk = true := by decide +kernel
  obtain ⟨c, hc⟩ := exists_eq_ok_of_isOk hok
  have hshapes : (read text).diagram.draw.1.shapes.isEmpty = false := by decide +kernel
  have hne : c.document ≠ Picture.placeholder := by
    obtain ⟨palette, -, -, hd, -, -⟩ := compile_eq_ok_iff.1 hc
    intro hp
    rw [(Picture.document_eq_placeholder_iff hd).1 hp] at hshapes
    simp at hshapes
  have hlabels : (read text).diagram.labels =
      ["A", "A", "B", "B", "alt", "[x<y]", "[7] </text>&amp;", "[\"]", "a", "b"] := by
    decide +kernel
  obtain ⟨ps, hps, ht⟩ := compile_texts hc hne
  obtain ⟨hs, hw⟩ := (hps ps).2 rfl
  rw [hlabels] at ht
  exact ⟨c, ps, hc, hne, hs, hw, ht⟩

end SequenceDiagram
