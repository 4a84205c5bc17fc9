import SequenceDiagram.Proofs.Diagram.Recovery
import SequenceDiagram.Proofs.Markup.Piece
import SequenceDiagram.Proofs.Quantity.Digits

/-!
# Documents are well nested

Whatever a text says and whatever colours and font are chosen, the document is markup in which
every tag is one of the picture. Texts and options are escaped wherever they are put into it, so
they are characters between tags or in the value of an attribute, and nothing else.

## Main definitions

* `Attribute.IsSafe`, `Markup.IsSafe`: markup whose texts are harmless

## Main results

* `Markup.IsSafe.pieces`, `Markup.IsSafe.entitiesOnly`: safe markup is written in safe pieces, with
  ampersands in entities only
* `Shape.isSafe_markup`, `Picture.isSafe_markup`: shapes and pictures are safe in every palette
* `compile_nested`: the document of a text
-/

namespace SequenceDiagram

open Text (Harmless EntitiesOnly)

/-! ## Harmless texts and safe markup -/

/-- Numerals are harmless. -/
theorem Quantity.harmless_numeral (q : Quantity) : Harmless q.numeral.toList := by
  refine .of_forall ?_
  intro c hc
  rcases q.numeric_numeral c hc with hd | hs
  · refine ⟨⟨?_, ?_, ?_, ?_⟩, ?_⟩ <;> rintro rfl <;> exact absurd hd (by decide)
  · have hmarks : (['-', '+', '.', 'e'].all fun c => decide (Text.IsPlain c ∧ c ≠ '&')) = true := by
      decide
    simpa using List.all_eq_true.1 hmarks c hs

namespace Attribute

/-- An attribute has a name, and the pieces of its value are harmless. -/
def IsSafe (a : Attribute) : Prop :=
  Piece.IsName a.name ∧ ∀ f ∈ a.value, Harmless f.render.toList

theorem isSafe_verbatim {name value : String} (hn : Piece.IsName name)
    (hv : Harmless value.toList) : (verbatim name value).IsSafe :=
  ⟨hn, List.forall_mem_singleton.2 hv⟩

theorem isSafe_measure {name : String} (hn : Piece.IsName name) (q : Quantity) :
    (measure name q).IsSafe :=
  ⟨hn, List.forall_mem_singleton.2 q.harmless_numeral⟩

theorem IsSafe.harmless_written {a : Attribute} (h : a.IsSafe) :
    Harmless a.written.2.toList := by
  rw [written, String.toList_join, List.flatMap_map]
  exact .flatMap h.2

theorem IsSafe.entitiesOnly {a : Attribute} (h : a.IsSafe) :
    EntitiesOnly (Piece.writeAttribute a.written) := by
  have hname : EntitiesOnly a.name.toList := .of_notMem (h.1.notMem (by decide) (by decide))
  have hspace : EntitiesOnly [' '] := .of_notMem (by decide)
  have hequals : EntitiesOnly ['=', '"'] := .of_notMem (by decide)
  have hclose : EntitiesOnly ['"'] := .of_notMem (by decide)
  have hvalue := (hequals.append h.harmless_written.entitiesOnly).append hclose
  exact hspace.append (hname.append hvalue)

end Attribute

/-- Markup whose texts are harmless, between the tags and in the values of attributes. -/
inductive Markup.IsSafe : Markup → Prop
  | verbatim {s : String} (h : Harmless s.toList) : IsSafe (.verbatim s)
  | element {tag : Tag} {attributes : List Attribute} {children : List Markup}
      (ha : ∀ a ∈ attributes, a.IsSafe) (hc : ∀ m ∈ children, IsSafe m) :
      IsSafe (.element tag attributes children)

namespace Markup.IsSafe

variable {m : Markup}

/-- Safe markup is written in safe pieces. -/
theorem pieces (h : m.IsSafe) : ∀ p ∈ m.pieces, p.IsSafe := by
  induction h with
  | verbatim h => simpa [Markup.pieces, Piece.IsSafe] using h.plain
  | element ha hc ih =>
    simp only [Markup.pieces, piecesAll_eq_flatMap, List.forall_mem_cons, List.forall_mem_append,
      List.forall_mem_flatMap]
    refine ⟨?_, ih, trivial, by simp⟩
    simp only [Piece.IsSafe, List.forall_mem_map]
    exact fun a h => ⟨(ha a h).1, (ha a h).harmless_written.plain⟩

/-- In safe markup every ampersand begins an entity. -/
theorem entitiesOnly (h : m.IsSafe) : EntitiesOnly m.render.toList := by
  -- The marks and the names of a tag are no ampersands, and what is in an element comes in pieces.
  have hname : ∀ t : Tag, EntitiesOnly t.name.toList := by
    intro t
    refine .of_notMem ?_
    cases t <;> decide
  induction h with
  | verbatim h => exact h.entitiesOnly
  | @element t as ms ha hc ih =>
    have hlt : EntitiesOnly ['<'] := .of_notMem (by decide)
    have hslash : EntitiesOnly ['<', '/'] := .of_notMem (by decide)
    have hgt : EntitiesOnly ['>'] := .of_notMem (by decide)
    have hattributes : EntitiesOnly ((as.map Attribute.written).flatMap Piece.writeAttribute) := by
      rw [List.flatMap_map]
      exact .flatMap fun a h => (ha a h).entitiesOnly
    have hopen : EntitiesOnly (openTag t as).toList := by
      rw [toList_openTag]
      exact hlt.append (((hname t).append hattributes).append hgt)
    have hinner : EntitiesOnly (renderAll ms).toList := by
      rw [toList_renderAll, List.flatMap_assoc]
      refine .flatMap ?_
      intro m hm
      rw [← toList_render]
      exact ih m hm
    have hclose : EntitiesOnly (closeTag t).toList := by
      rw [closeTag, String.toList_append, String.toList_append]
      exact (hslash.append (hname t)).append hgt
    rw [render, String.toList_append, String.toList_append]
    exact (hopen.append hinner).append hclose

end Markup.IsSafe

/-! ## Shapes and pictures -/

/-- Between the members of a list stands nothing but the separator. -/
theorem eq_or_mem_of_mem_intersperse {α : Type} {sep x : α} {xs : List α}
    (h : x ∈ xs.intersperse sep) : x = sep ∨ x ∈ xs := by
  induction xs with
  | nil => simp at h
  | cons y ys ih =>
    cases ys with
    | nil => exact .inr (by simpa using h)
    | cons z zs =>
      rw [List.intersperse_cons_cons, List.mem_cons, List.mem_cons] at h
      rcases h with rfl | rfl | h
      · exact .inr List.mem_cons_self
      · exact .inl rfl
      · exact (ih h).imp_right (List.mem_cons_of_mem y)

namespace Attribute

variable (p : Palette) (paint : Paint)

theorem isSafe_areaStyle : (areaStyle p paint).IsSafe := by
  refine isSafe_verbatim (by decide) (.around_escape ?_ _ ?_) <;> exact .of_all (by decide)

theorem isSafe_boxStyle : (boxStyle p paint).IsSafe := by
  refine isSafe_verbatim (by decide) (.around_escape (.around_escape ?_ _ ?_) _ ?_) <;>
    exact .of_all (by decide)

theorem isSafe_lineStyle : (lineStyle p).IsSafe := by
  refine isSafe_verbatim (by decide) (.around_escape ?_ _ ?_) <;> exact .of_all (by decide)

theorem isSafe_polygonStyle : (polygonStyle p paint).IsSafe := by
  refine isSafe_verbatim (by decide) (.around_escape (.around_escape ?_ _ ?_) _ ?_) <;>
    exact .of_all (by decide)

/-- The style of a text says where it is and which colour it has, one, both or none of them. -/
theorem isSafe_textStyle {centred : Bool} {a : Attribute} (h : textStyle? p centred = some a) :
    a.IsSafe := by
  simp only [textStyle?, Option.ite_none_left_eq_some] at h
  rw [← Option.some.inj h.2]
  refine isSafe_verbatim (by decide) ?_
  rw [String.toList_intercalate, List.intercalate, ← List.flatMap_id]
  refine .flatMap ?_
  intro cs hcs
  rcases eq_or_mem_of_mem_intersperse hcs with rfl | hcs
  · exact .of_all (by decide)
  · obtain ⟨s, hs, rfl⟩ := List.mem_map.1 hcs
    rcases List.mem_append.1 hs with hs | hs
    · split at hs
      · rw [List.mem_singleton.1 hs]
        exact .of_all (by decide)
      · simp at hs
    · split at hs
      · split at hs
        · simp at hs
        · rw [List.mem_singleton.1 hs]
          exact .toList_append (.of_all (by decide)) (Text.harmless_escape _)
      · simp at hs

theorem isSafe_dashes {dotted : Bool} {a : Attribute} (h : dashes? dotted = some a) : a.IsSafe := by
  cases dotted with
  | false => simp [dashes?] at h
  | true =>
    rw [← Option.some.inj h]
    exact isSafe_verbatim (by decide) (.of_all (by decide))

theorem isSafe_rectangle (x y width height radius : Quantity) :
    ∀ a ∈ rectangle x y width height radius, a.IsSafe := by
  simp only [rectangle, List.forall_mem_cons]
  exact ⟨isSafe_measure (by decide) x, isSafe_measure (by decide) y,
    isSafe_measure (by decide) width, isSafe_measure (by decide) height,
    isSafe_measure (by decide) radius, by simp⟩

theorem harmless_coordinates (x y : Quantity) :
    ∀ f ∈ coordinates x y, Harmless f.render.toList := by
  simp only [coordinates, List.forall_mem_cons]
  exact ⟨x.harmless_numeral, .of_all (by decide), y.harmless_numeral, by simp⟩

theorem harmless_pointList (points : List (Quantity × Quantity)) :
    ∀ f ∈ pointList points, Harmless f.render.toList := by
  intro f hf
  obtain ⟨fs, hfs, hf⟩ := List.mem_flatten.1 hf
  rcases eq_or_mem_of_mem_intersperse hfs with rfl | hfs
  · rw [List.mem_singleton.1 hf]
    exact .of_all (by decide)
  · obtain ⟨q, -, rfl⟩ := List.mem_map.1 hfs
    exact harmless_coordinates q.1 q.2 f hf

end Attribute

open Attribute

theorem isSafe_shifted (x y : Quantity) {ms : List Markup} (h : ∀ m ∈ ms, m.IsSafe) :
    (shifted x y ms).IsSafe := by
  refine .element (List.forall_mem_singleton.2 ⟨(by decide : Piece.IsName "transform"), ?_⟩) h
  refine List.forall_mem_append.2 ⟨List.forall_mem_cons.2 ⟨.of_all (by decide), ?_⟩, ?_⟩
  · exact harmless_coordinates x y
  · exact List.forall_mem_singleton.2 (.of_all (by decide))

namespace Shape

variable (p : Palette)

mutual

/-- **The markup of a shape is safe** in every palette. -/
theorem isSafe_markup : (s : Shape) → (s.markup p).IsSafe
  | area x y width height paint radius => by
    refine .element (List.forall_mem_append.2 ⟨isSafe_rectangle _ _ _ _ _, ?_⟩) (by simp)
    exact List.forall_mem_singleton.2 (isSafe_areaStyle p paint)
  | box x y width height paint radius => by
    refine .element (List.forall_mem_append.2 ⟨isSafe_rectangle _ _ _ _ _, ?_⟩) (by simp)
    exact List.forall_mem_singleton.2 (isSafe_boxStyle p paint)
  | line x₁ y₁ x₂ y₂ dotted => by
    refine .element (List.forall_mem_append.2 ⟨?_, ?_⟩) (by simp)
    · simp only [List.forall_mem_cons]
      exact ⟨isSafe_measure (by decide) x₁, isSafe_measure (by decide) y₁,
        isSafe_measure (by decide) x₂, isSafe_measure (by decide) y₂, isSafe_lineStyle p, by simp⟩
    · exact fun a h => isSafe_dashes (Option.mem_toList.1 h)
  | polygon points paint => by
    refine .element ?_ (by simp)
    simp only [List.forall_mem_cons]
    exact ⟨⟨(by decide : Piece.IsName "points"), harmless_pointList points⟩,
      isSafe_polygonStyle p paint, by simp⟩
  | text x y content centred => by
    refine .element (List.forall_mem_append.2 ⟨?_, ?_⟩)
      (List.forall_mem_singleton.2 (.verbatim (Text.harmless_escape content)))
    · simp only [List.forall_mem_cons]
      exact ⟨isSafe_measure (by decide) x, isSafe_measure (by decide) y, by simp⟩
    · exact fun a h => isSafe_textStyle p (Option.mem_toList.1 h)
  | group x y shapes => by
    refine isSafe_shifted x y ?_
    rw [markupAll_eq_map, List.forall_mem_map]
    exact forall_isSafe_markup shapes

/-- The markup of several shapes is safe. -/
theorem forall_isSafe_markup : (ss : List Shape) → ∀ s ∈ ss, (s.markup p).IsSafe
  | [] => by simp
  | s :: ss => List.forall_mem_cons.2 ⟨isSafe_markup s, forall_isSafe_markup ss⟩

end

end Shape

theorem isSafe_gradientStop {offset : String} (ho : Harmless offset.toList) (colour : String) :
    (gradientStop offset colour).IsSafe := by
  refine .element ?_ (by simp)
  simp only [List.forall_mem_cons]
  refine ⟨isSafe_verbatim (by decide) ho, isSafe_verbatim (by decide) (.around_escape ?_ _ ?_),
    by simp⟩ <;> exact .of_all (by decide)

theorem Palette.isSafe_gradient (p : Palette) {name : String} (hn : Harmless name.toList) :
    (p.gradient name).IsSafe := by
  refine .element ?_ ?_
  · simp only [List.forall_mem_cons]
    refine ⟨isSafe_verbatim (by decide) hn, isSafe_verbatim (by decide) ?_,
      isSafe_verbatim (by decide) ?_, isSafe_verbatim (by decide) ?_,
      isSafe_verbatim (by decide) ?_, by simp⟩ <;> exact .of_all (by decide)
  · simp only [List.forall_mem_cons]
    refine ⟨isSafe_gradientStop ?_ _, isSafe_gradientStop ?_ _, by simp⟩ <;>
      exact .of_all (by decide)

theorem isSafe_documentAttributes (width height : Quantity) (font : Option String) :
    ∀ a ∈ documentAttributes width height font, a.IsSafe := by
  refine List.forall_mem_append.2 ⟨?_, ?_⟩
  · simp only [List.forall_mem_cons]
    refine ⟨isSafe_verbatim (by decide) ?_, isSafe_verbatim (by decide) ?_,
      isSafe_measure (by decide) width, isSafe_measure (by decide) height, by simp⟩ <;>
      exact .of_all (by decide)
  · split
    · split
      · simp
      · exact List.forall_mem_singleton.2 (isSafe_verbatim (by decide)
          (.toList_append (.of_all (by decide)) (Text.harmless_escape _)))
    · simp

/-- **The document of a picture is safe**, whatever the palette and the font. -/
theorem Picture.isSafe_markup (p : Picture) (palette : Palette) (font : Option String) :
    (p.markup palette font).IsSafe := by
  refine .element (isSafe_documentAttributes _ _ font) (List.forall_mem_cons.2 ⟨?_, ?_⟩)
  · exact .element (by simp) (List.forall_mem_singleton.2
      (palette.isSafe_gradient (.of_all (by decide))))
  · rw [List.forall_mem_map]
    exact Shape.forall_isSafe_markup palette p.shapes

/-! ## Documents -/

/-- **The document of a text is well nested**, unless it stands for an empty picture, whatever the
text and the options say. It consists of the tags of the elements of its markup and of characters,
and it cannot be read in another way: attributes have names and their values stand in double quotes,
and neither the values nor the characters between tags are brackets or quotes. One element spans the
whole document, and the tags in it are balanced. Every ampersand begins an entity. -/
theorem compile_nested {text : String} {options : Options} {c : Compilation}
    (h : compile text options = .ok c) :
    (read text).diagram.draw.1.shapes = [] ∧ c.document = Picture.placeholder ∨
      ∃ palette ps, options.palette = .ok palette ∧
        ps = ((read text).diagram.draw.1.markup palette options.font).pieces ∧
        c.document.toList = ps.flatMap Piece.write ∧
        (∀ p ∈ ps, p.IsSafe) ∧
        (∀ qs, (∀ q ∈ qs, q.IsSafe) → c.document.toList = qs.flatMap Piece.write → qs = ps) ∧
        (∃ attributes inner, ps = .opening .svg attributes :: (inner ++ [.closing .svg]) ∧
          Balanced inner) ∧
        EntitiesOnly c.document.toList := by
  obtain ⟨palette, hp, -, hd, -, -⟩ := compile_eq_ok_iff.1 h
  refine (Picture.document_eq_ok hd).imp_right ?_
  intro hdoc
  have hm := (read text).diagram.draw.1.isSafe_markup palette options.font
  rw [hdoc, Markup.toList_render]
  refine ⟨palette, _, hp, rfl, rfl, hm.pieces, ?_, ?_, ?_⟩
  · intro qs hqs hq
    exact Piece.flatMap_write_inj hqs hm.pieces hq.symm
  · -- The outermost element is the only one of the document itself.
    rw [Picture.markup, document, Markup.pieces, Markup.piecesAll_eq_flatMap]
    exact ⟨_, _, rfl, Markup.balanced_flatMap_pieces _⟩
  · rw [← Markup.toList_render]
    exact hm.entitiesOnly

/-- A label, a condition, a colour and a font that look like markup. -/
theorem compile_nested_injection :
    ∃ c, ∃ ps : List Piece, compile "A->B: </text><a b='&'>\nopt\nalt \">" {
        fill := some "\"/><g>", font := some "'\">&lt;" } = .ok c ∧
      c.document.toList = ps.flatMap Piece.write ∧ (∀ p ∈ ps, p.IsSafe) ∧
      EntitiesOnly c.document.toList := by
  have hok : (compile "A->B: </text><a b='&'>\nopt\nalt \">" {
      fill := some "\"/><g>", font := some "'\">&lt;" }).isOk = true := by decide +kernel
  obtain ⟨c, hc⟩ := exists_eq_ok_of_isOk hok
  have hshapes : (read "A->B: </text><a b='&'>\nopt\nalt \">").diagram.draw.1.shapes.isEmpty =
      false := by decide +kernel
  rcases compile_nested hc with ⟨hnil, -⟩ | ⟨palette, ps, -, -, hw, hs, -, -, he⟩
  · simp [hnil] at hshapes
  · exact ⟨c, ps, hc, hw, hs, he⟩

end SequenceDiagram
