import Mathlib.Data.List.Perm.Basic
import SequenceDiagram.Proofs.Diagram.Content
import SequenceDiagram.Proofs.Drawing.Marks
import SequenceDiagram.Proofs.Layout.Drawing

/-!
# The order in parallel blocks

The elements of a parallel block end together, so that where each of them is drawn depends on its
own height and on the height of the block. Both do not show the order of the elements: trees that
differ only in the order of the elements of parallel blocks are drawn with the same shapes at the
same places, in another order.

## Main definitions

* `Element.Reordered`: trees that differ only in the order of the elements of parallel blocks

## Main results

* `Element.Reordered.height_eq`: the order does not show in heights
* `Element.Reordered.drawing_perm`: the same shapes at the same places
* `Diagram.MemorySound.draw_reordered`: pictures of the same measures and with the same shapes
* `document_reordered`: the documents of two such diagrams
-/

namespace SequenceDiagram

open Quantity (units)

/-- Shapes that a row of pairs gives may come in another order where one of the pairs is another
one. -/
theorem perm_flatMap_zip {α β γ : Type} {f : α × β → List γ} {c c' : β}
    (h : ∀ a, (f (a, c)).Perm (f (a, c'))) (as : List α) (before after : List β) :
    ((as.zip (before ++ c :: after)).flatMap f).Perm
      ((as.zip (before ++ c' :: after)).flatMap f) := by
  induction before generalizing as with
  | nil =>
    cases as with
    | nil => exact .refl _
    | cons a as => exact (h a).append_right _
  | cons b before ih =>
    cases as with
    | nil => exact .refl _
    | cons a as => exact (ih as).append_left _

namespace Element

/-- One tree becomes another one when the elements of parallel blocks change their order, at any
depths and any number of times. -/
inductive Reordered : Element → Element → Prop
  | refl (e : Element) : Reordered e e
  | trans {e e' e'' : Element} : Reordered e e' → Reordered e' e'' → Reordered e e''
  /-- The elements of a parallel block have another order. -/
  | parallel {children children' : List Element} :
      children.Perm children' → Reordered (block .parallel children) (block .parallel children')
  /-- In a block of any kind one element is changed. -/
  | inside (k : BlockKind) (before after : List Element) {c c' : Element} : Reordered c c' →
      Reordered (block k (before ++ c :: after)) (block k (before ++ c' :: after))

namespace Reordered

variable {e e' : Element}

/-- A tree is as high as another one that differs in the order in parallel blocks only. -/
theorem height_eq (h : e.Reordered e') : e.height = e'.height := by
  induction h with
  | refl e => rfl
  | trans _ _ ih ih' => exact ih.trans ih'
  | parallel hp =>
    rw [height_block, height_block]
    exact (hp.map height).foldr_eq 0
  | inside k before after _ ih =>
    rw [height_block, height_block]
    simp only [List.map_append, List.map_cons, ih]

/-- **The same shapes are drawn at the same places**, possibly in another order. -/
theorem drawing_perm (h : e.Reordered e') (r : Roster) (width : Quantity) (p : Path)
    (top : Quantity) : (e.drawing r width p top).Perm (e'.drawing r width p top) := by
  induction h generalizing p top with
  | refl e => exact .refl _
  | trans _ _ ih ih' => exact (ih p top).trans (ih' p top)
  | @parallel children children' hp =>
    -- Where an element of the block begins depends on it and on the height of the block.
    have hplaces (cs : List Element) : BlockKind.parallel.places top cs =
        cs.map fun c => (top + units (block .parallel cs).height - units c.height, c) :=
      List.ext_getElem (by simp [BlockKind.places]) (by simp [BlockKind.places, BlockKind.tops])
    rw [drawing_block, drawing_block, hplaces, hplaces, (parallel hp).height_eq]
    exact ((hp.map _).flatMap_right _).append_left _
  | @inside k before after c c' hc ih =>
    -- All elements begin where they did, as the one that is changed is as high as before.
    have hh := (inside k before after hc).height_eq
    have hheights : (before ++ c :: after).map height = (before ++ c' :: after).map height := by
      simp [hc.height_eq]
    have hown : Placed.shapes r width ⟨p, top, (block k (before ++ c :: after)).height,
          block k (before ++ c :: after)⟩ =
        Placed.shapes r width ⟨p, top, (block k (before ++ c' :: after)).height,
          block k (before ++ c' :: after)⟩ := by
      rw [hh]
      rfl
    rw [drawing_block, drawing_block, hown, BlockKind.places, BlockKind.places, hh, hheights]
    exact (perm_flatMap_zip (fun t => ih (0 :: p) t) _ before after).append_left _

end Reordered

end Element

namespace Diagram

variable {d d' : Diagram}

/-- **Diagrams with the same participants** whose trees differ in the order in parallel blocks only
have pictures of the same measures and with the same shapes. -/
theorem MemorySound.draw_reordered (h : d.MemorySound) (h' : d'.MemorySound)
    (hr : d.roster.unseated = d'.roster.unseated) (ht : d.root.Reordered d'.root) :
    d.draw.1.width = d'.draw.1.width ∧ d.draw.1.height = d'.draw.1.height ∧
      d.draw.1.shapes.Perm d'.draw.1.shapes := by
  obtain ⟨hs, hw, hh⟩ := Roster.seated_congr hr
  refine ⟨?_, ?_, ?_⟩
  · rw [h.draw_fst, h'.draw_fst, hw]
  · rw [h.draw_fst, h'.draw_fst, hh, ht.height_eq]
  · rw [h.shapes_draw, h'.shapes_draw, hs, hw, hh, ht.height_eq]
    exact (ht.drawing_perm _ _ _ _).append_left _

end Diagram

/-! ## Documents -/

namespace Markup

theorem faultsAll_eq_flatMap (ms : List Markup) : faultsAll ms = ms.flatMap faults := by
  induction ms with
  | nil => rfl
  | cons m ms ih => simp [ih]

/-- Markup is written if no fault is met in writing it. -/
theorem isOk_write (m : Markup) : (write [m]).isOk = m.faults.isEmpty := by
  rw [write, faultsAll_cons, faultsAll_nil, List.append_nil]
  cases m.faults <;> rfl

end Markup

namespace Picture

variable {p p' : Picture}

/-- The faults met in writing a picture do not depend on the order of its shapes. -/
theorem faults_markup_perm (hw : p.width = p'.width) (hh : p.height = p'.height)
    (hs : p.shapes.Perm p'.shapes) (palette : Palette) (font : Option String) :
    (p.markup palette font).faults.Perm (p'.markup palette font).faults := by
  have hbody := (hs.map (Shape.markup palette)).flatMap_right Markup.faults
  rw [← Markup.faultsAll_eq_flatMap, ← Markup.faultsAll_eq_flatMap] at hbody
  simp only [markup, SequenceDiagram.document, Markup.faults, Markup.faultsAll_cons, hw, hh]
  exact ((hbody.append_left _).append_left _).append_right _

/-- Of two pictures that differ in the order of their shapes only, both have a document or none
has one. -/
theorem isOk_document_congr (hw : p.width = p'.width) (hh : p.height = p'.height)
    (hs : p.shapes.Perm p'.shapes) (palette : Palette) (font : Option String) :
    (p.document palette font).isOk = (p'.document palette font).isOk := by
  have hf := (faults_markup_perm hw hh hs palette font).isEmpty_eq
  unfold Picture.document
  rw [hs.isEmpty_eq]
  split
  · rfl
  · rw [Markup.isOk_write, Markup.isOk_write, hf]

end Picture

open Diagram in
/-- **The order in a parallel block does not show in the picture.** Two sessions that lead to the
same participants in the same order, and to trees that differ only in the order of the elements of
parallel blocks, have pictures of the same width and height, and these leave the same marks at the
same places of the canvas. For every palette and font, both have a document or none has one; it
stands for an empty picture for both or none, or the two documents begin alike and hold the same
elements with the same attributes, in another order. -/
theorem document_reordered (os os' : List Operation) :
    let d := session os
    let d' := session os'
    d.roster.unseated = d'.roster.unseated → d.root.Reordered d'.root →
      d.draw.1.width = d'.draw.1.width ∧ d.draw.1.height = d'.draw.1.height ∧
      (d.draw.1.shapes.flatMap (Shape.marks 0 0)).Perm
        (d'.draw.1.shapes.flatMap (Shape.marks 0 0)) ∧
      ∀ palette font,
        let body (d : Diagram) := d.draw.1.shapes.map (Shape.markup palette)
        let page := document (.whole d.draw.1.width) (.whole d.draw.1.height)
          [palette.gradient gradientName]
        (body d).Perm (body d') ∧
        (d.draw.1.document palette font).isOk = (d'.draw.1.document palette font).isOk ∧
        ∀ doc doc', d.draw.1.document palette font = .ok doc →
          d'.draw.1.document palette font = .ok doc' →
          doc = Picture.placeholder ∧ doc' = Picture.placeholder ∨
            doc = (page (body d) font).render ∧ doc' = (page (body d') font).render := by
  intro d d' hr ht
  have hm : d.MemorySound := memorySound_session os
  obtain ⟨hw, hh, hs⟩ := hm.draw_reordered (memorySound_session os') hr ht
  refine ⟨hw, hh, hs.flatMap_right _, fun palette font => ?_⟩
  refine ⟨hs.map _, Picture.isOk_document_congr hw hh hs palette font, ?_⟩
  intro doc doc' hd hd'
  by_cases hnil : d.draw.1.shapes = []
  · have hnil' : d'.draw.1.shapes = [] := by
      rw [hnil] at hs
      exact hs.nil_eq.symm
    rw [Picture.document_of_shapes_eq_nil hnil] at hd
    rw [Picture.document_of_shapes_eq_nil hnil'] at hd'
    exact .inl ⟨(Except.ok.inj hd).symm, (Except.ok.inj hd').symm⟩
  · have hnil' : d'.draw.1.shapes ≠ [] := by
      intro h
      rw [h] at hs
      exact hnil hs.eq_nil
    have hdoc := (Picture.document_eq_ok hd).resolve_left fun h => hnil h.1
    have hdoc' := (Picture.document_eq_ok hd').resolve_left fun h => hnil' h.1
    refine .inr ⟨hdoc, ?_⟩
    rw [hdoc', Picture.markup, ← hw, ← hh]

/-- A note that is taller than the message beside it, in a loop, before and after the message. -/
theorem document_reordered_loop :
    let before := [.register "A" none, .register "B" none, .openBlock (.framed "loop" "n"),
      .openBlock .parallel]
    let message := Operation.addSignal ⟨"A", "B", ["x"], false, false, false⟩
    let note := Operation.addNote ⟨"B", ["n", "m"]⟩
    let d := session (before ++ [message, note])
    let d' := session (before ++ [note, message])
    d.draw.1.shapes.flatMap (Shape.marks 0 0) ≠ d'.draw.1.shapes.flatMap (Shape.marks 0 0) ∧
      (d.draw.1.shapes.flatMap (Shape.marks 0 0)).Perm
        (d'.draw.1.shapes.flatMap (Shape.marks 0 0)) ∧
      d.draw.1.height = d'.draw.1.height ∧
      ∀ palette font,
        (d.draw.1.document palette font).isOk = (d'.draw.1.document palette font).isOk := by
  intro before message note d d'
  have ht : d.root.Reordered d'.root :=
    .inside .sequence [] [] (.inside (.framed "loop" "n") [] [] (.parallel (.swap ..)))
  obtain ⟨-, hh, hs, hdoc⟩ := document_reordered (before ++ [message, note])
    (before ++ [note, message]) (by decide) ht
  exact ⟨by decide, hs, hh, fun palette font => (hdoc palette font).2.1⟩

end SequenceDiagram
