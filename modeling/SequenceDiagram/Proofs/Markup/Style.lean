import SequenceDiagram.Proofs.Markup.Texts

/-!
# Styles

The colours and the font that are chosen for a document are in its styles and nowhere else. Two
documents of one text, with whatever options, are the same once the styles are taken out. They can
be taken out of the text of a document, with an eye on nothing but the characters, because no text
that is put into a document has a quote in it: what looks like a style is one.

## Main definitions

* `Text.afterStyle?`, `Text.withoutStyles`: a text without what looks like a style
* `Piece.unstyled`, `Markup.unstyled`: pieces and markup without styles
* `Attribute.IsRegular`: a value in which nothing can be taken for the beginning of a style

## Main results

* `Text.withoutStyles_flatMap_write`: to take styles out of a text is to take them out of its pieces
* `Shape.unstyled_markup`, `Picture.unstyled_markup`: no palette shows anywhere but in styles
* `compile_unstyled`: the documents of a text in two palettes and fonts
-/

namespace SequenceDiagram

/-! ## Texts without styles -/

namespace Text

/-- What a style begins with. -/
def styleMark : List Char := ' ' :: (['s', 't', 'y', 'l', 'e'] ++ ['=', '"'])

/-- What follows a style that stands at the beginning of a text and ends with the next quote. -/
def afterStyle? (cs : List Char) : Option (List Char) :=
  if styleMark <+: cs then ((cs.drop styleMark.length).dropWhile (· ≠ '"')).tail? else none

theorem length_lt_of_afterStyle? {cs rest : List Char} (h : afterStyle? cs = some rest) :
    rest.length < cs.length := by
  unfold afterStyle? at h
  split at h
  · have hle : ((cs.drop styleMark.length).dropWhile (· ≠ '"')).length ≤ cs.length :=
      ((List.dropWhile_sublist _).trans (List.drop_sublist ..)).length_le
    cases hr : (cs.drop styleMark.length).dropWhile (· ≠ '"') with
    | nil =>
      rw [hr] at h
      simp at h
    | cons c cs' =>
      rw [hr] at h hle
      obtain rfl : cs' = rest := by simpa using h
      rw [List.length_cons] at hle
      omega
  · simp at h

/-- A text without its styles, which are looked for from left to right. -/
def withoutStyles (cs : List Char) : List Char :=
  match cs with
  | [] => []
  | c :: cs =>
    match h : afterStyle? (c :: cs) with
    | some rest =>
      have : rest.length < cs.length + 1 := length_lt_of_afterStyle? h
      withoutStyles rest
    | none => c :: withoutStyles cs
termination_by cs.length

@[simp] theorem withoutStyles_nil : withoutStyles [] = [] := by rw [withoutStyles]

/-- A style is left out. -/
theorem withoutStyles_style {value : List Char} (hv : '"' ∉ value) (rest : List Char) :
    withoutStyles (styleMark ++ (value ++ '"' :: rest)) = withoutStyles rest := by
  have hd : (value ++ '"' :: rest).dropWhile (· ≠ '"') = '"' :: rest := by
    have hne : ∀ c ∈ value, decide (c ≠ '"') = true := by
      intro c hc
      refine decide_eq_true ?_
      rintro rfl
      exact hv hc
    rw [List.dropWhile_append_of_pos hne]
    simp
  have ha : afterStyle? (styleMark ++ (value ++ '"' :: rest)) = some rest := by
    rw [afterStyle?, if_pos (List.prefix_append ..), List.drop_left, hd, List.tail?_cons]
  obtain ⟨c, cs, hc⟩ : ∃ c cs, styleMark ++ (value ++ '"' :: rest) = c :: cs := ⟨_, _, rfl⟩
  rw [hc] at ha ⊢
  rw [withoutStyles]
  split
  · rename_i h
    obtain rfl := Option.some.inj (h.symm.trans ha)
    rfl
  · rename_i h
    simp [h] at ha

theorem withoutStyles_cons {c : Char} {cs : List Char} (h : ¬ styleMark <+: c :: cs) :
    withoutStyles (c :: cs) = c :: withoutStyles cs := by
  have ha : afterStyle? (c :: cs) = none := if_neg h
  rw [withoutStyles]
  split
  · rename_i h'
    simp [h'] at ha
  · rfl

/-- Characters are kept if no style begins at any of them. -/
theorem withoutStyles_append {cs rest : List Char}
    (h : ∀ before after, cs = before ++ after → after ≠ [] → ¬ styleMark <+: after ++ rest) :
    withoutStyles (cs ++ rest) = cs ++ withoutStyles rest := by
  induction cs with
  | nil => rfl
  | cons c cs ih =>
    have hc := h [] (c :: cs) rfl (List.cons_ne_nil c cs)
    rw [List.cons_append] at hc
    rw [List.cons_append, withoutStyles_cons hc, ih, List.cons_append]
    intro before after he
    exact h (c :: before) after (by rw [he]; rfl)

/-- Characters without a space are kept. -/
theorem withoutStyles_append_of_notMem {cs : List Char} (h : ' ' ∉ cs) (rest : List Char) :
    withoutStyles (cs ++ rest) = cs ++ withoutStyles rest := by
  refine withoutStyles_append ?_
  rintro before (_ | ⟨c, after⟩) rfl hne
  · exact absurd rfl hne
  · rw [List.cons_append, styleMark]
    intro hp
    obtain rfl : ' ' = c := (List.cons_prefix_cons.1 hp).1
    simp at h

end Text

open Text

/-! ## Attributes and pieces without styles -/

/-- A piece without styles. -/
def Piece.unstyled : Piece → Piece
  | opening tag attributes => opening tag (attributes.filter (·.1 ≠ "style"))
  | closing tag => closing tag
  | char c => char c

/-- A value that is not a style has no equals sign, so that it does not end like the mark of one. -/
def Piece.IsRegular : Piece → Prop
  | opening _ attributes => ∀ a ∈ attributes, a.1 ≠ "style" → '=' ∉ a.2.toList
  | closing _ | char _ => True

namespace Text

open Piece

/-- A style is left out, and any other attribute is kept. -/
theorem withoutStyles_writeAttribute {a : String × String} (hn : Piece.IsName a.1)
    (hv : ∀ c ∈ a.2.toList, IsPlain c) (hr : a.1 ≠ "style" → '=' ∉ a.2.toList)
    (rest : List Char) :
    withoutStyles (writeAttribute a ++ rest) =
      ([a].filter (·.1 ≠ "style")).flatMap writeAttribute ++ withoutStyles rest := by
  obtain ⟨name, value⟩ := a
  have hquote : '"' ∉ value.toList := fun h => (hv '"' h).2.2.1 rfl
  by_cases hs : name = "style"
  · subst hs
    have hw : writeAttribute ("style", value) ++ rest =
        styleMark ++ (value.toList ++ '"' :: rest) := by
      simp [writeAttribute, styleMark]
    rw [hw, withoutStyles_style hquote]
    simp
  · have hw : writeAttribute (name, value) ++ rest =
        ' ' :: ((name.toList ++ ['=', '"']) ++ (value.toList ++ (['"'] ++ rest))) := by
      simp [writeAttribute]
    have hfirst : ¬ styleMark <+:
        ' ' :: ((name.toList ++ ['=', '"']) ++ (value.toList ++ (['"'] ++ rest))) := by
      -- Up to the first equals sign stands the name.
      rintro ⟨t, ht⟩
      have he : ['s', 't', 'y', 'l', 'e'] ++ '=' :: ('"' :: t) =
          name.toList ++ '=' :: ('"' :: (value.toList ++ (['"'] ++ rest))) := by
        simpa [styleMark] using ht
      have hl := (append_cons_inj (by decide) (hn.notMem (by decide) (by decide)) he).1
      exact hs (String.toList_inj.1 hl.symm)
    have hspace : ' ' ∉ name.toList ++ ['=', '"'] := by
      simpa using hn.notMem (by decide) (by decide)
    have hvalue : ∀ before after, value.toList = before ++ after → after ≠ [] →
        ¬ styleMark <+: after ++ (['"'] ++ rest) := by
      -- Up to the next quote stands the rest of the value.
      rintro before after he - ⟨t, ht⟩
      have hq : [' ', 's', 't', 'y', 'l', 'e', '='] ++ '"' :: t = after ++ '"' :: rest := by
        simpa [styleMark] using ht
      have hafter : '"' ∉ after := fun h => hquote (he ▸ List.mem_append_right before h)
      obtain rfl := (append_cons_inj (by decide) hafter hq).1
      exact hr hs (by rw [he]; simp)
    rw [hw, withoutStyles_cons hfirst, withoutStyles_append_of_notMem hspace,
      withoutStyles_append hvalue, withoutStyles_append_of_notMem (by decide)]
    simp [hs, writeAttribute]

/-- The styles among the attributes of a tag are left out. -/
theorem withoutStyles_flatMap_writeAttribute {as : List (String × String)}
    (hs : ∀ a ∈ as, Piece.IsName a.1 ∧ ∀ c ∈ a.2.toList, IsPlain c)
    (hr : ∀ a ∈ as, a.1 ≠ "style" → '=' ∉ a.2.toList) (rest : List Char) :
    withoutStyles (as.flatMap writeAttribute ++ rest) =
      (as.filter (·.1 ≠ "style")).flatMap writeAttribute ++ withoutStyles rest := by
  induction as with
  | nil => rfl
  | cons a as ih =>
    obtain ⟨ha, has⟩ := List.forall_mem_cons.1 hs
    obtain ⟨hra, hras⟩ := List.forall_mem_cons.1 hr
    rw [List.flatMap_cons, List.append_assoc, withoutStyles_writeAttribute ha.1 ha.2 hra,
      ih has hras, ← List.append_assoc, ← List.flatMap_append, ← List.filter_append,
      List.singleton_append]

/-- In pieces that are written, a tag begins before the first quote. -/
theorem mem_of_flatMap_write_eq {ps : List Piece} (hs : ∀ p ∈ ps, p.IsSafe)
    {before after : List Char} (h : ps.flatMap write = before ++ '"' :: after) :
    '<' ∈ before := by
  induction ps generalizing before with
  | nil => simp at h
  | cons p ps ih =>
    obtain ⟨hp, hps⟩ := List.forall_mem_cons.1 hs
    -- The first character of the first piece is not the quote, so it comes before the quote.
    cases p with
    | char c =>
      cases before with
      | nil =>
        obtain rfl : c = '"' := (List.cons.inj h).1
        exact absurd rfl hp.2.2.1
      | cons b before => exact List.mem_cons_of_mem b (ih hps (List.cons.inj h).2)
    | _ =>
      cases before with
      | nil => simp [write] at h
      | cons b before =>
        obtain rfl : '<' = b := (List.cons.inj h).1
        exact List.mem_cons_self

/-- **To take the styles out of a text is to take them out of its pieces.** -/
theorem withoutStyles_flatMap_write {ps : List Piece} (hs : ∀ p ∈ ps, p.IsSafe)
    (hr : ∀ p ∈ ps, p.IsRegular) :
    withoutStyles (ps.flatMap write) = (ps.map unstyled).flatMap write := by
  have hname : ∀ t : Tag, ' ' ∉ t.name.toList := by
    intro t
    cases t <;> decide
  induction ps with
  | nil => simp
  | cons p ps ih =>
    obtain ⟨hp, hps⟩ := List.forall_mem_cons.1 hs
    obtain ⟨hrp, hrps⟩ := List.forall_mem_cons.1 hr
    rw [List.map_cons, List.flatMap_cons, List.flatMap_cons, ← ih hps hrps]
    cases p with
    | opening tag as =>
      have hw : write (opening tag as) ++ ps.flatMap write =
          ('<' :: tag.name.toList) ++
            (as.flatMap writeAttribute ++ (['>'] ++ ps.flatMap write)) := by
        simp [write]
      rw [hw, withoutStyles_append_of_notMem (by simpa using hname tag),
        withoutStyles_flatMap_writeAttribute hp hrp, withoutStyles_append_of_notMem (by decide)]
      simp [unstyled, write]
    | closing tag =>
      exact withoutStyles_append_of_notMem (by simpa [write] using hname tag) _
    | char c =>
      refine withoutStyles_cons ?_
      -- Before the quote of the mark there is no bracket.
      rintro ⟨t, ht⟩
      have hq : (char c :: ps).flatMap write = [' ', 's', 't', 'y', 'l', 'e', '='] ++ '"' :: t := by
        simpa [styleMark, write] using ht.symm
      exact absurd (mem_of_flatMap_write_eq hs hq) (by decide)

end Text

/-! ## Markup without styles -/

namespace Attribute

/-- Attributes without the styles among them. -/
def unstyled (as : List Attribute) : List Attribute := as.filter (·.name ≠ "style")

@[simp] theorem unstyled_nil : unstyled [] = [] := rfl

theorem unstyled_append (as bs : List Attribute) :
    unstyled (as ++ bs) = unstyled as ++ unstyled bs := List.filter_append ..

theorem unstyled_cons_of_ne {a : Attribute} (h : a.name ≠ "style") (as : List Attribute) :
    unstyled (a :: as) = a :: unstyled as := List.filter_cons_of_pos (by simpa using h)

theorem unstyled_cons_style (value : String) (as : List Attribute) :
    unstyled (verbatim "style" value :: as) = unstyled as :=
  List.filter_cons_of_neg (by simp [verbatim])

/-- A text has a style or none. -/
theorem unstyled_textStyle (p : Palette) (centred : Bool) :
    unstyled (textStyle? p centred).toList = [] := by
  cases h : textStyle? p centred with
  | none => rfl
  | some a =>
    simp only [textStyle?, Option.ite_none_left_eq_some] at h
    rw [← Option.some.inj h.2]
    exact unstyled_cons_style _ []

/-- An attribute in which nothing can be taken for the beginning of a style: a style itself, or
one without equals signs in its value. -/
def IsRegular (a : Attribute) : Prop :=
  a.name ≠ "style" → ∀ f ∈ a.value, '=' ∉ f.render.toList

theorem isRegular_style (value : String) : (verbatim "style" value).IsRegular :=
  fun h => absurd rfl h

end Attribute

namespace Markup

mutual

/-- Markup without styles. -/
def unstyled : Markup → Markup
  | verbatim s => verbatim s
  | element tag attributes children =>
    element tag (Attribute.unstyled attributes) (unstyledAll children)

/-- Several pieces of markup without styles. -/
def unstyledAll : List Markup → List Markup
  | [] => []
  | m :: ms => m.unstyled :: unstyledAll ms

end

@[simp] theorem unstyledAll_eq_map (ms : List Markup) : unstyledAll ms = ms.map unstyled := by
  induction ms with
  | nil => rfl
  | cons m ms ih => simp [unstyledAll, ih]

mutual

/-- The pieces of markup without styles are its pieces without styles. -/
theorem pieces_unstyled : (m : Markup) → m.unstyled.pieces = m.pieces.map Piece.unstyled
  | verbatim s => by simp [unstyled, pieces, Piece.unstyled]
  | element tag as children => by
    have ha : (Attribute.unstyled as).map Attribute.written =
        (as.map Attribute.written).filter (·.1 ≠ "style") := by
      rw [Attribute.unstyled, List.filter_map]
      rfl
    simp only [unstyled, pieces, piecesAll_eq_flatMap, unstyledAll_eq_map, ha,
      flatMap_pieces_unstyled children, List.map_cons, List.map_append, List.map_nil,
      Piece.unstyled]

theorem flatMap_pieces_unstyled : (ms : List Markup) →
    (ms.map unstyled).flatMap pieces = (ms.flatMap pieces).map Piece.unstyled
  | [] => rfl
  | m :: ms => by
    rw [List.map_cons, List.flatMap_cons, List.flatMap_cons, List.map_append, pieces_unstyled m,
      flatMap_pieces_unstyled ms]

end

/-- Markup in which nothing but a style can be taken for one. -/
inductive IsRegular : Markup → Prop
  | verbatim (s : String) : IsRegular (.verbatim s)
  | element {tag : Tag} {attributes : List Attribute} {children : List Markup}
      (ha : ∀ a ∈ attributes, a.IsRegular) (hc : ∀ m ∈ children, IsRegular m) :
      IsRegular (.element tag attributes children)

theorem IsRegular.pieces {m : Markup} (h : m.IsRegular) : ∀ p ∈ m.pieces, p.IsRegular := by
  induction h with
  | verbatim s => simp [Markup.pieces, Piece.IsRegular]
  | element ha hc ih =>
    simp only [Markup.pieces, piecesAll_eq_flatMap, List.forall_mem_cons, List.forall_mem_append,
      List.forall_mem_flatMap]
    refine ⟨?_, ih, trivial, by simp⟩
    simp only [Piece.IsRegular, List.forall_mem_map]
    intro a h hn
    simpa [Attribute.written] using ha a h hn

/-- The text of safe markup can be read as pieces in one way only. -/
theorem IsSafe.eq_pieces_iff {m : Markup} (h : m.IsSafe) (qs : List Piece) :
    (∀ q ∈ qs, q.IsSafe) ∧ m.render.toList = qs.flatMap Piece.write ↔ qs = m.pieces := by
  rw [toList_render]
  constructor
  · rintro ⟨hq, hw⟩
    exact Piece.flatMap_write_inj hq h.pieces hw.symm
  · rintro rfl
    exact ⟨h.pieces, rfl⟩

/-- **The styles of safe markup can be taken out of its text.** -/
theorem withoutStyles_render {m : Markup} (hs : m.IsSafe) (hr : m.IsRegular) :
    withoutStyles m.render.toList = m.unstyled.render.toList := by
  rw [toList_render, toList_render, pieces_unstyled,
    withoutStyles_flatMap_write hs.pieces hr.pieces]

end Markup

/-! ## Shapes and pictures -/

namespace Attribute

theorem isRegular_verbatim {name value : String} (h : '=' ∉ value.toList) :
    (verbatim name value).IsRegular := fun _ => List.forall_mem_singleton.2 h

theorem equals_notMem_numeral (q : Quantity) : '=' ∉ q.numeral.toList := by
  intro h
  rcases q.numeric_numeral '=' h with hd | hs
  · exact absurd hd (by decide)
  · exact absurd hs (by decide)

theorem isRegular_measure (name : String) (q : Quantity) : (measure name q).IsRegular :=
  fun _ => List.forall_mem_singleton.2 (equals_notMem_numeral q)

theorem isRegular_textStyle {p : Palette} {centred : Bool} {a : Attribute}
    (h : textStyle? p centred = some a) : a.IsRegular := by
  simp only [textStyle?, Option.ite_none_left_eq_some] at h
  rw [← Option.some.inj h.2]
  exact isRegular_style _

theorem isRegular_dashes {dotted : Bool} {a : Attribute} (h : dashes? dotted = some a) :
    a.IsRegular := by
  cases dotted with
  | false => simp [dashes?] at h
  | true =>
    rw [← Option.some.inj h]
    exact isRegular_verbatim (by decide)

theorem isRegular_rectangle (x y width height radius : Quantity) :
    ∀ a ∈ rectangle x y width height radius, a.IsRegular := by
  simp only [rectangle, List.forall_mem_cons]
  exact ⟨isRegular_measure _ _, isRegular_measure _ _, isRegular_measure _ _,
    isRegular_measure _ _, isRegular_measure _ _, by simp⟩

theorem equals_notMem_coordinates (x y : Quantity) :
    ∀ f ∈ coordinates x y, '=' ∉ f.render.toList := by
  simp only [coordinates, List.forall_mem_cons]
  exact ⟨equals_notMem_numeral x, by decide, equals_notMem_numeral y, by simp⟩

theorem equals_notMem_pointList (points : List (Quantity × Quantity)) :
    ∀ f ∈ pointList points, '=' ∉ f.render.toList := by
  intro f hf
  obtain ⟨fs, hfs, hf⟩ := List.mem_flatten.1 hf
  rcases eq_or_mem_of_mem_intersperse hfs with rfl | hfs
  · rw [List.mem_singleton.1 hf]
    decide
  · obtain ⟨q, -, rfl⟩ := List.mem_map.1 hfs
    exact equals_notMem_coordinates q.1 q.2 f hf

theorem equals_notMem_transform (x y : Quantity) :
    ∀ f ∈ Fragment.verbatim "translate(" :: coordinates x y ++ [.verbatim ")"],
      '=' ∉ f.render.toList := by
  simp only [List.forall_mem_append, List.forall_mem_cons]
  exact ⟨⟨by decide, equals_notMem_coordinates x y⟩, by decide, by simp⟩

end Attribute

open Attribute

namespace Shape

mutual

/-- The markup of a shape is regular in every palette. -/
theorem isRegular_markup (p : Palette) : (s : Shape) → (s.markup p).IsRegular
  | area x y width height paint radius => by
    refine .element (List.forall_mem_append.2 ⟨isRegular_rectangle _ _ _ _ _, ?_⟩) (by simp)
    exact List.forall_mem_singleton.2 (isRegular_style _)
  | box x y width height paint radius => by
    refine .element (List.forall_mem_append.2 ⟨isRegular_rectangle _ _ _ _ _, ?_⟩) (by simp)
    exact List.forall_mem_singleton.2 (isRegular_style _)
  | line x₁ y₁ x₂ y₂ dotted => by
    refine .element (List.forall_mem_append.2 ⟨?_, ?_⟩) (by simp)
    · simp only [List.forall_mem_cons]
      exact ⟨isRegular_measure _ _, isRegular_measure _ _, isRegular_measure _ _,
        isRegular_measure _ _, isRegular_style _, by simp⟩
    · exact fun a h => isRegular_dashes (Option.mem_toList.1 h)
  | polygon points paint => by
    refine .element ?_ (by simp)
    simp only [List.forall_mem_cons]
    exact ⟨fun _ => equals_notMem_pointList points, isRegular_style _, by simp⟩
  | text x y content centred => by
    refine .element (List.forall_mem_append.2 ⟨?_, ?_⟩)
      (List.forall_mem_singleton.2 (.verbatim _))
    · simp only [List.forall_mem_cons]
      exact ⟨isRegular_measure _ _, isRegular_measure _ _, by simp⟩
    · exact fun a h => isRegular_textStyle (Option.mem_toList.1 h)
  | group x y shapes => by
    refine .element (List.forall_mem_singleton.2 fun _ => ?_) ?_
    · exact equals_notMem_transform x y
    · rw [markupAll_eq_map, List.forall_mem_map]
      exact forall_isRegular_markup p shapes

theorem forall_isRegular_markup (p : Palette) :
    (ss : List Shape) → ∀ s ∈ ss, (s.markup p).IsRegular
  | [] => by simp
  | s :: ss => List.forall_mem_cons.2 ⟨isRegular_markup p s, forall_isRegular_markup p ss⟩

end

mutual

/-- **No palette shows in the markup of a shape** but in its styles. -/
theorem unstyled_markup (p p' : Palette) : (s : Shape) →
    (s.markup p).unstyled = (s.markup p').unstyled
  | area .. => by
    simp only [markup, Markup.unstyled, unstyled_append, areaStyle, unstyled_cons_style]
  | box .. => by
    simp only [markup, Markup.unstyled, unstyled_append, boxStyle, unstyled_cons_style]
  | line x₁ y₁ x₂ y₂ dotted => by
    have hl (q : Palette) :
        [measure "x1" x₁, measure "y1" y₁, measure "x2" x₂, measure "y2" y₂, lineStyle q] =
          [measure "x1" x₁, measure "y1" y₁, measure "x2" x₂, measure "y2" y₂] ++ [lineStyle q] :=
      rfl
    simp only [markup, Markup.unstyled, hl, unstyled_append]
    simp only [lineStyle, unstyled_cons_style]
  | polygon points paint => by
    have hp (q : Palette) : [(⟨"points", pointList points⟩ : Attribute), polygonStyle q paint] =
        [⟨"points", pointList points⟩] ++ [polygonStyle q paint] := rfl
    simp only [markup, Markup.unstyled, hp, unstyled_append]
    simp only [polygonStyle, unstyled_cons_style]
  | text .. => by
    simp only [markup, Markup.unstyled, unstyled_append, unstyled_textStyle]
  | group x y shapes => by
    simp only [markup, shifted, Markup.unstyled, markupAll_eq_map, Markup.unstyledAll_eq_map,
      map_unstyled_markup p p' shapes]

theorem map_unstyled_markup (p p' : Palette) : (ss : List Shape) →
    (ss.map (markup p)).map Markup.unstyled = (ss.map (markup p')).map Markup.unstyled
  | [] => rfl
  | s :: ss => by
    rw [List.map_cons, List.map_cons, List.map_cons, List.map_cons, unstyled_markup p p' s,
      map_unstyled_markup p p' ss]

end

end Shape

namespace Palette

theorem isRegular_gradient (p : Palette) {name : String} (h : '=' ∉ name.toList) :
    (p.gradient name).IsRegular := by
  refine .element ?_ ?_
  · simp only [List.forall_mem_cons]
    refine ⟨isRegular_verbatim h, isRegular_verbatim ?_, isRegular_verbatim ?_,
      isRegular_verbatim ?_, isRegular_verbatim ?_, by simp⟩ <;> decide
  · simp only [List.forall_mem_cons]
    refine ⟨.element ?_ (by simp), .element ?_ (by simp), by simp⟩ <;>
      simp only [List.forall_mem_cons] <;>
      exact ⟨isRegular_verbatim (by decide), isRegular_style _, by simp⟩

theorem unstyled_gradient (p p' : Palette) (name : String) :
    (p.gradient name).unstyled = (p'.gradient name).unstyled := by
  have hs (offset colour colour' : String) :
      (gradientStop offset colour).unstyled = (gradientStop offset colour').unstyled := by
    have ho : (verbatim "offset" offset).name ≠ "style" :=
      show "offset" ≠ "style" by decide
    simp only [gradientStop, Markup.unstyled, unstyled_cons_of_ne ho, unstyled_cons_style]
  simp only [gradient, Markup.unstyled, Markup.unstyledAll_eq_map, List.map_cons, List.map_nil,
    hs _ p.gradientTop p'.gradientTop, hs _ p.gradientBottom p'.gradientBottom]

end Palette

/-- A font is a style of the outermost element, or leaves no trace. -/
theorem documentAttributes_eq_or (width height : Quantity) (font : Option String) :
    documentAttributes width height font = documentAttributes width height none ∨
      ∃ value, documentAttributes width height font =
        documentAttributes width height none ++ [verbatim "style" value] := by
  cases font with
  | none => exact .inl rfl
  | some f =>
    by_cases hf : f.isEmpty
    · refine .inl ?_
      simp only [documentAttributes, hf, if_true]
    · refine .inr ⟨"font-family:" ++ Text.escape f, ?_⟩
      simp only [documentAttributes, hf, if_false, List.append_nil, Bool.false_eq_true]

theorem unstyled_documentAttributes (width height : Quantity) (font : Option String) :
    unstyled (documentAttributes width height font) =
      unstyled (documentAttributes width height none) := by
  rcases documentAttributes_eq_or width height font with h | ⟨value, h⟩
  · rw [h]
  · rw [h, unstyled_append, unstyled_cons_style, unstyled_nil, List.append_nil]

theorem isRegular_documentAttributes (width height : Quantity) (font : Option String) :
    ∀ a ∈ documentAttributes width height font, a.IsRegular := by
  have hn : ∀ a ∈ documentAttributes width height none, a.IsRegular := by
    simp only [documentAttributes, List.append_nil, List.forall_mem_cons]
    refine ⟨isRegular_verbatim ?_, isRegular_verbatim ?_, isRegular_measure _ _,
      isRegular_measure _ _, by simp⟩ <;> decide
  rcases documentAttributes_eq_or width height font with h | ⟨value, h⟩
  · rw [h]
    exact hn
  · rw [h]
    exact List.forall_mem_append.2 ⟨hn, List.forall_mem_singleton.2 (isRegular_style _)⟩

namespace Picture

variable (p : Picture)

theorem isRegular_markup (palette : Palette) (font : Option String) :
    (p.markup palette font).IsRegular := by
  refine .element (isRegular_documentAttributes _ _ font) (List.forall_mem_cons.2 ⟨?_, ?_⟩)
  · exact .element (by simp) (List.forall_mem_singleton.2 (palette.isRegular_gradient (by decide)))
  · rw [List.forall_mem_map]
    exact Shape.forall_isRegular_markup palette p.shapes

/-- **No palette and no font shows in a document** but in its styles. -/
theorem unstyled_markup (palette palette' : Palette) (font font' : Option String) :
    (p.markup palette font).unstyled = (p.markup palette' font').unstyled := by
  simp only [markup, SequenceDiagram.document, Markup.unstyled, Markup.unstyledAll_eq_map,
    List.map_cons, List.map_nil, unstyled_documentAttributes _ _ font,
    unstyled_documentAttributes _ _ font',
    palette.unstyled_gradient palette', Shape.map_unstyled_markup palette palette']

/-- The text of a document without styles is that of its markup without styles. -/
theorem withoutStyles_render_markup (palette : Palette) (font : Option String) :
    withoutStyles (p.markup palette font).render.toList =
      (p.markup palette font).unstyled.render.toList :=
  Markup.withoutStyles_render (p.isSafe_markup palette font) (p.isRegular_markup palette font)

end Picture

/-! ## Documents -/

/-- **Colours and fonts are matters of style only.** With any options, one and the same is reported
about a text, and the documents are the same once everything in them is taken out that looks like a
style. Either both stand for an empty picture, or each can be read as a row of tags and characters
in one way only, and the two rows are the same but for the styles among the attributes of tags. -/
theorem compile_unstyled {text : String} {options options' : Options} {c c' : Compilation}
    (h : compile text options = .ok c) (h' : compile text options' = .ok c') :
    c.diagnostics = c'.diagnostics ∧
      withoutStyles c.document.toList = withoutStyles c'.document.toList ∧
      (c.document = Picture.placeholder ∧ c'.document = Picture.placeholder ∨
        c.document ≠ Picture.placeholder ∧ c'.document ≠ Picture.placeholder ∧
        ∃ ps ps' : List Piece,
          (∀ qs : List Piece,
            (∀ q ∈ qs, q.IsSafe) ∧ c.document.toList = qs.flatMap Piece.write ↔ qs = ps) ∧
          (∀ qs : List Piece,
            (∀ q ∈ qs, q.IsSafe) ∧ c'.document.toList = qs.flatMap Piece.write ↔ qs = ps') ∧
          ps.map Piece.unstyled = ps'.map Piece.unstyled) := by
  obtain ⟨palette, -, -, hd, hr, -⟩ := compile_eq_ok_iff.1 h
  obtain ⟨palette', -, -, hd', hr', -⟩ := compile_eq_ok_iff.1 h'
  refine ⟨hr.trans hr'.symm, ?_⟩
  generalize (read text).diagram.draw.1 = p at hd hd'
  by_cases hp : p.shapes = []
  · rw [Picture.document_of_shapes_eq_nil hp] at hd hd'
    have hc : c.document = Picture.placeholder := (Except.ok.inj hd).symm
    have hc' : c'.document = Picture.placeholder := (Except.ok.inj hd').symm
    exact ⟨by rw [hc, hc'], .inl ⟨hc, hc'⟩⟩
  · have hc := (Picture.document_eq_ok hd).resolve_left fun hn => hp hn.1
    have hc' := (Picture.document_eq_ok hd').resolve_left fun hn => hp hn.1
    have hm := p.unstyled_markup palette palette' options.font options'.font
    refine ⟨?_, .inr ⟨?_, ?_, (p.markup palette options.font).pieces,
      (p.markup palette' options'.font).pieces, ?_, ?_, ?_⟩⟩
    · rw [hc, hc', p.withoutStyles_render_markup, p.withoutStyles_render_markup, hm]
    · exact hc ▸ p.render_markup_ne_placeholder palette options.font
    · exact hc' ▸ p.render_markup_ne_placeholder palette' options'.font
    · exact hc ▸ (p.isSafe_markup palette options.font).eq_pieces_iff
    · exact hc' ▸ (p.isSafe_markup palette' options'.font).eq_pieces_iff
    · rw [← Markup.pieces_unstyled, ← Markup.pieces_unstyled, hm]

/-- A theme, a colour and a font that read like styles, for a text that has what looks like a style
in a label. -/
theorem compile_unstyled_injection :
    let text := "A<-->>A: x style=\"y\"\nalt a\nA->B: \nelse b"
    let options : Options :=
      { theme := some "slate", stroke := some "red\" style=\"", font := some " style=\"x" }
    ∃ c c', compile text {} = .ok c ∧ compile text options = .ok c' ∧
      c.diagnostics = c'.diagnostics ∧
      withoutStyles c.document.toList = withoutStyles c'.document.toList ∧
      c.document ≠ Picture.placeholder ∧ c'.document ≠ Picture.placeholder := by
  intro text options
  have hok : (compile text {}).isOk = true := by decide +kernel
  have hok' : (compile text options).isOk = true := by decide +kernel
  obtain ⟨c, hc⟩ := exists_eq_ok_of_isOk hok
  obtain ⟨c', hc'⟩ := exists_eq_ok_of_isOk hok'
  obtain ⟨hd, hw, hp | ⟨hp, hp', -⟩⟩ := compile_unstyled hc hc'
  · have hshapes : (read text).diagram.draw.1.shapes.isEmpty = false := by decide +kernel
    obtain ⟨palette, -, -, hdoc, -, -⟩ := compile_eq_ok_iff.1 hc
    rw [(Picture.document_eq_placeholder_iff hdoc).1 hp.1] at hshapes
    simp at hshapes
  · exact ⟨c, c', hc, hc', hd, hw, hp, hp'⟩

end SequenceDiagram
