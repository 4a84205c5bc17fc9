import SequenceDiagram.Markup.Basic
import SequenceDiagram.Proofs.Text.Harmless

/-!
# Pieces of markup

Markup that is written is a row of tags and characters. Where no value of an attribute and no
character between tags has the characters that make up the markup itself, the row can be read off
the text in one way only, so that nothing in a text can be taken for a tag.

## Main definitions

* `Piece`, `Piece.write`: tags and characters, and how they are written
* `Piece.IsSafe`: a piece that the text around it cannot change
* `Balanced`: every tag that is opened is closed, the last one first
* `Markup.pieces`: markup as a row of pieces

## Main results

* `Piece.write_append_inj`, `Piece.flatMap_write_inj`: a text is read in one way only
* `Markup.toList_render`: markup is written piece by piece
* `Markup.balanced_pieces`: the tags of markup are balanced
-/

namespace SequenceDiagram

/-- A piece of markup as it is written. -/
inductive Piece where
  /-- An opening tag with the names and the values of its attributes. -/
  | opening (tag : Tag) (attributes : List (String × String))
  | closing (tag : Tag)
  /-- A character between tags. -/
  | char (c : Char)

namespace Piece

/-- An attribute with its value in double quotes, and the space before it. -/
def writeAttribute (a : String × String) : List Char :=
  ' ' :: (a.1.toList ++ '=' :: '"' :: (a.2.toList ++ ['"']))

/-- The characters of a piece. -/
def write : Piece → List Char
  | opening tag attributes => '<' :: (tag.name.toList ++ attributes.flatMap writeAttribute ++ ['>'])
  | closing tag => '<' :: '/' :: (tag.name.toList ++ ['>'])
  | char c => [c]

/-- A name of letters, digits and hyphens. -/
def IsName (s : String) : Prop := s ≠ "" ∧ ∀ c ∈ s.toList, c.isAlphanum = true ∨ c = '-'

instance : DecidablePred IsName := fun s =>
  decidable_of_iff ((s != "" && s.toList.all fun c => c.isAlphanum || c == '-') = true)
    (by simp [IsName])

/-- A piece that the text around it cannot change: attributes have names, and no value and no
character between tags is a bracket or a quote. -/
def IsSafe : Piece → Prop
  | opening _ attributes => ∀ a ∈ attributes, IsName a.1 ∧ ∀ c ∈ a.2.toList, Text.IsPlain c
  | closing _ => True
  | char c => Text.IsPlain c

/-! ## Reading what is written -/

/-- What stands before the first mark is determined by the whole. -/
theorem append_cons_inj {α : Type} {mark : α} {xs ys : List α} (hx : mark ∉ xs) (hy : mark ∉ ys)
    {rest rest' : List α} (h : xs ++ mark :: rest = ys ++ mark :: rest') :
    xs = ys ∧ rest = rest' := by
  rcases List.append_eq_append_iff.1 h with ⟨gap, rfl, hr⟩ | ⟨gap, rfl, hr⟩
  · cases gap with
    | nil => simpa using hr
    | cons c gap =>
      obtain rfl : mark = c := (List.cons.inj hr).1
      simp at hy
  · cases gap with
    | nil => simpa [eq_comm] using hr
    | cons c gap =>
      obtain rfl : mark = c := (List.cons.inj hr).1
      simp at hx

/-- What ends the name of a tag. -/
theorem name_append_inj {t u : Tag} {c d : Char} {rest rest' : List Char}
    (hc : c.isAlpha = false) (hd : d.isAlpha = false)
    (h : t.name.toList ++ c :: rest = u.name.toList ++ d :: rest') :
    t = u ∧ c :: rest = d :: rest' := by
  have hname : ∀ t : Tag, ∀ a ∈ t.name.toList, a.isAlpha = true := by
    intro t
    refine List.all_eq_true.1 ?_
    cases t <;> decide
  -- The name of a tag consists of the letters at the beginning.
  have hletters : ∀ (t : Tag) (c : Char) (rest : List Char), c.isAlpha = false →
      (t.name.toList ++ c :: rest).takeWhile Char.isAlpha = t.name.toList := by
    intro t c rest hc
    rw [List.takeWhile_append_of_pos (hname t)]
    simp [hc]
  have hn : t.name.toList = u.name.toList := by
    rw [← hletters t c rest hc, h, hletters u d rest' hd]
  rw [hn, List.append_cancel_left_eq] at h
  refine ⟨?_, h⟩
  rw [String.toList_inj] at hn
  cases t <;> cases u <;> first | rfl | simp [Tag.name] at hn

theorem IsName.notMem {s : String} (h : IsName s) {c : Char} (hc : c.isAlphanum = false)
    (hh : c ≠ '-') : c ∉ s.toList := by
  intro hm
  rcases h.2 c hm with ha | rfl
  · simp [hc] at ha
  · exact hh rfl

/-- The attributes of a tag are determined by what follows its name. -/
theorem attributes_append_inj {as bs : List (String × String)}
    (ha : ∀ a ∈ as, IsName a.1 ∧ ∀ c ∈ a.2.toList, Text.IsPlain c)
    (hb : ∀ a ∈ bs, IsName a.1 ∧ ∀ c ∈ a.2.toList, Text.IsPlain c) {rest rest' : List Char}
    (h : as.flatMap writeAttribute ++ '>' :: rest = bs.flatMap writeAttribute ++ '>' :: rest') :
    as = bs ∧ rest = rest' := by
  have hequals : ∀ {s : String}, IsName s → '=' ∉ s.toList :=
    fun hs => hs.notMem (by decide) (by decide)
  have hquote : ∀ {s : String}, (∀ c ∈ s.toList, Text.IsPlain c) → '"' ∉ s.toList :=
    fun hs hm => (hs '"' hm).2.2.1 rfl
  induction as generalizing bs with
  | nil =>
    cases bs with
    | nil => simpa using h
    | cons b bs => simp [writeAttribute] at h
  | cons a as ih =>
    cases bs with
    | nil => simp [writeAttribute] at h
    | cons b bs =>
      obtain ⟨⟨han, hav⟩, has⟩ := List.forall_mem_cons.1 ha
      obtain ⟨⟨hbn, hbv⟩, hbs⟩ := List.forall_mem_cons.1 hb
      simp only [List.flatMap_cons, writeAttribute, List.cons_append, List.append_assoc,
        List.nil_append, List.cons.injEq, true_and] at h
      -- The name ends at the first equals sign, the value at the first quote after the opening one.
      obtain ⟨hname, h⟩ := append_cons_inj (hequals han) (hequals hbn) h
      rw [List.cons.injEq] at h
      obtain ⟨hvalue, h⟩ := append_cons_inj (hquote hav) (hquote hbv) h.2
      obtain ⟨rfl, hr⟩ := ih has hbs h
      obtain ⟨an, av⟩ := a
      obtain ⟨bn, bv⟩ := b
      simp only [String.toList_inj] at hname hvalue
      exact ⟨by rw [hname, hvalue], hr⟩

/-- Attributes are followed by a character that ends a name. -/
theorem exists_flatMap_writeAttribute (as : List (String × String)) (rest : List Char) :
    ∃ c rest', as.flatMap writeAttribute ++ '>' :: rest = c :: rest' ∧ c.isAlpha = false := by
  cases as with
  | nil => exact ⟨'>', rest, rfl, by decide⟩
  | cons a as => exact ⟨' ', _, by simp [writeAttribute]; rfl, by decide⟩

/-- **The first piece of a text is determined by the text**, and so is what follows it. -/
theorem write_append_inj {p q : Piece} (hp : p.IsSafe) (hq : q.IsSafe) {rest rest' : List Char}
    (h : p.write ++ rest = q.write ++ rest') : p = q ∧ rest = rest' := by
  have hslash : ∀ (t : Tag) (rest rest' : List Char), t.name.toList ++ rest ≠ '/' :: rest' := by
    intro t rest rest'
    cases t <;> simp [Tag.name]
  cases p with
  | opening t as =>
    cases q with
    | opening u bs =>
      simp only [write, List.cons_append, List.append_assoc, List.nil_append, List.cons.injEq,
        true_and] at h
      obtain ⟨c, cs, hc, hca⟩ := exists_flatMap_writeAttribute as rest
      obtain ⟨d, ds, hd, hda⟩ := exists_flatMap_writeAttribute bs rest'
      rw [hc, hd] at h
      obtain ⟨rfl, ht⟩ := name_append_inj hca hda h
      rw [← hc, ← hd] at ht
      obtain ⟨rfl, hr⟩ := attributes_append_inj hp hq ht
      exact ⟨rfl, hr⟩
    | closing u =>
      simp only [write, List.cons_append, List.append_assoc, List.cons.injEq, true_and] at h
      exact (hslash _ _ _ h).elim
    | char d =>
      obtain rfl : '<' = d := (List.cons.inj h).1
      exact absurd rfl hq.1
  | closing t =>
    cases q with
    | opening u bs =>
      simp only [write, List.cons_append, List.append_assoc, List.cons.injEq, true_and] at h
      exact (hslash _ _ _ h.symm).elim
    | closing u =>
      simp only [write, List.cons_append, List.append_assoc, List.nil_append, List.cons.injEq,
        true_and] at h
      obtain ⟨rfl, ht⟩ := name_append_inj (by decide) (by decide) h
      exact ⟨rfl, (List.cons.inj ht).2⟩
    | char d =>
      obtain rfl : '<' = d := (List.cons.inj h).1
      exact absurd rfl hq.1
  | char c =>
    cases q with
    | char d =>
      obtain ⟨rfl, hr⟩ := List.cons.inj h
      exact ⟨rfl, hr⟩
    | _ =>
      obtain rfl : c = '<' := (List.cons.inj h).1
      exact absurd rfl hp.1

theorem write_ne_nil (p : Piece) : p.write ≠ [] := by
  cases p <;> simp [write]

/-- **A text is read in one way only** as a row of pieces. -/
theorem flatMap_write_inj {ps qs : List Piece} (hp : ∀ p ∈ ps, p.IsSafe)
    (hq : ∀ p ∈ qs, p.IsSafe) (h : ps.flatMap write = qs.flatMap write) : ps = qs := by
  induction ps generalizing qs with
  | nil =>
    cases qs with
    | nil => rfl
    | cons q qs => simp [write_ne_nil] at h
  | cons p ps ih =>
    cases qs with
    | nil => simp [write_ne_nil] at h
    | cons q qs =>
      obtain ⟨hp, hps⟩ := List.forall_mem_cons.1 hp
      obtain ⟨hq, hqs⟩ := List.forall_mem_cons.1 hq
      obtain ⟨rfl, hr⟩ := write_append_inj hp hq h
      rw [ih hps hqs hr]

end Piece

/-! ## Balanced tags -/

/-- Every tag that is opened is closed, the last one first. -/
inductive Balanced : List Piece → Prop
  | nil : Balanced []
  | char {c : Char} {ps : List Piece} (h : Balanced ps) : Balanced (.char c :: ps)
  | element {tag : Tag} {attributes : List (String × String)} {inner ps : List Piece}
      (hi : Balanced inner) (h : Balanced ps) :
      Balanced (.opening tag attributes :: (inner ++ .closing tag :: ps))

theorem Balanced.append {ps qs : List Piece} (hp : Balanced ps) (hq : Balanced qs) :
    Balanced (ps ++ qs) := by
  induction hp with
  | nil => exact hq
  | char _ ih => exact .char ih
  | element hi _ _ ih =>
    rw [List.cons_append, List.append_assoc]
    exact .element hi ih

theorem balanced_map_char (cs : List Char) : Balanced (cs.map .char) := by
  induction cs with
  | nil => exact .nil
  | cons c cs ih => exact .char ih

/-! ## Markup as pieces -/

/-- The name and the written value of an attribute. -/
def Attribute.written (a : Attribute) : String × String :=
  (a.name, String.join (a.value.map Fragment.render))

theorem Attribute.toList_render (a : Attribute) :
    a.render.toList = Piece.writeAttribute a.written := by
  simp [render, Piece.writeAttribute, written]

namespace Markup

mutual

/-- Markup as a row of pieces. Its tags are those of its elements. -/
def pieces : Markup → List Piece
  | verbatim s => s.toList.map .char
  | element tag attributes children =>
    .opening tag (attributes.map Attribute.written) :: (piecesAll children ++ [.closing tag])

/-- The pieces of several pieces of markup. -/
def piecesAll : List Markup → List Piece
  | [] => []
  | m :: ms => m.pieces ++ piecesAll ms

end

@[simp] theorem piecesAll_eq_flatMap (ms : List Markup) : piecesAll ms = ms.flatMap pieces := by
  induction ms with
  | nil => rfl
  | cons m ms ih => simp [piecesAll, ih]

theorem toList_openTag (tag : Tag) (as : List Attribute) :
    (openTag tag as).toList = (Piece.opening tag (as.map Attribute.written)).write := by
  simp [openTag, Piece.write, List.flatMap_map, Attribute.toList_render]

mutual

/-- **Markup is written piece by piece.** -/
theorem toList_render : (m : Markup) → m.render.toList = m.pieces.flatMap Piece.write
  | verbatim s => by simp [render, pieces, List.flatMap_map, Piece.write]
  | element tag as children => by
    rw [render, String.toList_append, String.toList_append, toList_openTag,
      toList_renderAll children]
    simp [pieces, closeTag, Piece.write]

theorem toList_renderAll :
    (ms : List Markup) → (renderAll ms).toList = (ms.flatMap pieces).flatMap Piece.write
  | [] => rfl
  | m :: ms => by
    rw [renderAll, String.toList_append, toList_render m, toList_renderAll ms, List.flatMap_cons,
      List.flatMap_append]

end

mutual

/-- **The tags of markup are balanced**, whatever its texts are. -/
theorem balanced_pieces : (m : Markup) → Balanced m.pieces
  | verbatim s => balanced_map_char s.toList
  | element tag as children => by
    rw [pieces, piecesAll_eq_flatMap]
    exact .element (balanced_flatMap_pieces children) .nil

theorem balanced_flatMap_pieces : (ms : List Markup) → Balanced (ms.flatMap pieces)
  | [] => .nil
  | m :: ms => (balanced_pieces m).append (balanced_flatMap_pieces ms)

end

end Markup

end SequenceDiagram
