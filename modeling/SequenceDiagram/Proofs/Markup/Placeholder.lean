import SequenceDiagram.Proofs.Diagram.Closing
import SequenceDiagram.Proofs.Diagram.Mentions
import SequenceDiagram.Proofs.Layout.Drawing
import SequenceDiagram.Proofs.Markup.Texts

/-!
# Texts with nothing to draw

A picture is empty if there are no participants and the tree is made of blocks without frames. Some
statements put something into the picture wherever they stand, others never do. The two that remain,
separators and the word that closes a frame, may stand in a frame only, so that they come after a
statement of the first sort. A text is compiled to a document exactly if a statement of the first
sort is taken from it.

## Main definitions

* `Form.drawn`, `Form.undrawn`: the forms of statements that always show in the picture, and of
  those that never do
* `Event.isBare`: the events about blocks without frames

## Main results

* `Element.drawing_eq_nil_iff`: the trees that nothing is drawn of
* `Diagram.undrawn_of_accepted`: without a statement that is drawn no frame is ever open
* `Diagram.shapes_eq_nil_iff`: the texts whose pictures are empty
* `compile_placeholder`: what stands in place of a document
-/

namespace SequenceDiagram

/-! ## Trees without shapes -/

/-- Whether an event is about a block without a frame. -/
def Event.isBare : Event → Bool
  | enter k | leave k => !k.isFramed
  | signal _ | note _ | separator _ => false

/-- **Nothing is drawn of a tree** exactly if it is made of blocks without frames. -/
theorem Element.drawing_eq_nil_iff {e : Element} {r : Roster} {width : Quantity} {p : Path}
    {top : Quantity} : e.drawing r width p top = [] ↔ ∀ ev ∈ e.walk, ev.isBare = true := by
  induction e using Element.induction generalizing p top with
  | leaf e he =>
    rw [drawing_leaf he]
    cases e with
    | block k children => simp [kind?] at he
    | _ => simp [Placed.shapes, Drawing.separator, walk, Event.isBare]
  | block k children ih =>
    -- A block draws something itself if it has a frame, and its elements are drawn as they are
    -- wherever they begin.
    have hown : Placed.shapes r width ⟨p, top, (block k children).height, block k children⟩ = [] ↔
        k.isFramed = false := by
      cases k <;> simp [Placed.shapes, BlockKind.caption?, BlockKind.isFramed]
    have hchildren : (∀ c ∈ k.places top children, c.2.drawing r width (0 :: p) c.1 = []) ↔
        ∀ c ∈ children, ∀ ev ∈ c.walk, ev.isBare = true := by
      conv_rhs => rw [← k.map_snd_places top children, List.forall_mem_map]
      exact forall₂_congr fun c hc => ih c.2 (k.mem_of_mem_places hc)
    rw [drawing_block, List.append_eq_nil_iff, List.flatMap_eq_nil_iff, hown, hchildren, walk_block]
    simp only [List.forall_mem_cons, List.forall_mem_append, List.forall_mem_flatMap, Event.isBare,
      Bool.not_eq_true']
    grind

/-! ## Statements that are drawn -/

namespace Form

/-- The forms of statements that show in the picture, wherever they stand. -/
def drawn : List Form :=
  [aliased, participant, openOption, openLoop, openAlternative, state, signal]

/-- The forms of statements that never show in the picture. -/
def undrawn : List Form := [openParallel, closeParallel, numberFrom, numberOff, comment, blank]

/-- No form is of both sorts. -/
theorem notMem_drawn : ∀ f ∈ undrawn, f ∉ drawn := by decide

end Form

namespace Statement

variable {st : Statement} {k : BlockKind}

/-- In a block without a frame a statement is drawn or never shows. -/
theorem undrawn_of_fits (hk : k.isFramed = false) (h : st.fits k = true)
    (hd : Form.ofStatement st ∉ Form.drawn) : Form.ofStatement st ∈ Form.undrawn := by
  cases st with
  | separator condition =>
    cases k with
    | alternative c => exact absurd hk (by simp [BlockKind.isFramed])
    | _ => simp [fits, BlockKind.isAlternative] at h
  | closeFrame => simp [fits, hk] at h
  | openParallel | closeParallel | numberFrom numeral | numberOff | comment | blank =>
    simp [Form.ofStatement, Form.undrawn]
  | _ => simp [Form.ofStatement, Form.drawn] at hd

/-- The only events of statements that never show are about parallel blocks. -/
theorem Describes.isBare_of_undrawn {ev : Event} (h : st.Describes ev)
    (hu : Form.ofStatement st ∈ Form.undrawn) : ev.isBare = true := by
  cases st with
  | openParallel =>
    cases ev with
    | enter k =>
      obtain rfl := h
      rfl
    | _ => exact absurd h id
  | closeParallel =>
    cases ev with
    | leave k =>
      obtain rfl := h
      rfl
    | _ => exact absurd h id
  | numberFrom numeral | numberOff | comment | blank => exact absurd h id
  | _ => simp [Form.ofStatement, Form.undrawn] at hu

/-- Statements that never show mention nobody. -/
theorem mentions_of_undrawn (hu : Form.ofStatement st ∈ Form.undrawn) : st.mentions = [] := by
  cases st <;> simp_all [Form.ofStatement, Form.undrawn, mentions]

/-- A statement that shows in the picture mentions a participant or opens a frame. -/
theorem mentions_or_opens_of_drawn (hd : Form.ofStatement st ∈ Form.drawn) :
    st.mentions ≠ [] ∨
      st.isStructural = true ∧ ∀ ev, st.Describes ev → ev.isBare = false := by
  cases st with
  | aliased label name | participant name | state name text
  | signal source double dotted openHead target text => exact .inl (by simp [mentions])
  | openOption | openLoop label | openAlternative condition =>
    refine .inr ⟨rfl, fun ev h => ?_⟩
    cases ev with
    | enter k =>
      obtain rfl := h
      rfl
    | _ => exact absurd h id
  | _ => simp [Form.ofStatement, Form.drawn] at hd

end Statement

/-! ## Runs without a statement that is drawn -/

namespace Diagram

variable {forms : List Form} {d : Diagram} {s : Scope} {number : Int} {ls : List String}

@[simp] theorem openKinds_empty : empty.openKinds = [] := rfl

/-- If no frame is open then the open block has none; the outermost one has none anyway. -/
theorem HasScope.isFramed_activeKind (h : d.HasScope s)
    (hk : ∀ k ∈ d.openKinds, k.isFramed = false) : d.activeKind.isFramed = false := by
  rw [h.activeKind_eq]
  by_cases hs : s.inner.kind = .sequence
  · rw [hs]
    rfl
  · refine hk _ ?_
    rw [h.openKinds_eq, Scope.blocks, List.map_cons,
      List.dropLast_cons_of_ne_nil (by simpa using h.outer_ne_nil hs)]
    exact List.mem_cons_self

/-- **Without a statement that is drawn no frame is ever open**, so that every statement that is
taken never shows. -/
theorem undrawn_of_accepted (h : d.HasScope s) (hk : ∀ k ∈ d.openKinds, k.isFramed = false)
    (hf : (readLines forms d number ls).fault = none)
    (hd : ∀ st ∈ accepted forms d ls, Form.ofStatement st ∉ Form.drawn) :
    (∀ st ∈ accepted forms d ls, Form.ofStatement st ∈ Form.undrawn) ∧
      ∀ k ∈ (readLines forms d number ls).diagram.openKinds, k.isFramed = false := by
  -- By induction on the lines: a separator and the end of a frame do not fit where none is open,
  -- and the other statements that are not drawn open parallel blocks at most.
  induction ls generalizing d number s with
  | nil => exact ⟨fun st hst => absurd hst List.not_mem_nil, hk⟩
  | cons l ls ih =>
    obtain ⟨hl, hr⟩ := fault?_of_readLines_cons hf
    rw [readLines_cons hl, Reading.diagram_prepend]
    cases ht : d.taken? forms l with
    | none =>
      simp only [accepted, ht, next_of_not_taken hl ht] at hd hr ⊢
      exact ih h hk hr hd
    | some st =>
      simp only [accepted, ht, Option.toList_some, List.singleton_append,
        List.forall_mem_cons] at hd ⊢
      have hfits := fits_of_react (next_of_taken? hl ht)
      have hu := Statement.undrawn_of_fits (h.isFramed_activeKind hk) hfits hd.1
      obtain ⟨s', hs', hk'⟩ : ∃ s', (d.next forms l).HasScope s' ∧
          ∀ k ∈ (d.next forms l).openKinds, k.isFramed = false := by
        have hn := h.next hl ht
        split at hn
        · obtain ⟨ev, hdesc, ha, hs'⟩ := hn
          refine ⟨_, hs', fun k hmem => ?_⟩
          rw [hs'.openKinds_eq] at hmem
          rcases Scope.mem_kinds_advance ha hmem with rfl | hmem
          · simpa [Event.isBare] using hdesc.describes.isBare_of_undrawn hu
          · exact hk k (by rwa [h.openKinds_eq])
        · refine ⟨s, hn, ?_⟩
          rwa [hn.openKinds_eq, ← h.openKinds_eq]
      obtain ⟨haccepted, hopen⟩ := ih hs' hk' hr hd.2
      exact ⟨⟨hu, haccepted⟩, hopen⟩

/-- **The texts whose pictures are empty** are those from which no statement is taken that is
drawn. -/
theorem shapes_eq_nil_iff (hf : (readLines forms empty number ls).fault = none)
    (hm : (readLines forms empty number ls).diagram.MemorySound) :
    (readLines forms empty number ls).diagram.draw.1.shapes = [] ↔
      ∀ st ∈ accepted forms empty ls, Form.ofStatement st ∉ Form.drawn := by
  obtain ⟨s, evs, hs, htr, hev⟩ := hasScope_empty.exists_trace hf
  have hw : (readLines forms empty number ls).diagram.body.flatMap Element.walk =
      evs ++ (readLines forms empty number ls).diagram.openKinds.map .leave := hs.walk_body htr
  rw [hm.shapes_draw, List.append_eq_nil_iff, Element.drawing_eq_nil_iff, List.map_eq_nil_iff]
  simp only [Roster.seated, List.mapIdx_eq_nil_iff]
  constructor
  · -- A statement that is drawn leaves a participant or an event of a frame.
    rintro ⟨hroster, hwalk⟩ st hst hd
    rcases Statement.mentions_or_opens_of_drawn hd with hmention | ⟨hstruct, hframe⟩
    · obtain ⟨m, hmem⟩ := List.exists_mem_of_ne_nil _ hmention
      have hname : m.1 ∈ (readLines forms empty number ls).diagram.roster.names := by
        rw [roster_readLines hf, Roster.mem_names_registerAll]
        exact .inr (List.mem_map_of_mem (List.mem_flatMap.2 ⟨st, hst, hmem⟩))
      simp [hroster, Roster.names] at hname
    · obtain ⟨ev, hmem, hdesc⟩ := exists_right_of_mem hev (List.mem_filter.2 ⟨hst, hstruct⟩)
      have hbare := hwalk ev (by simp [root, hw, hmem])
      simp [hframe ev hdesc] at hbare
  · intro hd
    obtain ⟨hu, hk⟩ := undrawn_of_accepted hasScope_empty (by simp) hf hd
    constructor
    · have hnil : (accepted forms empty ls).flatMap Statement.mentions = [] :=
        List.flatMap_eq_nil_iff.2 fun st hst => Statement.mentions_of_undrawn (hu st hst)
      rw [roster_readLines hf, hnil]
      rfl
    · have hbare : ∀ ev ∈ evs, ev.isBare = true := by
        intro ev hmem
        obtain ⟨st, hst, hdesc⟩ := exists_right_of_mem (List.Forall₂.flip hev) hmem
        exact Statement.Describes.isBare_of_undrawn hdesc (hu st (List.mem_filter.1 hst).1)
      -- The blocks that are still open at the end have no frames either.
      have hleave : ∀ ev ∈ (readLines forms empty number ls).diagram.openKinds.map Event.leave,
          ev.isBare = true := by
        simpa [Event.isBare] using hk
      rw [root, Element.walk_block, hw]
      simp only [List.forall_mem_cons, List.forall_mem_append]
      exact ⟨rfl, ⟨hbare, hleave⟩, rfl, fun ev hmem => absurd hmem List.not_mem_nil⟩

end Diagram

/-! ## Documents -/

/-- The markup of a picture begins with the tag of a document. -/
theorem Picture.svg_isPrefix_markup (p : Picture) (palette : Palette) (font : Option String) :
    "<svg".toList <+: (p.markup palette font).render.toList := by
  rw [Markup.toList_render]
  simp [markup, SequenceDiagram.document, Markup.pieces, Piece.write, Tag.name]

open Diagram in
/-- **What stands for an empty picture appears exactly if nothing is drawn.** A text that is
compiled has the placeholder as its document exactly if none of its lines is taken as a declaration,
a message, a note or the beginning of a frame, and exactly if all statements taken from it are
comments, blank lines, statements about numbers and the beginnings and ends of parallel blocks.
Every other document begins with the tag `svg`. -/
theorem compile_placeholder {text : String} {options : Options} {c : Compilation}
    (h : compile text options = .ok c) :
    let taken := (accepted Form.table .empty (Text.lines text)).map Form.ofStatement
    (c.document = Picture.placeholder ↔ ∀ f ∈ taken, f ∉ Form.drawn) ∧
      (c.document = Picture.placeholder ↔ ∀ f ∈ taken, f ∈ Form.undrawn) ∧
      (c.document ≠ Picture.placeholder → "<svg".toList <+: c.document.toList) := by
  intro taken
  obtain ⟨palette, -, hf, hd, -, -⟩ := compile_eq_ok_iff.1 h
  have hm : (read text).diagram.MemorySound := memorySound_empty.readText text
  simp only [read, fault_readText, diagram_readText] at hf hd hm
  have hshapes := shapes_eq_nil_iff hf hm
  have hdrawn : c.document = Picture.placeholder ↔ ∀ f ∈ taken, f ∉ Form.drawn := by
    rw [List.forall_mem_map, ← hshapes]
    exact Picture.document_eq_placeholder_iff hd
  have hundrawn : (∀ f ∈ taken, f ∉ Form.drawn) ↔ ∀ f ∈ taken, f ∈ Form.undrawn := by
    rw [List.forall_mem_map, List.forall_mem_map]
    constructor
    · intro hnone
      exact (undrawn_of_accepted hasScope_empty (by simp) hf hnone).1
    · intro hall st hst
      exact Form.notMem_drawn _ (hall st hst)
  refine ⟨hdrawn, hdrawn.trans hundrawn, fun hp => ?_⟩
  rw [(Picture.document_eq_ok hd).resolve_left fun hn => hp hn.2]
  exact Picture.svg_isPrefix_markup _ palette options.font

/-- Parallel blocks, a number, a comment, and lines that are not taken; with a frame that is closed
at once there is something to draw. -/
theorem compile_placeholder_parallel :
    let text := "parallel \x7b\nparallel \x7b\n\x7d\nautonumber 3\n# A->B: x\nend\nelse x\nA<-B: x"
    (∃ c, compile text {} = .ok c ∧ c.document = "Nothing to draw yet.") ∧
      ∃ c, compile (text ++ "\nopt\nend") {} = .ok c ∧ "<svg".toList <+: c.document.toList := by
  intro text
  have hok : (compile text {}).isOk = true := by decide +kernel
  have hok' : (compile (text ++ "\nopt\nend") {}).isOk = true := by decide +kernel
  obtain ⟨c, hc⟩ := exists_eq_ok_of_isOk hok
  obtain ⟨c', hc'⟩ := exists_eq_ok_of_isOk hok'
  obtain ⟨hdrawn, -, -⟩ := compile_placeholder hc
  obtain ⟨hdrawn', -, hsvg⟩ := compile_placeholder hc'
  refine ⟨⟨c, hc, hdrawn.2 (by decide)⟩, c', hc', hsvg fun hp => ?_⟩
  exact hdrawn'.1 hp .openOption (by decide) (by decide)

end SequenceDiagram
