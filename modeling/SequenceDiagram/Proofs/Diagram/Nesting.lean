import Mathlib.Data.List.Forall2
import SequenceDiagram.Compile
import SequenceDiagram.Proofs.Diagram.Taking

/-!
# The tree of a text

The tree that a text describes is the well-nested reading of the statements taken from it: a walk
through the tree meets them one after another, and what is left at the end is to leave the blocks
that are still open.

## Main definitions

* `Statement.withNumbers`: statements, each with the number that messages have at its place
* `Diagram.Closes`: a step that closes the innermost open block
* `SeparatorPlaced`: separators stand in alternatives

## Main results

* `HasScope.exists_trace_numbered`, `HasScope.exists_trace`: a run makes the trace longer by the
  events of its statements
* `Diagram.exists_describesAt`: what stands in the tree comes from a statement
* `walk_body_read`: the walk through the tree of a text
-/

namespace SequenceDiagram

/-- A separator stands in an alternative. -/
def SeparatorPlaced (k : BlockKind) (e : Element) : Prop :=
  ∀ c, e = .separator c → k.isAlternative = true

theorem SeparatorPlaced.block (k inner : BlockKind) (children : List Element) :
    SeparatorPlaced k (.block inner children) := fun _ h => by simp at h

theorem SeparatorPlaced.of_allows (s : Scope) (st : Statement) (ev : Event) (e : Element)
    (_ : st.Describes ev) (ha : s.Allows ev) (he : ev.element? = some e) :
    SeparatorPlaced s.inner.kind e := by
  rintro c rfl
  cases ev with
  | separator c' => exact ha
  | _ => simp [Event.element?] at he

/-- What is related element by element has a partner for every element. -/
theorem exists_right_of_mem {α β : Type} {R : α → β → Prop} {as : List α} {bs : List β} {a : α}
    (h : List.Forall₂ R as bs) (ha : a ∈ as) : ∃ b ∈ bs, R a b := by
  induction h with
  | nil => exact absurd ha List.not_mem_nil
  | cons hab _ ih =>
    rcases List.mem_cons.1 ha with rfl | ha
    · exact ⟨_, List.mem_cons_self, hab⟩
    · obtain ⟨b, hb, hr⟩ := ih ha
      exact ⟨b, List.mem_cons_of_mem _ hb, hr⟩

namespace Statement

/-- Statements, each with the number of messages at its place, where the first has the given one. -/
def withNumbers (number : Option Int) : List Statement → List (Option Int × Statement)
  | [] => []
  | st :: rest => (number, st) :: withNumbers (st.nextNumber number) rest

theorem map_snd_withNumbers (number : Option Int) (sts : List Statement) :
    (withNumbers number sts).map Prod.snd = sts := by
  induction sts generalizing number with
  | nil => rfl
  | cons st rest ih => simp [withNumbers, ih]

end Statement

namespace Diagram

variable {forms : List Form} {d d' : Diagram} {line : String} {ls : List String} {number : Int}

/-- The step from `d` to `d'` closes the innermost open block, of kind `k`, and nothing else. -/
def Closes (d d' : Diagram) (k : BlockKind) : Prop :=
  d.openKinds = k :: d'.openKinds ∧ d' = { d with active := d.active.dropLast }

/-- A statement that ends a block moves the path of the open block only. -/
theorem react_closing {st : Statement} (hst : st = .closeParallel ∨ st = .closeFrame)
    (hr : d.react st = .applied d') : d' = { d with active := d.active.dropLast } := by
  rcases hst with rfl | rfl <;> exact eq_effect_of_react hr

namespace HasScope

variable {s : Scope}

/-- Leaving a block inside the outermost one takes its kind off the open ones. -/
theorem openKinds_leave {k : BlockKind} (h : d.HasScope s) (ha : s.Allows (.leave k))
    (h' : d'.HasScope s.leave) : d.openKinds = k :: d'.openKinds := by
  obtain ⟨rfl, ho⟩ := ha
  obtain ⟨b, bs, hb⟩ := List.exists_cons_of_ne_nil ho
  rw [h.openKinds_eq, h'.openKinds_eq]
  simp [Scope.blocks, Scope.leave, hb]

/-- An accepted closing ends the innermost open block, which is one that it describes. -/
theorem closes_next {st : Statement} (h : d.HasScope s)
    (hf : (d.readLine forms line).fault? = none) (ht : d.taken? forms line = some st)
    (hst : st = .closeParallel ∨ st = .closeFrame) :
    ∃ k, st.Describes (.leave k) ∧ d.Closes (d.next forms line) k := by
  have hn := h.next hf ht
  have hs : st.isStructural = true := by rcases hst with rfl | rfl <;> rfl
  rw [if_pos hs] at hn
  obtain ⟨ev, hd, ha, hsc⟩ := hn
  replace hd := hd.describes
  -- A closing describes no other event than leaving a block.
  obtain ⟨k, rfl⟩ : ∃ k, ev = .leave k := by
    rcases hst with rfl | rfl <;> cases ev <;> simp_all [Statement.Describes]
  exact ⟨k, hd, h.openKinds_leave ha hsc, react_closing hst (next_of_taken? hf ht)⟩

/-- A walk through the body goes along the trace and then leaves the open blocks. -/
theorem walk_body {evs : List Event} (h : d.HasScope s) (ht : s.trace = .enter .sequence :: evs) :
    d.body.flatMap Element.walk = evs ++ d.openKinds.map .leave := by
  have hw : d.root.walk = s.trace ++ s.blocks.map fun b => .leave b.kind := by
    rw [h.root_eq, s.walk_tree]
  rw [ht, root, Element.walk_block, List.cons_append, List.cons.injEq] at hw
  -- The walk through the body is the walk through the root without its first and last event.
  have hd := congrArg List.dropLast hw.2
  rw [List.dropLast_concat, List.dropLast_append_of_ne_nil (by simp [Scope.blocks])] at hd
  rw [hd, h.openKinds_eq, ← List.map_dropLast, ← List.map_dropLast, List.map_map]
  rfl

/-- **A run makes the trace longer** by the events of the statements that are taken, where every
message has the number of its place. -/
theorem exists_trace_numbered (h : d.HasScope s)
    (hf : (readLines forms d number ls).fault = none) :
    ∃ s' evs, (readLines forms d number ls).diagram.HasScope s' ∧ s'.trace = s.trace ++ evs ∧
      List.Forall₂ (fun c ev => c.2.DescribesAt c.1 ev)
        ((Statement.withNumbers d.counter (accepted forms d ls)).filter (·.2.isStructural))
        evs := by
  -- By induction on the lines, for every scope to begin with. A line that is not taken and a
  -- statement that is not about the tree leave the scope as it is.
  induction ls generalizing d number s with
  | nil => exact ⟨s, [], h, by simp, .nil⟩
  | cons l ls ih =>
    obtain ⟨hl, hr⟩ := fault?_of_readLines_cons hf
    rw [readLines_cons hl, Reading.diagram_prepend, accepted]
    cases ht : d.taken? forms l with
    | none =>
      rw [next_of_not_taken hl ht] at hr ⊢
      exact ih h hr
    | some st =>
      have hn := h.next hl ht
      have hc : (d.next forms l).counter = st.nextNumber d.counter := by
        rw [next_eq_effect hl ht, counter_effect]
      by_cases hs : st.isStructural
      · rw [if_pos hs] at hn
        obtain ⟨ev, hd, ha, hsc⟩ := hn
        obtain ⟨s', evs, hs', htr, hev⟩ := ih hsc hr
        refine ⟨s', ev :: evs, hs', ?_, ?_⟩
        · rw [htr, s.trace_advance ha, List.append_assoc, List.singleton_append]
        · simpa [Statement.withNumbers, hs, ← hc] using And.intro hd hev
      · rw [if_neg hs] at hn
        simpa [Statement.withNumbers, hs, ← hc] using ih hn hr

theorem exists_trace (h : d.HasScope s) (hf : (readLines forms d number ls).fault = none) :
    ∃ s' evs, (readLines forms d number ls).diagram.HasScope s' ∧ s'.trace = s.trace ++ evs ∧
      List.Forall₂ Statement.Describes ((accepted forms d ls).filter Statement.isStructural)
        evs := by
  obtain ⟨s', evs, hs', htr, hev⟩ := h.exists_trace_numbered hf
  refine ⟨s', evs, hs', htr, ?_⟩
  rw [← Statement.map_snd_withNumbers d.counter (accepted forms d ls), List.filter_map,
    List.forall₂_map_left_iff]
  exact hev.imp fun _ _ hd => hd.describes

end HasScope

/-- A walk through the tree of any lines, where every message has the number of its place. -/
theorem exists_walk_body (hf : (readLines forms empty number ls).fault = none) :
    ∃ evs, List.Forall₂ (fun c ev => c.2.DescribesAt c.1 ev)
        ((Statement.withNumbers none (accepted forms empty ls)).filter (·.2.isStructural)) evs ∧
      (readLines forms empty number ls).diagram.body.flatMap Element.walk =
        evs ++ (readLines forms empty number ls).diagram.openKinds.map .leave := by
  obtain ⟨s, evs, hs, htr, hd⟩ := hasScope_empty.exists_trace_numbered hf
  exact ⟨evs, hd, hs.walk_body htr⟩

/-- **What stands in the tree comes from a statement** that is taken, and a message has the number
of the place of its statement. -/
theorem exists_describesAt {p : Path} {e : Element} {ev : Event}
    (hf : (readLines forms empty number ls).fault = none) (hev : ev.element? = some e)
    (he : (readLines forms empty number ls).diagram.element? p = some e) :
    ∃ c ∈ Statement.withNumbers none (accepted forms empty ls), c.2.DescribesAt c.1 ev := by
  obtain ⟨evs, hd, hw⟩ := exists_walk_body hf
  -- The walk through the tree meets the event of the element, which is not one about a block.
  have hwalk : ev ∈ (readLines forms empty number ls).diagram.root.walk := by
    refine Element.mem_walk_of_get? he ?_
    cases ev <;> simp [Event.element?] at hev <;> simp [← hev, Element.walk]
  have hmem : ev ∈ evs := by
    rw [root, Element.walk_block, hw] at hwalk
    cases ev <;> simp [Event.element?] at hev <;> simpa using hwalk
  obtain ⟨c, hc, hdesc⟩ := exists_right_of_mem (List.Forall₂.flip hd) hmem
  exact ⟨c, (List.mem_filter.1 hc).1, hdesc⟩

/-- In the tree of any lines, separators are direct children of alternatives. -/
theorem separators_readLines (hf : (readLines forms empty number ls).fault = none) {p : Path}
    {i : Nat} {c : String}
    (hc : (readLines forms empty number ls).diagram.element? (p ++ [i]) = some (.separator c)) :
    ∃ condition children, (readLines forms empty number ls).diagram.element? p =
      some (.block (.alternative condition) children) := by
  -- The block that the path leads to is one in which a separator may stand.
  have hp := throughout_readLines SeparatorPlaced.block SeparatorPlaced.of_allows hf .sequence
  obtain ⟨inner, children, hg, hin⟩ := hp.of_get? hc
  have ha : inner.isAlternative = true := hin c rfl
  cases inner with
  | alternative condition => exact ⟨condition, children, hg⟩
  | _ => simp [BlockKind.isAlternative] at ha

end Diagram

open Diagram in
/-- **The tree of a text is the well-nested reading of what is taken from it.** A walk through
the body meets what the structural statements describe, in the order of the lines, and then
leaves the blocks that are still open. A brace closes the innermost open block, which is a
parallel one; the word `end` closes the innermost open block, which has a frame; and a separator
is a direct child of an alternative. -/
theorem walk_body_read {text : String} (hf : (read text).fault = none) :
    (∃ evs, List.Forall₂ Statement.Describes
        ((accepted Form.table .empty (Text.lines text)).filter Statement.isStructural) evs ∧
      (read text).diagram.body.flatMap Element.walk =
        evs ++ (read text).diagram.openKinds.map .leave) ∧
    (∀ i line, (Text.lines text)[i]? = some line →
      let d := before Form.table .empty (Text.lines text) i
      (d.taken? Form.table line = some .closeParallel →
        d.Closes (d.next Form.table line) .parallel) ∧
      (d.taken? Form.table line = some .closeFrame →
        ∃ k, k.isFramed = true ∧ d.Closes (d.next Form.table line) k)) ∧
    ∀ p i c, (read text).diagram.element? (p ++ [i]) = some (.separator c) →
      ∃ condition children,
        (read text).diagram.element? p = some (.block (.alternative condition) children) := by
  simp only [read, fault_readText, diagram_readText] at hf ⊢
  refine ⟨?_, ?_, ?_⟩
  · obtain ⟨s, evs, hs, htr, hev⟩ := hasScope_empty.exists_trace hf
    exact ⟨evs, hev, hs.walk_body htr⟩
  · intro i line hi
    have hl := fault?_before hf hi
    obtain ⟨s, hs⟩ := exists_hasScope_before hf ⟨_, hasScope_empty⟩ i
    constructor
    · intro ht
      obtain ⟨k, rfl, hc⟩ := hs.closes_next hl ht (.inl rfl)
      exact hc
    · intro ht
      exact hs.closes_next hl ht (.inr rfl)
  · intro p i c hc
    exact separators_readLines hf hc

theorem walk_body_read_open_block :
    (read "alt a\nA->B: x\nelse b\nend\nopt").fault = none ∧
      (∃ evs, (read "alt a\nA->B: x\nelse b\nend\nopt").diagram.body.flatMap Element.walk =
        evs ++ [.leave (.framed "opt" "")]) ∧
      ∃ condition children,
        (read "alt a\nA->B: x\nelse b\nend\nopt").diagram.element? [0] =
          some (.block (.alternative condition) children) := by
  have hf : (read "alt a\nA->B: x\nelse b\nend\nopt").fault = none := by decide
  have hk : (read "alt a\nA->B: x\nelse b\nend\nopt").diagram.openKinds =
      [.framed "opt" ""] := by decide
  obtain ⟨⟨evs, -, hw⟩, -, hs⟩ := walk_body_read hf
  exact ⟨hf, ⟨evs, by rw [hw, hk]; rfl⟩, hs [0] 1 "b" rfl⟩

end SequenceDiagram
