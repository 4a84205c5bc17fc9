import SequenceDiagram.Proofs.Diagram.Composition
import SequenceDiagram.Proofs.Diagram.Content
import SequenceDiagram.Proofs.Diagram.Description
import SequenceDiagram.Proofs.Diagram.Failure
import SequenceDiagram.Proofs.Diagram.Nesting
import SequenceDiagram.Proofs.Diagram.Recovery

/-!
# Closing what is open

A text at the end of which blocks are open can be completed: a line behind it for every such block,
from the inside out, closes them one after another. The completed text has the same document and the
same report but for the entry about its end, as closing a block moves the path of the open one and
nothing else.

## Main definitions

* `Diagram.closings`: the statements that close what is open

## Main results

* `Diagram.openKinds_ne_sequence`: only blocks that a statement closes are open in the outermost one
* `Diagram.readLines_closings`: the closings are taken one after another
* `compile_closed`: a text with its closings
-/

namespace SequenceDiagram

/-! ## Closings -/

namespace BlockKind

variable {k : BlockKind}

theorem isWritable_closing (k : BlockKind) : k.closing.IsWritable := by
  cases k <;> exact trivial

/-- A block that is not the outermost one is closed by a brace, if it is parallel, or else by a
word. -/
theorem written_closing (hk : k ≠ .sequence) :
    k = .parallel ∧ k.closing.written = "\x7d" ∨ k.isFramed = true ∧ k.closing.written = "end" := by
  cases k with
  | sequence => exact absurd rfl hk
  | parallel => exact .inl ⟨rfl, rfl⟩
  | framed keyword label => exact .inr ⟨rfl, rfl⟩
  | alternative condition => exact .inr ⟨rfl, rfl⟩

end BlockKind

/-! ## The blocks that are open -/

/-- A block is opened by a statement, and the outermost one is not. -/
theorem Statement.Describes.ne_sequence {st : Statement} {k : BlockKind}
    (h : st.Describes (.enter k)) : k ≠ .sequence := by
  cases st <;> simp_all [Describes]

/-- A block that is open inside the outermost one after an event was open before, or is entered. -/
theorem Scope.mem_kinds_advance {s : Scope} {ev : Event} {k : BlockKind} (ha : s.Allows ev)
    (h : k ∈ ((s.advance ev).blocks.map OpenBlock.kind).dropLast) :
    ev = .enter k ∨ k ∈ (s.blocks.map OpenBlock.kind).dropLast := by
  cases ev with
  | signal x => exact .inr h
  | note n => exact .inr h
  | separator c => exact .inr h
  | enter k' =>
    rcases List.mem_cons.1 h with rfl | h
    · exact .inl rfl
    · exact .inr h
  | leave k' =>
    obtain ⟨b, bs, hb⟩ := List.exists_cons_of_ne_nil ha.2
    simp only [advance, leave, hb, blocks, List.map_cons, OpenBlock.kind_add] at h ⊢
    exact .inr (List.mem_cons_of_mem _ h)

namespace Diagram

variable {forms : List Form} {d d' : Diagram} {s : Scope} {number : Int} {ls : List String}

/-- **Inside the outermost block no block is open that no statement closes.** -/
theorem openKinds_ne_sequence (hf : (readLines forms empty number ls).fault = none) :
    ∃ s, (readLines forms empty number ls).diagram.HasScope s ∧
      ∀ k ∈ (readLines forms empty number ls).diagram.openKinds, k ≠ .sequence := by
  refine readLines_preserves
    (P := fun d => ∃ s, d.HasScope s ∧ ∀ k ∈ d.openKinds, k ≠ .sequence) ?_ hf
    ⟨_, hasScope_empty, by simp [hasScope_empty.openKinds_eq, Scope.outermost, Scope.blocks]⟩
  rintro d line hl ⟨s, hs, hk⟩
  rw [hs.openKinds_eq] at hk
  rcases hs.next_or_advance hl with hs' | ⟨st, ev, hd, ha, hs'⟩
  · exact ⟨s, hs', by rwa [hs'.openKinds_eq]⟩
  · refine ⟨_, hs', fun k hmem => ?_⟩
    rw [hs'.openKinds_eq] at hmem
    rcases Scope.mem_kinds_advance ha hmem with rfl | hmem
    · exact hd.ne_sequence
    · exact hk k hmem

/-- The statements that close what is open, from the inside out. -/
def closings (d : Diagram) : List Statement := d.openKinds.map BlockKind.closing

/-- The open block is closed by the statement for blocks of its kind. -/
theorem react_activeKind_closing (h : d.activeKind ≠ .sequence) :
    d.react d.activeKind.closing = .applied { d with active := d.active.dropLast } := by
  have hc := ofExcept_closeBlock h
  cases hk : d.activeKind with
  | sequence => exact absurd hk h
  | parallel => simp [BlockKind.closing, react, hk, hc]
  | framed keyword label => simp [BlockKind.closing, react, hk, hc, BlockKind.isFramed]
  | alternative condition => simp [BlockKind.closing, react, hk, hc, BlockKind.isFramed]

/-- **The closings are taken one after another**, after which nothing is open. -/
theorem readLines_closings (h : d.HasScope s) (hk : ∀ k ∈ d.openKinds, k ≠ .sequence)
    (number : Int) :
    readLines Form.table d number (d.closings.map Statement.written) =
        { diagram := { d with active := [] } } ∧
      accepted Form.table d (d.closings.map Statement.written) = d.closings := by
  -- By induction on the open blocks from the inside out: a closing is taken by the innermost one,
  -- and the others are open then.
  rw [closings]
  generalize hks : d.openKinds = ks at hk
  induction ks generalizing d s number with
  | nil =>
    have ha : d.active = [] := h.openKinds_eq_nil_iff.1 hks
    simp only [List.map_nil, readLines_nil, accepted, and_true, ← ha]
  | cons k ks ih =>
    obtain ⟨hinner, hrest⟩ := List.forall_mem_cons.1 hk
    have ho : s.outer ≠ [] := by
      rw [Ne, ← h.active_eq_nil_iff, ← h.openKinds_eq_nil_iff, hks]
      exact List.cons_ne_nil k ks
    obtain ⟨d', -, rfl, hs⟩ := h.closeBlock ho
    obtain ⟨rfl, rfl⟩ := List.cons.inj (hks.symm.trans (h.openKinds_leave ⟨rfl, ho⟩ hs))
    have hr := react_activeKind_closing (h.activeKind_eq ▸ hinner)
    rw [h.activeKind_eq] at hr
    have hw := s.inner.kind.isWritable_closing
    have hl := readLine_written hw hr
    obtain ⟨hlines, haccepted⟩ := ih hs (number + 1) rfl hrest
    constructor
    · rw [List.map_cons, List.map_cons, readLines_cons_of_applied hl, hlines]
    · rw [List.map_cons, List.map_cons, accepted, taken?_written hw hr, next, hl, Reaction.after,
        haccepted]
      rfl

/-- Which block is open does not show in the picture. -/
theorem MemorySound.draw_active (h : d.MemorySound) (p : Path) :
    ({ d with active := p } : Diagram).draw.1 = d.draw.1 := by
  have hp : ({ d with active := p } : Diagram).MemorySound := h.congr rfl rfl
  exact hp.draw_congr h rfl rfl

/-- The reading of the lines of a text and of its closings. -/
theorem readLines_closed {text : String}
    (hf : (readLines Form.table empty 1 (Text.lines text)).fault = none) :
    let r := readLines Form.table empty 1 (Text.lines text)
    let closed := "\n".intercalate (text :: r.diagram.closings.map Statement.written)
    readLines Form.table empty 1 (Text.lines closed) =
        { r with diagram := { r.diagram with active := [] } } ∧
      accepted Form.table empty (Text.lines closed) =
        accepted Form.table empty (Text.lines text) ++ r.diagram.closings := by
  intro r closed
  obtain ⟨s, hs, hk⟩ := openKinds_ne_sequence hf
  obtain ⟨hlines, haccepted⟩ := readLines_closings hs hk (1 + (Text.lines text).length)
  have hline : ∀ l ∈ r.diagram.closings.map Statement.written, Text.IsLine l := by
    intro l hl
    obtain ⟨st, hst, rfl⟩ := List.mem_map.1 hl
    obtain ⟨k, -, rfl⟩ := List.mem_map.1 hst
    exact Statement.isLine_written k.isWritable_closing
  have hclosed : Text.lines closed =
      Text.lines text ++ r.diagram.closings.map Statement.written :=
    Text.lines_intercalate_cons hline text
  constructor
  · rw [hclosed, readLines_append]
    simp only [hf, if_true, r, hlines]
    simp [Reading.prepend]
  · rw [hclosed, accepted_append hf, haccepted]

end Diagram

open Diagram in
/-- **Closing the open blocks changes nothing but the report on the end.** A text that is compiled
is followed by a line for every block that is open at its end, from the inside out: a brace for a
parallel block and the word `end` for a block with a frame. These lines are all taken, as the
statements that close the blocks, after which no block is open and the diagram is the same
otherwise. The completed text is compiled to the same document, with the same report but for the
entry about a block that is open at the end. -/
theorem compile_closed {text : String} {options : Options} {c : Compilation}
    (h : compile text options = .ok c) :
    let d := (read text).diagram
    let closed := "\n".intercalate (text :: d.closings.map Statement.written)
    (∀ k ∈ d.openKinds, k = .parallel ∧ k.closing.written = "\x7d" ∨
        k.isFramed = true ∧ k.closing.written = "end") ∧
      accepted Form.table .empty (Text.lines closed) =
        accepted Form.table .empty (Text.lines text) ++ d.closings ∧
      (read closed).diagram = { d with active := [] } ∧
      compile closed options =
        .ok { c with diagnostics := c.diagnostics.filter (·.kind ≠ .unterminated) } := by
  obtain ⟨palette, hp, hf, hd, hdiagnostics, hseparator⟩ := compile_eq_ok_iff.1 h
  have hm : (read text).diagram.MemorySound := memorySound_empty.readText text
  simp only [read, fault_readText, diagram_readText] at hf hd hm ⊢
  obtain ⟨s, -, hk⟩ := openKinds_ne_sequence hf
  obtain ⟨hlines, haccepted⟩ := readLines_closed hf
  refine ⟨fun k hmem => BlockKind.written_closing (hk k hmem), haccepted, by rw [hlines], ?_⟩
  refine compile_eq_ok_iff.2 ⟨palette, hp, ?_, ?_, ?_, hseparator⟩
  · simp only [read, fault_readText, hlines, hf]
  · simp only [read, diagram_readText, hlines, hm.draw_active, hd]
  · -- The lines have the same entries, and nothing is open at the end of the completed text.
    rw [hdiagnostics, read, filter_report_readText hf, read, report_readText, hlines]
    · simp
    · rw [hlines]
      exact hf

open Diagram in
/-- An alternative in a parallel block, both open at the end, and a line that is not taken. -/
theorem compile_closed_alternative :
    let text := "parallel \x7b\nalt a\nA->B: x\nhello"
    ∃ c, compile text {} = .ok c ∧
      c.diagnostics = [.atLine 4 .unrecognized, .unterminated] ∧
      (read text).diagram.openKinds = [.alternative "a", .parallel] ∧
      compile "parallel \x7b\nalt a\nA->B: x\nhello\nend\n\x7d" {} =
        .ok { c with diagnostics := [.atLine 4 .unrecognized] } := by
  intro text
  have hok : (compile text {}).isOk = true := by decide +kernel
  have hreport : (read text).report = [.atLine 4 .unrecognized, .unterminated] := by
    decide
  have hopen : (read text).diagram.openKinds = [.alternative "a", .parallel] := by decide
  obtain ⟨c, hc⟩ := exists_eq_ok_of_isOk hok
  obtain ⟨-, -, -, -, hdiagnostics, -⟩ := compile_eq_ok_iff.1 hc
  rw [hreport] at hdiagnostics
  obtain ⟨-, -, -, hclosed⟩ := compile_closed hc
  rw [closings, hopen, hdiagnostics] at hclosed
  exact ⟨c, hc, hdiagnostics, hopen, hclosed⟩

end SequenceDiagram
