import SequenceDiagram.Compile
import SequenceDiagram.Proofs.Diagram.Taking
import SequenceDiagram.Proofs.Statement.Keyword
import SequenceDiagram.Proofs.Text.Joining

/-!
# The report on a text

The report on a text has one entry for each line that is not taken, in the order of the lines, and
one entry more if more blocks were opened than closed. Which kind an entry has depends on the line
and on the kind of the block that is open before it, and on nothing else.

## Main definitions

* `Misplaced`, `Unreadable`: why a line is not taken in a block of some kind
* `Statement.opens`, `Statement.closes`: the statements that open and close blocks

## Main results

* `Diagram.react_eq_mismatch_iff`, `Diagram.react_eq_skipped_iff`: what is not taken where
* `Diagram.readLine_eq_mismatch_iff`, `Diagram.readLine_eq_skipped_iff`: the same of a line
* `Diagram.mem_report_readLines_iff`: the entries about lines
* `HasScope.exists_depth`: how many blocks are open after a run
* `report_read`: the report on a text
-/

namespace SequenceDiagram

/-- A line closes a block of a kind other than that of the open one: it is a lone brace outside a
parallel block, or the word `end` alone outside a frame. -/
def Misplaced (k : BlockKind) (line : String) : Prop :=
  Scan.stripped line.toList = ['\x7d'] ∧ k ≠ .parallel ∨
    Scan.stripped line.toList = "end".toList ∧ k.isFramed = false

/-- A line makes no sense in a block: it fits no form, or only that of a separator, outside an
alternative. -/
def Unreadable (k : BlockKind) (line : String) : Prop :=
  (∀ f : Form, f.read? line.toList = none) ∨
    (∀ f : Form, (f.read? line.toList).isSome ↔ f = .separator) ∧ k.isAlternative = false

namespace Statement

/-- Whether a statement opens a block. -/
def opens : Statement → Bool
  | openParallel | openOption | openLoop _ | openAlternative _ => true
  | _ => false

/-- Whether a statement closes a block. -/
def closes : Statement → Bool
  | closeParallel | closeFrame => true
  | _ => false

/-- What a statement does to the number of open blocks. -/
theorem length_outer_advance {s : Scope} {st : Statement} {ev : Event}
    (hd : st.Describes ev) (ha : s.Allows ev) :
    (s.advance ev).outer.length + (if st.closes then 1 else 0) =
      s.outer.length + (if st.opens then 1 else 0) := by
  cases ev with
  | enter k =>
    cases st <;> simp_all [Describes, closes, opens, Scope.advance, Scope.enter, Scope.blocks]
  | leave k =>
    obtain ⟨b, bs, hb⟩ := List.exists_cons_of_ne_nil ha.2
    cases st <;> simp_all [Describes, closes, opens, Scope.advance, Scope.leave]
  | _ =>
    cases st <;> simp_all [Describes, closes, opens, Scope.advance]

end Statement

namespace Diagram

variable {forms : List Form} {d d' : Diagram} {line : String} {ls : List String} {number : Int}

/-! ## Lines that are not taken -/

@[simp] theorem ofExcept_ne_mismatch (d : Diagram) (r : Except Fault Diagram) :
    Reaction.ofExcept d r ≠ .mismatch := by
  cases r <;> simp [Reaction.ofExcept]

@[simp] theorem ofExcept_ne_skipped (d : Diagram) (r : Except Fault Diagram) :
    Reaction.ofExcept d r ≠ .skipped := by
  cases r <;> simp [Reaction.ofExcept]

/-- Only closings are out of place. -/
theorem react_eq_mismatch_iff {st : Statement} :
    d.react st = .mismatch ↔
      st = .closeParallel ∧ d.activeKind ≠ .parallel ∨
        st = .closeFrame ∧ d.activeKind.isFramed = false := by
  cases st with
  | closeParallel => by_cases h : d.activeKind = .parallel <;> simp [react, h]
  | closeFrame => cases h : d.activeKind.isFramed <;> simp [react, h]
  | separator c => cases h : d.activeKind.isAlternative <;> simp [react, h]
  | numberFrom numeral =>
    simp only [react]
    split <;> simp
  | signal source double dotted openHead target text =>
    simp only [react]
    split <;> simp
  | _ => simp [react]

/-- Only separators say nothing. -/
theorem react_eq_skipped_iff {st : Statement} :
    d.react st = .skipped ↔ (∃ c, st = .separator c) ∧ d.activeKind.isAlternative = false := by
  cases st with
  | closeParallel => by_cases h : d.activeKind = .parallel <;> simp [react, h]
  | closeFrame => cases h : d.activeKind.isFramed <;> simp [react, h]
  | separator c => cases h : d.activeKind.isAlternative <;> simp [react, h]
  | numberFrom numeral =>
    simp only [react]
    split <;> simp
  | signal source double dotted openHead target text =>
    simp only [react]
    split <;> simp
  | _ => simp [react]

/-- A closing stands alone on its line. -/
theorem closing_mem_readings_iff (hn : '\n' ∉ line.toList) :
    (Statement.closeParallel ∈ readings Form.table line ↔
      Scan.stripped line.toList = ['\x7d']) ∧
    (Statement.closeFrame ∈ readings Form.table line ↔
      Scan.stripped line.toList = "end".toList) := by
  -- A statement is read in its own form or not at all.
  have hf : ∀ {f g : Form} {st : Statement}, Form.ofStatement st = g →
      f.read? line.toList = some st → g.read? line.toList = some st := by
    intro f g st hg h
    rwa [← hg, Form.ofStatement_of_read? h]
  constructor
  · rw [mem_readings_iff]
    constructor
    · rintro ⟨f, h⟩
      exact ((Statement.readWord?_eq_some_iff hn (by decide)).1 (hf (g := .closeParallel) rfl h)).1
    · intro h
      exact ⟨.closeParallel, (Statement.readWord?_eq_some_iff hn (by decide)).2 ⟨h, rfl⟩⟩
  · rw [mem_readings_iff]
    constructor
    · rintro ⟨f, h⟩
      exact ((Statement.readWord?_eq_some_iff hn (by decide)).1 (hf (g := .closeFrame) rfl h)).1
    · intro h
      exact ⟨.closeFrame, (Statement.readWord?_eq_some_iff hn (by decide)).2 ⟨h, rfl⟩⟩

/-- A closing that stands alone on its line is its only reading. -/
theorem eq_of_mem_readings {st g : Statement} (hg : g = .closeParallel ∨ g = .closeFrame)
    (hs : Scan.stripped line.toList = (Form.ofStatement g).keyword.toList)
    (h : st ∈ readings Form.table line) : st = g := by
  obtain ⟨f, hf⟩ := mem_readings_iff.1 h
  have he : f = Form.ofStatement g :=
    Form.eq_of_read?_of_stripped (by rcases hg with rfl | rfl <;> decide) hs hf
  have ho := Form.ofStatement_of_read? hf
  rw [he] at ho
  rcases hg with rfl | rfl <;> cases st <;> simp_all [Form.ofStatement]

/-- **A line out of place** closes a block other than the open one. -/
theorem readLine_eq_mismatch_iff (hn : '\n' ∉ line.toList) :
    d.readLine Form.table line = .mismatch ↔ Misplaced d.activeKind line := by
  obtain ⟨hp, hf⟩ := closing_mem_readings_iff hn
  rw [readLine, reactFirst_eq_mismatch_iff]
  constructor
  · rintro ⟨-, st, hst, hr⟩
    rcases react_eq_mismatch_iff.1 hr with ⟨rfl, hk⟩ | ⟨rfl, hk⟩
    · exact .inl ⟨hp.1 hst, hk⟩
    · exact .inr ⟨hf.1 hst, hk⟩
  · rintro (⟨hs, hk⟩ | ⟨hs, hk⟩)
    · -- There is no other reading that could be taken instead.
      have hr : d.react .closeParallel = .mismatch := react_eq_mismatch_iff.2 (.inl ⟨rfl, hk⟩)
      refine ⟨fun st hst => ?_, _, hp.2 hs, hr⟩
      rw [eq_of_mem_readings (.inl rfl) hs hst]
      exact .inl hr
    · have hr : d.react .closeFrame = .mismatch := react_eq_mismatch_iff.2 (.inr ⟨rfl, hk⟩)
      refine ⟨fun st hst => ?_, _, hf.2 hs, hr⟩
      rw [eq_of_mem_readings (.inr rfl) hs hst]
      exact .inl hr

/-- **A line that says nothing** fits no form, or that of a separator only. -/
theorem readLine_eq_skipped_iff :
    d.readLine Form.table line = .skipped ↔ Unreadable d.activeKind line := by
  rw [readLine, reactFirst_eq_skipped_iff]
  constructor
  · intro h
    by_cases hr : ∃ f st, Form.read? f line.toList = some st
    · -- Every reading is a separator, as no other statement is passed over.
      obtain ⟨f, st, hf⟩ := hr
      have hsep : ∀ {f' st'}, Form.read? f' line.toList = some st' →
          f' = .separator ∧ d.activeKind.isAlternative = false := by
        intro f' st' hf'
        obtain ⟨⟨c, rfl⟩, hk⟩ := react_eq_skipped_iff.1 (h st' (mem_readings_iff.2 ⟨f', hf'⟩))
        exact ⟨(Form.ofStatement_of_read? hf').symm, hk⟩
      refine .inr ⟨fun f' => ⟨fun hf' => ?_, ?_⟩, (hsep hf).2⟩
      · obtain ⟨st', hst'⟩ := Option.isSome_iff_exists.1 hf'
        exact (hsep hst').1
      · rintro rfl
        rw [← (hsep hf).1, hf]
        rfl
    · exact .inl fun f => by
        by_contra hf
        exact hr ⟨f, Option.ne_none_iff_exists'.1 hf⟩
  · rintro (h | ⟨h, hk⟩) st hst
    · obtain ⟨f, hf⟩ := mem_readings_iff.1 hst
      simp [h f] at hf
    · obtain ⟨f, hf⟩ := mem_readings_iff.1 hst
      obtain rfl := (h f).1 (by simp [hf])
      have ho := Form.ofStatement_of_read? hf
      refine react_eq_skipped_iff.2 ⟨?_, hk⟩
      cases st <;> simp_all [Form.ofStatement]

/-! ## Entries about lines -/

/-- An entry about a line names the line. -/
theorem line_of_complaint {r : Reaction} {e : Diagnostic} (h : r.complaint number = some e) :
    e.line = some number := by
  cases r <;> simp [Reaction.complaint] at h <;> rw [← h] <;> rfl

/-- Every entry is the complaint about a line. -/
theorem mem_report_readLines_iff (hf : (readLines forms d number ls).fault = none)
    {e : Diagnostic} :
    e ∈ (readLines forms d number ls).report ↔
      ∃ i line, ls[i]? = some line ∧
        ((before forms d ls i).readLine forms line).complaint (number + i) = some e := by
  -- By induction on the lines, for every diagram and number to begin with: an entry is about the
  -- first line, at index zero, or about one of the others, at the next index.
  induction ls generalizing d number with
  | nil => simp
  | cons l ls ih =>
    obtain ⟨hl, hr⟩ := fault?_of_readLines_cons hf
    rw [readLines_cons hl, Reading.report_prepend, List.mem_append, Option.mem_toList, ih hr]
    constructor
    · rintro (he | ⟨i, line, hi, he⟩)
      · exact ⟨0, l, rfl, by simpa using he⟩
      · refine ⟨i + 1, line, by simpa using hi, ?_⟩
        rw [before_succ hl, ← he]
        congr 1
        omega
    · rintro ⟨i, line, hi, he⟩
      cases i with
      | zero =>
        obtain rfl : l = line := by simpa using hi
        exact .inl (by simpa using he)
      | succ i =>
        refine .inr ⟨i, line, by simpa using hi, ?_⟩
        rw [before_succ hl] at he
        rw [← he]
        congr 1
        omega

/-- The entries stand in the order of the lines, at most one for each. -/
theorem pairwise_report_readLines (hf : (readLines forms d number ls).fault = none) :
    (readLines forms d number ls).report.Pairwise
      fun a b => ∃ m n, a.line = some m ∧ b.line = some n ∧ m < n := by
  induction ls generalizing d number with
  | nil => simp
  | cons l ls ih =>
    obtain ⟨hl, hr⟩ := fault?_of_readLines_cons hf
    rw [readLines_cons hl, Reading.report_prepend, List.pairwise_append]
    refine ⟨?_, ih hr, ?_⟩
    · cases (d.readLine forms l).complaint number <;> simp
    · -- The entries of the lines after the first have greater numbers.
      intro a ha b hb
      obtain ⟨i, line, -, he⟩ := (mem_report_readLines_iff hr).1 hb
      exact ⟨number, number + 1 + i, line_of_complaint (Option.mem_toList.1 ha),
        line_of_complaint he, by omega⟩

/-! ## The number of open blocks -/

/-- **The number of open blocks** is the number of blocks opened less that of blocks closed. -/
theorem HasScope.exists_depth {s : Scope} (h : d.HasScope s)
    (hf : (readLines forms d number ls).fault = none) :
    ∃ s', (readLines forms d number ls).diagram.HasScope s' ∧
      s'.outer.length + (accepted forms d ls).countP Statement.closes =
        s.outer.length + (accepted forms d ls).countP Statement.opens := by
  -- What is open plus what was closed and is yet to close balances what was opened, line by line.
  induction ls generalizing d number s with
  | nil => exact ⟨s, h, rfl⟩
  | cons l ls ih =>
    obtain ⟨hl, hr⟩ := fault?_of_readLines_cons hf
    rw [readLines_cons hl, Reading.diagram_prepend, accepted]
    cases ht : d.taken? forms l with
    | none =>
      rw [next_of_not_taken hl ht] at hr ⊢
      simpa using ih h hr
    | some st =>
      have hn := h.next hl ht
      split at hn
      · obtain ⟨ev, hd, ha, hsc⟩ := hn
        obtain ⟨s', hs', hc⟩ := ih hsc hr
        refine ⟨s', hs', ?_⟩
        have hstep := Statement.length_outer_advance hd.describes ha
        simp only [Option.toList_some, List.singleton_append, List.countP_cons]
        omega
      · rename_i hs
        obtain ⟨s', hs', hc⟩ := ih hn hr
        refine ⟨s', hs', ?_⟩
        have hno : st.opens = false ∧ st.closes = false := by
          cases st <;> simp_all [Statement.isStructural, Statement.opens, Statement.closes]
        simpa [hno] using hc

/-- A block is open after a run exactly if more were opened than closed. -/
theorem active_ne_nil_iff (hf : (readLines forms empty number ls).fault = none) :
    (readLines forms empty number ls).diagram.active ≠ [] ↔
      (accepted forms empty ls).countP Statement.closes <
        (accepted forms empty ls).countP Statement.opens := by
  obtain ⟨s, hs, hc⟩ := hasScope_empty.exists_depth hf
  rw [Ne, hs.active_eq_nil_iff, ← List.length_eq_zero_iff]
  simp only [Scope.outermost, List.length_nil] at hc
  omega

/-- The report on a text is that on its lines, and one entry more if a block is open. -/
theorem report_readText {text : String}
    (hf : (readLines forms d 1 (Text.lines text)).fault = none) :
    (readText forms d text).report = (readLines forms d 1 (Text.lines text)).report ++
      if (readLines forms d 1 (Text.lines text)).diagram.active ≠ [] then [Diagnostic.unterminated]
      else [] := by
  simp only [readText, hf, true_and]
  split <;> simp

/-- Whether a line is reported, and how, is a matter of the reaction to it. -/
theorem atLine_mem_report_iff {i : Nat} {k : Diagnostic.Kind}
    (hf : (readLines forms d 1 ls).fault = none) (hi : ls[i]? = some line) :
    Diagnostic.atLine (i + 1) k ∈ (readLines forms d 1 ls).report ↔
      ((before forms d ls i).readLine forms line).complaint (i + 1) =
        some (Diagnostic.atLine (i + 1) k) := by
  rw [mem_report_readLines_iff hf]
  constructor
  · rintro ⟨j, line', hj, he⟩
    have hn := line_of_complaint he
    simp only [Diagnostic.atLine, Option.some.injEq] at hn
    obtain rfl : i = j := by omega
    obtain rfl : line = line' := Option.some.inj (hi.symm.trans hj)
    rwa [Int.add_comm 1] at he
  · intro he
    exact ⟨i, line, hi, by rwa [Int.add_comm]⟩

end Diagram

open Diagram in
/-- **The report is exact.** It has one entry for each line that is not taken, in the order of
the lines, and one more at the end if more blocks were opened than closed. The entry of a line is
of kind `scope` if the line closes a block other than the open one, of kind `unrecognized` if it
says nothing in the open block, and a line has no entry otherwise. -/
theorem report_read {text : String} (hf : (read text).fault = none) :
    ∃ entries : List Diagnostic,
      ((read text).report = entries ++
        if (accepted Form.table .empty (Text.lines text)).countP Statement.closes <
            (accepted Form.table .empty (Text.lines text)).countP Statement.opens
        then [Diagnostic.unterminated] else []) ∧
      entries.Pairwise (fun a b => ∃ m n, a.line = some m ∧ b.line = some n ∧ m < n) ∧
      (∀ e ∈ entries, ∃ i line kind, (Text.lines text)[i]? = some line ∧
        kind ≠ Diagnostic.Kind.unterminated ∧ e = Diagnostic.atLine ((i : Nat) + 1) kind) ∧
      ∀ i line, (Text.lines text)[i]? = some line →
        let d := before Form.table .empty (Text.lines text) i
        (Diagnostic.atLine (i + 1) .scope ∈ entries ↔ Misplaced d.activeKind line) ∧
        (Diagnostic.atLine (i + 1) .unrecognized ∈ entries ↔ Unreadable d.activeKind line) ∧
        ((∃ kind, Diagnostic.atLine (i + 1) kind ∈ entries) ↔
          (d.readLine Form.table line).isApplied = false) := by
  simp only [read, fault_readText] at hf ⊢
  refine ⟨_, ?_, pairwise_report_readLines hf, ?_, ?_⟩
  · rw [report_readText hf]
    simp only [active_ne_nil_iff hf]
  · -- Every entry is a complaint about some line, of one of two kinds.
    intro e he
    obtain ⟨i, line, hi, he⟩ := (mem_report_readLines_iff hf).1 he
    rw [Int.add_comm] at he
    cases hr : (before Form.table .empty (Text.lines text) i).readLine Form.table line with
    | mismatch =>
      exact ⟨i, line, .scope, hi, by simp, by simpa [hr, Reaction.complaint, eq_comm] using he⟩
    | skipped =>
      exact ⟨i, line, .unrecognized, hi, by simp,
        by simpa [hr, Reaction.complaint, eq_comm] using he⟩
    | applied d' => simp [hr, Reaction.complaint] at he
    | failed f d' => simp [hr, Reaction.complaint] at he
  · -- What is reported about a line depends on the reaction to it only.
    intro i line hi
    have hn := Text.newline_notMem (List.mem_of_getElem? hi)
    have hl := fault?_before hf hi
    rw [← readLine_eq_mismatch_iff hn, ← readLine_eq_skipped_iff]
    simp only [atLine_mem_report_iff hf hi]
    cases hr : (before Form.table .empty (Text.lines text) i).readLine Form.table line with
    | mismatch => simp [Reaction.complaint, Reaction.isApplied, Diagnostic.atLine]
    | skipped => simp [Reaction.complaint, Reaction.isApplied, Diagnostic.atLine]
    | applied d' => simp [Reaction.complaint, Reaction.isApplied]
    | failed f d' => simp [hr, Reaction.fault?] at hl

theorem report_read_stray_end :
    (read "end\nopt").fault = none ∧ ∃ entries : List Diagnostic,
      (read "end\nopt").report = entries ++ [Diagnostic.unterminated] ∧
        (Diagnostic.atLine 1 .scope ∈ entries ↔ Misplaced .sequence "end") := by
  have hf : (read "end\nopt").fault = none := by decide
  obtain ⟨entries, hr, -, -, hi⟩ := report_read hf
  exact ⟨hf, entries, by rw [hr, if_pos (by decide)],
    (hi 0 "end" (by decide)).1⟩

end SequenceDiagram
