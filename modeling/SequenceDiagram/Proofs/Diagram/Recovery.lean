import SequenceDiagram.Proofs.Diagram.Report

/-!
# Lines that are not taken

A line that is not taken has no effect on what follows it, so a text without the lines that are
reported about it describes the same diagram and draws the same document.

## Main results

* `compile_eq_ok_iff`: when a text is compiled, and what to
* `Diagram.readLines_keep`: a run without the lines that are not taken
* `compile_withoutLines`: a text without the lines that are reported
-/

namespace SequenceDiagram

namespace Diagram

variable {d : Diagram} {ls : List String}

/-- **A run without the lines that are not taken** ends in the same diagram and reports nothing. -/
theorem readLines_keep {forms : List Form} {numbers : List Int} {n : Nat} (m : Int)
    (hf : (readLines forms d n ls).fault = none)
    (hn : ∀ i line, ls[i]? = some line →
      (((n + i : Nat) : Int) ∈ numbers ↔ (before forms d ls i).taken? forms line = none)) :
    readLines forms d m (Text.keep numbers n ls) =
      { diagram := (readLines forms d n ls).diagram } := by
  -- By induction on the lines. The two runs are at the same diagram before every line that is
  -- kept, while its number may differ.
  induction ls generalizing d n m with
  | nil => rfl
  | cons l ls ih =>
    obtain ⟨hl, hr⟩ := fault?_of_readLines_cons hf
    have hl0 : (n : Int) ∈ numbers ↔ d.taken? forms l = none := by simpa using hn 0 l rfl
    have hrest : ∀ i line, ls[i]? = some line → (((n + 1 + i : Nat) : Int) ∈ numbers ↔
        (before forms (d.next forms l) ls i).taken? forms line = none) := by
      intro i line hi
      rw [← before_succ hl, Nat.add_assoc, Nat.add_comm 1 i]
      exact hn (i + 1) line (by simpa using hi)
    rw [readLines_cons hl, Reading.diagram_prepend]
    cases ht : d.taken? forms l with
    | none =>
      -- The line is left out of the shorter run and has no effect in the longer one.
      rw [Text.keep_cons_of_mem (hl0.2 ht)]
      rw [next_of_not_taken hl ht] at hr hrest ⊢
      exact ih m hr hrest
    | some st =>
      have hc : (d.readLine forms l).complaint m = none := by
        rw [complaint_eq_none_iff hl, ht]
        rfl
      rw [Text.keep_cons_of_notMem (fun h => by simp [hl0.1 h] at ht), readLines_cons hl, hc]
      exact ih (m + 1) hr hrest

/-- The lines in a report are those that are not taken. -/
theorem mem_lines_report_iff {forms : List Form} {text line : String} {i : Nat}
    (hf : (readText forms d text).fault = none) (hi : (Text.lines text)[i]? = some line) :
    ((1 + i : Nat) : Int) ∈ (readText forms d text).report.filterMap Diagnostic.line ↔
      (before forms d (Text.lines text) i).taken? forms line = none := by
  rw [fault_readText] at hf
  -- The entry of an open block has no line.
  have hu : ∀ {b : Prop} [Decidable b], (if b then [Diagnostic.unterminated] else []).filterMap
      Diagnostic.line = [] := by
    intro b _
    split <;> rfl
  rw [report_readText hf, List.filterMap_append, hu, List.append_nil, List.mem_filterMap]
  have hc := complaint_eq_none_iff (fault?_before hf hi)
  constructor
  · -- The entry is about the line of its number, which is this one.
    rintro ⟨e, he, hle⟩
    obtain ⟨j, line', hj, hce⟩ := (mem_report_readLines_iff hf).1 he
    rw [line_of_complaint hce, Option.some.injEq] at hle
    obtain rfl : i = j := by omega
    obtain rfl : line = line' := Option.some.inj (hi.symm.trans hj)
    have hne := mt (hc (1 + i)).2 (by simp [hce])
    simpa using hne
  · intro ht
    obtain ⟨e, he⟩ := Option.ne_none_iff_exists'.1 (mt (hc (1 + i)).1 (by simp [ht]))
    exact ⟨e, (mem_report_readLines_iff hf).2 ⟨i, line, hi, he⟩, by
      rw [line_of_complaint he]
      rfl⟩

/-- The reading of a text without the lines that are reported. -/
theorem readLines_withoutLines {text : String}
    (hf : (readText Form.table d text).fault = none) :
    readLines Form.table d 1 (Text.lines (Text.withoutLines
      ((readText Form.table d text).report.filterMap Diagnostic.line) text)) =
        { diagram := (readText Form.table d text).diagram } := by
  have hk := readLines_keep (n := 1) 1 (by simpa using hf)
    fun i line hi => mem_lines_report_iff hf hi
  rw [diagram_readText, Text.lines_withoutLines]
  split
  · rename_i hnil
    -- A text of which no line is left is one empty line, which changes nothing either.
    rw [hnil, readLines_nil] at hk
    have hd : d = (readLines Form.table d 1 (Text.lines text)).diagram := (Reading.mk.inj hk).1
    rw [← hd]
    exact readLines_empty d 1
  · exact hk

/-- The report on a text ends with the entry of no line exactly if a block is open. -/
theorem getLast?_report_readText {forms : List Form} {text : String}
    (hf : (readText forms d text).fault = none) :
    (readText forms d text).report.getLast? = some Diagnostic.unterminated ↔
      (readText forms d text).diagram.active ≠ [] := by
  rw [fault_readText] at hf
  rw [report_readText hf, diagram_readText]
  split
  · rename_i h
    simpa using h
  · rename_i h
    refine ⟨?_, fun h' => absurd h' h⟩
    -- The last entry would be one about a line.
    intro hl
    rw [List.append_nil] at hl
    obtain ⟨i, line, -, he⟩ := (mem_report_readLines_iff hf).1 (List.mem_of_getLast? hl)
    simpa [Diagnostic.unterminated] using line_of_complaint he

/-- The reading of a text without the lines that are reported, of which only an open block may
still be reported. -/
theorem readText_withoutLines {text : String}
    (hf : (readText Form.table d text).fault = none) :
    readText Form.table d (Text.withoutLines
      ((readText Form.table d text).report.filterMap Diagnostic.line) text) =
        { diagram := (readText Form.table d text).diagram
          report :=
            if (readText Form.table d text).report.getLast? = some Diagnostic.unterminated
            then [Diagnostic.unterminated] else [] } := by
  have hl := readLines_withoutLines hf
  have hu := getLast?_report_readText hf
  by_cases ha : (readText Form.table d text).diagram.active = []
  · rw [if_neg fun h => hu.1 h ha, readText, hl]
    exact if_neg fun h => h.2 ha
  · rw [if_pos (hu.2 ha), readText, hl]
    exact if_pos ⟨rfl, ha⟩

end Diagram

/-- A text is compiled if there is a palette, no fault ends its reading and the picture can be
written. -/
theorem compile_eq_ok_iff {text : String} {options : Options} {c : Compilation} :
    compile text options = .ok c ↔
      ∃ palette, options.palette = .ok palette ∧ (read text).fault = none ∧
        (read text).diagram.draw.1.document palette options.font = .ok c.document ∧
        c.diagnostics = (read text).report ∧ c.separator = options.separator.getD "\n" := by
  unfold compile
  cases hp : options.palette with
  | error f => simp [bind, Except.bind]
  | ok palette =>
    cases hf : (read text).fault with
    | some f => simp [bind, Except.bind, hf]
    | none =>
      cases hd : (read text).diagram.draw.1.document palette options.font with
      | error f => simp [bind, Except.bind, hf, hd]
      | ok document =>
        obtain ⟨ds, doc, sep⟩ := c
        simp [bind, Except.bind, hf, hd, pure, Except.pure]
        grind

/-- What comes of a text that is compiled without a fault. -/
theorem exists_eq_ok_of_isOk {text : String} {options : Options}
    (h : (compile text options).isOk = true) : ∃ c, compile text options = .ok c := by
  cases hc : compile text options with
  | ok c => exact ⟨c, rfl⟩
  | error f => simp [hc, Except.isOk, Except.toBool] at h

open Diagram in
/-- **Lines that are not taken have no effect.** A text without the lines that are reported about
it is compiled to the same document, and nothing is reported about it but a block that is open at
its end, if one is. -/
theorem compile_withoutLines {text : String} {options : Options} {c : Compilation}
    (h : compile text options = .ok c) :
    compile (Text.withoutLines (c.diagnostics.filterMap Diagnostic.line) text) options =
      .ok { c with
        diagnostics :=
          if c.diagnostics.getLast? = some Diagnostic.unterminated then [Diagnostic.unterminated]
          else [] } := by
  obtain ⟨palette, hp, hf, hd, hr, hs⟩ := compile_eq_ok_iff.1 h
  have hw := readText_withoutLines hf
  rw [hr, compile_eq_ok_iff, read, read, hw]
  exact ⟨palette, hp, rfl, hd, rfl, hs⟩

theorem compile_withoutLines_stray_end :
    ∃ c, compile "end\nA->B: x\nopt" {} = .ok c ∧
      compile "A->B: x\nopt" {} = .ok { c with diagnostics := [Diagnostic.unterminated] } := by
  have hok : (compile "end\nA->B: x\nopt" {}).isOk = true := by decide +kernel
  obtain ⟨c, hc⟩ : ∃ c, compile "end\nA->B: x\nopt" {} = .ok c := by
    cases h : compile "end\nA->B: x\nopt" {} with
    | ok c => exact ⟨c, rfl⟩
    | error f => simp [h, Except.isOk, Except.toBool] at hok
  have hd : c.diagnostics = [Diagnostic.atLine 1 .scope, Diagnostic.unterminated] := by
    obtain ⟨-, -, -, -, hr, -⟩ := compile_eq_ok_iff.1 hc
    rw [hr]
    decide
  have ht : Text.withoutLines (c.diagnostics.filterMap Diagnostic.line) "end\nA->B: x\nopt" =
      "A->B: x\nopt" := by
    rw [hd]
    decide
  have hw := compile_withoutLines hc
  rw [ht, hd] at hw
  exact ⟨c, hc, hw⟩

end SequenceDiagram
