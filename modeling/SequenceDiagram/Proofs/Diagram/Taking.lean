import SequenceDiagram.Proofs.Diagram.Event

/-!
# What a diagram takes from lines

A line is taken as its first reading that the diagram accepts, and a line that is not taken leaves
the diagram as it is. A reading of several lines is a run of such steps as long as no fault ends
it; what each step preserves, the run preserves.

## Main definitions

* `Diagram.taken?`, `Diagram.accepted`: the statement taken from a line, those from several
* `Diagram.next`, `Diagram.before`: the diagram after a line, and before the line at an index

## Main results

* `Diagram.reactFirst_eq_mismatch_iff`, `Diagram.reactFirst_eq_skipped_iff`: why a line is not taken
* `Diagram.readLine_of_taken?`, `Diagram.next_of_not_taken`: what a line does
* `Diagram.readLines_preserves`: an invariant of the steps is one of the run
* `Diagram.diagram_readLines`: a run is the effects of what is taken
* `HasScope.next`: what a line that is taken does to the tree
* `Diagram.throughout_readLines`: what every statement adds is all that the tree consists of
-/

namespace SequenceDiagram

namespace Reaction

/-- Whether a reaction takes what it reacts to. -/
def isApplied : Reaction → Bool
  | applied _ => true
  | mismatch | skipped | failed .. => false

attribute [local simp] isApplied orElse

theorem isApplied_eq_true_iff {r : Reaction} : r.isApplied = true ↔ ∃ d, r = applied d := by
  cases r <;> simp

theorem orElse_eq_skipped_iff {r t : Reaction} :
    r.orElse t = skipped ↔ r = skipped ∧ t = skipped := by
  cases r <;> cases t <;> simp

theorem orElse_eq_mismatch_iff {r t : Reaction} :
    r.orElse t = mismatch ↔
      r = mismatch ∧ (t = mismatch ∨ t = skipped) ∨ r = skipped ∧ t = mismatch := by
  cases r <;> cases t <;> simp

theorem orElse_eq_applied_iff {r t : Reaction} {d : Diagram} :
    r.orElse t = applied d ↔ r = applied d ∨ (r = mismatch ∨ r = skipped) ∧ t = applied d := by
  cases r <;> cases t <;> simp

theorem fault?_orElse_eq_none {r t : Reaction} (h : (r.orElse t).fault? = none) :
    r.isApplied ∨ (r = mismatch ∨ r = skipped) ∧ t.fault? = none := by
  cases r <;> cases t <;> simp_all [fault?]

end Reaction

namespace Diagram

/-! ## One line -/

/-- The statement that is taken from a line. -/
def taken? (forms : List Form) (d : Diagram) (line : String) : Option Statement :=
  (readings forms line).find? fun s => (d.react s).isApplied

/-- The diagram after a line. -/
def next (forms : List Form) (d : Diagram) (line : String) : Diagram :=
  (d.readLine forms line).after d

/-- The statements that are taken from several lines, in their order. -/
def accepted (forms : List Form) (d : Diagram) : List String → List Statement
  | [] => []
  | line :: rest => (d.taken? forms line).toList ++ accepted forms (d.next forms line) rest

theorem reactFirst_eq_skipped_iff {d : Diagram} {ss : List Statement} :
    d.reactFirst ss = .skipped ↔ ∀ s ∈ ss, d.react s = .skipped := by
  induction ss with
  | nil => simp
  | cons s ss ih => simp [Reaction.orElse_eq_skipped_iff, ih]

theorem reactFirst_eq_mismatch_iff {d : Diagram} {ss : List Statement} :
    d.reactFirst ss = .mismatch ↔
      (∀ s ∈ ss, d.react s = .mismatch ∨ d.react s = .skipped) ∧
        ∃ s ∈ ss, d.react s = .mismatch := by
  induction ss with
  | nil => simp
  | cons s ss ih =>
    rw [reactFirst_cons, Reaction.orElse_eq_mismatch_iff, ih, reactFirst_eq_skipped_iff]
    grind

/-- The first reading that the diagram accepts is the one that is taken. -/
theorem reactFirst_of_find? {d : Diagram} {ss : List Statement} {s : Statement}
    (hf : (d.reactFirst ss).fault? = none)
    (hs : ss.find? (fun s => (d.react s).isApplied) = some s) :
    ∃ d', d.react s = .applied d' ∧ d.reactFirst ss = .applied d' := by
  -- A reading that is passed over without a fault is out of place or says nothing, and then the
  -- reaction is that to the readings after it.
  induction ss with
  | nil => simp at hs
  | cons t ss ih =>
    rw [reactFirst_cons] at hf ⊢
    rcases Reaction.fault?_orElse_eq_none hf with ht | ⟨ht, hr⟩
    · obtain rfl : t = s := by simpa [List.find?_cons, ht] using hs
      obtain ⟨d', hd'⟩ := Reaction.isApplied_eq_true_iff.1 ht
      exact ⟨d', hd', by rw [hd', Reaction.applied_orElse]⟩
    · have hn : (d.react t).isApplied = false := by
        rcases ht with ht | ht <;> rw [ht] <;> rfl
      obtain ⟨d', hd, hd'⟩ := ih hr (by simpa [List.find?_cons, hn] using hs)
      exact ⟨d', hd, Reaction.orElse_eq_applied_iff.2 (.inr ⟨ht, hd'⟩)⟩

theorem reactFirst_of_find?_eq_none {d : Diagram} {ss : List Statement}
    (hf : (d.reactFirst ss).fault? = none)
    (hs : ss.find? (fun s => (d.react s).isApplied) = none) :
    d.reactFirst ss = .mismatch ∨ d.reactFirst ss = .skipped := by
  induction ss with
  | nil => exact .inr rfl
  | cons t ss ih =>
    obtain ⟨ht, hss⟩ : (d.react t).isApplied = false ∧
        ss.find? (fun s => (d.react s).isApplied) = none := by
      simpa [List.find?_eq_none] using hs
    rw [reactFirst_cons] at hf ⊢
    rcases Reaction.fault?_orElse_eq_none hf with hn | ⟨hm, hr⟩
    · simp [ht] at hn
    · -- One reading out of place among others that say nothing makes the line out of place.
      rw [Reaction.orElse_eq_mismatch_iff, Reaction.orElse_eq_skipped_iff]
      rcases hm with hm | hm
      · exact .inl (.inl ⟨hm, ih hr hss⟩)
      · rcases ih hr hss with h | h
        · exact .inl (.inr ⟨hm, h⟩)
        · exact .inr ⟨hm, h⟩

variable {forms : List Form} {d : Diagram} {line : String}

/-- A line is what its first reading is, if that is taken. -/
theorem readLine_of_head?_readings {st : Statement} {d' : Diagram}
    (hs : (readings forms line).head? = some st) (hr : d.react st = .applied d') :
    d.readLine forms line = .applied d' := by
  obtain ⟨rest, hs⟩ := List.head?_eq_some_iff.1 hs
  rw [readLine, hs, reactFirst_cons, hr, Reaction.applied_orElse]

/-- A line is taken as a statement that the diagram reacts to by taking it. -/
theorem readLine_of_taken? {st : Statement} (hf : (d.readLine forms line).fault? = none)
    (ht : d.taken? forms line = some st) :
    ∃ d', d.react st = .applied d' ∧ d.readLine forms line = .applied d' :=
  reactFirst_of_find? hf ht

theorem readLine_of_not_taken (hf : (d.readLine forms line).fault? = none)
    (ht : d.taken? forms line = none) :
    d.readLine forms line = .mismatch ∨ d.readLine forms line = .skipped :=
  reactFirst_of_find?_eq_none hf ht

/-- A line that is taken makes the step of its statement. -/
theorem next_of_taken? {st : Statement} (hf : (d.readLine forms line).fault? = none)
    (ht : d.taken? forms line = some st) : d.react st = .applied (d.next forms line) := by
  obtain ⟨d', hr, hl⟩ := readLine_of_taken? hf ht
  rw [hr, next, hl, Reaction.after]

/-- A line that is taken has the effect of its statement. -/
theorem next_eq_effect {st : Statement} (hf : (d.readLine forms line).fault? = none)
    (ht : d.taken? forms line = some st) : d.next forms line = d.effect st :=
  eq_effect_of_react (next_of_taken? hf ht)

/-- A line that is not taken has no effect. -/
theorem next_of_not_taken (hf : (d.readLine forms line).fault? = none)
    (ht : d.taken? forms line = none) : d.next forms line = d := by
  rcases readLine_of_not_taken hf ht with h | h <;> rw [next, h, Reaction.after]

/-- What is reported about a line that is not taken, and about no other. -/
theorem complaint_eq_none_iff (hf : (d.readLine forms line).fault? = none) (number : Int) :
    (d.readLine forms line).complaint number = none ↔ (d.taken? forms line).isSome := by
  cases ht : d.taken? forms line with
  | none => rcases readLine_of_not_taken hf ht with h | h <;> simp [h, Reaction.complaint]
  | some st =>
    obtain ⟨d', -, hl⟩ := readLine_of_taken? hf ht
    simp [hl, Reaction.complaint]

/-! ## Several lines -/

variable {number : Int} {rest : List String}

theorem readLines_cons (hf : (d.readLine forms line).fault? = none) :
    readLines forms d number (line :: rest) =
      (readLines forms (d.next forms line) (number + 1) rest).prepend
        ((d.readLine forms line).complaint number).toList := by
  simp [readLines, hf, next]

/-- A line that is taken is gone on from without a report. -/
theorem readLines_cons_of_applied {d' : Diagram} (h : d.readLine forms line = .applied d')
    (number : Int) (rest : List String) :
    readLines forms d number (line :: rest) = readLines forms d' (number + 1) rest := by
  simp [readLines, h, Reaction.fault?, Reaction.after, Reaction.complaint]

/-- An empty line changes nothing. -/
theorem readLines_empty (d : Diagram) (number : Int) :
    readLines Form.table d number [""] = { diagram := d } := by
  have hr : readings Form.table "" = [.blank] := by decide
  have hl : d.readLine Form.table "" = .applied d := by
    rw [readLine, hr]
    rfl
  rw [readLines_cons_of_applied hl, readLines_nil]

theorem fault?_of_readLines_cons (hf : (readLines forms d number (line :: rest)).fault = none) :
    (d.readLine forms line).fault? = none ∧
      (readLines forms (d.next forms line) (number + 1) rest).fault = none := by
  cases h : (d.readLine forms line).fault? with
  | some f => simp [readLines, h] at hf
  | none =>
    rw [readLines_cons h, Reading.fault_prepend] at hf
    exact ⟨rfl, hf⟩

/-- The numbers of the lines show in the report only. -/
theorem readLines_number (forms : List Form) (d : Diagram) (m n : Int) (ls : List String) :
    (readLines forms d m ls).diagram = (readLines forms d n ls).diagram ∧
      (readLines forms d m ls).fault = (readLines forms d n ls).fault := by
  induction ls generalizing d m n with
  | nil => exact ⟨rfl, rfl⟩
  | cons l ls ih =>
    -- A fault ends both readings at the same line, whatever its number.
    cases h : (d.readLine forms l).fault? with
    | some f => simp [readLines, h]
    | none => simpa [readLines_cons h] using ih (d.next forms l) (m + 1) (n + 1)

/-- What every step preserves, a run preserves. -/
theorem readLines_preserves {P : Diagram → Prop} {ls : List String}
    (step : ∀ d line, (d.readLine forms line).fault? = none → P d → P (d.next forms line))
    (hf : (readLines forms d number ls).fault = none) (hd : P d) :
    P (readLines forms d number ls).diagram := by
  -- By induction on the lines, with the invariant as the hypothesis on the first diagram.
  induction ls generalizing d number with
  | nil => exact hd
  | cons l ls ih =>
    obtain ⟨hl, hr⟩ := fault?_of_readLines_cons hf
    rw [readLines_cons hl]
    exact ih hr (step d l hl hd)

/-- **A run is the effects of the statements that are taken**, one after another. -/
theorem diagram_readLines {ls : List String}
    (hf : (readLines forms d number ls).fault = none) :
    (readLines forms d number ls).diagram = (accepted forms d ls).foldl effect d := by
  induction ls generalizing d number with
  | nil => rfl
  | cons l ls ih =>
    obtain ⟨hl, hr⟩ := fault?_of_readLines_cons hf
    rw [readLines_cons hl, Reading.diagram_prepend, accepted, ih hr]
    cases ht : d.taken? forms l with
    | none =>
      rw [next_of_not_taken hl ht]
      rfl
    | some st =>
      rw [next_eq_effect hl ht]
      rfl

/-- What is taken from lines is what is taken from the first ones and then from the others. -/
theorem accepted_append {ls ms : List String}
    (hf : (readLines forms d number ls).fault = none) :
    accepted forms d (ls ++ ms) =
      accepted forms d ls ++ accepted forms (readLines forms d number ls).diagram ms := by
  induction ls generalizing d number with
  | nil => rfl
  | cons l ls ih =>
    obtain ⟨hl, hr⟩ := fault?_of_readLines_cons hf
    rw [List.cons_append, accepted, accepted, ih hr, readLines_cons hl, Reading.diagram_prepend,
      List.append_assoc]

/-- The diagram before the line at an index. -/
def before (forms : List Form) (d : Diagram) (ls : List String) (i : Nat) : Diagram :=
  (readLines forms d 1 (ls.take i)).diagram

@[simp] theorem before_zero (ls : List String) : before forms d ls 0 = d := by
  simp [before]

theorem before_succ (hf : (d.readLine forms line).fault? = none) (i : Nat) :
    before forms d (line :: rest) (i + 1) = before forms (d.next forms line) rest i := by
  -- The lines after the first are numbered from two on here, which the diagram does not show.
  rw [before, List.take_succ_cons, readLines_cons hf, Reading.diagram_prepend]
  exact (readLines_number ..).1

/-- No line of a run that ends well fails. -/
theorem fault?_before {ls : List String} {i : Nat}
    (hf : (readLines forms d number ls).fault = none) (hi : ls[i]? = some line) :
    ((before forms d ls i).readLine forms line).fault? = none := by
  induction ls generalizing d number i with
  | nil => simp at hi
  | cons l ls ih =>
    obtain ⟨hl, hr⟩ := fault?_of_readLines_cons hf
    cases i with
    | zero =>
      obtain rfl : l = line := by simpa using hi
      simpa using hl
    | succ i =>
      rw [before_succ hl]
      exact ih hr (by simpa using hi)

/-- An invariant of the steps holds before every line. -/
theorem before_preserves {P : Diagram → Prop} {ls : List String}
    (step : ∀ d line, (d.readLine forms line).fault? = none → P d → P (d.next forms line))
    (hf : (readLines forms d number ls).fault = none) (hd : P d) (i : Nat) :
    P (before forms d ls i) := by
  induction ls generalizing d number i with
  | nil => simpa [before] using hd
  | cons l ls ih =>
    obtain ⟨hl, hr⟩ := fault?_of_readLines_cons hf
    cases i with
    | zero => simpa using hd
    | succ i =>
      rw [before_succ hl]
      exact ih hr (step d l hl hd) i

@[simp] theorem diagram_readText (forms : List Form) (d : Diagram) (text : String) :
    (readText forms d text).diagram = (readLines forms d 1 (Text.lines text)).diagram := by
  simp only [readText]
  split <;> rfl

@[simp] theorem fault_readText (forms : List Form) (d : Diagram) (text : String) :
    (readText forms d text).fault = (readLines forms d 1 (Text.lines text)).fault := by
  simp only [readText]
  split <;> rfl

/-! ## Lines and open blocks -/

namespace HasScope

variable {s : Scope}

/-- **What a line does to the tree**: the step of the statement that is taken from it. -/
theorem next {st : Statement} (h : d.HasScope s) (hf : (d.readLine forms line).fault? = none)
    (ht : d.taken? forms line = some st) :
    if st.isStructural then
      ∃ ev, st.DescribesAt d.counter ev ∧ s.Allows ev ∧
        (d.next forms line).HasScope (s.advance ev)
    else (d.next forms line).HasScope s :=
  h.react (next_of_taken? hf ht)

/-- A line leaves the open blocks as they are, or is an event that they allow and that a statement
describes. -/
theorem next_or_advance (h : d.HasScope s) (hf : (d.readLine forms line).fault? = none) :
    (d.next forms line).HasScope s ∨ ∃ st ev, Statement.Describes st ev ∧ s.Allows ev ∧
      (d.next forms line).HasScope (s.advance ev) := by
  cases ht : d.taken? forms line with
  | none =>
    left
    rwa [next_of_not_taken hf ht]
  | some st =>
    have hn := h.next hf ht
    split at hn
    · obtain ⟨ev, hd, ha, hs⟩ := hn
      exact .inr ⟨st, ev, hd.describes, ha, hs⟩
    · exact .inl hn

end HasScope

/-- Some blocks are open before every line. -/
theorem exists_hasScope_before {ls : List String}
    (hf : (readLines forms d number ls).fault = none) (h : ∃ s, d.HasScope s) (i : Nat) :
    ∃ s, (before forms d ls i).HasScope s := by
  refine before_preserves (P := fun d => ∃ s, d.HasScope s) ?_ hf h i
  rintro d line hl ⟨s, hs⟩
  rcases hs.next_or_advance hl with hs | ⟨_, _, -, -, hs⟩
  · exact ⟨s, hs⟩
  · exact ⟨_, hs⟩

/-- **What holds of every element that a statement adds holds throughout the tree** of a run, if
every block has it anyway. -/
theorem throughout_readLines {P : BlockKind → Element → Prop} {ls : List String}
    (block : ∀ k inner children, P k (.block inner children))
    (leaf : ∀ (s : Scope) st ev e, Statement.Describes st ev → s.Allows ev →
      ev.element? = some e → P s.inner.kind e)
    (hf : (readLines forms empty number ls).fault = none) (k : BlockKind) :
    (readLines forms empty number ls).diagram.root.Throughout P k := by
  have hempty : ∃ s, empty.HasScope s ∧ s.Throughout P := by
    refine ⟨.outermost, hasScope_empty, ?_⟩
    intro b hb e he
    simp_all [Scope.blocks, Scope.outermost]
  have step : ∀ (d : Diagram) (line : String), (d.readLine forms line).fault? = none →
      (∃ s, d.HasScope s ∧ s.Throughout P) →
        ∃ s, (d.next forms line).HasScope s ∧ s.Throughout P := by
    rintro d line hl ⟨s, hs, hp⟩
    rcases hs.next_or_advance hl with hs | ⟨st, ev, hd, ha, hs⟩
    · exact ⟨s, hs, hp⟩
    · exact ⟨_, hs, hp.advance block fun e he => leaf s st ev e hd ha he⟩
  obtain ⟨s, hs, hp⟩ := readLines_preserves step hf hempty
  rw [hs.root_eq]
  exact hp.tree block k

end Diagram

end SequenceDiagram
