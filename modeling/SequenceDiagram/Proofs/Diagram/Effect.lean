import SequenceDiagram.Diagram.Reaction

/-!
# What a statement does

A statement that is taken does one thing to a diagram, which does not depend on why it is taken. The
counter of messages is changed by statements about numbers and by messages, and by nothing else.

## Main definitions

* `Signal.numbered`: a message with its number, where messages have one
* `Diagram.effect`: the diagram after a statement that is taken
* `Statement.fits`: whether a statement may stand in a block
* `Statement.nextNumber`: the number of the next message after a statement

## Main results

* `Diagram.addSignal_cases`: a message is numbered and added, or only its participants are mentioned
* `Diagram.eq_effect_of_react`, `Diagram.fits_of_react`: what a statement does that is taken, and
  where
* `Diagram.counter_effect`: how the counter goes on
-/

namespace SequenceDiagram

/-- A message with its number, where messages have one. -/
def Signal.numbered (number : Option Int) (s : Signal) : Signal :=
  { s with text := number.elim s.text fun n => Diagram.numberLines n s.text }

/-- The number of the next message after a statement. -/
def Statement.nextNumber (number : Option Int) : Statement → Option Int
  | numberFrom numeral => some (Diagram.numeralValue numeral)
  | numberOff => none
  | signal .. => number.map (· + 1)
  | _ => number

/-- Whether a statement may stand where the open block is of a kind. -/
def Statement.fits (k : BlockKind) : Statement → Bool
  | closeParallel => k = .parallel
  | closeFrame => k.isFramed
  | separator _ => k.isAlternative
  | _ => true

namespace Diagram

variable {d d' : Diagram} {x : Signal} {st : Statement}

/-- The diagram with a message that has its number. -/
def numberedSignal (d : Diagram) (x : Signal) : Diagram :=
  { d.mention (.signal x) with counter := d.counter.map (· + 1) }.add
    (.signal (x.numbered d.counter))

/-- **What becomes of a message**: it is numbered and added, or fails when it has been mentioned
only. -/
theorem addSignal_cases (d : Diagram) (x : Signal) :
    (∃ f, d.addSignal x = (some f, d.mention (.signal x))) ∨
      d.addSignal x = (none, d.numberedSignal x) := by
  obtain ⟨roster, body, active, counter, heights⟩ := d
  cases counter with
  | none => exact .inr rfl
  | some n =>
    by_cases hn : digitLimit < digitCount n
    · left
      exact ⟨.longNumber, by simp [addSignal, number, register, hn]⟩
    · right
      simp [addSignal, number, register, hn, numberedSignal, Signal.numbered]

/-- The diagram after a statement that is taken. -/
def effect (d : Diagram) : Statement → Diagram
  | .aliased label name => d.register name (some label)
  | .participant name => d.register name none
  | .openParallel => d.openBlock .parallel
  | .openOption => d.openBlock (.framed "opt" "")
  | .openLoop label => d.openBlock (.framed "loop" label)
  | .openAlternative condition => d.openBlock (.alternative condition)
  | .separator condition => d.add (.separator condition)
  | .closeParallel | .closeFrame => { d with active := d.active.dropLast }
  | .numberFrom numeral => { d with counter := some (numeralValue numeral) }
  | .numberOff => { d with counter := none }
  | .state name text => d.addNote ⟨name, Text.labelLines text⟩
  | .signal source double dotted openHead target text =>
    d.numberedSignal ⟨source, target, Text.labelLines text, dotted, double, openHead⟩
  | .comment | .blank => d

theorem ofExcept_closeBlock_eq_applied (h : Reaction.ofExcept d d.closeBlock = .applied d') :
    d' = { d with active := d.active.dropLast } := by
  unfold closeBlock at h
  split at h
  · simp [Reaction.ofExcept] at h
  · simpa [Reaction.ofExcept] using h.symm

/-- **What a statement does that is taken.** -/
theorem eq_effect_of_react (h : d.react st = .applied d') : d' = d.effect st := by
  -- Where taking it has a condition, the condition only decides whether it is taken.
  cases st with
  | closeParallel =>
    simp only [react] at h
    split at h
    · exact ofExcept_closeBlock_eq_applied h
    · simp at h
  | closeFrame =>
    simp only [react] at h
    split at h
    · exact ofExcept_closeBlock_eq_applied h
    · simp at h
  | separator condition =>
    simp only [react, addSeparator] at h
    split at h
    · rename_i hk
      simpa [hk, Reaction.ofExcept, effect] using h.symm
    · simp at h
  | numberFrom numeral =>
    simp only [react] at h
    split at h
    · simp at h
    · simpa [effect] using h.symm
  | signal source double dotted openHead target text =>
    rcases d.addSignal_cases ⟨source, target, Text.labelLines text, dotted, double, openHead⟩ with
      ⟨f, hx⟩ | hx
    · simp [react, hx] at h
    · simpa [react, hx, effect] using h.symm
  | _ => exact (Reaction.applied.inj h).symm

/-- **A statement is taken where it fits only.** -/
theorem fits_of_react (h : d.react st = .applied d') : st.fits d.activeKind = true := by
  cases st with
  | closeParallel =>
    simp only [react] at h
    split at h <;> simp_all [Statement.fits]
  | closeFrame =>
    simp only [react] at h
    split at h <;> simp_all [Statement.fits]
  | separator condition =>
    simp only [react] at h
    split at h <;> simp_all [Statement.fits]
  | _ => rfl

/-- **How the counter goes on** after a statement that is taken. -/
theorem counter_effect (d : Diagram) (st : Statement) :
    (d.effect st).counter = st.nextNumber d.counter := by
  cases st <;> rfl

end Diagram

end SequenceDiagram
