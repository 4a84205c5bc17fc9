import Mathlib.Algebra.Group.Int.Defs
import Mathlib.Algebra.Group.Nat.Defs
import SequenceDiagram.Proofs.Diagram.Report
import SequenceDiagram.Proofs.Participant.Mention
import SequenceDiagram.Proofs.Statement.Precedence

/-!
# Lines that fail

A line is what the first of its readings is that may stand in the open block. It fails in two ways
only: its numeral has too many digits, or it is a message whose number has. Closing a block and
putting in a separator have faults of their own, but a line comes to that only where the block may
be closed or may have a separator. A line that fails leaves everything as it was, apart from the
first mentions of the participants of a message.

## Main definitions

* `readIn?`: the first reading of a line that may stand in a block

## Main results

* `digitLimit_lt_digitCount_iff`: which numbers are too long
* `Diagram.react_eq_failed_iff`: which statements fail, and what they leave behind
* `Diagram.readLine_of_readIn?`: the reading that decides about a line
* `Diagram.readLine_eq_failed_iff`: which lines fail, and what they leave behind
-/

namespace SequenceDiagram

/-- The first reading of a line that may stand in a block of a kind. -/
def readIn? (k : BlockKind) (line : String) : Option Statement :=
  (readings Form.table line).find? (Statement.fits k)

/-- The first reading of a line is the one that counts, if it may stand there. -/
theorem readIn?_of_head? {k : BlockKind} {line : String} {st : Statement}
    (hs : (readings Form.table line).head? = some st) (hf : st.fits k = true) :
    readIn? k line = some st := by
  obtain ⟨rest, hs⟩ := List.head?_eq_some_iff.1 hs
  rw [readIn?, hs, List.find?_cons, hf]

/-- A line about numbering from a numeral on has no other reading, wherever it stands. -/
theorem readIn?_eq_numberFrom_iff {k : BlockKind} {line numeral : String} :
    readIn? k line = some (.numberFrom numeral) ↔
      Form.numberFrom.read? line.toList = some (.numberFrom numeral) := by
  constructor
  · intro h
    obtain ⟨f, hf⟩ := mem_readings_iff.1 (List.mem_of_find?_eq_some h)
    obtain rfl : Form.numberFrom = f := Form.ofStatement_of_read? hf
    exact hf
  · intro h
    have hs := head?_readings_of_ne_signal h (by decide) fun hm => absurd hm (by decide)
    exact readIn?_of_head? hs rfl

/-- A number is too long to be written from the power of ten of the limit on. -/
theorem digitLimit_lt_digitCount_iff {n : Int} :
    digitLimit < digitCount n ↔ 10 ^ digitLimit ≤ n.natAbs := by
  rw [digitCount, ← Nat.not_le, Nat.length_repr_le_iff (by decide), Nat.not_lt]

namespace Diagram

variable {d d' : Diagram} {st : Statement} {f : Fault} {line : String}

/-! ## Statements that fail -/

/-- Any block but the outermost one can be closed. -/
theorem active_ne_nil (h : d.activeKind ≠ .sequence) : d.active ≠ [] := by
  intro ha
  apply h
  rw [activeKind, ha, element?_root]
  rfl

theorem ofExcept_closeBlock (h : d.activeKind ≠ .sequence) :
    Reaction.ofExcept d d.closeBlock = .applied { d with active := d.active.dropLast } := by
  rw [closeBlock, if_neg (active_ne_nil h)]
  rfl

theorem addSignal_of_long {n : Int} (hc : d.counter = some n) (hn : digitLimit < digitCount n)
    (x : Signal) : d.addSignal x = (some .longNumber, d.mention (.signal x)) := by
  simp [addSignal, number, register, hc, hn]

theorem addSignal_of_short (h : ∀ n, d.counter = some n → ¬ digitLimit < digitCount n)
    (x : Signal) : d.addSignal x = (none, d.numberedSignal x) := by
  rcases d.addSignal_cases x with ⟨f, hx⟩ | hx
  · cases hc : d.counter with
    | none => simp [addSignal, number, register, hc] at hx
    | some n => simp [addSignal, number, register, hc, h n hc] at hx
  · exact hx

/-- **The statements that fail**, and what they leave behind. -/
theorem react_eq_failed_iff : d.react st = .failed f d' ↔
    (∃ numeral, st = .numberFrom numeral ∧ digitLimit < numeral.length ∧
      f = .longNumeral numeral.length ∧ d' = d) ∨
    ∃ source double dotted openHead target text n,
      st = .signal source double dotted openHead target text ∧ d.counter = some n ∧
      digitLimit < digitCount n ∧ f = .longNumber ∧
      d' = { d with
        roster := d.roster ++ d.roster.newcomers [(source, none), (target, none)] } := by
  cases st with
  | closeParallel =>
    simp only [react]
    split
    · rename_i hk
      have hne : d.activeKind ≠ .sequence := by
        rw [hk]
        decide
      simp [ofExcept_closeBlock hne]
    · simp
  | closeFrame =>
    simp only [react]
    split
    · rename_i hk
      have hne : d.activeKind ≠ .sequence := by
        intro he
        rw [he] at hk
        exact absurd hk (by decide)
      simp [ofExcept_closeBlock hne]
    · simp
  | separator condition =>
    simp only [react, addSeparator]
    split <;> simp [Reaction.ofExcept]
  | numberFrom numeral =>
    simp only [react]
    split
    · simp [*, eq_comm]
    · simp [*]
  | signal source double dotted openHead target text =>
    by_cases hlong : ∃ n, d.counter = some n ∧ digitLimit < digitCount n
    · obtain ⟨n, hc, hn⟩ := hlong
      have hm : d.mention
            (.signal ⟨source, target, Text.labelLines text, dotted, double, openHead⟩) =
          { d with roster := d.roster ++ d.roster.newcomers [(source, none), (target, none)] } := by
        rw [← Roster.registerAll_eq]
        rfl
      simp [react, addSignal_of_long hc hn, hm, hc, hn, eq_comm]
    · have hshort : ∀ n, d.counter = some n → ¬ digitLimit < digitCount n := by simpa using hlong
      simp only [react, addSignal_of_short hshort]
      refine iff_of_false (by simp) ?_
      rintro (⟨_, hst, -⟩ | ⟨_, _, _, _, _, _, n, -, hc, hn, -⟩)
      · simp at hst
      · exact hlong ⟨n, hc, hn⟩
  | _ => simp [react]

/-! ## Lines that fail -/

/-- A statement is passed over exactly if it may not stand in the open block. -/
theorem fits_eq_false_iff :
    st.fits d.activeKind = false ↔ d.react st = .mismatch ∨ d.react st = .skipped := by
  rw [react_eq_mismatch_iff, react_eq_skipped_iff]
  cases st <;> simp [Statement.fits]

/-- A statement that may stand in the open block decides about its line. -/
theorem react_orElse_of_fits (h : st.fits d.activeKind = true) (r : Reaction) :
    (d.react st).orElse r = d.react st := by
  cases hr : d.react st with
  | applied | failed => rfl
  | mismatch => simp [fits_eq_false_iff.2 (.inl hr)] at h
  | skipped => simp [fits_eq_false_iff.2 (.inr hr)] at h

/-- A statement that may not stand there is passed over. -/
theorem react_orElse_of_not_fits {t : Statement} (h : t.fits d.activeKind = false)
    (hst : st.fits d.activeKind = true) : (d.react t).orElse (d.react st) = d.react st := by
  rcases fits_eq_false_iff.1 h with ht | ht
  · rw [ht]
    cases hs : d.react st with
    | skipped => simp [fits_eq_false_iff.2 (.inr hs)] at hst
    | _ => rfl
  · rw [ht, Reaction.skipped_orElse]

/-- **A line is what its first reading is** that may stand in the open block. -/
theorem readLine_of_readIn? (h : readIn? d.activeKind line = some st) :
    d.readLine Form.table line = d.react st := by
  have hst : st.fits d.activeKind = true := List.find?_some h
  rw [readIn?] at h
  rw [readLine]
  -- By induction on the readings: those before it are passed over, and those behind it are not
  -- tried.
  generalize readings Form.table line = ss at h
  induction ss with
  | nil => simp at h
  | cons t ss ih =>
    rw [reactFirst_cons]
    cases ht : t.fits d.activeKind with
    | true =>
      obtain rfl : t = st := by simpa [List.find?_cons, ht] using h
      exact react_orElse_of_fits hst _
    | false =>
      rw [ih (by simpa [List.find?_cons, ht] using h)]
      exact react_orElse_of_not_fits ht hst

/-- A line without such a reading is passed over. -/
theorem readLine_of_readIn?_eq_none (h : readIn? d.activeKind line = none) :
    d.readLine Form.table line = .mismatch ∨ d.readLine Form.table line = .skipped := by
  have hno : ∀ st ∈ readings Form.table line, d.react st = .mismatch ∨ d.react st = .skipped := by
    intro st hst
    rw [← fits_eq_false_iff]
    simpa using List.find?_eq_none.1 h st hst
  rw [readLine, reactFirst_eq_mismatch_iff, reactFirst_eq_skipped_iff]
  by_cases hm : ∃ st ∈ readings Form.table line, d.react st = .mismatch
  · exact .inl ⟨hno, hm⟩
  · exact .inr fun st hst => (hno st hst).resolve_left fun hr => hm ⟨st, hst, hr⟩

/-- **The lines that fail**, and what they leave behind. -/
theorem readLine_eq_failed_iff : d.readLine Form.table line = .failed f d' ↔
    (∃ numeral, Form.numberFrom.read? line.toList = some (.numberFrom numeral) ∧
      digitLimit < numeral.length ∧ f = .longNumeral numeral.length ∧ d' = d) ∨
    ∃ source double dotted openHead target text n,
      readIn? d.activeKind line = some (.signal source double dotted openHead target text) ∧
      d.counter = some n ∧ digitLimit < digitCount n ∧ f = .longNumber ∧
      d' = { d with
        roster := d.roster ++ d.roster.newcomers [(source, none), (target, none)] } := by
  have hreact : d.readLine Form.table line = .failed f d' ↔
      ∃ st, readIn? d.activeKind line = some st ∧ d.react st = .failed f d' := by
    cases hr : readIn? d.activeKind line with
    | none => rcases readLine_of_readIn?_eq_none hr with hn | hn <;> simp [hn]
    | some st => simp [readLine_of_readIn? hr]
  rw [hreact]
  constructor
  · rintro ⟨st, hr, hf⟩
    rcases react_eq_failed_iff.1 hf with ⟨numeral, rfl, h⟩ |
      ⟨source, double, dotted, openHead, target, text, n, rfl, h⟩
    · exact .inl ⟨numeral, readIn?_eq_numberFrom_iff.1 hr, h⟩
    · exact .inr ⟨source, double, dotted, openHead, target, text, n, hr, h⟩
  · rintro (⟨numeral, hr, h⟩ | ⟨source, double, dotted, openHead, target, text, n, hr, h⟩)
    · exact ⟨_, readIn?_eq_numberFrom_iff.2 hr, react_eq_failed_iff.2 (.inl ⟨numeral, rfl, h⟩)⟩
    · exact ⟨_, hr, react_eq_failed_iff.2
        (.inr ⟨source, double, dotted, openHead, target, text, n, rfl, h⟩)⟩

end Diagram

end SequenceDiagram
