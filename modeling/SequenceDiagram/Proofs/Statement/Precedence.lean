import SequenceDiagram.Proofs.Statement.Overlap
import SequenceDiagram.Proofs.Statement.Written

/-!
# First readings

A line may fit several forms and is tried in the order of the table. Only messages overlap with
other forms, so a line in another form is read in it first unless it is a message and messages are
tried before. A message may begin with any word, but not go on as the form of that word does: its
arrow stands in the first word of the line, where no other form has one.

## Main definitions

* `Scan.firstWord`: what a line begins with up to its first space or quote
* `Scan.NoArrow`: a line whose first word holds no arrow

## Main results

* `head?_readings_of_ne_signal`: a line that fits another form than that of messages
* `Form.notMem_firstWord_of_read?`, `Form.noArrow_of_read?`: other forms than that of messages have
  no arrow in the first word
* `Statement.head?_readings_written`: a written statement is the first reading of its line
-/

namespace SequenceDiagram

/-- A line is read first in a form if no form before it reads the line. -/
theorem head?_readings {f : Form} {line : String} {st : Statement}
    (hr : f.read? line.toList = some st)
    (hn : ∀ g ∈ Form.table.takeWhile (· ≠ f), g.read? line.toList = none) :
    (readings Form.table line).head? = some st := by
  rw [readings, List.head?_filterMap, List.findSome?_eq_some_iff]
  refine ⟨Form.table.takeWhile (· ≠ f), f, (Form.table.dropWhile (· ≠ f)).tail, ?_, hr, hn⟩
  cases f <;> rfl

/-- **A line that fits another form than that of messages** is read in that form first, unless the
form comes after that of messages and the line fits this one too. -/
theorem head?_readings_of_ne_signal {f : Form} {line : String} {st : Statement}
    (hr : f.read? line.toList = some st) (hf : f ≠ .signal)
    (hs : .signal ∈ Form.table.takeWhile (· ≠ f) → ¬ Form.signal.Fits line.toList) :
    (readings Form.table line).head? = some st := by
  refine head?_readings hr fun g hg => ?_
  rw [Option.eq_none_iff_forall_ne_some]
  intro s hg'
  have hgf : g ≠ f := by simpa using List.mem_takeWhile_imp hg
  have hgs : g ≠ .signal := by
    rintro rfl
    exact hs hg ⟨s, hg'⟩
  exact hgf (Form.Fits.eq ⟨s, hg'⟩ ⟨st, hr⟩ hgs hf)

/-! ## Arrows in the first word -/

namespace Scan

/-- What a line begins with up to its first space or quote. -/
def firstWord (cs : List Char) : List Char := cs.takeWhile fun c => c ≠ ' ' && c ≠ '"'

/-- The first word of a line does not hold the head of an arrow. -/
def NoArrow (cs : List Char) : Prop := '>' ∉ firstWord cs

variable {c : Char} {cs w rest : List Char}

theorem firstWord_append (h : ∀ c ∈ w, c ≠ ' ' ∧ c ≠ '"') (rest : List Char) :
    firstWord (w ++ rest) = w ++ firstWord rest :=
  List.takeWhile_append_of_pos (by simpa using h)

theorem notMem_firstWord (h : c ∉ cs) : c ∉ firstWord cs :=
  fun hm => h ((List.takeWhile_sublist _).mem hm)

theorem notMem_firstWord_of_head? (h : cs.head? = some ' ' ∨ cs.head? = some '"') :
    c ∉ firstWord cs := by
  cases cs with
  | nil => exact List.not_mem_nil
  | cons c cs => rcases h with h | h <;> simp_all [firstWord]

theorem notMem_firstWord_append (hw : c ∉ w) (hr : c ∉ firstWord rest) :
    c ∉ firstWord (w ++ rest) := by
  induction w with
  | nil => exact hr
  | cons d w ih =>
    rw [List.mem_cons, not_or] at hw
    rw [firstWord, List.cons_append, List.takeWhile_cons]
    split
    · rw [List.mem_cons, not_or]
      exact ⟨hw.1, ih hw.2⟩
    · exact List.not_mem_nil

theorem notMem_firstWord_of_spaces (hc : c ≠ ' ') (h : c ∉ firstWord (spaces cs)) :
    c ∉ firstWord cs := by
  have hs : cs.takeWhile (· = ' ') ++ spaces cs = cs := List.takeWhile_append_dropWhile
  rw [← hs]
  refine notMem_firstWord_append ?_ h
  intro hm
  exact hc (by simpa using List.mem_takeWhile_imp hm)

/-- What follows a word that is read holds a sign of an arrow if the whole line does. -/
theorem notMem_firstWord_of_word? (hw : c ∉ w) (h : word? w cs = some rest)
    (hr : c ∉ firstWord rest) : c ∉ firstWord cs := by
  rw [eq_append_of_word? h]
  exact notMem_firstWord_append hw hr

/-- A word does not go on behind a character that it does not hold. -/
theorem prefix_of_prefix_append_cons (hc : c ∉ w) (h : w <+: cs ++ c :: rest) : w <+: cs := by
  rcases List.prefix_or_prefix_of_prefix h (List.prefix_append _ _) with hp | ⟨t, rfl⟩
  · exact hp
  rw [List.prefix_append_right_inj] at h
  cases t with
  | nil => simp
  | cons d t =>
    obtain ⟨rfl, -⟩ := List.cons_prefix_cons.1 h
    simp at hc

/-- A label follows a space. -/
theorem head?_of_label? {label : List Char} (h : label? cs = some label) :
    cs.head? = some ' ' := by
  by_contra hs
  simp [label?, spaces_of_head? hs] at h

end Scan

namespace Form

open Scan

/-- In a line that fits a form before that of messages, the signs of an arrow come after the first
space or quote, unless the line begins as a note without its spaces. -/
theorem notMem_firstWord_of_read? {f : Form} {c : Char} {cs : List Char} {s : Statement}
    (hc : c = '<' ∨ c = '>') (hf : f ∈ table.takeWhile (· ≠ signal)) (h : f.read? cs = some s) :
    c ∉ firstWord (blanks cs) ∨ "stateover".toList <+: firstWord (blanks cs) := by
  -- The word of the form holds no arrow, so the cases are about what follows it: a space or a
  -- quote.
  have hspace : c ≠ ' ' := by rcases hc with rfl | rfl <;> decide
  have hword : ∀ f : Form, c ∉ f.keyword.toList := by
    rcases hc with rfl | rfl <;> intro f <;> cases f <;> decide
  cases f with
  | aliased =>
    obtain ⟨rest, hb, h⟩ := Option.bind_eq_some_iff.1 h
    obtain ⟨label, hq, -⟩ := Option.bind_eq_some_iff.1 h
    left
    apply notMem_firstWord_of_word? (hword aliased) hb
    apply notMem_firstWord_of_spaces hspace
    rw [eq_append_of_word? hq]
    exact notMem_firstWord_of_head? (.inr rfl)
  | participant =>
    obtain ⟨rest, hb, h⟩ := Option.bind_eq_some_iff.1 h
    split at h
    · rename_i hq
      exact .inl (notMem_firstWord_of_word? (hword participant) hb (notMem_firstWord_of_head? hq))
    · simp at h
  | openLoop | openAlternative | separator =>
    obtain ⟨rest, hb, h⟩ := Option.bind_eq_some_iff.1 h
    obtain ⟨label, hl, -⟩ := Option.bind_eq_some_iff.1 h
    left
    apply notMem_firstWord_of_word? _ hb (notMem_firstWord_of_head? (.inl (head?_of_label? hl)))
    rcases hc with rfl | rfl <;> simp
  | state =>
    obtain ⟨rest, hb, h⟩ := Option.bind_eq_some_iff.1 h
    obtain ⟨rest', hq, -⟩ := Option.bind_eq_some_iff.1 h
    by_cases hs : rest.head? = some ' '
    · exact .inl (notMem_firstWord_of_word? (hword state) hb (notMem_firstWord_of_head? (.inl hs)))
    · -- Without a space the two words of a note stand together.
      right
      rw [spaces_of_head? hs] at hq
      rw [eq_append_of_word? hb, eq_append_of_word? hq, firstWord_append (by simp),
        firstWord_append (by simp)]
      exact ⟨firstWord rest', by simp⟩
  | signal | comment | blank => simp [table] at hf
  | _ =>
    -- The other forms have no room for an arrow at all.
    have hn := Fits.notMem ⟨s, h⟩ hc (by simp)
    exact .inl (notMem_firstWord fun hm => hn ((blanks_sublist cs).mem hm))

/-- In a line that fits a form before that of messages, an arrow comes after the first space or
quote, unless the line begins as a note without its spaces. -/
theorem noArrow_of_read? {f : Form} {cs : List Char} {s : Statement}
    (hf : f ∈ table.takeWhile (· ≠ signal)) (h : f.read? cs = some s) :
    NoArrow (blanks cs) ∨ "stateover".toList <+: firstWord (blanks cs) :=
  notMem_firstWord_of_read? (.inr rfl) hf h

end Form

/-! ## Written statements -/

namespace Statement

open Scan

/-- The first word of a written message holds its arrow. -/
theorem not_noArrow_signal {source : String} (hs : IsWord source)
    (double dotted openHead : Bool) (rest : List Char) :
    ¬ NoArrow (source.toList ++ ((arrow double dotted openHead).toList ++ rest)) := by
  have hp : ∀ c ∈ source.toList, c ≠ ' ' ∧ c ≠ '"' := by
    intro c hc
    exact ⟨ne_of_mem (hs.notMem (by decide)) hc, ne_of_mem (hs.notMem (by decide)) hc⟩
  rw [NoArrow, firstWord_append hp, not_not, List.mem_append]
  right
  cases double <;> cases dotted <;> cases openHead <;> simp [arrow, firstWord]

/-- A written message does not begin as a note does. -/
theorem not_prefix_signal {source : String} (hk : ¬ "stateover".toList <+: source.toList)
    (double dotted openHead : Bool) (rest : List Char) : ¬ "stateover".toList <+:
      source.toList ++ ((arrow double dotted openHead).toList ++ rest) := by
  intro hp
  obtain ⟨c, cs, ha, hc⟩ : ∃ c cs, (arrow double dotted openHead).toList = c :: cs ∧
      c ∉ "stateover".toList := by
    cases double <;> cases dotted <;> simp [arrow]
  rw [ha, List.cons_append] at hp
  exact hk (prefix_of_prefix_append_cons hc hp)

/-- No form that is tried before that of messages reads a written message, unless its source begins
as a note does. -/
theorem read?_written_signal_eq_none {source target text : String} (hs : IsWord source)
    (hk : ¬ "stateover".toList <+: source.toList) (double dotted openHead : Bool) :
    ∀ g ∈ Form.table.takeWhile (· ≠ .signal),
      g.read? (signal source double dotted openHead target text).written.toList = none := by
  intro g hg
  rw [Option.eq_none_iff_forall_ne_some]
  intro st hst
  have hf := Form.noArrow_of_read? hg hst
  rw [toList_written_signal, hs.blanks_append] at hf
  rcases hf with hf | hf
  · exact not_noArrow_signal hs double dotted openHead _ hf
  · exact not_prefix_signal hk double dotted openHead _ (hf.trans (List.takeWhile_prefix _))

/-- A message is read first as what it is, unless its source begins as a note does. -/
theorem head?_readings_signal {source target text : String} (hs : IsWord source)
    (ht : IsWord target) (hx : '\n' ∉ text.toList) (hx' : text.toList.head? ≠ some ' ')
    (hk : ¬ "stateover".toList <+: source.toList) (double dotted openHead : Bool) :
    (readings Form.table (signal source double dotted openHead target text).written).head? =
      some (signal source double dotted openHead target text) :=
  head?_readings (f := .signal) (readSignal?_written hs ht hx hx' double dotted openHead)
    (read?_written_signal_eq_none hs hk double dotted openHead)

/-- **A written statement is the first reading of its line.** -/
theorem head?_readings_written {st : Statement} (h : st.IsWritable) :
    (readings Form.table st.written).head? = some st := by
  have hr := read?_written h
  cases st with
  | signal source double dotted openHead target text =>
    obtain ⟨hs, ht, hx⟩ := h
    exact head?_readings_signal hs.isWord ht.isWord hx.newline hx.head hs.not_note double dotted
      openHead
  | comment | blank => decide
  | _ =>
    refine head?_readings_of_ne_signal hr (by simp [Form.ofStatement]) ?_
    simp [Form.ofStatement, Form.table]

end Statement

end SequenceDiagram
