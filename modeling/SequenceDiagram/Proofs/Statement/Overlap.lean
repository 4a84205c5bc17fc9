import Mathlib.Data.List.Nodup
import SequenceDiagram.Diagram.Reading
import SequenceDiagram.Proofs.Statement.Keyword

/-!
# Overlapping forms

A line may fit two forms only if one of them is that of messages. The forms with a word of their
own are told by the word, and those that share a word by what follows it; a message has an arrow,
for which only forms with free text or a name have room. So the order of the table matters around
the form of messages and nowhere else.

## Main definitions

* `Form.Fits`: a line can be read in a form
* `Form.opening`: what a line in a form other than those of messages and blank lines begins with
* `Form.Precedes`: the forms that have to be tried one before the other

## Main results

* `Form.Fits.eq`: a line fits one form at most that is not the form of messages
* `Form.Fits.mem_of_signal`: the forms that a message may fit too
* `readings_eq_of_perm`: the readings of a line do not depend on the rest of the order
* `overlap_at_signal`: which forms overlap, and which tables read every text alike
-/

namespace SequenceDiagram

/-! ## Characters of a line -/

namespace Scan

variable {c : Char} {w cs rest : List Char}

theorem mem_of_mem_dropWhile {p : Char → Bool} (h : c ∈ cs.dropWhile p) : c ∈ cs :=
  (List.dropWhile_sublist p).mem h

theorem mem_of_mem_past {d : Char} (h : c ∈ past d cs) : c ∈ cs := by
  cases cs with
  | nil => exact h
  | cons e cs =>
    rw [past] at h
    split at h
    · exact List.mem_cons_of_mem _ h
    · exact h

/-- Only what a run consists of is lost in front of the rest. -/
theorem notMem_of_dropWhile {p : Char → Bool} (hc : p c = false) (h : c ∉ cs.dropWhile p) :
    c ∉ cs := by
  rw [← List.takeWhile_append_dropWhile (p := p) (l := cs), List.mem_append, not_or]
  refine ⟨?_, h⟩
  intro ht
  simp [List.mem_takeWhile_imp ht] at hc

theorem notMem_of_spaces (hc : c ≠ ' ') (h : c ∉ spaces cs) : c ∉ cs :=
  notMem_of_dropWhile (by simpa using hc) h

theorem notMem_of_word? (hw : c ∉ w) (h : word? w cs = some rest) (hr : c ∉ rest) : c ∉ cs := by
  rw [eq_append_of_word? h, List.mem_append, not_or]
  exact ⟨hw, hr⟩

theorem notMem_of_atEnd (hc : c ≠ '\n') (h : atEnd cs = true) : c ∉ cs := by
  rcases (by simpa [atEnd] using h : cs = [] ∨ cs = ['\n']) with rfl | rfl
  · exact List.not_mem_nil
  · simpa using hc

end Scan

namespace Form

open Scan Statement

variable {f g : Form} {cs : List Char}

/-- A line can be read in a form. -/
def Fits (f : Form) (cs : List Char) : Prop := ∃ st, f.read? cs = some st

theorem fits_iff : f.Fits cs ↔ (f.read? cs).isSome := Option.isSome_iff_exists.symm

instance (f : Form) (cs : List Char) : Decidable (f.Fits cs) := decidable_of_iff _ fits_iff.symm

/-! ## Forms without an arrow -/

/-- A line in one of the forms that say nothing but their words and a numeral has no arrow, and
neither of the two signs that arrows have. -/
theorem Fits.notMem {c : Char} (h : f.Fits cs) (hc : c = '<' ∨ c = '>')
    (hf : f ∈ [openParallel, closeParallel, openOption, closeFrame, numberFrom, numberOff, blank]) :
    c ∉ cs := by
  obtain ⟨st, h⟩ := h
  -- The words of these forms are known, and between and behind them are spaces only.
  have hblank : (c = ' ' || c = '\t') = false := by rcases hc with rfl | rfl <;> rfl
  have hspace : c ≠ ' ' := by rcases hc with rfl | rfl <;> decide
  have hdigit : c.isDigit = false := by rcases hc with rfl | rfl <;> rfl
  have hline : c ≠ '\n' := by rcases hc with rfl | rfl <;> decide
  have hword : ∀ w ∈ ["parallel".toList, ['\x7b'], ['\x7d'], "opt".toList, "end".toList,
      "autonumber".toList, "off".toList], c ∉ w := by
    rcases hc with rfl | rfl <;> decide
  refine notMem_of_dropWhile (p := fun c => c = ' ' || c = '\t') hblank ?_
  cases f with
  | openParallel | numberOff =>
    obtain ⟨rest, hw, h⟩ := Option.bind_eq_some_iff.1 h
    obtain ⟨rest', hw', h⟩ := Option.bind_eq_some_iff.1 h
    split at h
    · rename_i ha
      refine notMem_of_word? (hword _ (by simp)) hw (notMem_of_spaces hspace ?_)
      refine notMem_of_word? (hword _ (by simp)) hw' (notMem_of_spaces hspace ?_)
      exact notMem_of_atEnd hline ha
    · simp at h
  | closeParallel | openOption | closeFrame =>
    obtain ⟨rest, hw, h⟩ := Option.bind_eq_some_iff.1 h
    split at h
    · rename_i ha
      refine notMem_of_word? (hword _ (by simp)) hw (notMem_of_spaces hspace ?_)
      exact notMem_of_atEnd hline ha
    · simp at h
  | numberFrom =>
    obtain ⟨rest, hw, h⟩ := Option.bind_eq_some_iff.1 h
    simp only at h
    split at h
    · rename_i ha
      refine notMem_of_word? (hword _ (by simp)) hw (notMem_of_spaces hspace ?_)
      refine notMem_of_dropWhile hdigit ?_
      exact notMem_of_spaces hspace (notMem_of_atEnd hline ha.2)
    · simp at h
  | blank =>
    simp only [read?, readBlank?] at h
    split at h
    · rename_i ha
      exact notMem_of_atEnd hline ha
    · simp at h
  | _ => simp at hf

/-- A message has an arrow. -/
theorem Fits.greater_mem (h : signal.Fits cs) : '>' ∈ cs := by
  obtain ⟨st, h⟩ := h
  obtain ⟨⟨dotted, rest⟩, hs, -⟩ := Option.bind_eq_some_iff.1 h
  have hp : '>' ∈ past '<' (spaces ((blanks cs).dropWhile isSourceChar)) := by
    unfold readShaft? at hs
    split at hs
    · rename_i hw
      rw [eq_append_of_word? hw]
      simp
    · obtain ⟨r, hw, -⟩ := Option.map_eq_some_iff.1 hs
      rw [eq_append_of_word? hw]
      simp
  exact mem_of_mem_dropWhile (mem_of_mem_dropWhile (mem_of_mem_dropWhile (mem_of_mem_past hp)))

/-- **The forms that a message may fit too** have room for an arrow. -/
theorem Fits.mem_of_signal (h : signal.Fits cs) (hg : g.Fits cs) (hne : g ≠ signal) :
    g ∈ [aliased, participant, openLoop, openAlternative, separator, state, comment] := by
  by_contra hm
  refine hg.notMem (.inr rfl) ?_ h.greater_mem
  cases g <;> simp_all

/-! ## Forms told by their words -/

/-- What a line in a form begins with, after its indentation, if that is always the same. -/
def opening : Form → String
  | comment => "#"
  | f => f.keyword

theorem Fits.opening_prefix (h : f.Fits cs) : f.opening.toList <+: blanks cs := by
  obtain ⟨st, h⟩ := h
  cases f with
  | comment =>
    obtain ⟨rest, hw, -⟩ := Option.bind_eq_some_iff.1 h
    rw [eq_append_of_word? hw]
    exact ⟨rest, rfl⟩
  | _ => exact keyword_prefix_of_read? h

/-- No opening is the beginning of another one, apart from those shared by two forms. -/
theorem opening_apart : ∀ f ∈ table, ∀ g ∈ table, f ∉ [signal, blank] → g ∉ [signal, blank] →
    f.opening.toList <+: g.opening.toList →
      f = g ∨ (f, g) ∈ [(aliased, participant), (participant, aliased), (numberFrom, numberOff),
        (numberOff, numberFrom)] := by
  decide

/-- A blank line begins with no opening. -/
theorem Fits.blank_unique (h : blank.Fits cs) (hf : f.Fits cs) (hs : f ≠ signal) : f = blank := by
  by_contra hb
  obtain ⟨st, h⟩ := h
  simp only [read?, readBlank?] at h
  split at h
  · rename_i ha
    have hp := hf.opening_prefix
    rcases (by simpa [atEnd] using ha : blanks cs = [] ∨ blanks cs = ['\n']) with he | he <;>
      rw [he] at hp <;> revert hp <;> cases f <;> simp_all [opening, keyword]
  · simp at h

/-- Behind the label of a participant comes a word, so that the line does not end with the label. -/
theorem Fits.not_participant (h : aliased.Fits cs) : ¬ participant.Fits cs := by
  rintro ⟨st', h'⟩
  obtain ⟨st, h⟩ := h
  obtain ⟨rest, hw, h⟩ := Option.bind_eq_some_iff.1 h
  obtain ⟨label, hq, h⟩ := Option.bind_eq_some_iff.1 h
  obtain ⟨behind, hc, h⟩ := Option.bind_eq_some_iff.1 h
  obtain ⟨name, ha, -⟩ := Option.bind_eq_some_iff.1 h
  obtain ⟨rest', hw', h'⟩ := Option.bind_eq_some_iff.1 h'
  obtain rfl : rest = rest' := Option.some.inj (hw.symm.trans hw')
  split at h'
  · obtain ⟨n, hn, -⟩ := Option.bind_eq_some_iff.1 h'
    -- Both forms read the same label, up to the second quote.
    rw [quotable?, eq_append_of_word? hq] at hn
    simp only [List.singleton_append, past, if_true, eq_append_of_word? hc] at hn
    split at hn
    · rename_i he
      rcases (by simpa [atEnd] using he : behind = [] ∨ behind = ['\n']) with rfl | rfl <;>
        simp [spaces, word?] at ha
    · simp at hn
  · simp at h'

/-- Numbering goes on with a digit or with a word. -/
theorem Fits.not_numberOff (h : numberFrom.Fits cs) : ¬ numberOff.Fits cs := by
  rintro ⟨st', h'⟩
  obtain ⟨st, h⟩ := h
  obtain ⟨rest, hw, h⟩ := Option.bind_eq_some_iff.1 h
  obtain ⟨rest', hw', h'⟩ := Option.bind_eq_some_iff.1 h'
  obtain rfl : rest = rest' := Option.some.inj (hw.symm.trans hw')
  obtain ⟨off, ho, -⟩ := Option.bind_eq_some_iff.1 h'
  simp only [eq_append_of_word? ho] at h
  simp [Char.isDigit] at h

/-- **A line fits one form at most that is not the form of messages.** -/
theorem Fits.eq (hf : f.Fits cs) (hg : g.Fits cs) (hfs : f ≠ signal) (hgs : g ≠ signal) :
    f = g := by
  by_cases hfb : f = blank
  · subst hfb
    exact (hf.blank_unique hg hgs).symm
  by_cases hgb : g = blank
  · subst hgb
    exact hg.blank_unique hf hfs
  -- One of the two openings begins with the other, and if that does not tell, what follows does.
  have hnf : f ∉ [signal, blank] := by simp [hfs, hfb]
  have hng : g ∉ [signal, blank] := by simp [hgs, hgb]
  have hpairs : ∀ {a b : Form}, a.Fits cs → b.Fits cs → (a, b) ∉ [(aliased, participant),
      (participant, aliased), (numberFrom, numberOff), (numberOff, numberFrom)] := by
    intro a b ha hb hm
    simp only [List.mem_cons, Prod.mk.injEq, List.not_mem_nil, or_false] at hm
    rcases hm with ⟨rfl, rfl⟩ | ⟨rfl, rfl⟩ | ⟨rfl, rfl⟩ | ⟨rfl, rfl⟩
    · exact ha.not_participant hb
    · exact hb.not_participant ha
    · exact ha.not_numberOff hb
    · exact hb.not_numberOff ha
  rcases List.prefix_or_prefix_of_prefix hf.opening_prefix hg.opening_prefix with hp | hp
  · exact (opening_apart f (mem_table f) g (mem_table g) hnf hng hp).resolve_right (hpairs hf hg)
  · exact ((opening_apart g (mem_table g) f (mem_table f) hng hnf hp).resolve_right
      (hpairs hg hf)).symm

theorem Fits.eq_or_signal (hf : f.Fits cs) (hg : g.Fits cs) :
    f = g ∨ f = signal ∨ g = signal := by
  by_contra h
  rw [not_or, not_or] at h
  exact h.1 (hf.eq hg h.2.1 h.2.2)

/-! ## The order of the table -/

/-- One form has to be tried before another, since a line may fit both. -/
def Precedes (f g : Form) : Prop :=
  f ∈ [aliased, participant, openLoop, openAlternative, separator, state] ∧ g = signal ∨
    f = signal ∧ g = comment

instance (f g : Form) : Decidable (f.Precedes g) :=
  inferInstanceAs (Decidable (_ ∧ _ ∨ _ ∧ _))

theorem Precedes.asymm (h : f.Precedes g) : ¬ g.Precedes f := by
  rcases h with ⟨hf, rfl⟩ | ⟨rfl, rfl⟩
  · rintro (⟨hg, -⟩ | ⟨-, rfl⟩)
    · simp at hg
    · simp at hf
  · rintro (⟨hg, -⟩ | ⟨hf, -⟩)
    · simp at hg
    · simp at hf

/-- Of two forms that a line fits one has to be tried before the other. -/
theorem Fits.precedes_or (hf : f.Fits cs) (hg : g.Fits cs) (hne : f ≠ g) :
    f.Precedes g ∨ g.Precedes f := by
  by_cases hfs : f = signal
  · subst hfs
    have hm := hf.mem_of_signal hg (Ne.symm hne)
    cases g <;> simp_all [Precedes]
  · by_cases hgs : g = signal
    · subst hgs
      have hm := hg.mem_of_signal hf hfs
      cases f <;> simp_all [Precedes]
    · exact absurd (hf.eq hg hfs hgs) hne

end Form

open Form

/-- A table without repetitions has the forms of a line in the order in which they have to be
tried, if it has each of them before the other that it has to precede. -/
theorem pairwise_precedes_fits {forms : List Form} (hn : forms.Nodup)
    (ho : ∀ f g, f.Precedes g → forms.idxOf f < forms.idxOf g) (cs : List Char) :
    (forms.filter (Fits · cs)).Pairwise Precedes := by
  have hp : forms.Pairwise fun f g => f ≠ g ∧ ¬ g.Precedes f := by
    rw [List.pairwise_iff_getElem]
    intro i j hi hj hij
    refine ⟨fun h => ?_, fun h => ?_⟩
    · exact absurd (hn.getElem_inj_iff.1 h) (by omega)
    · have hlt := ho _ _ h
      rw [hn.idxOf_getElem, hn.idxOf_getElem] at hlt
      omega
  refine (hp.filter _).imp_of_mem ?_
  rintro f g hf hg ⟨hne, hng⟩
  have hff : f.Fits cs := by simpa using (List.mem_filter.1 hf).2
  have hgf : g.Fits cs := by simpa using (List.mem_filter.1 hg).2
  exact (hff.precedes_or hgf hne).resolve_right hng

/-- The readings of a line are those in the forms that it fits. -/
theorem readings_eq_filter (forms : List Form) (line : String) :
    readings forms line =
      (forms.filter (Fits · line.toList)).filterMap fun f => f.read? line.toList := by
  rw [readings, List.filterMap_filter]
  refine List.filterMap_congr ?_
  intro f _
  by_cases h : f.Fits line.toList
  · simp [h]
  · have hnone : f.read? line.toList = none := by simpa [fits_iff] using h
    simp [hnone]

/-- **The readings of a line do not depend on the order of the table**, as long as the forms that
may fit the same line stand in the same order. -/
theorem readings_eq_of_perm {forms : List Form} (hp : forms.Perm table)
    (ho : ∀ f g, f.Precedes g → forms.idxOf f < forms.idxOf g) (line : String) :
    readings forms line = readings table line := by
  have hn : table.Nodup := by decide
  have ht : ∀ f ∈ table, ∀ g ∈ table, f.Precedes g → table.idxOf f < table.idxOf g := by decide
  rw [readings_eq_filter, readings_eq_filter]
  congr 1
  -- Both rows of forms are permutations of each other in an order that admits only one of them.
  refine List.Perm.eq_of_pairwise ?_ (pairwise_precedes_fits (hp.nodup_iff.2 hn) ho _)
    (pairwise_precedes_fits hn (fun f g => ht f (mem_table f) g (mem_table g)) _) (hp.filter _)
  intro f g _ _ hfg hgf
  exact absurd hgf hfg.asymm

namespace Diagram

/-- Tables in which every line has the same readings read the same from all lines. -/
theorem readLines_congr {forms forms' : List Form}
    (h : ∀ line, readings forms line = readings forms' line) (d : Diagram) (number : Int)
    (ls : List String) : readLines forms d number ls = readLines forms' d number ls := by
  induction ls generalizing d number with
  | nil => rfl
  | cons l ls ih =>
    have hl : d.readLine forms l = d.readLine forms' l := by rw [readLine, readLine, h]
    simp only [readLines, hl, ih]

end Diagram

/-- **Forms overlap at messages only.** No line fits three forms, and of two that it fits one is
the form of messages and the other one of seven, so that the two forms of participants never read
the same line. Hence a table in any order that has six of the seven before the form of messages and
comments after it reads the same from every text, whatever the diagram is before it: the same
diagram, the same report and the same fault, if there is one. -/
theorem overlap_at_signal :
    (∀ (line : String) (f g h : Form), f.Fits line.toList → g.Fits line.toList →
      h.Fits line.toList → f = g ∨ g = h ∨ f = h) ∧
    (∀ (line : String) (f g : Form), f.Fits line.toList → g.Fits line.toList → f ≠ g →
      f = signal ∧
          g ∈ [aliased, participant, openLoop, openAlternative, separator, state, comment] ∨
        g = signal ∧
          f ∈ [aliased, participant, openLoop, openAlternative, separator, state, comment]) ∧
    ∀ forms : List Form, forms.Perm table →
      (∀ f ∈ [aliased, participant, openLoop, openAlternative, separator, state],
        forms.idxOf f < forms.idxOf signal) →
      forms.idxOf signal < forms.idxOf comment →
      ∀ (d : Diagram) (text : String), d.readText forms text = d.readText table text := by
  refine ⟨?_, ?_, ?_⟩
  · -- Two of the three forms are that of messages, or two are not.
    intro line f g h hf hg hh
    have hfg := hf.eq_or_signal hg
    have hgh := hg.eq_or_signal hh
    have hfh := hf.eq_or_signal hh
    grind
  · intro line f g hf hg hne
    rcases (hf.eq_or_signal hg).resolve_left hne with rfl | rfl
    · exact .inl ⟨rfl, hf.mem_of_signal hg (Ne.symm hne)⟩
    · exact .inr ⟨rfl, hg.mem_of_signal hf hne⟩
  · intro forms hp hbefore hafter d text
    have ho : ∀ f g : Form, f.Precedes g → forms.idxOf f < forms.idxOf g := by
      rintro f g (⟨hf, rfl⟩ | ⟨rfl, rfl⟩)
      · exact hbefore f hf
      · exact hafter
    have hr := Diagram.readLines_congr (readings_eq_of_perm hp ho) d 1 (Text.lines text)
    rw [Diagram.readText, hr, Diagram.readText]

/-- A line that fits two forms, and a table in another order that tries them in the same one. -/
theorem overlap_at_signal_loop :
    let forms := [closeFrame, state, separator, openAlternative, openLoop, participant, aliased,
      signal, blank, comment, numberOff, numberFrom, openOption, closeParallel, openParallel]
    (openLoop.Fits "loop ->B: x".toList ∧ signal.Fits "loop ->B: x".toList ∧
      forms.Perm table) ∧
    (∀ h : Form, h.Fits "loop ->B: x".toList → h = openLoop ∨ h = signal) ∧
    Diagram.empty.readText forms "loop ->B: x" = Diagram.empty.readText table "loop ->B: x" := by
  intro forms
  have hl : openLoop.Fits "loop ->B: x".toList := by decide
  have hs : signal.Fits "loop ->B: x".toList := by decide
  have hp : forms.Perm table := by decide
  obtain ⟨hthree, -, hperm⟩ := overlap_at_signal
  refine ⟨⟨hl, hs, hp⟩, ?_, hperm forms hp (by decide) (by decide) .empty _⟩
  intro h hh
  rcases hthree "loop ->B: x" h openLoop signal hh hl hs with h' | h' | h'
  · exact .inl h'
  · simp at h'
  · exact .inr h'

end SequenceDiagram
