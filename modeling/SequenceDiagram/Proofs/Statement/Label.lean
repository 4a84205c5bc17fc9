import SequenceDiagram.Proofs.Statement.Padding
import SequenceDiagram.Proofs.Statement.Split

/-!
# Labels behind keywords

The forms of loops, alternatives and separators end in a label. It is what stands between the
spaces behind the keyword and those at the end of the line, so a space is neither its first
character nor its last, unless nothing but spaces follow the keyword. Then the last of them is the
label if there are two or more, and the line is no statement if there are fewer.

## Main definitions

* `Scan.IsTrimmed`: characters with no spaces around them
* `Scan.Spaced`: characters between spaces up to the end of a line
* `Form.labelForms`: the forms that end in a label

## Main results

* `Scan.label?_eq_some_iff`: what is read as a label
* `Form.readings_of_bare`: what a keyword without a label is read as
* `label_captures`: the labels that are captured, and keywords without a label
* `space_captured`: the label of a loop that is a space
-/

namespace SequenceDiagram

open Scan Statement

namespace Scan

variable {cs text label gap trail ending : List Char}

/-- Characters that are not missing and with no spaces around them. -/
structure IsTrimmed (label : List Char) : Prop where
  ne_nil : label ≠ []
  head : label.head? ≠ some ' '
  last : label.getLast? ≠ some ' '

/-- The end of a line, before which there may be a line feed. -/
def IsEnding (cs : List Char) : Prop := cs = [] ∨ cs = ['\n']

/-- Characters stand between spaces, at least one of which comes before them, up to the end of a
line. -/
def Spaced (label cs : List Char) : Prop :=
  ∃ gap trail ending, cs = gap ++ (label ++ (trail ++ ending)) ∧ gap ≠ [] ∧
    (∀ c ∈ gap, c = ' ') ∧ (∀ c ∈ trail, c = ' ') ∧ IsEnding ending

theorem isEnding_of_atEnd (h : atEnd cs = true) : IsEnding cs := by
  simpa [atEnd, IsEnding] using h

/-- Free text is what is left of a line without the line feed at its end. -/
theorem text?_eq_some_iff : text? cs = some text ↔
    '\n' ∉ text ∧ ∃ ending, IsEnding ending ∧ cs = text ++ ending := by
  constructor
  · intro h
    rw [text?] at h
    split at h
    · rename_i ha
      obtain rfl := Option.some.inj h
      refine ⟨fun hm => by simpa using List.mem_takeWhile_imp hm, _, isEnding_of_atEnd ha, ?_⟩
      rw [List.takeWhile_append_dropWhile]
    · simp at h
  · rintro ⟨hn, ending, he, rfl⟩
    have hc := forall_ne_of_notMem hn
    have hs : ∀ c ∈ ending.head?, decide (c ≠ '\n') = false := by
      rcases he with rfl | rfl <;> simp
    rw [text?, takeWhile_append_stop hc hs, dropWhile_append_stop hc hs]
    rcases he with rfl | rfl <;> rfl

theorem length_sub_spaces (cs : List Char) :
    cs.length - (spaces cs).length = (cs.takeWhile (· = ' ')).length := by
  have hl := congrArg List.length (takeWhile_append_spaces cs)
  rw [List.length_append] at hl
  omega

theorem getLast?_dropFinalSpaces (cs : List Char) : (dropFinalSpaces cs).getLast? ≠ some ' ' := by
  rw [dropFinalSpaces, List.getLast?_reverse]
  exact head?_spaces cs.reverse

/-- Spaces before what does not begin with a space. -/
theorem spaces_gap (hg : ∀ c ∈ gap, c = ' ') (hc : cs.head? ≠ some ' ') :
    spaces (gap ++ cs) = cs := by
  rw [spaces_append hg, spaces_of_head? hc]

/-- Of spaces and nothing else, one is the label if there is another one before it. -/
theorem label?_of_spaces (hg : ∀ c ∈ gap, c = ' ') (he : IsEnding ending) :
    label? (gap ++ ending) = if 2 ≤ gap.length then some [' '] else none := by
  have hs : spaces (gap ++ ending) = ending := by
    refine spaces_gap hg ?_
    rcases he with rfl | rfl <;> simp
  have ha : atEnd ending = true := by rcases he with rfl | rfl <;> rfl
  simp only [label?, hs, ha, List.length_append, Nat.add_sub_cancel, if_true]
  grind

/-- A label is read without the spaces around it. -/
theorem label?_of_isTrimmed (hne : gap ≠ []) (hg : ∀ c ∈ gap, c = ' ')
    (ht : ∀ c ∈ trail, c = ' ') (he : IsEnding ending) (hn : '\n' ∉ label)
    (hl : IsTrimmed label) : label? (gap ++ (label ++ (trail ++ ending))) = some label := by
  obtain ⟨c, cs, rfl⟩ := List.exists_cons_of_ne_nil hl.ne_nil
  have hhead : (c :: cs ++ (trail ++ ending)).head? ≠ some ' ' := hl.head
  have htext : text? (c :: cs ++ (trail ++ ending)) = some (c :: cs ++ trail) := by
    refine text?_eq_some_iff.2 ⟨?_, ending, he, (List.append_assoc ..).symm⟩
    rw [List.mem_append, not_or]
    exact ⟨hn, fun hm => absurd (ht _ hm) (by decide)⟩
  have ha : atEnd (c :: cs ++ (trail ++ ending)) = false := by
    have hc : c ≠ '\n' := fun hc => hn (hc ▸ List.mem_cons_self)
    simp [atEnd, hc]
  simp only [label?, spaces_gap hg hhead, htext, ha, List.length_append, Nat.add_sub_cancel]
  rw [if_neg (by simpa using hne)]
  exact congrArg some (dropFinalSpaces_append hl.last ht)

/-- What is read as a label where nothing but spaces stand. -/
theorem eq_space_of_label? (ha : atEnd (spaces cs) = true) (h : label? cs = some label) :
    Spaced label cs ∧ label = [' '] := by
  have hcs := takeWhile_append_spaces cs
  have hgap : ∀ c ∈ cs.takeWhile (· = ' '), c = ' ' := eq_space_of_mem_takeWhile
  have he := isEnding_of_atEnd ha
  generalize cs.takeWhile (· = ' ') = run at hcs hgap
  generalize spaces cs = ending at hcs he
  obtain rfl := hcs
  rw [label?_of_spaces hgap he] at h
  split at h
  · rename_i htwo
    obtain rfl := Option.some.inj h
    -- The label is the last one of the spaces.
    have hne : run ≠ [] := List.length_pos_iff.1 (by omega)
    obtain ⟨gap, c, rfl⟩ := (List.eq_nil_or_concat run).resolve_left hne
    rw [List.concat_eq_append, List.forall_mem_append] at hgap
    obtain ⟨hgap, hc⟩ := hgap
    obtain rfl := hc c List.mem_cons_self
    refine ⟨⟨gap, [], ending, by simp, ?_, hgap, by simp, he⟩, rfl⟩
    rintro rfl
    simp at htwo
  · simp at h

/-- What is read as a label where more than spaces stand. -/
theorem isTrimmed_of_label? (ha : ¬ atEnd (spaces cs) = true) (h : label? cs = some label) :
    Spaced label cs ∧ '\n' ∉ label ∧ IsTrimmed label := by
  have hcs := takeWhile_append_spaces cs
  have hgap : ∀ c ∈ cs.takeWhile (· = ' '), c = ' ' := eq_space_of_mem_takeWhile
  have hhead := head?_spaces cs
  simp only [label?, length_sub_spaces, if_neg ha] at h
  generalize cs.takeWhile (· = ' ') = gap at h hcs hgap
  generalize spaces cs = rest at h hcs hhead
  obtain rfl := hcs
  split at h
  · simp at h
  rename_i hne
  split at h
  · simp at h
  · rename_i text hnil htext
    obtain rfl := Option.some.inj h
    obtain ⟨hn, ending, he, rfl⟩ := text?_eq_some_iff.1 htext
    obtain ⟨trail, htrail, hsplit⟩ := exists_eq_dropFinalSpaces_append text
    have hlast := getLast?_dropFinalSpaces text
    generalize dropFinalSpaces text = label at hsplit hlast ⊢
    obtain rfl := hsplit
    refine ⟨⟨gap, trail, ending, by simp, by simpa using hne, hgap, htrail, he⟩,
      fun hm => hn (List.mem_append_left _ hm), ?_⟩
    -- The text does not begin with a space, so that not all of it is dropped.
    cases label with
    | nil =>
      cases trail with
      | nil => exact absurd rfl hnil
      | cons c trail =>
        obtain rfl := htrail c List.mem_cons_self
        simp at hhead
    | cons c label => exact ⟨by simp, by simpa using hhead, hlast⟩
  · simp at h

/-- **A label is read where it stands between spaces**, and has none around it. Where nothing but
spaces stand, a label is read as well, and it is a space. -/
theorem label?_eq_some_iff : label? cs = some label ↔
    Spaced label cs ∧ '\n' ∉ label ∧ (IsTrimmed label ∨ label = [' ']) := by
  constructor
  · intro h
    by_cases ha : atEnd (spaces cs) = true
    · obtain ⟨hs, rfl⟩ := eq_space_of_label? ha h
      exact ⟨hs, by simp, .inr rfl⟩
    · obtain ⟨hs, hn, ht⟩ := isTrimmed_of_label? ha h
      exact ⟨hs, hn, .inl ht⟩
  · rintro ⟨⟨gap, trail, ending, rfl, hne, hgap, htrail, he⟩, hn, hlabel | rfl⟩
    · exact label?_of_isTrimmed hne hgap htrail he hn hlabel
    · have hall : ∀ c ∈ gap ++ ' ' :: trail, c = ' ' := by
        simp only [List.forall_mem_append, List.forall_mem_cons]
        exact ⟨hgap, trivial, htrail⟩
      have hpos := List.length_pos_iff.2 hne
      have hlong : 2 ≤ (gap ++ ' ' :: trail).length := by
        simp only [List.length_append, List.length_cons]
        omega
      have hs := label?_of_spaces hall he
      rw [if_pos hlong] at hs
      simpa using hs

theorem Spaced.eq_space_or_newline (h : Spaced [' '] cs) : ∀ c ∈ cs, c = ' ' ∨ c = '\n' := by
  obtain ⟨gap, trail, ending, rfl, -, hgap, htrail, rfl | rfl⟩ := h <;> grind

/-- What comes first on a line behind its indentation, if it does not begin with a blank itself. -/
theorem blanks_eq_iff {w rest : List Char} (hw : ∃ c ∈ w.head?, c ≠ ' ' ∧ c ≠ '\t') :
    blanks cs = w ++ rest ↔
      ∃ indent, cs = indent ++ (w ++ rest) ∧ ∀ c ∈ indent, c = ' ' ∨ c = '\t' := by
  constructor
  · intro h
    refine ⟨cs.takeWhile fun c => c = ' ' || c = '\t', ?_, fun c hc => ?_⟩
    · rw [← h, blanks, List.takeWhile_append_dropWhile]
    · simpa using List.mem_takeWhile_imp hc
  · rintro ⟨indent, rfl, hi⟩
    obtain ⟨c, hc, hs, ht⟩ := hw
    obtain ⟨w, rfl⟩ := List.head?_eq_some_iff.1 hc
    rw [blanks_append hi]
    simp [blanks, hs, ht]

end Scan

namespace Form

variable {f : Form} {cs : List Char} {line : String}

/-- The forms that end in a label. -/
def labelForms : List Form := [openLoop, openAlternative, separator]

/-- A form that ends in a label reads the label behind its keyword. -/
theorem exists_readLabelled (hf : f ∈ labelForms) : ∃ s : String → Statement,
    (∀ cs, f.read? cs = readLabelled? f.keyword.toList s cs) ∧
      ∀ label, (s label).fields = [some label] ∧ ofStatement (s label) = f := by
  simp only [labelForms, List.mem_cons, List.not_mem_nil, or_false] at hf
  rcases hf with rfl | rfl | rfl
  · exact ⟨Statement.openLoop, fun _ => rfl, fun _ => ⟨rfl, rfl⟩⟩
  · exact ⟨Statement.openAlternative, fun _ => rfl, fun _ => ⟨rfl, rfl⟩⟩
  · exact ⟨Statement.separator, fun _ => rfl, fun _ => ⟨rfl, rfl⟩⟩

/-- A form that ends in a label captures what is read as a label behind its keyword. -/
theorem captures?_eq_some_iff (hf : f ∈ labelForms) {fields : List (Option String)} :
    f.captures? f.arity cs = some fields ↔ ∃ label : String, fields = [some label] ∧
      ∃ rest, blanks cs = f.keyword.toList ++ rest ∧ label? rest = some label.toList := by
  obtain ⟨s, hs, hfields⟩ := exists_readLabelled hf
  rw [captures?, if_pos rfl, hs, Option.map_eq_some_iff]
  constructor
  · rintro ⟨st, hst, rfl⟩
    obtain ⟨rest, hw, hst⟩ := Option.bind_eq_some_iff.1 hst
    obtain ⟨label, hl, hst⟩ := Option.bind_eq_some_iff.1 hst
    obtain rfl := Option.some.inj hst
    exact ⟨String.ofList label, (hfields _).1, rest, eq_append_of_word? hw, by simpa using hl⟩
  · rintro ⟨label, rfl, rest, hb, hl⟩
    refine ⟨s label, ?_, (hfields label).1⟩
    simp [readLabelled?, hb, hl]

theorem head?_keyword (hf : f ∈ labelForms) :
    ∃ c ∈ f.keyword.toList.head?, c ≠ ' ' ∧ c ≠ '\t' := by
  simp only [labelForms, List.mem_cons, List.not_mem_nil, or_false] at hf
  rcases hf with rfl | rfl | rfl <;> simp [keyword]

/-- A keyword without a label is read in its own form or in none. -/
theorem readings_of_bare (hf : f ∈ labelForms) (hs : stripped line.toList = f.keyword.toList) :
    readings table line = (f.read? line.toList).toList := by
  have hn : ∀ g, g ≠ f → g.read? line.toList = none := by
    intro g hg
    rw [Option.eq_none_iff_forall_ne_some]
    intro st hst
    have hmem : f ∈ closeParallel :: closeFrame :: labelForms :=
      List.mem_cons_of_mem _ (List.mem_cons_of_mem _ hf)
    exact hg (eq_of_read?_of_stripped hmem hs hst)
  clear hs
  simp only [labelForms, List.mem_cons, List.not_mem_nil, or_false] at hf
  rcases hf with rfl | rfl | rfl
  · cases hr : openLoop.read? line.toList <;> simp [readings, table, hn, hr]
  · cases hr : openAlternative.read? line.toList <;> simp [readings, table, hn, hr]
  · cases hr : separator.read? line.toList <;> simp [readings, table, hn, hr]

theorem getLast?_keyword (hf : f ∈ labelForms) : f.keyword.toList.getLast? ≠ some ' ' := by
  simp only [labelForms, List.mem_cons, List.not_mem_nil, or_false] at hf
  rcases hf with rfl | rfl | rfl <;> simp [keyword]

/-- **A keyword without a label** is a statement whose label is a space, if there are two spaces
or more behind it, and no statement otherwise. -/
theorem readings_bare {indent gap : List Char} (hf : f ∈ labelForms)
    (hline : line.toList = indent ++ (f.keyword.toList ++ gap))
    (hi : ∀ c ∈ indent, c = ' ' ∨ c = '\t') (hg : ∀ c ∈ gap, c = ' ') :
    ∃ st : Statement, ofStatement st = f ∧ st.fields = [some " "] ∧
      f.read? line.toList = (if 2 ≤ gap.length then some st else none) ∧
      readings table line = if 2 ≤ gap.length then [st] else [] := by
  have hb : blanks line.toList = f.keyword.toList ++ gap :=
    (blanks_eq_iff (head?_keyword hf)).2 ⟨indent, hline, hi⟩
  have hstripped : stripped line.toList = f.keyword.toList := by
    rw [stripped, hb, dropFinalSpaces_append (getLast?_keyword hf) hg]
  have hlabel : label? gap = if 2 ≤ gap.length then some [' '] else none := by
    simpa using label?_of_spaces hg (.inl rfl)
  obtain ⟨s, hs, hst⟩ := exists_readLabelled hf
  refine ⟨s " ", (hst " ").2, (hst " ").1, ?_⟩
  have hread : f.read? line.toList = if 2 ≤ gap.length then some (s " ") else none := by
    rw [hs, readLabelled?, hb, word?_append, Option.bind_eq_bind, Option.bind_some, hlabel]
    split <;> rfl
  refine ⟨hread, ?_⟩
  rw [readings_of_bare hf hstripped, hread]
  split <;> rfl

end Form

/-- **A captured label is a real one, unless it is a space.** A line is captured in the form of
loops, alternatives or separators exactly if a label stands between spaces behind the keyword. No
space is at its ends then, unless nothing but spaces follow the keyword: a keyword with fewer than
two of them behind it is read in no form at all, but with two or more it is taken as a statement
whose label is a space. -/
theorem label_captures {f : Form} (hf : f ∈ Form.labelForms) (line : String) :
    (∀ fields, f.captures? f.arity line.toList = some fields ↔
      ∃ label : String, fields = [some label] ∧ '\n' ∉ label.toList ∧
        ∃ indent rest, line.toList = indent ++ (f.keyword.toList ++ rest) ∧
          (∀ c ∈ indent, c = ' ' ∨ c = '\t') ∧ Spaced label.toList rest ∧
          (IsTrimmed label.toList ∨ label = " " ∧ ∀ c ∈ rest, c = ' ' ∨ c = '\n')) ∧
    ∀ indent gap, line.toList = indent ++ (f.keyword.toList ++ gap) →
      (∀ c ∈ indent, c = ' ' ∨ c = '\t') → (∀ c ∈ gap, c = ' ') →
      (gap.length < 2 → f.captures? f.arity line.toList = none ∧
        ∀ d : Diagram, d.readLine Form.table line = .skipped) ∧
      (2 ≤ gap.length → f.captures? f.arity line.toList = some [some " "] ∧
        ∃ st : Statement, Form.ofStatement st = f ∧ st.fields = [some " "] ∧
          ∀ d : Diagram, d.readLine Form.table line = d.react st) := by
  constructor
  · intro fields
    rw [Form.captures?_eq_some_iff hf]
    constructor
    · rintro ⟨label, rfl, rest, hb, hl⟩
      obtain ⟨indent, hline, hi⟩ := (blanks_eq_iff (Form.head?_keyword hf)).1 hb
      obtain ⟨hs, hn, ht⟩ := label?_eq_some_iff.1 hl
      refine ⟨label, rfl, hn, indent, rest, hline, hi, hs, ht.imp_right fun hsp => ?_⟩
      rw [hsp] at hs
      exact ⟨String.toList_inj.1 hsp, Spaced.eq_space_or_newline hs⟩
    · rintro ⟨label, rfl, hn, indent, rest, hline, hi, hs, ht⟩
      refine ⟨label, rfl, rest, (blanks_eq_iff (Form.head?_keyword hf)).2 ⟨indent, hline, hi⟩, ?_⟩
      exact label?_eq_some_iff.2 ⟨hs, hn, ht.imp_right fun h => congrArg String.toList h.1⟩
  · intro indent gap hline hi hg
    obtain ⟨st, hform, hfields, hread, hreadings⟩ := Form.readings_bare hf hline hi hg
    rw [Form.captures?, if_pos rfl, hread]
    constructor
    · intro hlt
      rw [if_neg (by omega)] at hreadings ⊢
      exact ⟨rfl, fun d => by rw [Diagram.readLine, hreadings, Diagram.reactFirst_nil]⟩
    · intro hle
      rw [if_pos hle] at hreadings ⊢
      refine ⟨congrArg some hfields, st, hform, hfields, fun d => ?_⟩
      simp [Diagram.readLine, hreadings]

/-- The keyword of a loop with two spaces behind it, and a separator with a label of two words. -/
theorem label_captures_space :
    (Form.openLoop ∈ Form.labelForms ∧ Form.separator ∈ Form.labelForms) ∧
    Form.openLoop.captures? 1 "loop  ".toList = some [some " "] ∧
    (∀ d : Diagram, d.readLine Form.table "loop  " = d.react (.openLoop " ")) ∧
    Form.separator.captures? 1 "\telse  so it is ".toList = some [some "so it is"] := by
  have hloop : Form.openLoop ∈ Form.labelForms := by decide
  have helse : Form.separator ∈ Form.labelForms := by decide
  obtain ⟨hcaptures, st, hform, hfields, hread⟩ :=
    ((label_captures hloop "loop  ").2 [] [' ', ' '] rfl (by simp) (by simp)).2 (by simp)
  obtain rfl : st = .openLoop " " := by
    cases st <;> simp_all [Form.ofStatement, Statement.fields]
  have hspaced : Spaced "so it is".toList "  so it is ".toList :=
    ⟨[' ', ' '], [' '], [], by simp, by simp, by simp, by simp, .inl rfl⟩
  refine ⟨⟨hloop, helse⟩, hcaptures, hread, ?_⟩
  exact ((label_captures helse "\telse  so it is ").1 _).2 ⟨"so it is", rfl, by simp, ['\t'],
    "  so it is ".toList, rfl, by simp, hspaced, .inl ⟨by simp, by simp, by simp⟩⟩

/-- A label that is captured may be a space, and a loop is opened with it. -/
theorem space_captured :
    (¬ ∀ f ∈ Form.labelForms, ∀ line label : String,
      f.captures? f.arity line.toList = some [some label] → IsTrimmed label.toList) ∧
    Diagram.empty.readLine Form.table "loop  " =
      .applied (Diagram.empty.openBlock (.framed "loop" " ")) := by
  constructor
  · intro h
    have ht := h .openLoop (by decide) "loop  " " " rfl
    exact ht.head rfl
  · rfl

end SequenceDiagram
