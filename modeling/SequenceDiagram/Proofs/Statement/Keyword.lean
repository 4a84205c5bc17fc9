import Mathlib.Data.List.TakeWhile
import SequenceDiagram.Statement.Form

/-!
# Keywords

Most forms of statement begin with a word of their own, so a line that begins with another word
does not fit them. A brace or the word `end` that stands alone on its line fits one form only, and
so does a keyword without its label.

## Main definitions

* `Form.keyword`: the word that a line in a form begins with
* `Scan.stripped`: a line without its indentation and the spaces at its end

## Main results

* `Form.keyword_prefix_of_read?`: a line in a form begins with the word of the form
* `Statement.readWord?_eq_some_iff`: a word stands alone on its line
* `Form.eq_of_read?_of_stripped`: a keyword that stands alone fits no other form than its own
* `mem_readings_iff`: the readings of a line in all forms
-/

namespace SequenceDiagram

namespace Scan

/-! ## Runs of spaces -/

/-- A line without the spaces and tabs before it and the spaces after it. -/
def stripped (cs : List Char) : List Char := dropFinalSpaces (blanks cs)

theorem spaces_eq_nil_iff {cs : List Char} : spaces cs = [] ↔ ∀ c ∈ cs, c = ' ' := by
  simp [spaces, List.dropWhile_eq_nil_iff]

/-- Spaces at the end are dropped, and nothing else is. -/
theorem exists_eq_dropFinalSpaces_append (cs : List Char) :
    ∃ sp, (∀ c ∈ sp, c = ' ') ∧ cs = dropFinalSpaces cs ++ sp := by
  refine ⟨(cs.reverse.takeWhile (· = ' ')).reverse, ?_, ?_⟩
  · intro c hc
    have ht := List.all_eq_true.1 (List.all_takeWhile (p := (· = ' ')) (l := cs.reverse)) c
      (List.mem_reverse.1 hc)
    simpa using ht
  · rw [dropFinalSpaces, ← List.reverse_append, List.takeWhile_append_dropWhile,
      List.reverse_reverse]

theorem dropFinalSpaces_append {cs sp : List Char} (hc : cs.getLast? ≠ some ' ')
    (hs : ∀ c ∈ sp, c = ' ') : dropFinalSpaces (cs ++ sp) = cs := by
  have hd : cs.reverse.dropWhile (· = ' ') = cs.reverse := by
    rw [← List.head?_reverse] at hc
    cases h : cs.reverse with
    | nil => rfl
    | cons c l => simp_all
  rw [dropFinalSpaces, List.reverse_append, List.dropWhile_append_of_pos (by simpa using hs), hd,
    List.reverse_reverse]

theorem atEnd_iff {cs : List Char} (hn : '\n' ∉ cs) : atEnd cs = true ↔ cs = [] := by
  have : cs ≠ ['\n'] := fun h => hn (by simp [h])
  simp [atEnd, this]

theorem blanks_sublist (cs : List Char) : (blanks cs).Sublist cs := List.dropWhile_sublist _

end Scan

namespace Statement

open Scan

/-- A word that stands alone on its line, between spaces. -/
theorem readWord?_eq_some_iff {w line : List Char} {s t : Statement} (hn : '\n' ∉ line)
    (hw : w.getLast? ≠ some ' ') :
    readWord? w s line = some t ↔ stripped line = w ∧ s = t := by
  have hn' : '\n' ∉ blanks line := fun h => hn ((blanks_sublist line).mem h)
  constructor
  · -- What follows the word is spaces up to the end, as there is no line feed.
    intro h
    obtain ⟨rest, hr, he⟩ := Option.bind_eq_some_iff.1 h
    have hb : blanks line = w ++ rest := eq_append_of_word? hr
    split at he
    · rename_i ha
      have hrest : '\n' ∉ spaces rest := fun h =>
        hn' (hb ▸ List.mem_append_right _ ((List.dropWhile_sublist _).mem h))
      rw [atEnd_iff hrest, spaces_eq_nil_iff] at ha
      exact ⟨by rw [stripped, hb, dropFinalSpaces_append hw ha], Option.some.inj he⟩
    · simp at he
  · rintro ⟨hs, rfl⟩
    obtain ⟨sp, hsp, hb⟩ := exists_eq_dropFinalSpaces_append (blanks line)
    rw [show dropFinalSpaces (blanks line) = w from hs] at hb
    have ha : atEnd (spaces sp) = true := by
      rw [spaces_eq_nil_iff.2 hsp]
      rfl
    simp [readWord?, hb, ha]

end Statement

namespace Form

open Scan Statement

/-- The word that a line in a form begins with, after its indentation. -/
def keyword : Form → String
  | aliased | participant => "participant"
  | openParallel => "parallel"
  | closeParallel => "\x7d"
  | openOption => "opt"
  | openLoop => "loop"
  | openAlternative => "alt"
  | separator => "else"
  | closeFrame => "end"
  | numberFrom | numberOff => "autonumber"
  | state => "state"
  | signal | comment | blank => ""

theorem prefix_of_word?_bind {α : Type} {w cs : List Char} {k : List Char → Option α} {a : α}
    (h : (word? w cs).bind k = some a) : w <+: cs := by
  obtain ⟨rest, hr, -⟩ := Option.bind_eq_some_iff.1 h
  exact ⟨rest, (eq_append_of_word? hr).symm⟩

/-- A line in a form begins with the word of the form. -/
theorem keyword_prefix_of_read? {f : Form} {cs : List Char} {s : Statement}
    (h : f.read? cs = some s) : f.keyword.toList <+: blanks cs := by
  cases f with
  | signal | comment | blank => exact List.nil_prefix
  | _ => exact prefix_of_word?_bind h

theorem mem_table (f : Form) : f ∈ table := by
  cases f <;> simp [table]

/-- A line that is a word of name characters and spaces is no message. -/
theorem readSignal?_of_blanks {cs w sp : List Char} (hb : blanks cs = w ++ sp)
    (hw : ∀ c ∈ w, isSourceChar c) (hs : ∀ c ∈ sp, c = ' ') : readSignal? cs = none := by
  -- The word is the source and the line is over where an arrow is expected.
  have hsp : sp.dropWhile isSourceChar = sp := by
    cases sp with
    | nil => rfl
    | cons c sp => simp [hs c List.mem_cons_self, isSourceChar]
  have hd : spaces ((blanks cs).dropWhile isSourceChar) = [] := by
    rw [hb, List.dropWhile_append_of_pos hw, hsp, spaces_eq_nil_iff]
    exact hs
  simp [readSignal?, hd, past, readShaft?, word?]

/-- A closing, or a keyword that goes with a label, fits no other form where it stands alone on its
line. -/
theorem eq_of_read?_of_stripped {f g : Form} {cs : List Char} {s : Statement}
    (hg : g ∈ [closeParallel, closeFrame, openLoop, openAlternative, separator])
    (hs : stripped cs = g.keyword.toList) (h : f.read? cs = some s) : f = g := by
  simp only [List.mem_cons, List.not_mem_nil, or_false] at hg
  obtain ⟨sp, hsp, hb⟩ := exists_eq_dropFinalSpaces_append (blanks cs)
  rw [show dropFinalSpaces (blanks cs) = g.keyword.toList from hs] at hb
  have hk := keyword_prefix_of_read? h
  rw [hb] at hk
  -- A form with a word of its own is told by the word, so that three forms are left.
  cases f with
  | signal =>
    have hw : ∀ c ∈ g.keyword.toList, isSourceChar c = true := by
      rcases hg with rfl | rfl | rfl | rfl | rfl <;> simp [keyword, isSourceChar]
    have hn := readSignal?_of_blanks hb hw hsp
    rw [read?, hn] at h
    simp at h
  | comment =>
    obtain ⟨rest, hr, -⟩ := Option.bind_eq_some_iff.1 h
    rw [eq_append_of_word? hr] at hb
    rcases hg with rfl | rfl | rfl | rfl | rfl <;> simp [keyword, blanks] at hb
  | blank =>
    simp only [read?, readBlank?] at h
    split at h
    · rename_i ha
      rw [hb] at ha
      rcases hg with rfl | rfl | rfl | rfl | rfl <;> simp [keyword, atEnd] at ha
    · simp at h
  | _ => rcases hg with rfl | rfl | rfl | rfl | rfl <;> simp_all [keyword]

end Form

/-- The readings of a line in all forms. -/
theorem mem_readings_iff {line : String} {s : Statement} :
    s ∈ readings Form.table line ↔ ∃ f : Form, f.read? line.toList = some s := by
  simp [readings, Form.mem_table]

end SequenceDiagram
