import Mathlib.Data.List.TakeWhile
import SequenceDiagram.Proofs.Statement.Keyword
import SequenceDiagram.Proofs.Text.Joining

/-!
# Written statements

Every statement can be written on a line in the form it is read in, if its fields hold nothing
that ends them early. In that form the line is read as the same statement again.

## Main definitions

* `Statement.written`: the line of a statement
* `IsName`, `IsText`, `IsLabel`, `IsQuotable`: fields that a line can hold
* `IsWord`: a name without a character that has a meaning of its own
* `Statement.IsWritable`: a statement whose fields a line can hold

## Main results

* `Statement.read?_written`: a line is read in the form of the statement it was written from
* `Statement.isLine_written`: a written statement is one line
-/

namespace SequenceDiagram

/-! ## Lines for statements -/

/-- A name that any statement can be written with. -/
structure IsName (name : String) : Prop where
  ne_empty : name ≠ ""
  space : ' ' ∉ name.toList
  tab : '\t' ∉ name.toList
  newline : '\n' ∉ name.toList
  quote : '"' ∉ name.toList
  colon : ':' ∉ name.toList
  dash : '-' ∉ name.toList
  less : '<' ∉ name.toList
  greater : '>' ∉ name.toList
  /-- The line of a message from the name would be that of a note. -/
  not_note : ¬ "stateover".toList <+: name.toList

/-- The characters that have a meaning of their own on a line. -/
def reserved : List Char := [' ', '\t', '\n', '"', ':', '-', '<', '>']

/-- A name without a character that has a meaning of its own, such as one of letters, digits and
underscores. -/
structure IsWord (name : String) : Prop where
  ne_empty : name ≠ ""
  plain : ∀ c ∈ name.toList, c ∉ reserved

theorem isWord_iff {name : String} :
    IsWord name ↔ (name != "" && name.toList.all fun c => !reserved.contains c) = true := by
  simp only [Bool.and_eq_true, bne_iff_ne, List.all_eq_true, Bool.not_eq_true',
    List.contains_eq_mem, decide_eq_false_iff_not]
  exact ⟨fun h => ⟨h.ne_empty, h.plain⟩, fun h => ⟨h.1, h.2⟩⟩

instance : DecidablePred IsWord := fun _ => decidable_of_iff _ isWord_iff.symm

/-- A text that can be written up to the end of a line. -/
structure IsText (text : String) : Prop extends Text.IsLine text where
  head : text.toList.head? ≠ some ' '

/-- A label that can be written behind a keyword. -/
structure IsLabel (label : String) : Prop extends IsText label where
  ne_empty : label ≠ ""
  space : label.toList.getLast? ≠ some ' '

/-- A field that can be written in quotes. -/
structure IsQuotable (field : String) : Prop where
  newline : '\n' ∉ field.toList
  quote : '"' ∉ field.toList

namespace Statement

/-- The arrow of a message. -/
def arrow (double dotted openHead : Bool) : String :=
  (if double then "<" else "") ++ (if dotted then "-->" else "->") ++ if openHead then ">" else ""

/-- The line of a statement. -/
def written : Statement → String
  | aliased label name => "participant \"" ++ label ++ "\" as \"" ++ name ++ "\""
  | participant name => "participant \"" ++ name ++ "\""
  | openParallel => "parallel \x7b"
  | closeParallel => "\x7d"
  | openOption => "opt"
  | openLoop label => "loop " ++ label
  | openAlternative condition => "alt " ++ condition
  | separator condition => "else " ++ condition
  | closeFrame => "end"
  | numberFrom numeral => "autonumber " ++ numeral
  | numberOff => "autonumber off"
  | state name text => "state over " ++ name ++ ": " ++ text
  | signal source double dotted openHead target text =>
    source ++ arrow double dotted openHead ++ target ++ ": " ++ text
  | comment => "#"
  | blank => ""

section Characters

variable (label name condition numeral text source target : String) (double dotted openHead : Bool)

theorem toList_written_aliased : (aliased label name).written.toList =
    "participant \"".toList ++ (label.toList ++ ("\" as \"".toList ++ (name.toList ++ ['"']))) := by
  show ("participant \"" ++ label ++ "\" as \"" ++ name ++ "\"").toList = _
  simp

theorem toList_written_participant : (participant name).written.toList =
    "participant \"".toList ++ (name.toList ++ ['"']) := by
  show ("participant \"" ++ name ++ "\"").toList = _
  simp

theorem toList_written_openLoop :
    (openLoop label).written.toList = "loop ".toList ++ label.toList := String.toList_append

theorem toList_written_openAlternative :
    (openAlternative condition).written.toList = "alt ".toList ++ condition.toList :=
  String.toList_append

theorem toList_written_separator :
    (separator condition).written.toList = "else ".toList ++ condition.toList :=
  String.toList_append

theorem toList_written_numberFrom :
    (numberFrom numeral).written.toList = "autonumber ".toList ++ numeral.toList :=
  String.toList_append

theorem toList_written_state : (state name text).written.toList =
    "state over ".toList ++ (name.toList ++ ':' :: ' ' :: text.toList) := by
  show ("state over " ++ name ++ ": " ++ text).toList = _
  simp

theorem toList_written_signal :
    (signal source double dotted openHead target text).written.toList =
      source.toList ++ ((arrow double dotted openHead).toList ++
        (target.toList ++ ':' :: ' ' :: text.toList)) := by
  show (source ++ arrow double dotted openHead ++ target ++ ": " ++ text).toList = _
  simp

end Characters

/-- The fields of a statement can be written on a line. -/
def IsWritable : Statement → Prop
  | aliased label name => IsQuotable label ∧ IsQuotable name
  | participant name => IsQuotable name
  | openLoop label => IsLabel label
  | openAlternative condition => IsLabel condition
  | separator condition => IsLabel condition
  | numberFrom numeral => numeral ≠ "" ∧ ∀ c ∈ numeral.toList, c.isDigit
  | state name text => IsName name ∧ IsText text
  | signal source _ _ _ target text => IsName source ∧ IsName target ∧ IsText text
  | openParallel | closeParallel | openOption | closeFrame | numberOff | comment | blank => True

end Statement

/-! ## Scanning what was written -/

namespace Scan

variable {cs : List Char}

theorem spaces_of_head? (h : cs.head? ≠ some ' ') : spaces cs = cs := by
  cases cs with
  | nil => rfl
  | cons c cs => simp_all [spaces]

theorem past_cons (c d : Char) (cs : List Char) :
    past c (d :: cs) = if d = c then cs else d :: cs := rfl

theorem past_of_head? {c : Char} (h : cs.head? ≠ some c) : past c cs = cs := by
  cases cs with
  | nil => rfl
  | cons d cs => simp_all [past]

@[simp] theorem spaces_cons_of_ne {c : Char} (h : c ≠ ' ') (cs : List Char) :
    spaces (c :: cs) = c :: cs := spaces_of_head? (by simpa using h)

@[simp] theorem spaces_cons_space (cs : List Char) : spaces (' ' :: cs) = spaces cs := rfl

theorem takeWhile_append_stop {p : Char → Bool} {t : List Char} (hc : ∀ c ∈ cs, p c = true)
    (ht : ∀ c ∈ t.head?, p c = false) : (cs ++ t).takeWhile p = cs := by
  rw [List.takeWhile_append_of_pos hc]
  cases t with
  | nil => simp
  | cons c t => simp [ht c rfl]

theorem dropWhile_append_stop {p : Char → Bool} {t : List Char} (hc : ∀ c ∈ cs, p c = true)
    (ht : ∀ c ∈ t.head?, p c = false) : (cs ++ t).dropWhile p = t := by
  rw [List.dropWhile_append_of_pos hc]
  cases t with
  | nil => rfl
  | cons c t => simp [ht c rfl]

theorem ne_of_mem {c d : Char} (h : c ∉ cs) (hd : d ∈ cs) : d ≠ c := by
  rintro rfl
  exact h hd

theorem forall_ne_of_notMem {c : Char} (h : c ∉ cs) : ∀ d ∈ cs, decide (d ≠ c) = true := by
  intro d hd
  rw [decide_eq_true_eq]
  exact ne_of_mem h hd

theorem text?_of_notMem (h : '\n' ∉ cs) : text? cs = some cs := by
  have hn := forall_ne_of_notMem h
  rw [text?, List.dropWhile_eq_nil_iff.2 hn, List.takeWhile_eq_self_iff.2 hn]
  rfl

theorem quotable?_written (h : '"' ∉ cs) : quotable? ('"' :: (cs ++ ['"'])) = some cs := by
  have hn := forall_ne_of_notMem h
  have hp : past '"' ('"' :: (cs ++ ['"'])) = cs ++ ['"'] := rfl
  rw [quotable?, hp, takeWhile_append_stop hn (by simp), dropWhile_append_stop hn (by simp)]
  rfl

theorem label?_written {label : String} (h : IsLabel label) :
    label? (' ' :: label.toList) = some label.toList := by
  have hs : spaces (' ' :: label.toList) = label.toList := spaces_of_head? h.head
  have he : atEnd label.toList = false := by
    rw [Bool.eq_false_iff, Ne, atEnd_iff h.newline]
    simpa using h.ne_empty
  have hd : dropFinalSpaces label.toList = label.toList := by
    have hnil : ∀ c ∈ ([] : List Char), c = ' ' := by simp
    simpa using dropFinalSpaces_append h.space hnil
  rw [label?, hs, text?_of_notMem h.newline]
  cases hl : label.toList with
  | nil => simp [hl, atEnd] at he
  | cons c cs => simp [← hl, he, hd]

end Scan

namespace IsWord

variable {name : String}

theorem notMem (h : IsWord name) {c : Char} (hc : c ∈ reserved) : c ∉ name.toList :=
  fun hm => h.plain c hm hc

theorem isNameChar (h : IsWord name) : ∀ c ∈ name.toList, Statement.isNameChar c = true := by
  intro c hc
  have hk : c ≠ ':' := Scan.ne_of_mem (h.notMem (by decide)) hc
  have hs : c ≠ ' ' := Scan.ne_of_mem (h.notMem (by decide)) hc
  simp [Statement.isNameChar, hk, hs]

theorem isSourceChar (h : IsWord name) : ∀ c ∈ name.toList, Statement.isSourceChar c = true := by
  intro c hc
  have hd : c ≠ '-' := Scan.ne_of_mem (h.notMem (by decide)) hc
  have hs : c ≠ ' ' := Scan.ne_of_mem (h.notMem (by decide)) hc
  have hl : c ≠ '<' := Scan.ne_of_mem (h.notMem (by decide)) hc
  simp [Statement.isSourceChar, hd, hs, hl]

/-- What begins with a name does not begin with a character that the name does not hold. -/
theorem head?_append (h : IsWord name) {d : Char} (hd : d ∉ name.toList) (rest : List Char) :
    (name.toList ++ rest).head? ≠ some d := by
  intro hh
  cases hn : name.toList with
  | nil =>
    apply h.ne_empty
    simpa using hn
  | cons c cs =>
    rw [hn] at hh hd
    apply hd
    rw [← Option.some.inj hh]
    exact List.mem_cons_self

/-- A line that begins with a name is not indented. -/
theorem blanks_append (h : IsWord name) (rest : List Char) :
    Scan.blanks (name.toList ++ rest) = name.toList ++ rest := by
  have hs := h.head?_append (h.notMem (c := ' ') (by decide)) rest
  have ht := h.head?_append (h.notMem (c := '\t') (by decide)) rest
  cases hl : name.toList ++ rest with
  | nil => rfl
  | cons c cs => simp_all [Scan.blanks]

end IsWord

theorem IsName.isWord {name : String} (h : IsName name) : IsWord name where
  ne_empty := h.ne_empty
  plain := by
    intro c hc hr
    simp only [reserved, List.mem_cons, List.not_mem_nil, or_false] at hr
    rcases hr with rfl | rfl | rfl | rfl | rfl | rfl | rfl | rfl
    · exact h.space hc
    · exact h.tab hc
    · exact h.newline hc
    · exact h.quote hc
    · exact h.colon hc
    · exact h.dash hc
    · exact h.less hc
    · exact h.greater hc

/-! ## Reading what was written -/

namespace Statement

open Scan

theorem readNamedText?_append {name text : List Char} (hn : ∀ c ∈ name, isNameChar c = true)
    (ht : '\n' ∉ text) (hh : text.head? ≠ some ' ') :
    readNamedText? (name ++ ':' :: ' ' :: text) = some (name, text) := by
  have hs : spaces (name ++ ':' :: ' ' :: text) = name ++ ':' :: ' ' :: text := by
    apply spaces_of_head?
    cases name with
    | nil => simp
    | cons c name =>
      have hc := hn c List.mem_cons_self
      rintro ⟨⟩
      simp [isNameChar] at hc
  have htake := takeWhile_append_stop (t := ':' :: ' ' :: text) hn (by simp [isNameChar])
  have hdrop := dropWhile_append_stop (t := ':' :: ' ' :: text) hn (by simp [isNameChar])
  have hc : spaces (':' :: ' ' :: text) = ':' :: ' ' :: text := rfl
  have hx : spaces (' ' :: text) = text := spaces_of_head? hh
  simp [readNamedText?, hs, htake, hdrop, hc, word?, hx, text?_of_notMem ht]

/-- The place of a message where its arrow begins. -/
theorem isSourceChar_arrow (double dotted openHead : Bool) (rest : List Char) :
    ∀ c ∈ ((arrow double dotted openHead).toList ++ rest).head?, isSourceChar c = false := by
  cases double <;> cases dotted <;> simp [arrow, isSourceChar]

theorem readSignal?_written {source target text : String} (hs : IsWord source)
    (ht : IsWord target) (hx : '\n' ∉ text.toList) (hx' : text.toList.head? ≠ some ' ')
    (double dotted openHead : Bool) :
    readSignal? (signal source double dotted openHead target text).written.toList =
      some (signal source double dotted openHead target text) := by
  have hstop := isSourceChar_arrow double dotted openHead
    (target.toList ++ ':' :: ' ' :: text.toList)
  have hb := hs.blanks_append ((arrow double dotted openHead).toList ++
    (target.toList ++ ':' :: ' ' :: text.toList))
  have htake := takeWhile_append_stop hs.isSourceChar hstop
  have hdrop := dropWhile_append_stop hs.isSourceChar hstop
  -- Behind the arrow stands a name, so that no part of the arrow is left or comes twice.
  have hh := ht.head?_append (ht.notMem (c := '>') (by decide)) (':' :: ' ' :: text.toList)
  have hp := past_of_head? hh
  have hn := readNamedText?_append ht.isNameChar hx hx'
  simp only [readSignal?, toList_written_signal]
  rw [hb, htake, hdrop]
  clear hstop hb htake hdrop
  -- For each of the eight arrows the rest of the reader runs on its characters.
  generalize target.toList ++ ':' :: ' ' :: text.toList = rest at *
  cases double <;> cases dotted <;> cases openHead <;>
    simp [arrow, spaces, past_cons, readShaft?, word?, hh, hp, hn]

theorem readAliased?_written {label name : String} (hl : IsQuotable label)
    (hn : IsQuotable name) :
    readAliased? (aliased label name).written.toList = some (aliased label name) := by
  have hq := quotable?_written hn.quote
  have hc := forall_ne_of_notMem hl.quote
  -- The label ends at the first quote, which is the one behind it.
  have htake := takeWhile_append_stop hc
    (t := "\" as \"".toList ++ (name.toList ++ ['"'])) (by simp)
  have hdrop := dropWhile_append_stop hc
    (t := "\" as \"".toList ++ (name.toList ++ ['"'])) (by simp)
  simp only [String.reduceToList, List.cons_append, List.nil_append, ne_eq, decide_not]
    at htake hdrop
  simp [readAliased?, toList_written_aliased, blanks, word?, hdrop, htake, hq]

theorem readParticipant?_written {name : String} (hn : IsQuotable name) :
    readParticipant? (participant name).written.toList = some (participant name) := by
  have hq := quotable?_written hn.quote
  simp [readParticipant?, toList_written_participant, blanks, word?, hq]

theorem readLabelled?_written {w label : String} {line : List Char} (s : String → Statement)
    (hw : blanks line = w.toList ++ ' ' :: label.toList) (hl : IsLabel label) :
    readLabelled? w.toList s line = some (s label) := by
  simp [readLabelled?, hw, label?_written hl]

theorem readNumberFrom?_written {numeral : String} (hne : numeral ≠ "")
    (hd : ∀ c ∈ numeral.toList, c.isDigit) :
    readNumberFrom? (numberFrom numeral).written.toList = some (numberFrom numeral) := by
  have htake := List.takeWhile_eq_self_iff.2 hd
  have hdrop := List.dropWhile_eq_nil_iff.2 hd
  have hb : blanks (numberFrom numeral).written.toList =
      "autonumber".toList ++ ' ' :: numeral.toList := by
    simp [toList_written_numberFrom, blanks]
  have hs : spaces (' ' :: numeral.toList) = numeral.toList := by
    rw [spaces_cons_space]
    apply spaces_of_head?
    intro hh
    have hc := hd ' ' (List.mem_of_head? hh)
    simp [Char.isDigit] at hc
  have hnil : numeral.toList ≠ [] := by simpa using hne
  rw [readNumberFrom?, hb, word?_append]
  simp only [Option.bind_eq_bind, Option.bind_some, hs, htake, hdrop]
  rw [if_pos ⟨hnil, rfl⟩, String.ofList_toList]

theorem readState?_written {name text : String} (hn : IsName name) (ht : IsText text) :
    readState? (state name text).written.toList = some (state name text) := by
  have hr := readNamedText?_append hn.isWord.isNameChar ht.newline ht.head
  have hs : readNamedText? (' ' :: (name.toList ++ ':' :: ' ' :: text.toList)) =
      readNamedText? (name.toList ++ ':' :: ' ' :: text.toList) := rfl
  simp [readState?, toList_written_state, blanks, word?, spaces, hs, hr]

/-- **A written statement is read in its form.** -/
theorem read?_written {st : Statement} (h : st.IsWritable) :
    (Form.ofStatement st).read? st.written.toList = some st := by
  cases st with
  | aliased label name => exact readAliased?_written h.1 h.2
  | participant name => exact readParticipant?_written h
  | openLoop label =>
    refine readLabelled?_written openLoop ?_ h
    simp [toList_written_openLoop, blanks]
  | openAlternative condition =>
    refine readLabelled?_written openAlternative ?_ h
    simp [toList_written_openAlternative, blanks]
  | separator condition =>
    refine readLabelled?_written separator ?_ h
    simp [toList_written_separator, blanks]
  | numberFrom numeral => exact readNumberFrom?_written h.1 h.2
  | state name text => exact readState?_written h.1 h.2
  | signal source double dotted openHead target text =>
    obtain ⟨hs, ht, hx⟩ := h
    exact readSignal?_written hs.isWord ht.isWord hx.newline hx.head double dotted openHead
  | _ => decide

theorem newline_notMem_arrow (double dotted openHead : Bool) :
    '\n' ∉ (arrow double dotted openHead).toList := by
  cases double <;> cases dotted <;> cases openHead <;> simp [arrow]

/-- A written statement is one line. -/
theorem isLine_written {st : Statement} (h : st.IsWritable) : Text.IsLine st.written := by
  cases st with
  -- A field in quotes ends with its quote, every other field with a character of its own or with
  -- the space before it.
  | aliased label name =>
    constructor
    · simp [toList_written_aliased, h.1.newline, h.2.newline]
    · simp [toList_written_aliased, List.getLast?_cons]
  | participant name =>
    have hn : '\n' ∉ name.toList := IsQuotable.newline h
    constructor
    · simp [toList_written_participant, hn]
    · simp [toList_written_participant, List.getLast?_cons]
  | openLoop label =>
    have hl : IsLabel label := h
    exact Text.IsLine.append (a := "loop ") ⟨by simp, by simp⟩ hl.toIsLine
  | openAlternative c =>
    have hc : IsLabel c := h
    exact Text.IsLine.append (a := "alt ") ⟨by simp, by simp⟩ hc.toIsLine
  | separator c =>
    have hc : IsLabel c := h
    exact Text.IsLine.append (a := "else ") ⟨by simp, by simp⟩ hc.toIsLine
  | numberFrom numeral =>
    have hd : Text.IsLine numeral := by
      constructor
      · intro hm
        have hc := h.2 '\n' hm
        simp [Char.isDigit] at hc
      · intro hm
        have hc := h.2 '\r' (List.mem_of_getLast? hm)
        simp [Char.isDigit] at hc
    exact Text.IsLine.append (a := "autonumber ") ⟨by simp, by simp⟩ hd
  | state name text =>
    refine Text.IsLine.append (a := "state over " ++ name ++ ": ")
      ⟨?_, by simp [List.getLast?_cons]⟩ h.2.toIsLine
    simp [h.1.newline]
  | signal source double dotted openHead target text =>
    obtain ⟨hs, ht, hx⟩ := h
    refine Text.IsLine.append (a := source ++ arrow double dotted openHead ++ target ++ ": ")
      ⟨?_, by simp⟩ hx.toIsLine
    simp [hs.newline, ht.newline, newline_notMem_arrow]
  | _ => exact ⟨by decide, by decide⟩

end Statement

end SequenceDiagram
