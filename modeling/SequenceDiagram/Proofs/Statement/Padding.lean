import SequenceDiagram.Proofs.Statement.Overlap
import SequenceDiagram.Proofs.Statement.Written

/-!
# Spaces around a line

Every form but that of comments begins with a run of spaces and tabs, so that such a form reads an
indented line as it reads the line. The forms that begin with a keyword end with a run of spaces,
apart from the two that declare a participant: their name runs up to the end of the line, and a
quote that closes it has to be the last character. So spaces behind a declaration belong to its
name, unless nothing but spaces stands where the name is expected.

## Main definitions

* `Form.keywordForms`: the forms of keyword statements
* `Statement.declared?`: the name that a statement declares
* `Statement.renamed`: a declaration with more characters in its name

## Main results

* `Form.read?_indented`: what an indented line is read as
* `Form.read?_padded_of_not_declaration`: spaces behind other keyword statements than declarations
* `Form.read?_padded_iff`: when spaces behind a keyword statement do not matter, and what they do
  where they matter
-/

namespace SequenceDiagram

open Scan Statement

variable {cs rest p : List Char}

/-! ## Indentation -/

theorem Scan.blanks_append {indent : List Char} (hi : ∀ c ∈ indent, c = ' ' ∨ c = '\t')
    (cs : List Char) : blanks (indent ++ cs) = blanks cs :=
  List.dropWhile_append_of_pos (by simpa using hi)

namespace Form

variable {indent : List Char}

/-- **Every form but that of comments** reads an indented line as it reads the line. -/
theorem read?_indented {f : Form} (hf : f ≠ comment) (hi : ∀ c ∈ indent, c = ' ' ∨ c = '\t') :
    f.read? (indent ++ cs) = f.read? cs := by
  have hb := blanks_append hi cs
  cases f with
  | comment => exact absurd rfl hf
  | _ =>
    simp only [read?, readAliased?, readParticipant?, readOpenParallel?, readWord?, readLabelled?,
      readNumberFrom?, readNumberOff?, readState?, readSignal?, readBlank?, hb]

/-- An indented line is no comment. -/
theorem read?_comment_indented (hne : indent ≠ []) (hi : ∀ c ∈ indent, c = ' ' ∨ c = '\t') :
    comment.read? (indent ++ cs) = none := by
  cases indent with
  | nil => exact absurd rfl hne
  | cons c indent =>
    have hc : c ≠ '#' := by
      rintro rfl
      simpa using hi '#' List.mem_cons_self
    simp [read?, readComment?, word?, hc]

end Form

/-! ## Scanning a line with spaces behind it -/

namespace Scan

variable {q : Char → Bool} {w label : List Char}

theorem dropWhile_padded (h : cs.dropWhile q ≠ []) :
    (cs ++ p).dropWhile q = cs.dropWhile q ++ p := by
  simp [List.dropWhile_append, h]

theorem takeWhile_padded (h : cs.dropWhile q ≠ []) : (cs ++ p).takeWhile q = cs.takeWhile q := by
  have hl : (cs.takeWhile q).length ≠ cs.length := by
    have hc := congrArg List.length (List.takeWhile_append_dropWhile (p := q) (l := cs))
    have hd := List.length_pos_iff.2 h
    rw [List.length_append] at hc
    omega
  rw [List.takeWhile_append, if_neg hl]

theorem ne_nil_of_word? (hw : w ≠ []) (h : word? w cs = some rest) : cs ≠ [] := by
  rw [eq_append_of_word? h]
  simp [hw]

/-- A word that stands behind a run stands there with more behind it, too. -/
theorem word?_padded (hw : w ≠ []) (h : word? w (cs.dropWhile q) = some rest) :
    word? w ((cs ++ p).dropWhile q) = some (rest ++ p) := by
  rw [dropWhile_padded (ne_nil_of_word? hw h), eq_append_of_word? h, List.append_assoc,
    word?_append]

theorem getLast?_of_suffix {t : List Char} (ht : t ≠ []) (h : t <:+ cs) :
    cs.getLast? = t.getLast? := by
  obtain ⟨s, rfl⟩ := h
  simp [List.getLast?_append, List.getLast?_eq_some_getLast ht]

/-- What stands behind a run is the end of the line. -/
theorem suffix_of_word? (h : word? w (cs.dropWhile q) = some rest) : w ++ rest <:+ cs :=
  eq_append_of_word? h ▸ List.dropWhile_suffix q

/-- The label of a keyword that is not followed by spaces only. -/
theorem label?_of_spaces_ne_nil (hn : '\n' ∉ cs) (hs : spaces cs ≠ []) :
    label? cs = if cs.length - (spaces cs).length = 0 then none
      else some (dropFinalSpaces (spaces cs)) := by
  have hn' : '\n' ∉ spaces cs := fun hm => hn (mem_of_mem_dropWhile hm)
  have ha : ¬ atEnd (spaces cs) = true := by rwa [atEnd_iff hn']
  simp only [label?, if_neg ha, text?_of_notMem hn']

variable (hp : ∀ c ∈ p, c = ' ')
include hp

theorem notMem_padded {c : Char} (hc : c ≠ ' ') (hn : c ∉ cs) : c ∉ cs ++ p := by
  rw [List.mem_append, not_or]
  exact ⟨hn, fun hm => hc (hp c hm)⟩

theorem spaces_padded_of_eq_nil (h : spaces cs = []) : spaces (cs ++ p) = [] := by
  rw [spaces_eq_nil_iff] at h ⊢
  intro c hc
  exact (List.mem_append.1 hc).elim (h c) (hp c)

/-- The end of a line is one with spaces before it, too. -/
theorem atEnd_padded (hn : '\n' ∉ cs) (h : atEnd (spaces cs) = true) :
    atEnd (spaces (cs ++ p)) = true := by
  have hs : '\n' ∉ spaces cs := fun hm => hn (mem_of_mem_dropWhile hm)
  rw [spaces_padded_of_eq_nil hp ((atEnd_iff hs).1 h)]
  rfl

theorem dropFinalSpaces_padded (cs : List Char) :
    dropFinalSpaces (cs ++ p) = dropFinalSpaces cs := by
  rw [dropFinalSpaces, List.reverse_append, List.dropWhile_append_of_pos (by simpa using hp)]
  rfl

/-- The digits of a numeral end where the spaces behind them begin. -/
theorem digits_padded (cs : List Char) :
    (cs ++ p).takeWhile Char.isDigit = cs.takeWhile Char.isDigit ∧
      (cs ++ p).dropWhile Char.isDigit = cs.dropWhile Char.isDigit ++ p := by
  induction cs with
  | nil =>
    cases p with
    | nil => simp
    | cons c p =>
      obtain rfl := hp c List.mem_cons_self
      simp [Char.isDigit]
  | cons c cs ih => cases hc : c.isDigit <;> simp [hc, ih]

/-- Of a label the spaces at the end are dropped. -/
theorem label?_padded (hn : '\n' ∉ cs) (h : label? cs = some label) :
    label? (cs ++ p) = some label := by
  by_cases hs : spaces cs = []
  · -- The keyword is followed by spaces only, two at least.
    simp only [label?, hs, spaces_padded_of_eq_nil hp hs, List.length_append] at h ⊢
    grind
  · have hd : spaces (cs ++ p) = spaces cs ++ p := dropWhile_padded hs
    have hsp : spaces (cs ++ p) ≠ [] := by simp [hd, hs]
    have hl : (cs ++ p).length - (spaces cs ++ p).length = cs.length - (spaces cs).length := by
      simp only [List.length_append]
      omega
    rw [label?_of_spaces_ne_nil hn hs] at h
    rw [label?_of_spaces_ne_nil (notMem_padded hp (by decide) hn) hsp, hd, hl,
      dropFinalSpaces_padded hp, h]

end Scan

/-! ## Names with spaces behind them -/

namespace Scan

variable {name : List Char}

theorem past_eq_nil_iff {c : Char} : past c cs = [] ↔ cs = [] ∨ cs = [c] := by
  cases cs with
  | nil => simp [past]
  | cons d cs => by_cases hd : d = c <;> simp [past, hd]

theorem past_suffix {c : Char} : past c cs <:+ cs := by
  cases cs with
  | nil => exact List.suffix_rfl
  | cons d cs =>
    rw [past_cons]
    split
    · exact List.suffix_cons d cs
    · exact List.suffix_rfl

theorem past_padded {c : Char} (h : cs ≠ []) : past c (cs ++ p) = past c cs ++ p := by
  cases cs with
  | nil => exact absurd rfl h
  | cons d cs => by_cases hd : d = c <;> simp [past, hd]

/-- A name is what stands between two quotes, each of which may be missing. -/
theorem quotable?_eq_some_iff (hn : '\n' ∉ cs) : quotable? cs = some name ↔
    '"' ∉ name ∧ (past '"' cs = name ∨ past '"' cs = name ++ ['"']) := by
  have hbody : '\n' ∉ past '"' cs := fun hm => hn (mem_of_mem_past hm)
  rw [quotable?]
  generalize past '"' cs = body at hbody ⊢
  constructor
  · intro h
    have hq : '"' ∉ body.takeWhile (· ≠ '"') := fun hm => by
      simpa using List.mem_takeWhile_imp hm
    have hsplit := List.takeWhile_append_dropWhile (p := (· ≠ '"')) (l := body)
    split at h
    · rename_i ha
      obtain rfl := Option.some.inj h
      rw [atEnd_iff fun hm => hbody (mem_of_mem_dropWhile (mem_of_mem_past hm)),
        past_eq_nil_iff] at ha
      refine ⟨hq, ha.imp (fun he => ?_) fun he => ?_⟩
      · rw [he, List.append_nil] at hsplit
        exact hsplit.symm
      · rw [he] at hsplit
        exact hsplit.symm
    · simp at h
  · rintro ⟨hq, rfl | rfl⟩
    · have hc := forall_ne_of_notMem hq
      rw [List.dropWhile_eq_nil_iff.2 hc, List.takeWhile_eq_self_iff.2 hc]
      rfl
    · have hc := forall_ne_of_notMem hq
      rw [takeWhile_append_stop hc (by simp), dropWhile_append_stop hc (by simp)]
      rfl

variable (hp : ∀ c ∈ p, c = ' ')
include hp

theorem quotable?_padded_of_open (hn : '\n' ∉ cs) (hne : cs ≠ []) (hq : '"' ∉ name)
    (hbody : past '"' cs = name) : quotable? (cs ++ p) = some (name ++ p) := by
  rw [quotable?_eq_some_iff (notMem_padded hp (by decide) hn), past_padded hne, hbody]
  exact ⟨notMem_padded hp (by decide) hq, .inl rfl⟩

theorem quotable?_padded_of_closed (hn : '\n' ∉ cs) (hne : cs ≠ []) (hpne : p ≠ [])
    (hbody : past '"' cs = name ++ ['"']) : quotable? (cs ++ p) = none := by
  rw [Option.eq_none_iff_forall_ne_some]
  intro name' hr
  rw [quotable?_eq_some_iff (notMem_padded hp (by decide) hn), past_padded hne, hbody] at hr
  obtain ⟨hq, he | he⟩ := hr
  · exact hq (by simp [← he])
  · -- The line ends with a space and not with the quote.
    obtain ⟨t, c, rfl⟩ := (List.eq_nil_or_concat p).resolve_left hpne
    obtain rfl := hp c (by simp)
    have hc := congrArg List.getLast? he
    simp [List.getLast?_cons] at hc

/-- **Spaces behind a name** belong to it, unless the name is closed by a quote, behind which they
must not stand, or nothing but spaces stands for the name. -/
theorem quotable?_padded (hn : '\n' ∉ cs) (h : quotable? (spaces cs) = some name) :
    (quotable? (spaces (cs ++ p)) = some name ↔
      p = [] ∨ name = [] ∧ cs.getLast? ≠ some '"') ∧
    ∀ name', quotable? (spaces (cs ++ p)) = some name' → name' = name ∨ name' = name ++ p := by
  have hn' : '\n' ∉ spaces cs := fun hm => hn (mem_of_mem_dropWhile hm)
  obtain ⟨hq, hbody⟩ := (quotable?_eq_some_iff hn').1 h
  by_cases hs : spaces cs = []
  · have hl : cs.getLast? ≠ some '"' := by
      intro hl
      simpa using spaces_eq_nil_iff.1 hs _ (List.mem_of_getLast? hl)
    rw [hs] at h
    obtain rfl : [] = name := Option.some.inj h
    simp [spaces_padded_of_eq_nil hp hs, h, hl]
  · have hd : spaces (cs ++ p) = spaces cs ++ p := dropWhile_padded hs
    have hlast {t : List Char} (ht : t ≠ []) (hsuf : t <:+ spaces cs) :
        cs.getLast? = t.getLast? := getLast?_of_suffix ht (hsuf.trans (List.dropWhile_suffix _))
    rw [hd]
    rcases hbody with hbody | hbody
    · have hl : name = [] → cs.getLast? = some '"' := by
        rintro rfl
        have hx := (past_eq_nil_iff.1 hbody).resolve_left hs
        rw [hlast hs List.suffix_rfl, hx]
        rfl
      rw [quotable?_padded_of_open hp hn' hs hq hbody]
      simp only [Option.some.injEq, List.append_right_eq_self]
      exact ⟨(or_iff_left fun hx => hx.2 (hl hx.1)).symm, fun name' he => .inr he.symm⟩
    · have hl : cs.getLast? = some '"' := by
        rw [hlast (by simp) (hbody ▸ past_suffix)]
        simp
      by_cases hpe : p = []
      · subst hpe
        simp [h, eq_comm]
      · simp [quotable?_padded_of_closed hp hn' hs hpe hbody, hpe, hl]

end Scan

/-! ## Statements with spaces behind them -/

namespace Statement

variable {st : Statement} {w : List Char}

/-- What follows a word on a line without a line feed has none either. -/
theorem newline_notMem_of_word? {q : Char → Bool} (hn : '\n' ∉ cs)
    (h : word? w (cs.dropWhile q) = some rest) : '\n' ∉ rest :=
  fun hm => hn ((suffix_of_word? h).subset (List.mem_append_right w hm))

section Keywords

variable (hp : ∀ c ∈ p, c = ' ') (hn : '\n' ∉ cs)
include hp hn

theorem end_padded {s : Statement}
    (h : (if atEnd (spaces cs) then some s else none) = some st) :
    (if atEnd (spaces (cs ++ p)) then some s else none) = some st := by
  split at h
  · rename_i ha
    rwa [if_pos (atEnd_padded hp hn ha)]
  · simp at h

theorem readWord?_padded {s : Statement} (hw : w ≠ []) (h : readWord? w s cs = some st) :
    readWord? w s (cs ++ p) = some st := by
  obtain ⟨rest, hr, h⟩ := Option.bind_eq_some_iff.1 h
  exact Option.bind_eq_some_iff.2
    ⟨_, word?_padded hw hr, end_padded hp (newline_notMem_of_word? hn hr) h⟩

/-- Two words and nothing else. -/
theorem words_padded {v : List Char} {s : Statement} (hw : w ≠ []) (hv : v ≠ [])
    (h : ((word? w (blanks cs)).bind fun rest => (word? v (spaces rest)).bind fun rest =>
      if atEnd (spaces rest) then some s else none) = some st) :
    ((word? w (blanks (cs ++ p))).bind fun rest => (word? v (spaces rest)).bind fun rest =>
      if atEnd (spaces rest) then some s else none) = some st := by
  obtain ⟨rest, hr, h⟩ := Option.bind_eq_some_iff.1 h
  obtain ⟨behind, hb, h⟩ := Option.bind_eq_some_iff.1 h
  have hnb := newline_notMem_of_word? (newline_notMem_of_word? hn hr) hb
  exact Option.bind_eq_some_iff.2 ⟨_, word?_padded hw hr,
    Option.bind_eq_some_iff.2 ⟨_, word?_padded hv hb, end_padded hp hnb h⟩⟩

theorem readLabelled?_padded {s : String → Statement} (hw : w ≠ [])
    (h : readLabelled? w s cs = some st) : readLabelled? w s (cs ++ p) = some st := by
  obtain ⟨rest, hr, h⟩ := Option.bind_eq_some_iff.1 h
  obtain ⟨label, hl, h⟩ := Option.bind_eq_some_iff.1 h
  exact Option.bind_eq_some_iff.2 ⟨_, word?_padded hw hr,
    Option.bind_eq_some_iff.2 ⟨_, label?_padded hp (newline_notMem_of_word? hn hr) hl, h⟩⟩

theorem readNumberFrom?_padded (h : readNumberFrom? cs = some st) :
    readNumberFrom? (cs ++ p) = some st := by
  obtain ⟨rest, hr, h⟩ := Option.bind_eq_some_iff.1 h
  have hnr := newline_notMem_of_word? hn hr
  simp only at h
  split at h
  · rename_i ha
    obtain ⟨hne, ha⟩ := ha
    -- The numeral has a digit, so that the spaces come behind its digits.
    have hs : spaces (rest ++ p) = spaces rest ++ p := by
      refine dropWhile_padded fun he => hne ?_
      rw [show spaces rest = [] from he]
      rfl
    obtain ⟨htake, hdrop⟩ := digits_padded hp (spaces rest)
    have hnd : '\n' ∉ (spaces rest).dropWhile Char.isDigit :=
      fun hm => hnr (mem_of_mem_dropWhile (mem_of_mem_dropWhile hm))
    refine Option.bind_eq_some_iff.2 ⟨rest ++ p, word?_padded (by simp) hr, ?_⟩
    simp only [hs, htake, hdrop]
    rwa [if_pos ⟨hne, atEnd_padded hp hnd ha⟩]
  · simp at h

end Keywords

section Declarations

variable (hp : ∀ c ∈ p, c = ' ')
include hp

/-- A reader that takes the rest of a line as a name reads spaces behind the line as part of it. -/
theorem declaration_padded {read : List Char → Option Statement} {s : String → Statement}
    (hs : Function.Injective s) (hn : '\n' ∉ rest)
    (hlast : cs.getLast? = some '"' ↔ rest.getLast? = some '"')
    (hr : read cs = (quotable? (spaces rest)).map fun name => s (String.ofList name))
    (hrp : read (cs ++ p) = (quotable? (spaces (rest ++ p))).map fun name => s (String.ofList name))
    (h : read cs = some st) :
    ∃ name, st = s name ∧
      (read (cs ++ p) = some st ↔ p = [] ∨ name = "" ∧ cs.getLast? ≠ some '"') ∧
      ∀ st', read (cs ++ p) = some st' → st' = st ∨ st' = s (name ++ String.ofList p) := by
  rw [hr] at h
  obtain ⟨name, hq, rfl⟩ := Option.map_eq_some_iff.1 h
  obtain ⟨hiff, heq⟩ := quotable?_padded hp hn hq
  have hinj : Function.Injective fun name => s (String.ofList name) :=
    hs.comp fun _ _ => String.ofList_injective
  have hread (name' : List Char) : read (cs ++ p) = some (s (String.ofList name')) ↔
      quotable? (spaces (rest ++ p)) = some name' := by
    rw [hrp]
    exact (Option.map_injective hinj).eq_iff' rfl
  refine ⟨String.ofList name, rfl, ?_, ?_⟩
  · rw [hread, hiff]
    simp [hlast]
  · intro st' hst
    obtain ⟨name', hq', rfl⟩ := Option.map_eq_some_iff.1 (hrp ▸ hst)
    rcases heq name' hq' with rfl | rfl
    · exact .inl rfl
    · exact .inr (by rw [String.ofList_append])

variable (hn : '\n' ∉ cs)
include hn

theorem readParticipant?_padded (h : readParticipant? cs = some st) :
    ∃ name, st = .participant name ∧
      (readParticipant? (cs ++ p) = some st ↔ p = [] ∨ name = "" ∧ cs.getLast? ≠ some '"') ∧
      ∀ st', readParticipant? (cs ++ p) = some st' →
        st' = st ∨ st' = .participant (name ++ String.ofList p) := by
  obtain ⟨rest, hr, hx⟩ := Option.bind_eq_some_iff.1 h
  have hrp : word? "participant".toList (blanks (cs ++ p)) = some (rest ++ p) :=
    word?_padded (by simp) hr
  split at hx
  · rename_i hh
    have hne : rest ≠ [] := by
      rintro rfl
      simp at hh
    have hhp : (rest ++ p).head? = rest.head? := List.head?_append_of_ne_nil _ hne
    have hlast : cs.getLast? = rest.getLast? :=
      getLast?_of_suffix hne ((List.suffix_append _ _).trans (suffix_of_word? hr))
    refine declaration_padded hp (fun _ _ => Statement.participant.inj)
      (newline_notMem_of_word? hn hr) (by rw [hlast]) ?_ ?_ h
    · rw [readParticipant?, hr, Option.bind_eq_bind, Option.bind_some, if_pos hh]
      cases quotable? (spaces rest) <;> rfl
    · rw [readParticipant?, hrp, Option.bind_eq_bind, Option.bind_some, hhp, if_pos hh]
      cases quotable? (spaces (rest ++ p)) <;> rfl
  · simp at hx

theorem readAliased?_padded (h : readAliased? cs = some st) :
    ∃ label name, st = .aliased label name ∧
      (readAliased? (cs ++ p) = some st ↔ p = [] ∨ name = "" ∧ cs.getLast? ≠ some '"') ∧
      ∀ st', readAliased? (cs ++ p) = some st' →
        st' = st ∨ st' = .aliased label (name ++ String.ofList p) := by
  obtain ⟨rest, hr, hx⟩ := Option.bind_eq_some_iff.1 h
  obtain ⟨label, hl, hx⟩ := Option.bind_eq_some_iff.1 hx
  obtain ⟨behind, hb, hx⟩ := Option.bind_eq_some_iff.1 hx
  obtain ⟨last, ha, -⟩ := Option.bind_eq_some_iff.1 hx
  -- Every piece before the name ends with a character that is no space, and is read as before.
  have hrp : word? "participant".toList (blanks (cs ++ p)) = some (rest ++ p) :=
    word?_padded (by simp) hr
  have hlp : word? ['"'] (spaces (rest ++ p)) = some (label ++ p) := word?_padded (by simp) hl
  have hbp : word? ['"'] ((label ++ p).dropWhile (· ≠ '"')) = some (behind ++ p) :=
    word?_padded (by simp) hb
  have hap : word? "as".toList (spaces (behind ++ p)) = some (last ++ p) :=
    word?_padded (by simp) ha
  have htake : (label ++ p).takeWhile (· ≠ '"') = label.takeWhile (· ≠ '"') :=
    takeWhile_padded (ne_nil_of_word? (by simp) hb)
  -- A quote at the end of the line is one of the name, as the word before it has none.
  have hsuf : "as".toList ++ last <:+ cs :=
    (suffix_of_word? ha).trans <| (List.suffix_append _ _).trans <| (suffix_of_word? hb).trans <|
      (List.suffix_append _ _).trans <| (suffix_of_word? hl).trans <|
        (List.suffix_append _ _).trans (suffix_of_word? hr)
  have hlast : cs.getLast? = some '"' ↔ last.getLast? = some '"' := by
    rw [getLast?_of_suffix (by simp) hsuf, List.getLast?_append]
    cases last.getLast? <;> simp
  refine ⟨String.ofList (label.takeWhile (· ≠ '"')), declaration_padded hp
    (fun _ _ he => (Statement.aliased.inj he).2)
    (fun hm => hn (hsuf.subset (List.mem_append_right _ hm))) hlast ?_ ?_ h⟩
  · simp only [readAliased?, hr, hl, hb, ha, Option.bind_eq_bind, Option.bind_some]
    cases quotable? (spaces last) <;> rfl
  · simp only [readAliased?, hrp, hlp, hbp, hap, htake, Option.bind_eq_bind, Option.bind_some]
    cases quotable? (spaces (last ++ p)) <;> rfl

end Declarations

end Statement

/-! ## Forms -/

/-- The name that a statement declares. -/
def Statement.declared? : Statement → Option String
  | aliased _ name | participant name => some name
  | _ => none

/-- A declaration with more characters at the end of its name. -/
def Statement.renamed (p : String) : Statement → Statement
  | aliased label name => aliased label (name ++ p)
  | participant name => participant (name ++ p)
  | st => st

namespace Form

/-- The forms of keyword statements, notes apart. -/
def keywordForms : List Form :=
  [aliased, participant, openParallel, closeParallel, openOption, openLoop, openAlternative,
    separator, closeFrame, numberFrom, numberOff]

variable {f : Form} {st : Statement}

/-- **Spaces behind a keyword statement** that declares no participant do not matter. -/
theorem read?_padded_of_not_declaration (hf : f ∈ keywordForms) (ha : f ≠ aliased)
    (hd : f ≠ participant) (hp : ∀ c ∈ p, c = ' ') (hn : '\n' ∉ cs) (h : f.read? cs = some st) :
    f.read? (cs ++ p) = some st := by
  cases f with
  | closeParallel | openOption | closeFrame => exact readWord?_padded hp hn (by simp) h
  | openLoop | openAlternative | separator => exact readLabelled?_padded hp hn (by simp) h
  | openParallel | numberOff => exact words_padded hp hn (by simp) (by simp) h
  | numberFrom => exact readNumberFrom?_padded hp hn h
  | aliased => exact absurd rfl ha
  | participant => exact absurd rfl hd
  | _ => simp [keywordForms] at hf

theorem declared?_of_read? (ha : f ≠ aliased) (hd : f ≠ participant)
    (h : f.read? cs = some st) : st.declared? = none := by
  have hst := ofStatement_of_read? h
  cases st with
  | aliased => exact absurd hst.symm ha
  | participant => exact absurd hst.symm hd
  | _ => rfl

/-- **Spaces behind a declaration** become part of its name, or keep it from being read behind a
closing quote, unless nothing but spaces stands for the name. -/
theorem read?_padded_iff (hf : f ∈ keywordForms) (hp : ∀ c ∈ p, c = ' ') (hn : '\n' ∉ cs)
    (h : f.read? cs = some st) :
    (f.read? (cs ++ p) = some st ↔
      ∀ name, st.declared? = some name → p = [] ∨ name = "" ∧ cs.getLast? ≠ some '"') ∧
    ∀ st', f.read? (cs ++ p) = some st' → st' = st ∨ st' = st.renamed (String.ofList p) := by
  by_cases ha : f = aliased
  · subst ha
    obtain ⟨label, name, rfl, hiff, heq⟩ := readAliased?_padded hp hn h
    exact ⟨by simpa [read?, declared?] using hiff, heq⟩
  by_cases hd : f = participant
  · subst hd
    obtain ⟨name, rfl, hiff, heq⟩ := readParticipant?_padded hp hn h
    exact ⟨by simpa [read?, declared?] using hiff, heq⟩
  · have hr := read?_padded_of_not_declaration hf ha hd hp hn h
    simp [hr, declared?_of_read? ha hd h, eq_comm]

end Form

end SequenceDiagram
