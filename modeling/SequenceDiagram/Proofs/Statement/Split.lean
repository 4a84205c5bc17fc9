import SequenceDiagram.Proofs.Statement.Overlap
import SequenceDiagram.Proofs.Statement.Pattern

/-!
# Splitting a message

A line may be split into the parts of a message in several ways: a tab may indent the line or belong
to the source, and a second `>` may belong to the arrow or to the target. The reader makes one scan
from left to right, in which every part takes what it can. A split in which every part takes all it
can is what the scan reads, and from what the scan reads such a split is put together; so all these
splits of one line make the same message.

## Main definitions

* `Split`: a way to split a line into what a message consists of
* `Split.IsProper`, `Split.IsLeftmost`: what the parts may hold, and that they take all they can

## Main results

* `Split.IsLeftmost.readSignal?_line`: a leftmost split is what its line is read as
* `Split.exists_isLeftmost`: every message has a leftmost split
* `signal_scan`: which lines are messages, and what they are read as
-/

namespace SequenceDiagram

open Scan Statement

variable {cs : List Char}

/-! ## Runs of a line -/

namespace Scan

theorem spaces_append {p cs : List Char} (hp : ∀ c ∈ p, c = ' ') :
    spaces (p ++ cs) = spaces cs := List.dropWhile_append_of_pos (by simpa using hp)

/-- What holds of a space and of the character behind a run of spaces holds of the first one. -/
theorem head?_append_of_spaces {P : Char → Prop} {p cs : List Char} (hp : ∀ c ∈ p, c = ' ')
    (hs : P ' ') (hc : ∀ c ∈ cs.head?, P c) : ∀ c ∈ (p ++ cs).head?, P c := by
  cases p with
  | nil => exact hc
  | cons c p =>
    obtain rfl := hp c List.mem_cons_self
    simpa using hs

theorem takeWhile_append_spaces (cs : List Char) :
    cs.takeWhile (· = ' ') ++ spaces cs = cs := List.takeWhile_append_dropWhile

theorem eq_space_of_mem_takeWhile : ∀ c ∈ cs.takeWhile (· = ' '), c = ' ' := by
  intro c hc
  simpa using List.mem_takeWhile_imp hc

theorem head?_spaces (cs : List Char) : (spaces cs).head? ≠ some ' ' := by
  intro hh
  have hn := List.head?_dropWhile_not (fun c : Char => decide (c = ' ')) cs
  simp [show cs.dropWhile (fun c => decide (c = ' ')) = spaces cs from rfl, hh] at hn

/-- What two runs that follow each other begin with is what the line begins with. -/
theorem head?_of_head?_takeWhile {p q : Char → Bool} {c : Char}
    (h : (cs.takeWhile p ++ (cs.dropWhile p).takeWhile q).head? = some c) : cs.head? = some c := by
  rw [← List.takeWhile_append_dropWhile (p := p) (l := cs),
    ← List.takeWhile_append_dropWhile (p := q) (l := cs.dropWhile p), ← List.append_assoc,
    List.head?_append, h]
  rfl

theorem sign_append_past (c : Char) (cs : List Char) :
    (if cs.head? = some c then [c] else []) ++ past c cs = cs := by
  cases cs with
  | nil => rfl
  | cons d cs => by_cases hd : d = c <;> simp [past, hd]

theorem eq_of_text? {text : List Char} (hn : '\n' ∉ cs) (h : text? cs = some text) :
    text = cs := by
  rw [text?_of_notMem hn] at h
  exact (Option.some.inj h).symm

end Scan

theorem Statement.toList_arrow (double dotted openHead : Bool) :
    (arrow double dotted openHead).toList = (if double then ['<'] else []) ++
      ((if dotted then ['-'] else []) ++ '-' :: '>' :: (if openHead then ['>'] else [])) := by
  cases double <;> cases dotted <;> cases openHead <;> simp [arrow]

/-! ## Splits of a line -/

/-- A way to split a line into what a message consists of. -/
structure Split where
  indent : List Char
  source : List Char
  beforeArrow : List Char
  double : Bool
  dotted : Bool
  openHead : Bool
  afterArrow : List Char
  target : List Char
  beforeColon : List Char
  afterColon : List Char
  text : List Char

namespace Split

/-- What comes behind the arrow. -/
def tail (s : Split) : List Char :=
  s.afterArrow ++ (s.target ++ (s.beforeColon ++ ':' :: (s.afterColon ++ s.text)))

/-- The line that is split. -/
def line (s : Split) : List Char :=
  s.indent ++ (s.source ++ (s.beforeArrow ++
    ((arrow s.double s.dotted s.openHead).toList ++ s.tail)))

/-- The message that a split makes of its line. -/
def statement (s : Split) : Statement :=
  .signal (String.ofList s.source) s.double s.dotted s.openHead (String.ofList s.target)
    (String.ofList s.text)

/-- The parts of a split hold no other characters than they may. -/
structure IsProper (s : Split) : Prop where
  indent : ∀ c ∈ s.indent, c = ' ' ∨ c = '\t'
  source : ∀ c ∈ s.source, c ≠ '-' ∧ c ≠ ' ' ∧ c ≠ '<'
  beforeArrow : ∀ c ∈ s.beforeArrow, c = ' '
  afterArrow : ∀ c ∈ s.afterArrow, c = ' '
  target : ∀ c ∈ s.target, c ≠ ':' ∧ c ≠ ' '
  beforeColon : ∀ c ∈ s.beforeColon, c = ' '
  afterColon : ∀ c ∈ s.afterColon, c = ' '

/-- Where a proper split has a choice, the parts on the left take all that they can: the source
begins behind all spaces and tabs, a second `>` belongs to the arrow, and the target and the text
begin behind all spaces. -/
structure IsLeftmost (s : Split) : Prop extends s.IsProper where
  indent_all : ∀ c ∈ (s.source ++ s.beforeArrow).head?, c ≠ ' ' ∧ c ≠ '\t'
  head_all : s.openHead = false → (s.afterArrow ++ s.target).head? ≠ some '>'
  afterArrow_all : (s.target ++ s.beforeColon).head? ≠ some ' '
  afterColon_all : s.text.head? ≠ some ' '

variable {s : Split}

namespace IsProper

variable (h : s.IsProper)
include h

theorem isBlank : ∀ c ∈ s.indent, (decide (c = ' ') || decide (c = '\t')) = true := by
  simpa using h.indent

theorem isSourceChar : ∀ c ∈ s.source, Statement.isSourceChar c = true := by
  simpa [Statement.isSourceChar, and_assoc] using h.source

theorem isNameChar : ∀ c ∈ s.target, Statement.isNameChar c = true := by
  simpa [Statement.isNameChar] using h.target

/-- A line that is split can be searched for a message. -/
theorem isSome_firstWay? (hn : '\n' ∉ s.text) : (firstWay? Part.message s.line).isSome := by
  have hspaces {cs : List Char} (hs : ∀ c ∈ cs, c = ' ') : ∀ c ∈ cs, decide (c = ' ') = true := by
    simpa using hs
  have hsign (present : Bool) (c : Char) : (if present then [c] else []) = [] ∨
      (if present then [c] else []) = [c] := by cases present <;> simp
  refine isSome_firstWay?_iff.2 ⟨[s.indent, s.source, s.beforeArrow,
    if s.double then ['<'] else [], if s.dotted then ['-'] else [], ['-'], ['>'],
    if s.openHead then ['>'] else [], s.afterArrow, s.target, s.beforeColon, [':'], s.afterColon,
    s.text], [], ?_, rfl, ?_⟩
  · exact .cons h.isBlank <| .cons h.isSourceChar <| .cons (hspaces h.beforeArrow) <|
      .cons (hsign s.double '<') <| .cons (hsign s.dotted '-') <| .cons rfl <| .cons rfl <|
      .cons (hsign s.openHead '>') <| .cons (hspaces h.afterArrow) <| .cons h.isNameChar <|
      .cons (hspaces h.beforeColon) <| .cons rfl <| .cons (hspaces h.afterColon) <|
      .cons (forall_ne_of_notMem hn) .nil
  · simp [line, tail, toList_arrow]

end IsProper

/-! ## A leftmost split is what is read -/

namespace IsLeftmost

variable (h : s.IsLeftmost)
include h

theorem readNamedText?_tail (hn : '\n' ∉ s.text) :
    readNamedText? s.tail = some (s.target, s.text) := by
  have hcolon : ∀ c ∈ (s.beforeColon ++ ':' :: (s.afterColon ++ s.text)).head?,
      Statement.isNameChar c = false :=
    head?_append_of_spaces h.beforeColon rfl (by simp [Statement.isNameChar])
  have hstart : spaces s.tail =
      s.target ++ (s.beforeColon ++ ':' :: (s.afterColon ++ s.text)) := by
    rw [tail, spaces_append h.afterArrow, spaces_of_head?]
    have ha := h.afterArrow_all
    rw [← List.append_assoc]
    cases hl : s.target ++ s.beforeColon <;> simp_all
  have htake := takeWhile_append_stop h.isNameChar hcolon
  have hdrop := dropWhile_append_stop h.isNameChar hcolon
  have hafter : readAfterName? (s.beforeColon ++ ':' :: (s.afterColon ++ s.text)) =
      some s.text := by
    simp [readAfterName?, spaces_append h.beforeColon, word?, spaces_append h.afterColon,
      spaces_of_head? h.afterColon_all, text?_of_notMem hn]
  rw [readNamedText?_eq, hstart, htake, hdrop, hafter, Option.map_some]

/-- Behind an arrow with a closed head stands no second one. -/
theorem past_tail (ho : s.openHead = false) :
    past '>' s.tail = s.tail ∧ s.tail.head? ≠ some '>' := by
  have hh : s.tail.head? ≠ some '>' := by
    have ha := h.head_all ho
    rw [tail, ← List.append_assoc]
    cases hl : s.afterArrow ++ s.target with
    | nil =>
      intro hm
      exact head?_append_of_spaces (P := (· ≠ '>')) h.beforeColon (by decide) (by simp) '>' hm rfl
    | cons c cs => simpa [hl] using ha
  exact ⟨past_of_head? hh, hh⟩

/-- **A leftmost split is what its line is read as.** -/
theorem readSignal?_line (hn : '\n' ∉ s.text) : readSignal? s.line = some s.statement := by
  have harrow := isSourceChar_arrow s.double s.dotted s.openHead s.tail
  have hsource : ∀ c ∈ (s.beforeArrow ++
      ((arrow s.double s.dotted s.openHead).toList ++ s.tail)).head?,
      Statement.isSourceChar c = false :=
    head?_append_of_spaces h.beforeArrow rfl harrow
  have hblanks : blanks s.line = s.source ++ (s.beforeArrow ++
      ((arrow s.double s.dotted s.openHead).toList ++ s.tail)) := by
    refine dropWhile_append_stop h.isBlank ?_
    have hi := h.indent_all
    rw [← List.append_assoc]
    cases hl : s.source ++ s.beforeArrow with
    | nil => cases s.double <;> cases s.dotted <;> simp [toList_arrow]
    | cons c cs => simpa [hl] using hi
  have htake := takeWhile_append_stop h.isSourceChar hsource
  have hdrop := dropWhile_append_stop h.isSourceChar hsource
  have hname := h.readNamedText?_tail hn
  have hpast := h.past_tail
  simp only [readSignal?, hblanks, htake, hdrop, spaces_append h.beforeArrow, statement]
  -- For each of the eight arrows the rest of the reader runs on its characters.
  generalize s.tail = rest at hname hpast
  cases s.double <;> cases s.dotted <;> cases ho : s.openHead <;>
    simp_all [toList_arrow, past_cons, readShaft?, word?]

end IsLeftmost

/-! ## Every message has a leftmost split -/

end Split

theorem Statement.eq_append_of_readShaft? {dotted : Bool} {rest : List Char}
    (h : readShaft? cs = some (dotted, rest)) :
    cs = (if dotted then ['-'] else []) ++ '-' :: '>' :: rest := by
  unfold readShaft? at h
  split at h
  · rename_i hw
    obtain ⟨rfl, rfl⟩ : true = dotted ∧ _ = rest := by simpa using h
    simpa using eq_append_of_word? hw
  · obtain ⟨rest', hw, he⟩ := Option.map_eq_some_iff.1 h
    obtain ⟨rfl, rfl⟩ : false = dotted ∧ rest' = rest := by simpa using he
    simpa using eq_append_of_word? hw

namespace Split

/-- A target and a text that are read can be split off behind an arrow. -/
theorem exists_tail_eq {target text : List Char} (hn : '\n' ∉ cs)
    (h : readNamedText? cs = some (target, text)) :
    ∃ s : Split, s.IsLeftmost ∧ s.tail = cs ∧ s.target = target ∧ s.text = text := by
  obtain ⟨rest, hw, hr⟩ := Option.bind_eq_some_iff.1 h
  obtain ⟨text', hx, he⟩ := Option.bind_eq_some_iff.1 hr
  obtain ⟨rfl, rfl⟩ : _ = target ∧ text' = text := by simpa using he
  have hcolon : spaces ((spaces cs).dropWhile isNameChar) = ':' :: rest := eq_append_of_word? hw
  have hline : cs.takeWhile (· = ' ') ++ ((spaces cs).takeWhile isNameChar ++
      (((spaces cs).dropWhile isNameChar).takeWhile (· = ' ') ++
        ':' :: (rest.takeWhile (· = ' ') ++ spaces rest))) = cs := by
    rw [takeWhile_append_spaces rest, ← hcolon, takeWhile_append_spaces,
      List.takeWhile_append_dropWhile, takeWhile_append_spaces]
  obtain rfl : text' = spaces rest := by
    refine eq_of_text? (fun hm => hn ?_) hx
    rw [← hline]
    simp [hm]
  refine ⟨{ indent := [], source := [], beforeArrow := [], double := false, dotted := false,
            openHead := true, afterArrow := cs.takeWhile (· = ' '),
            target := (spaces cs).takeWhile isNameChar,
            beforeColon := ((spaces cs).dropWhile isNameChar).takeWhile (· = ' '),
            afterColon := rest.takeWhile (· = ' '), text := spaces rest }, ?_, hline, rfl, rfl⟩
  constructor
  case toIsProper =>
    constructor
    case target =>
      intro c hc
      simpa [isNameChar] using List.mem_takeWhile_imp hc
    case afterArrow | beforeColon | afterColon => exact eq_space_of_mem_takeWhile
    all_goals simp
  case afterArrow_all =>
    intro hh
    exact head?_spaces cs (head?_of_head?_takeWhile hh)
  case afterColon_all => exact head?_spaces rest
  all_goals simp

/-- **Every message has a leftmost split.** -/
theorem exists_isLeftmost {st : Statement} (hn : '\n' ∉ cs) (h : readSignal? cs = some st) :
    ∃ s : Split, s.IsLeftmost ∧ s.line = cs ∧ s.statement = st := by
  obtain ⟨⟨dotted, rest⟩, hs, h⟩ := Option.bind_eq_some_iff.1 h
  obtain ⟨⟨target, text⟩, hr, he⟩ := Option.bind_eq_some_iff.1 h
  -- The parts are what the reader passes over and what it takes, and they make up the line.
  set start := blanks cs with hstart
  set front := spaces (start.dropWhile isSourceChar) with hfront
  have hline : cs.takeWhile (fun c => c = ' ' || c = '\t') ++ (start.takeWhile isSourceChar ++
      ((start.dropWhile isSourceChar).takeWhile (· = ' ') ++
        ((arrow (front.head? = some '<') dotted (rest.head? = some '>')).toList ++
          past '>' rest))) = cs := by
    have hshaft := eq_append_of_readShaft? hs
    have harrow : (arrow (front.head? = some '<') dotted (rest.head? = some '>')).toList ++
        past '>' rest = front := by
      conv_rhs => rw [← sign_append_past '<' front, hshaft, ← sign_append_past '>' rest]
      simp [toList_arrow]
    rw [harrow, hfront, takeWhile_append_spaces, List.takeWhile_append_dropWhile, hstart, blanks,
      List.takeWhile_append_dropWhile]
  have hrest : '\n' ∉ past '>' rest := by
    intro hm
    apply hn
    rw [← hline]
    simp [hm]
  obtain ⟨s, hleft, htail, rfl, rfl⟩ := exists_tail_eq hrest hr
  refine ⟨{ s with
            indent := cs.takeWhile fun c => c = ' ' || c = '\t'
            source := start.takeWhile isSourceChar
            beforeArrow := (start.dropWhile isSourceChar).takeWhile (· = ' ')
            double := front.head? = some '<'
            dotted := dotted
            openHead := rest.head? = some '>' }, ?_, ?_, Option.some.inj he⟩
  · constructor
    case toIsProper =>
      refine { hleft.toIsProper with indent := ?_, source := ?_, beforeArrow := ?_ }
      · intro c hc
        simpa using List.mem_takeWhile_imp hc
      · intro c hc
        simpa [isSourceChar, and_assoc] using List.mem_takeWhile_imp hc
      · exact eq_space_of_mem_takeWhile
    case indent_all =>
      intro c hc
      have hb := List.head?_dropWhile_not (fun c : Char => decide (c = ' ') || decide (c = '\t')) cs
      rw [show cs.dropWhile _ = start from rfl, head?_of_head?_takeWhile hc] at hb
      simpa using hb
    case head_all =>
      intro ho hh
      have hne : rest.head? ≠ some '>' := by simpa using ho
      apply hne
      rw [past_of_head? hne] at htail
      rw [← htail, tail, ← List.append_assoc, List.head?_append, hh]
      rfl
    case afterArrow_all => exact hleft.afterArrow_all
    case afterColon_all => exact hleft.afterColon_all
  · rw [← htail] at hline
    exact hline

end Split

/-- **A message is one scan from left to right.** A line is a message exactly if it can be split
into an indentation of spaces and tabs, a source without `-`, space and `<`, an arrow with an
optional `<`, one or two dashes, `>` and an optional `>`, a target without `:` and space, a colon
and a text, with spaces between them. It may have several such splits, but every message has a
leftmost one, every leftmost split of the line is what it is read as, and so is what a search that
goes back on its choices finds first. -/
theorem signal_scan {line : String} (hn : '\n' ∉ line.toList) :
    (Form.signal.Fits line.toList ↔ ∃ s : Split, s.IsProper ∧ s.line = line.toList) ∧
    (Form.signal.Fits line.toList → ∃ s : Split, s.IsLeftmost ∧ s.line = line.toList) ∧
    (∀ s : Split, s.IsLeftmost → s.line = line.toList →
      Form.signal.read? line.toList = some s.statement) ∧
    firstWay? Part.message line.toList =
      (Form.signal.read? line.toList).map Statement.fields := by
  have htext {s : Split} (hs : s.line = line.toList) : '\n' ∉ s.text := by
    intro hm
    apply hn
    simp [← hs, Split.line, Split.tail, hm]
  have hleftmost : Form.signal.Fits line.toList →
      ∃ s : Split, s.IsLeftmost ∧ s.line = line.toList := by
    rintro ⟨st, h⟩
    obtain ⟨s, hs, hl, -⟩ := Split.exists_isLeftmost hn h
    exact ⟨s, hs, hl⟩
  -- A split that is not leftmost is found by the search, which comes to the same as the scan.
  refine ⟨⟨?_, ?_⟩, hleftmost, ?_, firstWay?_message line.toList⟩
  · intro h
    obtain ⟨s, hs, hl⟩ := hleftmost h
    exact ⟨s, hs.toIsProper, hl⟩
  · rintro ⟨s, hs, hl⟩
    have hw := hs.isSome_firstWay? (htext hl)
    rw [hl, firstWay?_message, Option.isSome_map] at hw
    exact Form.fits_iff.2 hw
  · intro s hs hl
    rw [← hl]
    exact hs.readSignal?_line (htext hl)

/-- A tab before the source and a second `>` could be split off in another way. -/
theorem signal_scan_tab_head :
    (∃ s : Split, s.IsProper ∧ s.line = "\tA<-->>B : : x".toList ∧
      s.statement = .signal "\tA" true true false ">B" ": x") ∧
    Form.signal.read? "\tA<-->>B : : x".toList =
      some (.signal "A" true true true "B" ": x") ∧
    firstWay? Part.message "\tA<-->>B : : x".toList =
      some [some "A", some "<", some "-", some ">", some "B", some ": x"] := by
  have hn : '\n' ∉ "\tA<-->>B : : x".toList := by simp
  have hread : Form.signal.read? "\tA<-->>B : : x".toList =
      some (.signal "A" true true true "B" ": x") :=
    (signal_scan hn).2.2.1
      ⟨['\t'], ['A'], [], true, true, true, [], ['B'], [' '], [' '], [':', ' ', 'x']⟩
      ⟨⟨by simp, by simp, by simp, by simp, by simp, by simp, by simp⟩, by simp, by simp, by simp,
        by simp⟩ (by decide)
  refine ⟨⟨⟨[], ['\t', 'A'], [], true, true, false, [], ['>', 'B'], [' '], [' '],
    [':', ' ', 'x']⟩, ?_, by decide, by decide⟩, hread, ?_⟩
  · exact ⟨by simp, by simp, by simp, by simp, by simp, by simp, by simp⟩
  · rw [(signal_scan hn).2.2.2, hread]
    rfl

end SequenceDiagram
