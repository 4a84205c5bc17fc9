import Mathlib.Data.List.Forall2
import SequenceDiagram.Proofs.Statement.Written

/-!
# Patterns

A form of statement can be described by a pattern, a row of parts that a line is split into. A part
leaves a choice of how much it takes, and a search that goes back on its choices tries them one
after another, the longer ones first, until the parts use up the line. What it finds first is the
reading of the line in that pattern. Where the choices of a part do not get in the way of each
other, the search comes to the same as a scan that never goes back. So it is with messages, though
some of the ten parts of their pattern that leave a choice compete for the same characters: behind a
part that takes less the line goes on only where it also goes on behind all that the part can take.

## Main definitions

* `Part`: what a pattern is made of
* `Part.tries`: the choices of a part, in the order in which they are tried
* `firstWay?`: the fields that the search finds first
* `Part.Takes`: the texts that a part can take
* `Part.message`: the pattern of messages

## Main results

* `isSome_firstWay?_iff`: the search finds something exactly if the line can be split
* `firstWay?_run`, `firstWay?_field`: runs for which the longest choice is as good as any other
* `firstWay?_message`: the search for a message finds what the scan reads
-/

namespace SequenceDiagram

open Scan Statement

/-- A part of a pattern. -/
inductive Part where
  /-- Any number of allowed characters that are passed over. -/
  | run (allowed : Char → Bool)
  /-- Any number of allowed characters, as a field. -/
  | field (allowed : Char → Bool)
  /-- One character that may be missing, as a field. -/
  | sign (c : Char)
  /-- One character. -/
  | letter (c : Char)

/-- The ways of splitting allowed characters off a line, the longest first. -/
def Scan.runs (allowed : Char → Bool) : List Char → List (List Char × List Char)
  | [] => [([], [])]
  | c :: cs =>
    (if allowed c then (runs allowed cs).map fun t => (c :: t.1, t.2) else []) ++ [([], c :: cs)]

namespace Part

/-- The choices of a part: the fields it makes and what it leaves of the line. Those that are tried
first come first. -/
def tries : Part → List Char → List (List (Option String) × List Char)
  | run allowed, cs => (runs allowed cs).map fun t => ([], t.2)
  | field allowed, cs => (runs allowed cs).map fun t => ([some (String.ofList t.1)], t.2)
  | sign c, cs =>
    (if cs.head? = some c then [([some (String.ofList [c])], cs.tail)] else []) ++ [([none], cs)]
  | letter c, cs => if cs.head? = some c then [([], cs.tail)] else []

/-- The texts that a part can take. -/
def Takes : Part → List Char → Prop
  | run allowed, t | field allowed, t => ∀ c ∈ t, allowed c = true
  | sign c, t => t = [] ∨ t = [c]
  | letter c, t => t = [c]

end Part

/-- The fields of the first way to split a line into the parts of a pattern. -/
def firstWay? : List Part → List Char → Option (List (Option String))
  | [], cs => if atEnd cs then some [] else none
  | x :: xs, cs => (x.tries cs).findSome? fun t => (firstWay? xs t.2).map (t.1 ++ ·)

/-! ## Lines that can be split -/

theorem Scan.mem_runs_iff {allowed : Char → Bool} {cs : List Char} {t : List Char × List Char} :
    t ∈ runs allowed cs ↔ t.1 ++ t.2 = cs ∧ ∀ c ∈ t.1, allowed c = true := by
  obtain ⟨taken, rest⟩ := t
  induction cs generalizing taken with
  | nil => simp +contextual [runs]
  | cons d cs ih =>
    cases taken with
    | nil => cases h : allowed d <;> simp [runs, h]
    | cons e taken => cases h : allowed d <;> simp [runs, h, ih] <;> grind

namespace Part

variable {x : Part} {cs rest : List Char}

/-- The choices of a part are the texts that it takes off the line. -/
theorem exists_mem_tries_iff :
    (∃ fields, (fields, rest) ∈ x.tries cs) ↔ ∃ taken, x.Takes taken ∧ taken ++ rest = cs := by
  cases x with
  | run allowed | field allowed =>
    simp only [tries, Takes, List.mem_map, Prod.exists, Prod.mk.injEq, mem_runs_iff]
    constructor
    · rintro ⟨fields, taken, rest', ⟨h, ht⟩, -, rfl⟩
      exact ⟨taken, ht, h⟩
    · rintro ⟨taken, ht, h⟩
      exact ⟨_, taken, rest, ⟨h, ht⟩, rfl, rfl⟩
  | sign c | letter c =>
    cases cs with
    | nil => simp [tries, Takes]
    | cons d cs =>
      simp [tries, Takes]
      grind

end Part

/-- **The search finds something** exactly if the line can be split into texts that the parts can
take. -/
theorem isSome_firstWay?_iff {xs : List Part} {cs : List Char} :
    (firstWay? xs cs).isSome ↔ ∃ texts rest, List.Forall₂ Part.Takes xs texts ∧
      atEnd rest = true ∧ cs = texts.flatten ++ rest := by
  induction xs generalizing cs with
  | nil => simp [firstWay?]
  | cons x xs ih =>
    simp only [firstWay?, List.findSome?_isSome_iff, Option.isSome_map, Prod.exists, ih]
    constructor
    · rintro ⟨fields, left, hx, texts, rest, hxs, hr, rfl⟩
      obtain ⟨taken, ht, rfl⟩ := Part.exists_mem_tries_iff.1 ⟨fields, hx⟩
      exact ⟨taken :: texts, rest, .cons ht hxs, hr, by simp⟩
    · rintro ⟨_, rest, h, hr, rfl⟩
      obtain ⟨taken, texts, ht, hxs, rfl⟩ := List.forall₂_cons_left_iff.1 h
      have hx : ∃ fields, (fields, texts.flatten ++ rest) ∈
          x.tries ((taken :: texts).flatten ++ rest) :=
        Part.exists_mem_tries_iff.2 ⟨taken, ht, by simp⟩
      obtain ⟨fields, hx⟩ := hx
      exact ⟨fields, _, hx, texts, rest, hxs, hr, rfl⟩

/-! ## Searching without going back -/

/-- If what follows a run goes on from the rest of a line whenever it goes on from the whole, it
goes on from where the run ends. -/
theorem Scan.isSome_dropWhile {α : Type} {allowed : Char → Bool} {k : List Char → Option α}
    (h : ∀ c cs, allowed c = true → (k (c :: cs)).isSome → (k cs).isSome) {cs : List Char}
    (hk : (k cs).isSome) : (k (cs.dropWhile allowed)).isSome := by
  induction cs with
  | nil => exact hk
  | cons c cs ih =>
    rw [List.dropWhile_cons]
    split
    · rename_i hc
      exact ih (h c cs hc hk)
    · exact hk

/-- If it never goes on from an allowed character, a line that it goes on from begins with none. -/
theorem Scan.dropWhile_of_isSome {α : Type} {allowed : Char → Bool} {k : List Char → Option α}
    (h : ∀ c cs, allowed c = true → k (c :: cs) = none) {cs : List Char} (hk : (k cs).isSome) :
    cs.dropWhile allowed = cs := by
  cases cs with
  | nil => rfl
  | cons c cs =>
    refine List.dropWhile_cons_of_neg fun hc => ?_
    simp [h c cs hc] at hk

/-- If what follows a run goes on from the rest of a line whenever it does from the whole, the
longest choice of the run decides. -/
theorem Scan.findSome?_runs {α β : Type} {allowed : Char → Bool} {k : List Char → Option α}
    (h : ∀ c cs, allowed c = true → (k (c :: cs)).isSome → (k cs).isSome) (g : List Char → α → β)
    (cs : List Char) :
    (runs allowed cs).findSome? (fun t => (k t.2).map (g t.1)) =
      (k (cs.dropWhile allowed)).map (g (cs.takeWhile allowed)) := by
  induction cs generalizing g with
  | nil => simp [runs]
  | cons c cs ih =>
    by_cases hc : allowed c = true
    · have hi := ih fun taken => g (c :: taken)
      simp only [runs, if_pos hc, List.findSome?_append, List.findSome?_map, Function.comp_def, hi,
        List.findSome?_singleton, List.dropWhile_cons_of_pos hc, List.takeWhile_cons_of_pos hc]
      -- A shorter choice is of no use where the longest one is not.
      cases hk : k (cs.dropWhile allowed) with
      | some a => rfl
      | none =>
        have hn : k (c :: cs) = none := by
          rw [← Option.not_isSome_iff_eq_none]
          intro hs
          have hd := isSome_dropWhile h (h c cs hc hs)
          simp [hk] at hd
        simp [hn]
    · simp [runs, hc]

variable {xs : List Part} {allowed : Char → Bool}

theorem firstWay?_run
    (h : ∀ c cs, allowed c = true → (firstWay? xs (c :: cs)).isSome → (firstWay? xs cs).isSome)
    (cs : List Char) :
    firstWay? (.run allowed :: xs) cs = firstWay? xs (cs.dropWhile allowed) := by
  have hr := findSome?_runs h (fun _ fields => fields) cs
  simpa [firstWay?, Part.tries, List.findSome?_map, Function.comp_def] using hr

theorem firstWay?_field
    (h : ∀ c cs, allowed c = true → (firstWay? xs (c :: cs)).isSome → (firstWay? xs cs).isSome)
    (cs : List Char) :
    firstWay? (.field allowed :: xs) cs = (firstWay? xs (cs.dropWhile allowed)).map
      (some (String.ofList (cs.takeWhile allowed)) :: ·) := by
  have hr := findSome?_runs h (fun taken fields => some (String.ofList taken) :: fields) cs
  simpa [firstWay?, Part.tries, List.findSome?_map, Function.comp_def] using hr

theorem firstWay?_letter (c : Char) (cs : List Char) :
    firstWay? (.letter c :: xs) cs = (word? [c] cs).bind (firstWay? xs) := by
  cases cs with
  | nil => rfl
  | cons d cs => by_cases h : d = c <;> simp [firstWay?, Part.tries, word?, h]

/-- A sign is left out only if the line does not go on behind it. -/
theorem firstWay?_sign (c : Char) (cs : List Char) :
    firstWay? (.sign c :: xs) cs =
      ((word? [c] cs).bind fun rest =>
        (firstWay? xs rest).map (some (String.ofList [c]) :: ·)).or
        ((firstWay? xs cs).map (none :: ·)) := by
  simp only [firstWay?, Part.tries, List.findSome?_append, List.findSome?_singleton]
  congr 1
  cases cs with
  | nil => rfl
  | cons d cs => by_cases h : d = c <;> simp [word?, h]

variable {cs : List Char}

/-! ## The pattern of messages -/

namespace Part

/-- What follows the name of a participant before a colon. -/
def afterName : List Part := [.run (· = ' '), .letter ':', .run (· = ' '), .field (· ≠ '\n')]

/-- A name before a colon and what follows it. -/
def namedText : List Part := .run (· = ' ') :: .field isNameChar :: afterName

/-- What follows the name of a message's source. -/
def afterSource : List Part :=
  .run (· = ' ') :: .sign '<' :: .sign '-' :: .letter '-' :: .letter '>' :: .sign '>' :: namedText

/-- A message. -/
def message : List Part :=
  .run (fun c => c = ' ' || c = '\t') :: .field isSourceChar :: afterSource

end Part

/-! ## Searching for a message -/

theorem Scan.word?_cons (c : Char) (w cs : List Char) :
    word? (c :: w) cs = (word? [c] cs).bind (word? w) := by
  cases cs with
  | nil => rfl
  | cons d cs => by_cases h : d = c <;> simp [word?, h]

/-- The text behind a colon. -/
def Statement.readAfterName? (cs : List Char) : Option (List Char) :=
  (word? [':'] (spaces cs)).bind fun rest => text? (spaces rest)

theorem Statement.readNamedText?_eq (cs : List Char) :
    readNamedText? cs = (readAfterName? ((spaces cs).dropWhile isNameChar)).map
      fun text => ((spaces cs).takeWhile isNameChar, text) := by
  simp only [readNamedText?, readAfterName?]
  cases word? [':'] (spaces ((spaces cs).dropWhile isNameChar)) with
  | none => rfl
  | some rest => cases h : text? (spaces rest) <;> simp [h]

theorem firstWay?_text (cs : List Char) :
    firstWay? [.field (· ≠ '\n')] cs = (text? cs).map fun x => [some (String.ofList x)] := by
  rw [firstWay?_field]
  · unfold text? firstWay?
    split <;> rfl
  · intro c cs hc
    have hn : atEnd (c :: cs) = false := by simp_all [atEnd]
    simp [firstWay?, hn]

theorem firstWay?_afterName (cs : List Char) :
    firstWay? Part.afterName cs = (readAfterName? cs).map fun x => [some (String.ofList x)] := by
  have htext (cs : List Char) : firstWay? [.run (· = ' '), .field (· ≠ '\n')] cs =
      (text? (spaces cs)).map fun x => [some (String.ofList x)] := by
    rw [firstWay?_run, firstWay?_text, spaces]
    intro c cs hc
    obtain rfl := of_decide_eq_true hc
    simp only [firstWay?_text, Option.isSome_map]
    simp [text?]
  rw [Part.afterName, firstWay?_run, firstWay?_letter, readAfterName?, Option.map_bind]
  · exact congrArg _ (funext htext)
  · intro c cs hc
    obtain rfl := of_decide_eq_true hc
    simp [firstWay?_letter, word?]

theorem readAfterName?_of_isNameChar (c : Char) (cs : List Char) (hc : isNameChar c = true) :
    readAfterName? (c :: cs) = none := by
  have hc' : c ≠ ':' ∧ c ≠ ' ' := by simpa [isNameChar] using hc
  simp [readAfterName?, hc'.2, word?, hc'.1]

/-- A space before a name does not matter. -/
theorem isSome_readAfterName?_of_space (c : Char) (cs : List Char) (hc : decide (c = ' ') = true)
    (h : (readAfterName? ((c :: cs).dropWhile isNameChar)).isSome) :
    (readAfterName? (cs.dropWhile isNameChar)).isSome := by
  obtain rfl := of_decide_eq_true hc
  have h' : (readAfterName? cs).isSome := h
  rwa [dropWhile_of_isSome readAfterName?_of_isNameChar h']

theorem firstWay?_namedText (cs : List Char) :
    firstWay? Part.namedText cs = (readNamedText? cs).map fun r =>
      [some (String.ofList r.1), some (String.ofList r.2)] := by
  have hname (cs : List Char) : firstWay? (.field isNameChar :: Part.afterName) cs =
      (readAfterName? (cs.dropWhile isNameChar)).map fun x =>
        [some (String.ofList (cs.takeWhile isNameChar)), some (String.ofList x)] := by
    rw [firstWay?_field, firstWay?_afterName, Option.map_map]
    · rfl
    · intro c cs hc
      simp [firstWay?_afterName, readAfterName?_of_isNameChar c cs hc]
  rw [Part.namedText, firstWay?_run, readNamedText?_eq, Option.map_map]
  · exact hname _
  · simpa only [hname, Option.isSome_map] using isSome_readAfterName?_of_space

/-- Behind a head of the arrow the line can be split where it can be split before it. -/
theorem isSome_readNamedText?_of_greater (h : (readNamedText? ('>' :: cs)).isSome) :
    (readNamedText? cs).isSome := by
  simp only [readNamedText?_eq, Option.isSome_map] at h ⊢
  exact isSome_dropWhile (k := fun cs => readAfterName? (cs.dropWhile isNameChar))
    isSome_readAfterName?_of_space h

theorem firstWay?_head (cs : List Char) :
    firstWay? (.sign '>' :: Part.namedText) cs = (readNamedText? (past '>' cs)).map fun r =>
      [Statement.sign (cs.head? = some '>') ">", some (String.ofList r.1),
        some (String.ofList r.2)] := by
  rw [firstWay?_sign, firstWay?_namedText]
  cases cs with
  | nil => rfl
  | cons c cs =>
    by_cases hc : c = '>'
    · subst hc
      simp only [word?, if_true, Option.bind_some, firstWay?_namedText, past]
      cases h : readNamedText? cs with
      | some r => rfl
      | none =>
        have hn : readNamedText? ('>' :: cs) = none := by
          rw [← Option.not_isSome_iff_eq_none]
          intro hs
          have hr := isSome_readNamedText?_of_greater hs
          simp [h] at hr
        simp [hn]
    · simp [word?, hc, past, Statement.sign, Function.comp_def]

/-- The fields of a message behind its source. -/
def Statement.readAfterSource? (cs : List Char) : Option (List (Option String)) :=
  (readShaft? (past '<' cs)).bind fun s => (readNamedText? (past '>' s.2)).map fun r =>
    [sign (cs.head? = some '<') "<", sign s.1 "-", sign (s.2.head? = some '>') ">",
      some (String.ofList r.1), some (String.ofList r.2)]

/-- Of two dashes before the head of an arrow the first one is a field, and one is none. -/
theorem firstWay?_shaft (xs : List Part) (cs : List Char) :
    firstWay? (.sign '-' :: .letter '-' :: .letter '>' :: xs) cs = (readShaft? cs).bind fun s =>
      (firstWay? xs s.2).map (Statement.sign s.1 "-" :: ·) := by
  have harrow (cs : List Char) : firstWay? (.letter '-' :: .letter '>' :: xs) cs =
      (word? "->".toList cs).bind (firstWay? xs) := by
    show _ = (word? ['-', '>'] cs).bind (firstWay? xs)
    rw [firstWay?_letter, word?_cons '-' ['>'], Option.bind_assoc]
    exact congrArg _ (funext fun rest => firstWay?_letter ..)
  simp only [firstWay?_sign, harrow, readShaft?]
  cases hd : word? "-->".toList cs with
  | some rest =>
    -- Two dashes are not one dash before the head.
    simp [eq_append_of_word? hd, word?, Statement.sign]
  | none =>
    have hbind : (word? ['-'] cs).bind (word? "->".toList) = none := (word?_cons ..).symm.trans hd
    have hfirst : ((word? ['-'] cs).bind fun rest => ((word? "->".toList rest).bind
        (firstWay? xs)).map (some (String.ofList ['-']) :: ·)) = none := by
      rw [Option.bind_eq_none_iff] at hbind ⊢
      intro rest hr
      rw [hbind rest hr]
      rfl
    rw [hfirst, Option.none_or]
    cases word? "->".toList cs <;> rfl

/-- Only the first sign before a shaft can be that of a double arrow. -/
theorem firstWay?_double (cs : List Char) :
    firstWay? (.sign '<' :: .sign '-' :: .letter '-' :: .letter '>' :: .sign '>' :: Part.namedText)
      cs = readAfterSource? cs := by
  have hshaft (cs : List Char) : firstWay?
      (.sign '-' :: .letter '-' :: .letter '>' :: .sign '>' :: Part.namedText) cs =
      (readShaft? cs).bind fun s => (readNamedText? (past '>' s.2)).map fun r =>
        [Statement.sign s.1 "-", Statement.sign (s.2.head? = some '>') ">",
          some (String.ofList r.1), some (String.ofList r.2)] := by
    rw [firstWay?_shaft]
    refine congrArg _ (funext fun s => ?_)
    rw [firstWay?_head, Option.map_map]
    rfl
  rw [firstWay?_sign]
  simp only [hshaft, readAfterSource?]
  cases cs with
  | nil => rfl
  | cons c cs =>
    by_cases hc : c = '<'
    · subst hc
      have hn : readShaft? ('<' :: cs) = none := by simp [readShaft?, word?]
      simp [hn, word?, past, Statement.sign, Option.map_bind, Function.comp_def]
    · simp [hc, word?, past, Statement.sign, Option.map_bind, Function.comp_def]

theorem map_fields_readSignal? (cs : List Char) :
    (readSignal? cs).map Statement.fields =
      (readAfterSource? (spaces ((blanks cs).dropWhile isSourceChar))).map
        (some (String.ofList ((blanks cs).takeWhile isSourceChar)) :: ·) := by
  simp only [readSignal?, readAfterSource?]
  cases readShaft? (past '<' (spaces ((blanks cs).dropWhile isSourceChar))) with
  | none => rfl
  | some s => cases h : readNamedText? (past '>' s.2) <;> simp [h, Statement.fields]

theorem readAfterSource?_of_isSourceChar (c : Char) (cs : List Char)
    (hc : isSourceChar c = true) : readAfterSource? (spaces (c :: cs)) = none := by
  obtain ⟨⟨hd, hs⟩, hl⟩ : (c ≠ '-' ∧ c ≠ ' ') ∧ c ≠ '<' := by simpa [isSourceChar] using hc
  simp [readAfterSource?, hs, past, hl, readShaft?, word?, hd]

theorem firstWay?_afterSource (cs : List Char) :
    firstWay? Part.afterSource cs = readAfterSource? (spaces cs) := by
  rw [Part.afterSource, firstWay?_run, firstWay?_double]
  · rfl
  · intro c cs hc
    obtain rfl := of_decide_eq_true hc
    simp [firstWay?_double, readAfterSource?, past, readShaft?, word?]

/-- **The search through the pattern of messages** finds what the scan reads. -/
theorem firstWay?_message (cs : List Char) :
    firstWay? Part.message cs = (readSignal? cs).map Statement.fields := by
  have hsource (cs : List Char) : firstWay? (.field isSourceChar :: Part.afterSource) cs =
      (readAfterSource? (spaces (cs.dropWhile isSourceChar))).map
        (some (String.ofList (cs.takeWhile isSourceChar)) :: ·) := by
    rw [firstWay?_field, firstWay?_afterSource]
    intro c cs hc
    simp [firstWay?_afterSource, readAfterSource?_of_isSourceChar c cs hc]
  rw [Part.message, firstWay?_run, hsource, map_fields_readSignal?]
  · rfl
  · intro c cs hc
    simp only [hsource, Option.isSome_map]
    by_cases hs : c = ' '
    · subst hs
      intro h
      have h' : (readAfterSource? (spaces cs)).isSome := h
      rwa [dropWhile_of_isSome (k := fun cs => readAfterSource? (spaces cs))
        readAfterSource?_of_isSourceChar h']
    · obtain rfl : c = '\t' := by simpa [hs] using hc
      exact id

end SequenceDiagram
