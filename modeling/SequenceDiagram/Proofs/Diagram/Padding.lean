import SequenceDiagram.Proofs.Diagram.Comment
import SequenceDiagram.Proofs.Diagram.Failure
import SequenceDiagram.Proofs.Statement.Padding

/-!
# Spaces around a line that is taken

An indented line is taken as the line is, unless the line is a comment. Spaces behind a keyword
statement do not change what it does, unless it declares a participant: there they make another
participant, or the line is no declaration any more.

## Main results

* `readLine_indented`: when an indented line has the effect of the line
* `comment_indented`: a comment that is indented is no statement
* `readLine_padded`: when a keyword statement is taken as ever with spaces behind it
* `declaration_padded_skipped`: a declaration with a space behind its closing quote is no statement
-/

namespace SequenceDiagram

open Form

variable {indent line : String}

/-- Forms other than that of comments read an indented line as they read the line. -/
theorem read?_toList_indented {f : Form} (hf : f ≠ comment)
    (hi : ∀ c ∈ indent.toList, c = ' ' ∨ c = '\t') :
    f.read? (indent ++ line).toList = f.read? line.toList := by
  rw [String.toList_append, read?_indented hf hi]

/-- A comment that is a message, too, is read as the message first, indented or not. -/
theorem head?_readings_of_signal {st : Statement} (hc : comment.Fits line.toList)
    (hi : ∀ c ∈ indent.toList, c = ' ' ∨ c = '\t') (hr : signal.read? line.toList = some st) :
    (readings table (indent ++ line)).head? = some st := by
  refine head?_readings ((read?_toList_indented (by decide) hi).trans hr) fun g hg => ?_
  have hgs : g ≠ signal := by simpa using List.mem_takeWhile_imp hg
  have hgc : g ≠ comment := by
    rintro rfl
    exact absurd hg (by decide)
  rw [read?_toList_indented hgc hi, Option.eq_none_iff_forall_ne_some]
  intro s hs
  exact hgc (Fits.eq ⟨s, hs⟩ hc hgs (by decide))

/-- A line that does not begin with the sign of comments has the same readings when it is
indented. -/
theorem readings_indented (hi : ∀ c ∈ indent.toList, c = ' ' ∨ c = '\t') (hne : indent ≠ "")
    (hh : line.toList.head? ≠ some '#') :
    readings table (indent ++ line) = readings table line := by
  refine List.filterMap_congr fun f _ => ?_
  by_cases hf : f = comment
  · subst hf
    have hnone : comment.read? line.toList = none := by
      cases hl : line.toList with
      | nil => rfl
      | cons c cs => simp_all [read?, Statement.readComment?, Scan.word?]
    rw [hnone, String.toList_append, read?_comment_indented (by simpa using hne) hi]
  · exact read?_toList_indented hf hi

/-- **A comment that is indented** is no statement, unless it is a message. -/
theorem readings_comment_indented (hi : ∀ c ∈ indent.toList, c = ' ' ∨ c = '\t')
    (hne : indent ≠ "") (hc : comment.Fits line.toList) (hs : ¬ signal.Fits line.toList) :
    readings table (indent ++ line) = [] := by
  refine List.filterMap_eq_nil_iff.2 fun f _ => ?_
  by_cases hf : f = comment
  · rw [hf, String.toList_append, read?_comment_indented (by simpa using hne) hi]
  · rw [read?_toList_indented hf hi, Option.eq_none_iff_forall_ne_some]
    intro st hr
    have hfs : f ≠ signal := by
      rintro rfl
      exact hs ⟨st, hr⟩
    exact hf (Fits.eq ⟨st, hr⟩ hc hfs (by decide))

/-- **Indentation matters to comments only.** A line that spaces and tabs are put before has the
same outcome and makes the same diagram of any, unless it begins with the sign of comments and is no
message: such a line changes nothing, and with the spaces it is no statement. -/
theorem readLine_indented (hi : ∀ c ∈ indent.toList, c = ' ' ∨ c = '\t') (hn : '\n' ∉ line.toList)
    (d : Diagram) :
    (d.readLine table (indent ++ line) = d.readLine table line ↔
      indent = "" ∨ line.toList.head? ≠ some '#' ∨ signal.Fits line.toList) ∧
    (indent ≠ "" → line.toList.head? = some '#' → ¬ signal.Fits line.toList →
      d.readLine table (indent ++ line) = .skipped ∧ d.readLine table line = .applied d) := by
  have hcomment (hne : indent ≠ "") (hh : line.toList.head? = some '#')
      (hs : ¬ signal.Fits line.toList) :
      d.readLine table (indent ++ line) = .skipped ∧ d.readLine table line = .applied d := by
    have hc := fits_comment hh hn
    refine ⟨?_, Diagram.readLine_of_comment hc hs d⟩
    rw [Diagram.readLine, readings_comment_indented hi hne hc hs]
    rfl
  -- Only comments tell the two lines apart; a message is read first, whatever else the line is.
  refine ⟨⟨fun h => ?_, ?_⟩, hcomment⟩
  · by_contra hno
    simp only [not_or, not_not] at hno
    obtain ⟨hne, hh, hs⟩ := hno
    obtain ⟨hskip, happlied⟩ := hcomment hne hh hs
    rw [hskip, happlied] at h
    simp at h
  · intro h
    by_cases hne : indent = ""
    · rw [hne, String.empty_append]
    by_cases hh : line.toList.head? = some '#'
    · obtain ⟨st, hr⟩ := (h.resolve_left hne).resolve_left (not_not_intro hh)
      have hc := fits_comment hh hn
      have hfits : st.fits d.activeKind = true := by
        have hst := ofStatement_of_read? hr
        cases st <;> simp_all [ofStatement, Statement.fits]
      have hline : (readings table ("" ++ line)).head? = some st :=
        head?_readings_of_signal hc (by simp) hr
      rw [String.empty_append] at hline
      rw [Diagram.readLine_of_readIn? (readIn?_of_head? (head?_readings_of_signal hc hi hr) hfits),
        Diagram.readLine_of_readIn? (readIn?_of_head? hline hfits)]
    · rw [Diagram.readLine, Diagram.readLine, readings_indented hi hne hh]

/-- A message that begins with the sign of comments may be indented, a comment may not. -/
theorem readLine_indented_message :
    ((∀ c ∈ " \t".toList, c = ' ' ∨ c = '\t') ∧ '\n' ∉ "#A->B: x".toList ∧
      '\n' ∉ "# A->B: x".toList) ∧
    Diagram.empty.readLine table (" \t" ++ "#A->B: x") =
      Diagram.empty.readLine table "#A->B: x" ∧
    Diagram.empty.readLine table (" \t" ++ "# A->B: x") ≠
      Diagram.empty.readLine table "# A->B: x" := by
  have hi : ∀ c ∈ " \t".toList, c = ' ' ∨ c = '\t' := by simp
  have hn : '\n' ∉ "#A->B: x".toList := by simp
  have hn' : '\n' ∉ "# A->B: x".toList := by simp
  refine ⟨⟨hi, hn, hn'⟩, ?_, ?_⟩
  · exact (readLine_indented hi hn .empty).1.2 (.inr (.inr (by decide)))
  · rw [Ne, (readLine_indented hi hn' .empty).1]
    decide

/-- A comment that is indented by one space is no statement. -/
theorem comment_indented :
    ¬ ∀ (d : Diagram) (indent line : String), (∀ c ∈ indent.toList, c = ' ' ∨ c = '\t') →
      '\n' ∉ line.toList → d.readLine table (indent ++ line) = d.readLine table line := by
  intro h
  have he := h .empty " " "# x" (by simp) (by simp)
  have hr : readings table (" " ++ "# x") = [] := by decide
  have hr' : readings table "# x" = [.comment] := by decide
  rw [Diagram.readLine, Diagram.readLine, hr, hr'] at he
  simp [Diagram.reactFirst, Diagram.react, Reaction.orElse] at he

/-! ## Spaces at the end of a line -/

namespace Diagram

variable {d : Diagram} {p : String} {st : Statement}

/-- The forms of keyword statements stand before that of messages. -/
theorem head?_readings_of_keyword (hk : ofStatement st ∈ keywordForms)
    (hr : (ofStatement st).read? line.toList = some st) :
    (readings table line).head? = some st := by
  have hf : ofStatement st ≠ signal ∧ signal ∉ table.takeWhile (· ≠ ofStatement st) := by
    revert hk
    generalize ofStatement st = f
    cases f <;> decide
  exact head?_readings_of_ne_signal hr hf.1 fun hm => absurd hm hf.2

/-- A keyword statement is taken from a line exactly if its form reads it there and the diagram
takes it. -/
theorem taken?_eq_some_iff (hk : ofStatement st ∈ keywordForms) :
    d.taken? table line = some st ↔
      (ofStatement st).read? line.toList = some st ∧ (d.react st).isApplied := by
  constructor
  · intro h
    obtain ⟨f, hr⟩ := mem_readings_iff.1 (List.mem_of_find?_eq_some h)
    rw [← ofStatement_of_read? hr] at hr
    have ha := List.find?_some h
    exact ⟨hr, ha⟩
  · rintro ⟨hr, ha⟩
    obtain ⟨rest, hs⟩ := List.head?_eq_some_iff.1 (head?_readings_of_keyword hk hr)
    rw [taken?, hs, List.find?_cons, ha]

/-- A line that is taken as a keyword statement has the effect of this statement. -/
theorem readLine_of_keyword (hk : ofStatement st ∈ keywordForms)
    (ht : d.taken? table line = some st) : d.readLine table line = .applied (d.effect st) := by
  obtain ⟨hr, ha⟩ := (taken?_eq_some_iff hk).1 ht
  obtain ⟨d', hd⟩ := Reaction.isApplied_eq_true_iff.1 ha
  rw [readLine_of_head?_readings (head?_readings_of_keyword hk hr) hd, eq_effect_of_react hd]

end Diagram

/-- **Spaces behind a keyword statement** change nothing but declarations. A line that is taken as
a keyword statement of notes apart is taken as the same statement with spaces behind it, and so has
the same outcome and makes the same diagram, exactly if the statement declares no participant, if
there are no spaces, or if nothing but spaces stands for the name. With spaces behind it a
declaration is otherwise read, if at all, with the spaces as a part of its name. -/
theorem readLine_padded {d : Diagram} {line p : String} {st : Statement}
    (hk : ofStatement st ∈ keywordForms) (hp : ∀ c ∈ p.toList, c = ' ') (hn : '\n' ∉ line.toList)
    (ht : d.taken? table line = some st) :
    (d.taken? table (line ++ p) = some st ↔
      ∀ name, st.declared? = some name → p = "" ∨ name = "" ∧ line.toList.getLast? ≠ some '"') ∧
    (d.taken? table (line ++ p) = some st → d.readLine table (line ++ p) = d.readLine table line) ∧
    d.readLine table line = .applied (d.effect st) ∧
    ∀ st', (ofStatement st).read? (line ++ p).toList = some st' →
      st' = st ∨ st' = st.renamed p := by
  obtain ⟨hr, ha⟩ := (Diagram.taken?_eq_some_iff hk).1 ht
  obtain ⟨hiff, heq⟩ := read?_padded_iff hk hp hn hr
  have hline := Diagram.readLine_of_keyword hk ht
  rw [← String.toList_append] at hiff
  refine ⟨?_, ?_, hline, ?_⟩
  · rw [Diagram.taken?_eq_some_iff hk, hiff]
    simp [ha]
  · intro htp
    rw [hline, Diagram.readLine_of_keyword hk htp]
  · intro st' hr'
    simpa using heq st' (by rwa [← String.toList_append])

/-- The label of a loop is the same with spaces behind it, and the name of a participant is not. -/
theorem readLine_padded_loop_and_name :
    (∀ st ∈ [Statement.openLoop "twice", .participant "A"], ofStatement st ∈ keywordForms) ∧
    (∀ c ∈ "  ".toList, c = ' ') ∧
    ('\n' ∉ "loop twice".toList ∧ '\n' ∉ "participant A".toList) ∧
    Diagram.empty.taken? table "loop twice" = some (.openLoop "twice") ∧
    Diagram.empty.taken? table "participant A" = some (.participant "A") ∧
    Diagram.empty.readLine table ("loop twice" ++ "  ") =
      .applied (Diagram.empty.openBlock (.framed "loop" "twice")) ∧
    Diagram.empty.taken? table ("participant A" ++ "  ") ≠ some (.participant "A") := by
  have hk : ∀ st ∈ [Statement.openLoop "twice", .participant "A"],
      ofStatement st ∈ keywordForms := by decide
  have hp : ∀ c ∈ "  ".toList, c = ' ' := by simp
  have hn : '\n' ∉ "loop twice".toList ∧ '\n' ∉ "participant A".toList := by simp
  have hl : Diagram.empty.taken? table "loop twice" = some (.openLoop "twice") := by decide
  have ha : Diagram.empty.taken? table "participant A" = some (.participant "A") := by
    decide
  obtain ⟨hiff, hline, heffect, -⟩ := readLine_padded (hk _ (by simp)) hp hn.1 hl
  obtain ⟨hiff', -⟩ := readLine_padded (hk _ (by simp)) hp hn.2 ha
  refine ⟨hk, hp, hn, hl, ha, ?_, ?_⟩
  · rw [hline (hiff.2 (by simp [Statement.declared?])), heffect]
    rfl
  · rw [Ne, hiff']
    simp [Statement.declared?]

/-- A declaration with a space behind the quote that closes the name is no statement. -/
theorem declaration_padded_skipped :
    ¬ ∀ (d : Diagram) (line p : String) (st : Statement), ofStatement st ∈ keywordForms →
      (∀ c ∈ p.toList, c = ' ') → '\n' ∉ line.toList → d.taken? table line = some st →
      d.readLine table (line ++ p) = d.readLine table line := by
  intro h
  have he := h .empty "participant \"A\"" " " (.participant "A") (by decide) (by simp) (by simp)
    (by decide)
  have hr : readings table ("participant \"A\"" ++ " ") = [] := by decide
  have hr' : readings table "participant \"A\"" = [.participant "A"] := by decide
  rw [Diagram.readLine, Diagram.readLine, hr, hr'] at he
  simp [Diagram.reactFirst, Diagram.react, Reaction.orElse] at he

end SequenceDiagram
