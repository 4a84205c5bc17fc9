import SequenceDiagram.Proofs.Diagram.Message
import SequenceDiagram.Proofs.Statement.Split

/-!
# Forms of arrows

An arrow points to the right: it has a dash and a head, and before, between and behind them it may
have a second head, a second dash and another mark of the head. A line with any of these arrows is
a message, whatever its text is. A line whose arrow has its only head on the left is no message, and
it has no form else: the sign `<` comes too early on it for the forms with a word of their own.

## Main definitions

* `Split.ofWords`: the parts of a message between two words

## Main results

* `Statement.head?_readings_arrow`: a line with an arrow to the right is a message first
* `readings_reversed`: a line with an arrow to the left fits no form
* `readLine_arrow`: what the lines of both sorts do
* `readLine_arrow_reversed`: not all arrows are read as messages
-/

namespace SequenceDiagram

open Scan Statement

variable {source target text : String}

/-! ## Arrows to the right -/

/-- The parts of a message between two words, whose text may come after more than one space. -/
def Split.ofWords (source target text : String) (double dotted openHead : Bool) : Split where
  indent := []
  source := source.toList
  beforeArrow := []
  double := double
  dotted := dotted
  openHead := openHead
  afterArrow := []
  target := target.toList
  beforeColon := []
  afterColon := ' ' :: text.toList.takeWhile (· = ' ')
  text := spaces text.toList

namespace Split

theorem line_ofWords (source target text : String) (double dotted openHead : Bool) :
    (ofWords source target text double dotted openHead).line =
      (signal source double dotted openHead target text).written.toList := by
  simp [ofWords, line, tail, toList_written_signal, takeWhile_append_spaces]

theorem isLeftmost_ofWords (hs : IsWord source) (ht : IsWord target) (text : String)
    (double dotted openHead : Bool) :
    (ofWords source target text double dotted openHead).IsLeftmost := by
  have hsource (c : Char) (hc : c ∈ reserved) : source.toList.head? ≠ some c := by
    simpa using hs.head?_append (hs.notMem hc) []
  have htarget (c : Char) (hc : c ∈ reserved) : target.toList.head? ≠ some c := by
    simpa using ht.head?_append (ht.notMem hc) []
  constructor
  case toIsProper =>
    constructor
    case source =>
      intro c hc
      exact ⟨ne_of_mem (hs.notMem (by decide)) hc, ne_of_mem (hs.notMem (by decide)) hc,
        ne_of_mem (hs.notMem (by decide)) hc⟩
    case target =>
      intro c hc
      exact ⟨ne_of_mem (ht.notMem (by decide)) hc, ne_of_mem (ht.notMem (by decide)) hc⟩
    case afterColon => exact List.forall_mem_cons.2 ⟨rfl, eq_space_of_mem_takeWhile⟩
    all_goals simp [ofWords]
  case indent_all =>
    intro c hc
    constructor
    · rintro rfl
      exact hsource ' ' (by decide) (by simpa [ofWords] using hc)
    · rintro rfl
      exact hsource '\t' (by decide) (by simpa [ofWords] using hc)
  case head_all => simpa [ofWords] using fun _ => htarget '>' (by decide)
  case afterArrow_all => simpa [ofWords] using htarget ' ' (by decide)
  case afterColon_all => exact head?_spaces text.toList

end Split

/-- **A line with an arrow to the right is a message first**, unless its source begins as a note
does. The text begins behind all spaces. -/
theorem Statement.head?_readings_arrow (hs : IsWord source) (ht : IsWord target)
    (hx : '\n' ∉ text.toList) (hk : ¬ "stateover".toList <+: source.toList)
    (double dotted openHead : Bool) :
    (readings Form.table (signal source double dotted openHead target text).written).head? =
      some (signal source double dotted openHead target (String.ofList (spaces text.toList))) := by
  refine head?_readings (f := .signal) ?_
    (read?_written_signal_eq_none hs hk double dotted openHead)
  -- The spaces before the text are split off, so that the split is a leftmost one.
  have hspaces : '\n' ∉ spaces text.toList := fun hm => hx (mem_of_mem_dropWhile hm)
  have hr := (Split.isLeftmost_ofWords hs ht text double dotted openHead).readSignal?_line hspaces
  rw [Split.line_ofWords] at hr
  simpa [Form.read?, Split.statement, Split.ofWords] using hr

/-! ## Arrows to the left -/

theorem toList_reversed (source target text : String) :
    (source ++ "<-" ++ target ++ ": " ++ text).toList =
      source.toList ++ '<' :: '-' :: (target.toList ++ ':' :: ' ' :: text.toList) := by
  simp

/-- A dash that no head follows is no arrow. -/
theorem Statement.readSignal?_reversed (hs : IsWord source) (ht : IsWord target) (text : String) :
    readSignal? (source ++ "<-" ++ target ++ ": " ++ text).toList = none := by
  -- The source ends at the sign, which is passed over, and behind the dash comes the target.
  have hstop : ∀ c ∈ ('<' :: '-' :: (target.toList ++ ':' :: ' ' :: text.toList)).head?,
      isSourceChar c = false := by
    simp [isSourceChar]
  have hdash := ht.head?_append (ht.notMem (c := '-') (by decide)) (':' :: ' ' :: text.toList)
  have hhead := ht.head?_append (ht.notMem (c := '>') (by decide)) (':' :: ' ' :: text.toList)
  have hshaft : readShaft? ('-' :: (target.toList ++ ':' :: ' ' :: text.toList)) = none := by
    cases hl : target.toList ++ ':' :: ' ' :: text.toList <;> simp_all [readShaft?, word?]
  rw [toList_reversed]
  simp [readSignal?, hs.blanks_append, takeWhile_append_stop hs.isSourceChar hstop,
    dropWhile_append_stop hs.isSourceChar hstop, past_cons, hshaft]

/-- **A line with an arrow to the left fits no form**, if its source neither begins as a note does
nor as a comment. -/
theorem readings_reversed (hs : IsWord source) (hk : ¬ "stateover".toList <+: source.toList)
    (hcomment : source.toList.head? ≠ some '#') (ht : IsWord target) (text : String) :
    readings Form.table (source ++ "<-" ++ target ++ ": " ++ text) = [] := by
  refine List.filterMap_eq_nil_iff.2 fun f _ => ?_
  by_cases hf : f ∈ Form.table.takeWhile (· ≠ .signal)
  · -- The first word of the line goes on with the sign behind the source.
    rw [Option.eq_none_iff_forall_ne_some]
    intro st hst
    have hplain : ∀ c ∈ source.toList, c ≠ ' ' ∧ c ≠ '"' := fun c hc =>
      ⟨ne_of_mem (hs.notMem (by decide)) hc, ne_of_mem (hs.notMem (by decide)) hc⟩
    rcases Form.notMem_firstWord_of_read? (.inl rfl) hf hst with hn | hn <;>
      rw [toList_reversed, hs.blanks_append, firstWord_append hplain] at hn
    · exact hn (by simp [firstWord])
    · rw [firstWord, List.takeWhile_cons_of_pos (by decide)] at hn
      exact hk (prefix_of_prefix_append_cons (by simp) hn)
  · -- Three forms are left, of which comments are told by their first character.
    cases f with
    | signal => exact readSignal?_reversed hs ht text
    | comment =>
      rw [Form.read?, readComment?, toList_reversed]
      cases hl : source.toList with
      | nil => exact absurd (String.toList_eq_nil_iff.1 hl) hs.ne_empty
      | cons c cs =>
        have hc : c ≠ '#' := by simpa [hl] using hcomment
        simp [word?, hc]
    | blank =>
      rw [Option.eq_none_iff_forall_ne_some]
      intro st hst
      exact Form.Fits.notMem ⟨st, hst⟩ (.inl rfl) (by simp) (by simp)
    | _ => simp [Form.table] at hf

/-! ## Lines with arrows -/

/-- **Of the forms of arrows all are messages but the one to the left.** Let messages not be
numbered after a session, and let two names have no character with a meaning of its own, the first
of them not beginning as a note or a comment does. A line with any arrow to the right between the
names and with any text is taken, and adds one element to the open block and nothing else to the
tree: the message between the two, with the lines of the text. The line with an arrow to the left is
not understood, and nothing changes. -/
theorem readLine_arrow (operations : List Operation) (hc : (session operations).counter = none)
    (hs : IsWord source) (hk : ¬ "stateover".toList <+: source.toList)
    (hcomment : source.toList.head? ≠ some '#') (ht : IsWord target) (hx : '\n' ∉ text.toList) :
    let d := session operations
    (∀ double dotted openHead : Bool,
      let line := source ++ arrow double dotted openHead ++ target ++ ": " ++ text
      let message := Element.signal ⟨source, target,
        Text.labelLines (String.ofList (spaces text.toList)), dotted, double, openHead⟩
      ∃ k children d', d.element? d.active = some (.block k children) ∧
        d.readLine Form.table line = .applied d' ∧ d'.active = d.active ∧
        d'.root = d.root.append d.active message ∧
        d'.element? d'.active = some (.block k (children ++ [message]))) ∧
    d.readLine Form.table (source ++ "<-" ++ target ++ ": " ++ text) = .skipped := by
  intro d
  constructor
  · intro double dotted openHead line message
    obtain ⟨k, children, hb⟩ := Diagram.isInvariant_activeIsBlock.session operations
    have hf := head?_readings_arrow hs ht hx hk double dotted openHead
    have hr := Diagram.react_signal hc source target (String.ofList (spaces text.toList)) double
      dotted openHead
    have hl : d.readLine Form.table line = .applied ((d.mention message).add message) :=
      Diagram.readLine_of_head?_readings hf hr
    exact ⟨k, children, _, hb, hl, Diagram.mention_add hb message⟩
  · rw [Diagram.readLine, readings_reversed hs hk hcomment ht]
    rfl

/-- A text after several spaces and a name that begins with a keyword, in a parallel block. -/
theorem readLine_arrow_in_parallel :
    let d := session [.openBlock .parallel, .addNote ⟨"B", ["n"]⟩]
    (∃ d', d.readLine Form.table "loop1->>B:   x\\ny" = .applied d' ∧
      d'.element? d'.active = some (.block .parallel [.note ⟨"B", ["n"]⟩,
        .signal ⟨"loop1", "B", ["x", "y"], false, false, true⟩])) ∧
      d.readLine Form.table "loop1<-B:   x\\ny" = .skipped := by
  intro d
  have hd : d.element? d.active = some (.block .parallel [.note ⟨"B", ["n"]⟩]) := rfl
  have htext : Text.labelLines (String.ofList (spaces "  x\\ny".toList)) = ["x", "y"] := by
    decide
  have hs : IsWord "loop1" := by decide
  have ht : IsWord "B" := by decide
  have hx : '\n' ∉ "  x\\ny".toList := by decide
  obtain ⟨hright, hleft⟩ := readLine_arrow [.openBlock .parallel, .addNote ⟨"B", ["n"]⟩] rfl hs
    (by decide) (by decide) ht hx
  obtain ⟨k, children, d', hb, hl, -, -, hb'⟩ := hright false false true
  obtain ⟨rfl, rfl⟩ := Element.block.inj (Option.some.inj (hd.symm.trans hb))
  rw [htext] at hb'
  exact ⟨⟨d', hl, hb'⟩, hleft⟩

/-- Not all four arrows between names of letters and digits are read as messages: the one to the
left is not. -/
theorem readLine_arrow_reversed :
    ¬ ∀ (operations : List Operation) (source target text : String),
      (session operations).counter = none → source ≠ "" → target ≠ "" →
      (∀ c ∈ source.toList ++ target.toList, c.isAlphanum) →
      (∀ f : Form, f.keyword ≠ "" → ¬ f.keyword.toList <+: source.toList) →
      '\n' ∉ text.toList → ∀ sign ∈ ["->", "<-", "-->", "->>"],
      ∃ d', (session operations).readLine Form.table (source ++ sign ++ target ++ ": " ++ text) =
        .applied d' := by
  intro h
  have hkeyword : ∀ f ∈ Form.table, f.keyword ≠ "" → ¬ f.keyword.toList <+: "A".toList := by
    decide
  have hplain : ("A".toList ++ "B".toList).all Char.isAlphanum = true := by decide
  obtain ⟨d', hl⟩ := h [] "A" "B" "x" rfl (by decide) (by decide) (List.all_eq_true.1 hplain)
    (fun f => hkeyword f (Form.mem_table f)) (by decide) "<-" (by simp)
  have hn : readings Form.table "A<-B: x" = [] := by decide
  have hs : (session []).readLine Form.table "A<-B: x" = .skipped := by
    rw [Diagram.readLine, hn]
    rfl
  exact Reaction.noConfusion (hs.symm.trans hl)

end SequenceDiagram
