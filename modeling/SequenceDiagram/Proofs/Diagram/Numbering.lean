import Mathlib.Data.List.DropRight
import SequenceDiagram.Proofs.Diagram.Mentions

/-!
# The numbers of messages

The number of a message is told by the statements before it: it is the number of the last
`autonumber` and one more for every message since then, and there is none if the last `autonumber`
ends the numbering or there was none at all. No other statement counts, and nothing but the first
line of a message shows a number.

## Main definitions

* `Statement.messageNumber`: the number of a message that comes after some statements
* `Statement.inTurn`: statements, each with those before it

## Main results

* `Statement.messageNumber_concat`: the number goes on from statement to statement
* `Statement.withNumbers_eq`: the counter of a diagram shows the numbers of messages
* `messageNumber_read`: the messages of a text have their numbers, and nothing else has one
-/

namespace SequenceDiagram

namespace Statement

/-- Whether a statement is about the numbers of messages. -/
def setsNumber : Statement → Bool
  | numberFrom _ | numberOff => true
  | _ => false

/-- Whether a statement is a message. -/
def isSignal : Statement → Bool
  | signal .. => true
  | _ => false

/-- The number of a message that comes after some statements: that of the last statement about
numbers, and one more for every message after that statement. -/
def messageNumber (earlier : List Statement) : Option Int :=
  match (earlier.filter setsNumber).getLast? with
  | some (numberFrom numeral) =>
    some (Diagram.numeralValue numeral +
      (earlier.rtakeWhile fun st => !st.setsNumber).countP isSignal)
  | _ => none

/-- A statement that is not about numbers counts if it is a message. -/
theorem messageNumber_concat_of_not_setsNumber (earlier : List Statement) {st : Statement}
    (h : st.setsNumber = false) :
    messageNumber (earlier ++ [st]) =
      (messageNumber earlier).map (· + if st.isSignal then 1 else 0) := by
  have hset : (earlier ++ [st]).filter setsNumber = earlier.filter setsNumber := by simp [h]
  have hsince : (earlier ++ [st]).rtakeWhile (fun st => !st.setsNumber) =
      earlier.rtakeWhile (fun st => !st.setsNumber) ++ [st] :=
    List.rtakeWhile_concat_pos _ _ _ (by simp [h])
  unfold messageNumber
  rw [hset, hsince]
  cases hs : st.isSignal <;> split <;> simp [hs, Int.add_assoc]

/-- **The number goes on from statement to statement.** -/
theorem messageNumber_concat (earlier : List Statement) (st : Statement) :
    messageNumber (earlier ++ [st]) = st.nextNumber (messageNumber earlier) := by
  cases st with
  | numberFrom numeral => simp [messageNumber, setsNumber, nextNumber]
  | numberOff => simp [messageNumber, setsNumber, nextNumber]
  | _ =>
    rw [messageNumber_concat_of_not_setsNumber earlier rfl]
    simp [isSignal, nextNumber]

/-- Statements, each with those before it, where some have come before the first. -/
def inTurn (earlier : List Statement) : List Statement → List (List Statement × Statement)
  | [] => []
  | st :: rest => (earlier, st) :: inTurn (earlier ++ [st]) rest

/-- What is in turn has been split off the statements where it stands. -/
theorem exists_append_of_mem_inTurn {earlier sts : List Statement}
    {c : List Statement × Statement} (h : c ∈ inTurn earlier sts) :
    ∃ between later, sts = between ++ c.2 :: later ∧ c.1 = earlier ++ between := by
  induction sts generalizing earlier with
  | nil => simp [inTurn] at h
  | cons st rest ih =>
    rcases List.mem_cons.1 h with rfl | h
    · exact ⟨[], rest, rfl, (List.append_nil earlier).symm⟩
    · obtain ⟨between, later, hrest, hc⟩ := ih h
      exact ⟨st :: between, later, by rw [hrest]; rfl, by simp [hc]⟩

/-- A statement that describes a message is one, with all that is in the message but its number. -/
theorem DescribesAt.eq_signal {number : Option Int} {st : Statement} {s : Signal}
    (h : st.DescribesAt number (.signal s)) :
    ∃ text, st = signal s.source s.double s.dotted s.openHead s.target text ∧
      s.text = number.elim (Text.labelLines text) (Diagram.numberLines · (Text.labelLines text)) := by
  cases st with
  | signal source double dotted openHead target text =>
    obtain rfl := Event.signal.inj h
    exact ⟨text, rfl, rfl⟩
  | _ => exact h.elim

/-- **The counter of a diagram shows the numbers of messages.** -/
theorem withNumbers_eq (earlier sts : List Statement) :
    withNumbers (messageNumber earlier) sts =
      (inTurn earlier sts).map fun c => (messageNumber c.1, c.2) := by
  induction sts generalizing earlier with
  | nil => rfl
  | cons st rest ih => rw [withNumbers, inTurn, List.map_cons, ← messageNumber_concat, ih]

end Statement

open Diagram Statement in
/-- **Messages have their numbers, and nothing else has one.** A walk through the tree of a text
meets what the statements taken from it describe, where a message is numbered by the statements
before its own. So the first line of a message that has a number is preceded by it, and the lines
of a message without one are those of its text. The labels of participants are declared or names. -/
theorem messageNumber_read {text : String} (hf : (read text).fault = none) :
    let taken := accepted Form.table .empty (Text.lines text)
    let d := (read text).diagram
    (∃ evs, List.Forall₂ (fun c ev => c.2.DescribesAt (messageNumber c.1) ev)
        ((inTurn [] taken).filter (·.2.isStructural)) evs ∧
      d.body.flatMap Element.walk = evs ++ d.openKinds.map .leave) ∧
    (∀ p s, d.element? p = some (.signal s) → ∃ earlier label later,
      taken = earlier ++ signal s.source s.double s.dotted s.openHead s.target label :: later ∧
        s.text = (messageNumber earlier).elim (Text.labelLines label)
          (numberLines · (Text.labelLines label))) ∧
    ∀ p ∈ d.roster, p.text = Text.labelLines p.name ∨
      ∃ label, aliased label p.name ∈ taken ∧ p.text = Text.labelLines label := by
  simp only [read, fault_readText, diagram_readText] at hf ⊢
  -- Before the first statement messages have no number.
  have hnum : withNumbers none (accepted Form.table .empty (Text.lines text)) =
      (inTurn [] (accepted Form.table .empty (Text.lines text))).map fun c =>
        (messageNumber c.1, c.2) := withNumbers_eq [] _
  refine ⟨?_, ?_, ?_⟩
  · obtain ⟨evs, hd, hw⟩ := exists_walk_body hf
    rw [hnum, List.filter_map, List.forall₂_map_left_iff] at hd
    exact ⟨evs, hd, hw⟩
  · intro p s hs
    have hev : (Event.signal s).element? = some (.signal s) := rfl
    obtain ⟨c, hc, hd⟩ := exists_describesAt hf hev hs
    rw [hnum] at hc
    obtain ⟨⟨earlier, st⟩, hturn, rfl⟩ := List.mem_map.1 hc
    obtain ⟨between, later, htaken, hbefore⟩ := exists_append_of_mem_inTurn hturn
    obtain ⟨label, rfl, ht⟩ := hd.eq_signal
    obtain rfl : earlier = between := hbefore
    exact ⟨earlier, label, later, htaken, ht⟩
  · intro p hp
    rw [roster_readLines hf, Roster.registerAll_eq] at hp
    rcases Roster.text_of_mem_newcomers (by simpa [empty] using hp) with hn | ⟨label, hl, ht⟩
    · exact .inl hn
    · obtain ⟨st, hst, hm⟩ := List.mem_flatMap.1 hl
      obtain rfl := eq_aliased_of_mem_mentions hm
      exact .inr ⟨label, hst, ht⟩

open Diagram Statement in
/-- A line that is not taken and a comment do not count, a message to oneself does. -/
theorem messageNumber_read_in_loop :
    ∃ earlier label later,
      accepted Form.table .empty
          (Text.lines "autonumber 7\nloop l\nA->A: x\nnothing\n# c\nA->B: y\\nz\nautonumber off") =
        earlier ++ signal "A" false false false "B" label :: later ∧
      ["[8] y", "z"] = (messageNumber earlier).elim (Text.labelLines label)
        (numberLines · (Text.labelLines label)) := by
  have hf : (read "autonumber 7\nloop l\nA->A: x\nnothing\n# c\nA->B: y\\nz\nautonumber off").fault =
      none := by decide
  obtain ⟨-, hs, -⟩ := messageNumber_read hf
  exact hs [0, 1] { source := "A", target := "B", text := ["[8] y", "z"] } rfl

end SequenceDiagram
