import SequenceDiagram.Proofs.Diagram.Session
import SequenceDiagram.Proofs.Statement.Precedence

/-!
# Messages from any name

A line of a message adds the message to the open block, whatever the names are like and whatever
block is open. A name may begin with a keyword: the form of the keyword goes on with a space, a
quote or the end of the line, where the name goes on or the arrow comes. Only the form of notes
asks for nothing between its words and the participant, so that a message from a name that begins
with both of them is taken for a note.

## Main definitions

* `Diagram.ActiveIsBlock`: the path of the open block leads to a block

## Main results

* `Diagram.isInvariant_activeIsBlock`: after any session a block is open
* `Statement.readState?_signal`: a message that fits the form of notes
* `readLine_message`: what the line of a message adds, and when it is the message
* `readLine_message_from_stateover`: a message that is taken for a note
-/

namespace SequenceDiagram

namespace Diagram

variable {d : Diagram} {k : BlockKind} {children : List Element}

/-! ## The open block -/

/-- The path of the open block leads to a block. -/
def ActiveIsBlock (d : Diagram) : Prop :=
  ∃ k children, d.element? d.active = some (.block k children)

theorem activeIsBlock_iff :
    d.ActiveIsBlock ↔ ∃ c, d.element? d.active = some c ∧ c.kind?.isSome := by
  constructor
  · rintro ⟨k, children, h⟩
    exact ⟨_, h, rfl⟩
  · rintro ⟨c, h, hk⟩
    cases c with
    | block k children => exact ⟨k, children, h⟩
    | _ => simp [Element.kind?] at hk

/-- **After any session a block is open.** -/
theorem isInvariant_activeIsBlock : IsInvariant ActiveIsBlock where
  empty := ⟨_, _, element?_root _⟩
  congr := by
    rintro d d' ⟨k, children, h⟩ hb ha -
    refine ⟨k, children, ?_⟩
    rw [element?, root, hb, ha]
    exact h
  addAt := by
    intro d h p e
    obtain ⟨c, hc, hk⟩ := activeIsBlock_iff.1 h
    obtain ⟨c', hc', hk'⟩ := Element.exists_get?_append hc p e
    rw [← root_addAt] at hc'
    exact activeIsBlock_iff.2 ⟨c', hc', hk'.symm ▸ hk⟩
  openBlock := by
    rintro d ⟨k, children, h⟩ inner
    refine ⟨inner, [], ?_⟩
    -- The new block stands at the end of the one that was open.
    have hn : (d.childrenAt d.active).length = children.length := by
      rw [childrenAt, h]
      rfl
    have hs := Element.get?_append_self h (.block inner [])
    show (d.add (.block inner [])).root.get? (d.active ++ [(d.childrenAt d.active).length]) = _
    rw [add, root_addAt, Element.get?_append_path, hs, hn]
    simp
  closeBlock := by
    rintro d ⟨k, children, h⟩ ha
    -- What holds the open block is a block too.
    rw [← List.dropLast_concat_getLast ha, element?, Element.get?_append_path] at h
    obtain ⟨c, hc, hi⟩ := Option.bind_eq_some_iff.1 h
    cases c with
    | block outer es => exact ⟨outer, es, hc⟩
    | _ => simp [Element.get?] at hi
  heightAt := by
    rintro d ⟨k, children, h⟩ p
    refine ⟨k, children, ?_⟩
    have ha : (d.heightAt p).2.active = d.active := by
      unfold heightAt
      split <;> rfl
    rw [element?, root_heightAt, ha]
    exact h

/-- The end of the open block after an element is added to it. -/
theorem element?_add (h : d.element? d.active = some (.block k children)) (e : Element) :
    (d.add e).element? (d.add e).active = some (.block k (children ++ [e])) := by
  show (d.add e).root.get? d.active = _
  rw [add, root_addAt]
  exact Element.get?_append_self h e

/-- What becomes of the open block when an element is mentioned and added. -/
theorem mention_add (h : d.element? d.active = some (.block k children)) (e : Element) :
    ((d.mention e).add e).active = d.active ∧
      ((d.mention e).add e).root = d.root.append d.active e ∧
      ((d.mention e).add e).element? ((d.mention e).add e).active =
        some (.block k (children ++ [e])) := by
  have hr : (d.mention e).root = d.root := by rw [root, body_mention]; rfl
  have ha : (d.mention e).active = d.active := active_mention ..
  have h' : (d.mention e).element? (d.mention e).active = some (.block k children) := by
    rw [element?, hr, ha]
    exact h
  refine ⟨ha, ?_, element?_add h' e⟩
  rw [add, root_addAt, hr, ha]

/-- What a message adds that is not numbered. -/
theorem react_signal (hc : d.counter = none) (source target text : String)
    (double dotted openHead : Bool) :
    let e := Element.signal ⟨source, target, Text.labelLines text, dotted, double, openHead⟩
    d.react (.signal source double dotted openHead target text) =
      .applied ((d.mention e).add e) := by
  have hm : ((d.register source none).register target none).counter = none := hc
  simp only [react, addSignal, number, mention_signal, hm]

end Diagram

/-! ## Messages that fit the form of notes -/

namespace Statement

open Scan

theorem isNameChar_arrow (double dotted openHead : Bool) :
    ∀ c ∈ (arrow double dotted openHead).toList, isNameChar c = true := by
  cases double <;> cases dotted <;> cases openHead <;> simp [arrow, isNameChar]

/-- **A message from a name that begins with the words of a note** fits the form of notes: all that
stands between these words and the colon is read as the participant. -/
theorem readState?_signal {name target text : String} (hs : IsWord ("stateover" ++ name))
    (ht : IsWord target) (hx : '\n' ∉ text.toList) (hx' : text.toList.head? ≠ some ' ')
    (double dotted openHead : Bool) :
    readState? (signal ("stateover" ++ name) double dotted openHead target text).written.toList =
      some (state (name ++ arrow double dotted openHead ++ target) text) := by
  have hb := hs.blanks_append ((arrow double dotted openHead).toList ++
    (target.toList ++ ':' :: ' ' :: text.toList))
  have hc : ∀ c ∈ (name ++ arrow double dotted openHead ++ target).toList,
      isNameChar c = true := by
    intro c hc
    simp only [String.toList_append, List.mem_append] at hc
    rcases hc with (hc | hc) | hc
    · exact hs.isNameChar c (by simp [hc])
    · exact isNameChar_arrow _ _ _ c hc
    · exact ht.isNameChar c hc
  have hn := readNamedText?_append hc hx hx'
  simp only [String.toList_append, List.append_assoc] at hb hn
  simp only [readState?, toList_written_signal, String.toList_append, List.append_assoc, hb]
  -- The two words are read one after the other, with no space in between to be passed over.
  simp [word?, spaces, hn, String.append_assoc]

end Statement

/-- **The line of a message** that is not numbered is taken in whatever state a session has left the
diagram, and adds one element to the open block and nothing else to the tree. The element is the
message, with the names, the arrow and the lines of text that were written, unless the source
begins with the words of a note; whatever other keyword it begins with, it is a name. -/
theorem readLine_message (operations : List Operation) (hc : (session operations).counter = none)
    {source target text : String} (hs : IsWord source) (ht : IsWord target)
    (hx : '\n' ∉ text.toList) (hx' : text.toList.head? ≠ some ' ')
    (double dotted openHead : Bool) :
    let d := session operations
    let line := source ++ Statement.arrow double dotted openHead ++ target ++ ": " ++ text
    ∃ k children e d', d.element? d.active = some (.block k children) ∧
      d.readLine Form.table line = .applied d' ∧ d'.active = d.active ∧
      d'.root = d.root.append d.active e ∧
      d'.element? d'.active = some (.block k (children ++ [e])) ∧
      (e = .signal ⟨source, target, Text.labelLines text, dotted, double, openHead⟩ ↔
        ¬ "stateover".toList <+: source.toList) := by
  intro d line
  obtain ⟨k, children, hb⟩ := Diagram.isInvariant_activeIsBlock.session operations
  -- It is enough to know the statement that the line is read as first.
  suffices h : ∃ e : Element, d.readLine Form.table line = .applied ((d.mention e).add e) ∧
      (e = .signal ⟨source, target, Text.labelLines text, dotted, double, openHead⟩ ↔
        ¬ "stateover".toList <+: source.toList) by
    obtain ⟨e, hl, he⟩ := h
    obtain ⟨hactive, hroot, hopen⟩ := Diagram.mention_add hb e
    exact ⟨k, children, e, _, hb, hl, hactive, hroot, hopen, he⟩
  by_cases hk : "stateover".toList <+: source.toList
  · obtain ⟨rest, hr⟩ := hk
    obtain rfl : source = "stateover" ++ String.ofList rest := by
      rw [← String.toList_inj, ← hr]
      simp
    have hn := Statement.readState?_signal hs ht hx hx' double dotted openHead
    have hf := head?_readings_of_ne_signal (f := .state) hn (by simp) (by simp [Form.table])
    exact ⟨_, Diagram.readLine_of_head?_readings hf rfl, by simp⟩
  · have hf := Statement.head?_readings_signal hs ht hx hx' hk double dotted openHead
    have hr := Diagram.react_signal hc source target text double dotted openHead
    exact ⟨_, Diagram.readLine_of_head?_readings hf hr, iff_of_true rfl hk⟩

/-- Two names that begin with keywords, in an alternative that holds a note. -/
theorem readLine_message_alternative :
    let operations := [.openBlock (.alternative "x"), .setCounter (some 3),
      .addNote ⟨"A", ["n"]⟩, .draw, .setCounter none]
    let d := session operations
    (d.counter = none ∧ IsWord "alternative" ∧ IsWord "participants" ∧
      ¬ "stateover".toList <+: "alternative".toList) ∧
    ∃ d', d.readLine Form.table "alternative<-->participants: a\\nb" = .applied d' ∧
      d'.element? d'.active = some (.block (.alternative "x") [.note ⟨"A", ["n"]⟩,
        .signal ⟨"alternative", "participants", ["a", "b"], true, true, false⟩]) := by
  intro operations d
  have hc : d.counter = none := rfl
  have hs : IsWord "alternative" := by decide
  have ht : IsWord "participants" := by decide
  have hk : ¬ "stateover".toList <+: "alternative".toList := by decide
  have hn : '\n' ∉ "a\\nb".toList := by decide
  have hx : Text.labelLines "a\\nb" = ["a", "b"] := by decide
  have hd : d.element? d.active =
      some (.block (.alternative "x") [.note ⟨"A", ["n"]⟩]) := rfl
  obtain ⟨k, children, e, d', hb, hl, -, -, hb', he⟩ :=
    readLine_message operations hc hs ht hn (by decide) true true false
  obtain ⟨rfl, rfl⟩ := Element.block.inj (Option.some.inj (hd.symm.trans hb))
  rw [he.2 hk, hx] at hb'
  exact ⟨⟨hc, hs, ht, hk⟩, d', hl, hb'⟩

/-- The line of a message from a name that begins with the words of a note is taken, but adds a
note. -/
theorem readLine_message_from_stateover :
    ¬ ∀ (operations : List Operation) (source target text : String),
      (session operations).counter = none → IsWord source → IsWord target →
      '\n' ∉ text.toList → text.toList.head? ≠ some ' ' →
      ∃ d', (session operations).readLine Form.table (source ++ "->" ++ target ++ ": " ++ text) =
          .applied d' ∧
        d'.childrenAt d'.active = (session operations).childrenAt (session operations).active ++
          [.signal ⟨source, target, Text.labelLines text, false, false, false⟩] := by
  intro h
  obtain ⟨d', hl, hd⟩ := h [] "stateover" "B" "x" rfl (by decide) (by decide)
    (by decide) (by decide)
  have hn : (readings Form.table "stateover->B: x").head? = some (.state "->B" "x") := by
    decide
  have hr : Diagram.empty.react (.state "->B" "x") =
      .applied (Diagram.empty.addNote ⟨"->B", Text.labelLines "x"⟩) := rfl
  have hl' := Diagram.readLine_of_head?_readings hn hr
  obtain rfl := Reaction.applied.inj (hl.symm.trans hl')
  have hb : (Diagram.empty.addNote ⟨"->B", Text.labelLines "x"⟩).childrenAt [] =
      [.note ⟨"->B", Text.labelLines "x"⟩] := rfl
  have he : [Element.note ⟨"->B", Text.labelLines "x"⟩] =
      [.signal ⟨"stateover", "B", Text.labelLines "x", false, false, false⟩] := hb.symm.trans hd
  simp at he

end SequenceDiagram
