import SequenceDiagram.Proofs.Diagram.Nesting
import SequenceDiagram.Proofs.Diagram.Session
import SequenceDiagram.Proofs.Participant.Mention

/-!
# Participants of a text

The participants of a text are the names that are mentioned in it, in the order of their first
mentions. A declaration mentions its name, a note its participant, and a message its source and
then its target; only a declaration gives a label, and only the first mention of a name counts.

## Main definitions

* `Statement.mentions`: the names that a statement mentions

## Main results

* `Diagram.roster_readLines`: the participants after a run
* `Diagram.mem_names_of_element?`: what stands in the tree is about participants
* `participants_read`: the participants of a text, and their slots in the picture
-/

namespace SequenceDiagram

namespace Statement

/-- The names that a statement mentions, with the label that it gives. -/
def mentions : Statement → List Mention
  | aliased label name => [(name, some label)]
  | participant name | state name _ => [(name, none)]
  | signal source _ _ _ target _ => [(source, none), (target, none)]
  | openParallel | closeParallel | openOption | openLoop _ | openAlternative _ | separator _
  | closeFrame | numberFrom _ | numberOff | comment | blank => []

/-- Only a declaration gives a label. -/
theorem eq_aliased_of_mem_mentions {st : Statement} {name label : String}
    (h : (name, some label) ∈ st.mentions) : st = aliased label name := by
  cases st <;> simp_all [mentions]

/-- A statement mentions every participant that its event is about. -/
theorem Describes.mem_mentions {st : Statement} {ev : Event} {e : Element} {name : String}
    (hd : st.Describes ev) (he : ev.element? = some e) (hn : name ∈ e.participants) :
    name ∈ st.mentions.map Prod.fst := by
  cases ev with
  | signal x =>
    obtain rfl : .signal x = e := by simpa [Event.element?] using he
    cases st with
    | signal source double dotted openHead target text =>
      obtain ⟨lines, rfl, -⟩ := hd
      simpa [mentions, Element.participants] using hn
    | _ => exact absurd hd id
  | note n =>
    obtain rfl : .note n = e := by simpa [Event.element?] using he
    cases st with
    | state participant text =>
      obtain rfl := hd
      simpa [mentions, Element.participants] using hn
    | _ => exact absurd hd id
  | separator c =>
    obtain rfl : .separator c = e := by simpa [Event.element?] using he
    simp [Element.participants] at hn
  | _ => simp [Event.element?] at he

end Statement

namespace Diagram

variable {forms : List Form} {d : Diagram} {ls : List String} {number : Int}

/-- A statement that is taken registers what it mentions, and nothing else. -/
theorem roster_effect (d : Diagram) (st : Statement) :
    (d.effect st).roster = d.roster.registerAll st.mentions := by
  cases st <;> rfl

/-- **The participants after a run** are those before it and those that are mentioned. -/
theorem roster_readLines (hf : (readLines forms d number ls).fault = none) :
    (readLines forms d number ls).diagram.roster =
      d.roster.registerAll ((accepted forms d ls).flatMap Statement.mentions) := by
  rw [diagram_readLines hf, Roster.registerAll, List.foldl_flatMap]
  exact (List.foldl_hom Diagram.roster fun d st => (roster_effect d st).symm).symm

/-- Every participant of a message or a note of the tree is registered. -/
theorem mem_names_of_element? {p : Path} {e : Element} {name : String}
    (hf : (readLines forms empty number ls).fault = none)
    (he : (readLines forms empty number ls).diagram.element? p = some e)
    (hn : name ∈ e.participants) :
    name ∈ (readLines forms empty number ls).diagram.roster.names := by
  obtain ⟨ev, hev⟩ : ∃ ev : Event, ev.element? = some e := by
    cases e with
    | signal s => exact ⟨.signal s, rfl⟩
    | note n => exact ⟨.note n, rfl⟩
    | _ => simp [Element.participants] at hn
  obtain ⟨c, hc, hd⟩ := exists_describesAt hf hev he
  have hst : c.2 ∈ accepted forms empty ls := by
    rw [← Statement.map_snd_withNumbers none (accepted forms empty ls)]
    exact List.mem_map_of_mem hc
  obtain ⟨m, hm, rfl⟩ := List.mem_map.1 (hd.describes.mem_mentions hev hn)
  rw [roster_readLines hf, Roster.mem_names_registerAll]
  exact .inr (List.mem_map_of_mem (List.mem_flatMap.2 ⟨c.2, hst, hm⟩))

@[simp] theorem roster_draw (d : Diagram) : d.draw.2.roster = d.roster.seated := by
  simp [draw]

end Diagram

open Diagram in
/-- **The participants of a text are the first mentions.** They are the names that the statements
taken from the text mention, each once and in the order of the first mentions, labelled as the first
mention says, or with the name if it gives no label. Every participant of a message or a note of the
tree is one of them. Drawing puts each of them into the slot of its order, so that no two share a
slot and a message between two of them goes over at least one slot. -/
theorem participants_read {text : String} (hf : (read text).fault = none) :
    let mentions := (accepted Form.table .empty (Text.lines text)).flatMap Statement.mentions
    let d := (read text).diagram
    let position := d.draw.2.roster.position
    d.roster = (mentions.map Prod.fst).eraseDups.map (fun name =>
      { name := name, text := Text.labelLines ((mentions.lookup name).join.getD name) }) ∧
    (∀ p e, d.element? p = some e → ∀ name ∈ e.participants, name ∈ d.roster.names) ∧
    (d.draw.2.roster.length = d.roster.length ∧ ∀ (i : Nat) (p : Participant),
      d.roster[i]? = some p → d.draw.2.roster[i]? = some { p with position := i }) ∧
    (∀ a ∈ d.roster.names, ∀ b ∈ d.roster.names, position a = position b → a = b) ∧
    ∀ p s, d.element? p = some (.signal s) → s.source ≠ s.target →
      1 ≤ (position s.source - position s.target).natAbs := by
  simp only [read, fault_readText, diagram_readText, roster_draw] at hf ⊢
  have hr := roster_readLines hf
  have hn := Roster.nodup_names_registerAll (r := empty.roster) List.nodup_nil
    ((accepted Form.table .empty (Text.lines text)).flatMap Statement.mentions)
  rw [← hr] at hn
  refine ⟨?_, fun p e he name hname => mem_names_of_element? hf he hname, ?_, ?_, ?_⟩
  · rw [hr, Roster.registerAll_eq]
    simp [Roster.newcomers, Roster.names, Participant.create, empty]
  · refine ⟨by simp [Roster.seated], fun i p hp => ?_⟩
    simp [Roster.seated, hp]
  · intro a ha b hb
    exact Roster.position_seated_inj hn ha hb
  · -- The two participants of a message have slots of their own.
    intro p s hs hne
    have hsource := mem_names_of_element? hf hs (List.mem_cons_self (a := s.source))
    have htarget := mem_names_of_element? hf hs (List.mem_cons_of_mem s.source
      (List.mem_singleton_self s.target))
    have hpos := mt (Roster.position_seated_inj hn hsource htarget) hne
    omega

/-- A declaration comes too late for its label, another one in time, and a message inside a block
goes over two slots. -/
theorem participants_read_late_declaration :
    let text := "A->B: x\nparticipant \"Ann\" as A\nparticipant \"C\\nc\" as C\nopt\nC->A: y"
    let d := (read text).diagram
    (read text).fault = none ∧
      d.roster = [⟨"A", ["A"], 0⟩, ⟨"B", ["B"], 0⟩, ⟨"C", ["C", "c"], 0⟩] ∧
      d.draw.2.roster[2]? = some ⟨"C", ["C", "c"], 2⟩ ∧
      1 ≤ (d.draw.2.roster.position "C" - d.draw.2.roster.position "A").natAbs := by
  -- Before the text has a name, which would keep it from being computed with.
  have he : (read
      "A->B: x\nparticipant \"Ann\" as A\nparticipant \"C\\nc\" as C\nopt\nC->A: y").diagram.element?
        [1, 0] = some (.signal { source := "C", target := "A", text := ["y"] }) := rfl
  intro text d
  have hf : (read text).fault = none := by decide
  have hm : (Diagram.accepted Form.table .empty (Text.lines text)).flatMap Statement.mentions =
      [("A", none), ("B", none), ("A", some "Ann"), ("C", some "C\\nc"), ("C", none),
        ("A", none)] := by decide
  obtain ⟨hr, -, ⟨-, hs⟩, -, hspan⟩ := participants_read hf
  have hd : d.roster = [⟨"A", ["A"], 0⟩, ⟨"B", ["B"], 0⟩, ⟨"C", ["C", "c"], 0⟩] := by
    rw [hm] at hr
    refine hr.trans ?_
    decide
  have hc := hs 2 ⟨"C", ["C", "c"], 0⟩ (by rw [hd]; rfl)
  have hca := hspan [1, 0] _ he (by decide)
  exact ⟨hf, hd, hc, by simpa only using hca⟩

end SequenceDiagram
