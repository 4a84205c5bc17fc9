import SequenceDiagram.Metrics
import SequenceDiagram.Text.Lines

/-!
# Participants

A participant has a name, which statements use, and a label, which is drawn. The participants of
a diagram stand in the order of their first mention.

## Main definitions

* `Participant`, `Participant.create`: a participant, named or named and labelled
* `Roster`: the participants of a diagram
* `Roster.register`: the roster after a mention of a name
* `Roster.seated`: the participants at the slots of their order
* `Roster.width`, `Roster.headerHeight`: the room the participant boxes take

## Main results

* `Roster.register_of_mem`: a later mention changes nothing
* `Roster.mem_names_register`: a mention adds its name and no other
-/

namespace SequenceDiagram

open Metrics

/-- A participant of a diagram. -/
structure Participant where
  name : String
  /-- The lines of the label. -/
  text : List String
  /-- The slot in which it is drawn. -/
  position : Int := 0
deriving DecidableEq

namespace Participant

/-- A participant labelled by its name if it has no label of its own. -/
def create (name : String) (label : Option String) : Participant :=
  { name := name, text := Text.labelLines (label.getD name) }

@[simp] theorem name_create (name : String) (label : Option String) :
    (create name label).name = name := rfl

/-- The height of a participant box and the room below it. -/
def headerHeight (p : Participant) : Nat := textHeight p.text + headerGap

end Participant

/-- The participants of a diagram, in the order of their first mention. -/
abbrev Roster := List Participant

namespace Roster

/-- The names of the participants. -/
def names (r : Roster) : List String := r.map Participant.name

/-- The participant of a name. -/
def participant? (r : Roster) (name : String) : Option Participant :=
  r.find? fun p => p.name = name

/-- The roster after a mention of a name: only the first one counts. -/
def register (r : Roster) (name : String) (label : Option String) : Roster :=
  if name ∈ r.names then r else r ++ [Participant.create name label]

/-- The slot of the participant of a name. -/
def position (r : Roster) (name : String) : Int :=
  ((r.participant? name).map Participant.position).getD 0

/-- The roster with the participant of a name at another slot. -/
def setPosition (r : Roster) (name : String) (position : Int) : Roster :=
  r.map fun p => if p.name = name then { p with position } else p

/-- The participants at the slots of their order. -/
def seated (r : Roster) : Roster := r.mapIdx fun i p => { p with position := i }

/-- The height of the tallest participant box and the room below it. -/
def headerHeight (r : Roster) : Nat := (r.map Participant.headerHeight).foldr max 0

/-- The width of the drawing. -/
def width (r : Roster) : Nat := r.length * slotWidth + 2 * margin - slotGap

@[simp] theorem names_append (r s : Roster) : names (r ++ s) = names r ++ names s :=
  List.map_append

@[simp] theorem names_seated (r : Roster) : r.seated.names = r.names :=
  List.ext_getElem (by simp [names, seated]) (by simp [names, seated])

@[simp] theorem headerHeight_seated (r : Roster) : r.seated.headerHeight = r.headerHeight := by
  have h : r.seated.map Participant.headerHeight = r.map Participant.headerHeight :=
    List.ext_getElem (by simp [seated]) (by simp [seated, Participant.headerHeight])
  rw [headerHeight, h, headerHeight]

@[simp] theorem width_seated (r : Roster) : r.seated.width = r.width := by
  simp [width, seated]

theorem register_of_mem {r : Roster} {name : String} (h : name ∈ r.names)
    (label : Option String) : r.register name label = r := if_pos h

theorem register_of_notMem {r : Roster} {name : String} (h : name ∉ r.names)
    (label : Option String) :
    r.register name label = r ++ [Participant.create name label] := if_neg h

theorem mem_names_register (r : Roster) (name other : String) (label : Option String) :
    other ∈ (r.register name label).names ↔ other ∈ r.names ∨ other = name := by
  by_cases h : name ∈ r.names
  · rw [register_of_mem h]
    exact ⟨Or.inl, fun h' => h'.elim id (· ▸ h)⟩
  · rw [register_of_notMem h, names_append]
    simp [names]

theorem nodup_names_register {r : Roster} (h : r.names.Nodup) (name : String)
    (label : Option String) : (r.register name label).names.Nodup := by
  by_cases hn : name ∈ r.names
  · rwa [register_of_mem hn]
  · rw [register_of_notMem hn, names_append]
    refine List.nodup_append.2 ⟨h, by simp [names], ?_⟩
    rintro a ha b hb rfl
    simp only [names, List.map_cons, List.map_nil, Participant.name_create,
      List.mem_singleton] at hb
    exact hn (hb ▸ ha)

end Roster

end SequenceDiagram
