import Mathlib.Data.List.Nodup
import SequenceDiagram.Participant

/-!
# Mentions of participants

After several mentions a roster has every name that is mentioned once, in the order of the first
mentions, with the label that the first mention gives. The slots of a roster are those of this
order, so that no two participants share one.

## Main definitions

* `Mention`: a name, with a label if one is given
* `Roster.registerAll`: the roster after several mentions

## Main results

* `Roster.registerAll_eq`: which participants are new after several mentions
* `Roster.nodup_names_registerAll`: no name comes twice
* `Roster.position_seated`: the slot of a participant is its place in the order
-/

namespace SequenceDiagram

/-- A name that is mentioned, with a label if one is given. -/
abbrev Mention := String × Option String

namespace Roster

/-- The roster after several mentions. -/
def registerAll (r : Roster) (mentions : List Mention) : Roster :=
  mentions.foldl (fun r m => r.register m.1 m.2) r

variable {r : Roster} {name : String} {label : Option String} {mentions : List Mention}

@[simp] theorem registerAll_nil (r : Roster) : r.registerAll [] = r := rfl

@[simp] theorem registerAll_cons (r : Roster) (m : Mention) (mentions : List Mention) :
    r.registerAll (m :: mentions) = (r.register m.1 m.2).registerAll mentions := rfl

/-- The new participants after several mentions, in the order of their first mentions and with the
labels that these give. -/
def newcomers (r : Roster) (mentions : List Mention) : Roster :=
  ((mentions.map Prod.fst).filter (· ∉ r.names)).eraseDups.map fun name =>
    Participant.create name (mentions.lookup name).join

/-- A mention of a name that is known already makes no newcomer. -/
theorem newcomers_cons_of_mem (h : name ∈ r.names) :
    r.newcomers ((name, label) :: mentions) = r.newcomers mentions := by
  unfold newcomers
  rw [List.map_cons, List.filter_cons_of_neg (by simpa using h)]
  refine List.map_congr_left fun other ho => ?_
  -- The names of newcomers are others, so that the first mention is none of theirs.
  have hne : other ≠ name := by
    rintro rfl
    have hm := (List.mem_filter.1 (List.mem_eraseDups.1 ho)).2
    simp [h] at hm
  rw [List.lookup_cons, beq_false_of_ne hne]

/-- A mention of a new name makes a newcomer, which later mentions do not make again. -/
theorem newcomers_cons_of_notMem (h : name ∉ r.names) :
    r.newcomers ((name, label) :: mentions) =
      Participant.create name label ::
        (r ++ [Participant.create name label]).newcomers mentions := by
  have hf : (mentions.map Prod.fst).filter (· ∉ (r ++ [Participant.create name label]).names) =
      ((mentions.map Prod.fst).filter (· ∉ r.names)).filter fun other => !other == name := by
    rw [List.filter_filter]
    refine List.filter_congr fun other _ => ?_
    have hn : names [Participant.create name label] = [name] := rfl
    by_cases ho : other = name <;> simp [hn, ho]
  unfold newcomers
  rw [hf, List.map_cons, List.filter_cons_of_pos (by simpa using h), List.eraseDups_cons,
    List.map_cons, List.lookup_cons, beq_self_eq_true]
  refine congrArg (_ :: ·) (List.map_congr_left fun other ho => ?_)
  have hne : other ≠ name := by
    have hm := (List.mem_filter.1 (List.mem_eraseDups.1 ho)).2
    simpa using hm
  rw [List.lookup_cons, beq_false_of_ne hne]

/-- **Participants are the first mentions**: those that are new come after the others. -/
theorem registerAll_eq (r : Roster) (mentions : List Mention) :
    r.registerAll mentions = r ++ r.newcomers mentions := by
  induction mentions generalizing r with
  | nil => simp [newcomers]
  | cons m mentions ih =>
    obtain ⟨name, label⟩ := m
    rw [registerAll_cons, ih]
    by_cases h : name ∈ r.names
    · rw [register_of_mem h, newcomers_cons_of_mem h]
    · rw [register_of_notMem h, newcomers_cons_of_notMem h, List.append_assoc]
      rfl

/-- The label of a newcomer is its name, or a label that a mention gives. -/
theorem text_of_mem_newcomers {p : Participant} (h : p ∈ r.newcomers mentions) :
    p.text = Text.labelLines p.name ∨
      ∃ label, (p.name, some label) ∈ mentions ∧ p.text = Text.labelLines label := by
  obtain ⟨name, -, rfl⟩ := List.mem_map.1 h
  cases hl : (mentions.lookup name).join with
  | none => exact .inl rfl
  | some label =>
    obtain ⟨before, after, rfl, -⟩ := List.lookup_eq_some_iff.1 (Option.join_eq_some_iff.1 hl)
    exact .inr ⟨label, by simp, rfl⟩

theorem mem_names_registerAll :
    name ∈ (r.registerAll mentions).names ↔ name ∈ r.names ∨ name ∈ mentions.map Prod.fst := by
  induction mentions generalizing r with
  | nil => simp
  | cons m mentions ih =>
    rw [registerAll_cons, ih, mem_names_register, List.map_cons, List.mem_cons, or_assoc]

theorem nodup_names_registerAll (h : r.names.Nodup) (mentions : List Mention) :
    (r.registerAll mentions).names.Nodup := by
  induction mentions generalizing r with
  | nil => exact h
  | cons m mentions ih => exact ih (nodup_names_register h m.1 m.2)

/-! ## Slots -/

theorem exists_getElem?_of_mem_names (h : name ∈ r.names) :
    ∃ (i : Nat) (p : Participant), r[i]? = some p ∧ p.name = name := by
  obtain ⟨p, hp, hn⟩ := List.mem_map.1 h
  obtain ⟨i, hi⟩ := List.getElem?_of_mem hp
  exact ⟨i, p, hi, hn⟩

/-- **The slot of a participant** is its place in the order, if every name comes once. -/
theorem position_seated (hn : r.names.Nodup) {i : Nat} {p : Participant} (hp : r[i]? = some p) :
    r.seated.position p.name = i := by
  obtain ⟨hi, rfl⟩ := List.getElem?_eq_some_iff.1 hp
  have hf : r.seated.participant? r[i].name = some { r[i] with position := i } := by
    refine List.find?_eq_some_iff_getElem.2 ⟨by simp, i, by simpa [seated] using hi, ?_, ?_⟩
    · simp [seated]
    · intro j hj
      -- Those before it have other names.
      have hne : r[j].name ≠ r[i].name := by
        intro he
        have hji : r.names[i]? = r.names[j]? := by
          simp [names, hi, Nat.lt_trans hj hi, he]
        exact absurd ((List.getElem?_inj (by simpa [names] using hi) hn).1 hji) (by omega)
      simpa [seated] using hne
  rw [position, hf]
  rfl

/-- Participants of different names have different slots. -/
theorem position_seated_inj (hn : r.names.Nodup) {a b : String} (ha : a ∈ r.names)
    (hb : b ∈ r.names) (h : r.seated.position a = r.seated.position b) : a = b := by
  obtain ⟨i, p, hi, rfl⟩ := exists_getElem?_of_mem_names ha
  obtain ⟨j, q, hj, rfl⟩ := exists_getElem?_of_mem_names hb
  rw [position_seated hn hi, position_seated hn hj] at h
  obtain rfl : i = j := by omega
  rw [Option.some.inj (hi.symm.trans hj)]

end Roster

end SequenceDiagram
