import Mathlib.Data.List.Basic
import SequenceDiagram.Text.Escape

/-!
# Substitutions one after another and all at once

A substitution goes through the whole text that the ones before it left, and so it also reaches
what they wrote. Substitutions made one after another still give what all of them give at once,
each character of the text replaced on its own, if none of them replaces a character that an
earlier one writes. Escaping is of this kind because the ampersand comes first: every entity
begins with one, and no other character of the markup is in any of them.

## Main definitions

* `Text.substituteEach`: substitutions one after another
* `Text.replacement`: what a character is replaced by if all substitutions are made at once
* `Text.Settled`: no substitution reaches what an earlier one wrote
* `Text.entityRules`: the substitutions that escaping makes

## Main results

* `Text.Settled.substituteEach_eq`: one after another is all at once
* `Text.Settled.substituteEach_around`: what was written stays, whatever stands around it
* `Text.escapeChars_eq_flatMap`: escaping makes its substitutions all at once
-/

namespace SequenceDiagram.Text

variable {rules later : List (Char × String)}

/-! ## The two ways -/

/-- Characters replaced by texts, one substitution after another. -/
def substituteEach (rules : List (Char × String)) (cs : List Char) : List Char :=
  rules.foldl (fun ds r => substitute r.1 r.2 ds) cs

@[simp] theorem substituteEach_nil (cs : List Char) : substituteEach [] cs = cs := rfl

@[simp] theorem substituteEach_cons (r : Char × String) (rules : List (Char × String))
    (cs : List Char) :
    substituteEach (r :: rules) cs = substituteEach rules (substitute r.1 r.2 cs) := rfl

/-- What a character is replaced by: the text of the first rule for it, or else itself. -/
def replacement : List (Char × String) → Char → List Char
  | [], c => [c]
  | r :: rules, c => if c = r.1 then r.2.toList else replacement rules c

theorem replacement_of_notMem {c : Char} (h : c ∉ rules.map Prod.fst) :
    replacement rules c = [c] := by
  induction rules with
  | nil => rfl
  | cons r rules ih =>
    rw [List.map_cons, List.mem_cons, not_or] at h
    rw [replacement, if_neg h.1, ih h.2]

theorem exists_replacement {c : Char} (h : c ∈ rules.map Prod.fst) :
    ∃ r ∈ rules, replacement rules c = r.2.toList := by
  induction rules with
  | nil => simp at h
  | cons r rules ih =>
    by_cases hc : c = r.1
    · exact ⟨r, List.mem_cons_self, by rw [replacement, if_pos hc]⟩
    · obtain ⟨q, hq, heq⟩ := ih ((List.mem_cons.1 h).resolve_left hc)
      exact ⟨q, List.mem_cons_of_mem r hq, by rw [replacement, if_neg hc, heq]⟩

theorem flatMap_replacement_of_notMem {cs : List Char} (h : ∀ r ∈ rules, r.1 ∉ cs) :
    cs.flatMap (replacement rules) = cs := by
  have hkeep : ∀ c ∈ cs, replacement rules c = [c] := by
    intro c hc
    refine replacement_of_notMem fun hmem => ?_
    obtain ⟨r, hr, hrc⟩ := List.mem_map.1 hmem
    exact h r hr (hrc ▸ hc)
  rw [List.flatMap_congr hkeep, List.flatMap_singleton']

/-! ## Where they agree -/

/-- Rules none of which replaces a character of what an earlier one writes. -/
def Settled (rules : List (Char × String)) : Prop :=
  rules.Pairwise fun r q => q.1 ∉ r.2.toList

instance : DecidablePred Settled := fun rules =>
  inferInstanceAs (Decidable (rules.Pairwise fun r q => q.1 ∉ r.2.toList))

namespace Settled

/-- **One after another is all at once.** -/
theorem substituteEach_eq (h : Settled rules) (cs : List Char) :
    substituteEach rules cs = cs.flatMap (replacement rules) := by
  induction rules generalizing cs with
  | nil => exact (List.flatMap_singleton' cs).symm
  | cons r rules ih =>
    obtain ⟨hr, hrules⟩ := List.pairwise_cons.1 h
    rw [substituteEach_cons, ih hrules, substitute, List.flatMap_assoc]
    -- The other rules see what the first one wrote, and leave it alone.
    refine List.flatMap_congr fun c _ => ?_
    by_cases hc : c = r.1
    · rw [if_pos hc, replacement, if_pos hc, flatMap_replacement_of_notMem hr]
    · rw [if_neg hc, replacement, if_neg hc, List.flatMap_singleton]

/-- What a rule wrote stays as it is under all later ones, whatever stands around it. -/
theorem substituteEach_around (h : Settled rules) {r : Char × String}
    (hr : r :: later <:+ rules) (before after : List Char) :
    substituteEach later (before ++ r.2.toList ++ after) =
      substituteEach later before ++ r.2.toList ++ substituteEach later after := by
  obtain ⟨hwritten, hlater⟩ := List.pairwise_cons.1 (List.Pairwise.sublist hr.sublist h)
  rw [substituteEach_eq hlater, substituteEach_eq hlater, substituteEach_eq hlater,
    List.flatMap_append, List.flatMap_append, flatMap_replacement_of_notMem hwritten]

end Settled

/-- With the ampersand last, it is also replaced in what was written for a bracket. -/
example : substituteEach [('<', "&lt;"), ('&', "&amp;")] ['<'] = "&amp;lt;".toList := by decide

/-! ## Escaping -/

/-- The entities that escaping writes, in the order in which it writes them. -/
def entityRules : List (Char × String) :=
  [('&', "&amp;"), ('<', "&lt;"), ('>', "&gt;"), ('"', "&quot;"), ('\'', "&#39;")]

theorem settled_entityRules : Settled entityRules := by decide

theorem escapeChars_eq_substituteEach (cs : List Char) :
    escapeChars cs = substituteEach entityRules cs := rfl

/-- **Escaping makes its substitutions all at once.** -/
theorem escapeChars_eq_flatMap (cs : List Char) :
    escapeChars cs = cs.flatMap (replacement entityRules) :=
  settled_entityRules.substituteEach_eq cs

end SequenceDiagram.Text
