import SequenceDiagram.Proofs.Text.Substitution

/-!
# Harmless text

Text can be put into markup without a change to the markup if it has no brackets and no quotes and
every ampersand in it begins an entity. Escaped text is such text, whatever it is made from.

## Main definitions

* `Text.entities`: the entities that stand for the characters of the markup
* `Text.IsPlain`: a character that is no bracket and no quote
* `Text.EntitiesOnly`: every ampersand begins an entity
* `Text.Harmless`: text that has no brackets and quotes, and ampersands in entities only

## Main results

* `Text.EntitiesOnly.append`, `Text.Harmless.append`: pieces one after another
* `Text.harmless_escapeChars`: escaped text is harmless
* `Text.Harmless.around_escape`: escaped text between harmless pieces
-/

namespace SequenceDiagram.Text

/-- The entities that stand for the characters of the markup. -/
def entities : List String := ["&amp;", "&lt;", "&gt;", "&quot;", "&#39;"]

/-- A character that is no bracket and no quote. -/
def IsPlain (c : Char) : Prop := c ≠ '<' ∧ c ≠ '>' ∧ c ≠ '"' ∧ c ≠ '\''

instance : DecidablePred IsPlain := fun c =>
  inferInstanceAs (Decidable (c ≠ '<' ∧ c ≠ '>' ∧ c ≠ '"' ∧ c ≠ '\''))

/-- Every ampersand begins an entity. -/
def EntitiesOnly (cs : List Char) : Prop :=
  ∀ before after, cs = before ++ '&' :: after → ∃ e ∈ entities, e.toList <+: '&' :: after

namespace EntitiesOnly

variable {cs ds : List Char}

theorem of_notMem (h : '&' ∉ cs) : EntitiesOnly cs := by
  rintro before after rfl
  simp at h

theorem append (hc : EntitiesOnly cs) (hd : EntitiesOnly ds) : EntitiesOnly (cs ++ ds) := by
  intro before after h
  -- The ampersand is in the second piece, or in the first one, where its entity ends too.
  rcases List.append_eq_append_iff.1 h with ⟨gap, rfl, hds⟩ | ⟨gap, rfl, hcs⟩
  · exact hd gap after hds
  · cases gap with
    | nil => exact hd [] after (by simpa using hcs.symm)
    | cons c gap =>
      rw [List.cons_append, List.cons.injEq] at hcs
      obtain ⟨rfl, rfl⟩ := hcs
      obtain ⟨e, he, hp⟩ := hc before gap rfl
      exact ⟨e, he, hp.trans (List.prefix_append ('&' :: gap) ds)⟩

theorem flatMap {α : Type} {xs : List α} {f : α → List Char} (h : ∀ x ∈ xs, EntitiesOnly (f x)) :
    EntitiesOnly (xs.flatMap f) := by
  induction xs with
  | nil => exact of_notMem List.not_mem_nil
  | cons x xs ih =>
    obtain ⟨hx, hxs⟩ := List.forall_mem_cons.1 h
    exact hx.append (ih hxs)

/-- An entity is one. -/
theorem of_mem_entities {e : String} (he : e ∈ entities) : EntitiesOnly e.toList := by
  obtain ⟨rest, hrest, hamp⟩ : ∃ rest, e.toList = '&' :: rest ∧ '&' ∉ rest := by
    simp only [entities, List.mem_cons, List.not_mem_nil, or_false] at he
    rcases he with rfl | rfl | rfl | rfl | rfl <;> exact ⟨_, rfl, by decide⟩
  intro before after h
  cases before with
  | nil => exact ⟨e, he, by rw [h]; exact List.prefix_refl _⟩
  | cons c before =>
    rw [hrest, List.cons_append, List.cons.injEq] at h
    simp [h.2] at hamp

end EntitiesOnly

/-- Text without brackets and quotes, in which every ampersand begins an entity. -/
structure Harmless (cs : List Char) : Prop where
  plain : ∀ c ∈ cs, IsPlain c
  entitiesOnly : EntitiesOnly cs

namespace Harmless

variable {cs ds : List Char}

/-- Text without any character of the markup. -/
theorem of_forall (h : ∀ c ∈ cs, IsPlain c ∧ c ≠ '&') : Harmless cs where
  plain c hc := (h c hc).1
  entitiesOnly := .of_notMem fun hc => (h '&' hc).2 rfl

/-- A text of which it is tested that it has no character of the markup. -/
theorem of_all (h : (cs.all fun c => decide (IsPlain c ∧ c ≠ '&')) = true) : Harmless cs :=
  of_forall (by simpa using h)

theorem of_mem_entities {e : String} (he : e ∈ entities) : Harmless e.toList where
  plain := by
    have hall : (entities.all fun e => e.toList.all fun c => decide (IsPlain c)) = true := by decide
    have hplain := List.all_eq_true.1 hall e he
    simpa using hplain
  entitiesOnly := .of_mem_entities he

@[simp] protected theorem nil : Harmless [] := of_forall (by simp)

theorem append (hc : Harmless cs) (hd : Harmless ds) : Harmless (cs ++ ds) where
  plain := List.forall_mem_append.2 ⟨hc.plain, hd.plain⟩
  entitiesOnly := hc.entitiesOnly.append hd.entitiesOnly

theorem flatMap {α : Type} {xs : List α} {f : α → List Char} (h : ∀ x ∈ xs, Harmless (f x)) :
    Harmless (xs.flatMap f) where
  plain := List.forall_mem_flatMap.2 fun x hx => (h x hx).plain
  entitiesOnly := .flatMap fun x hx => (h x hx).entitiesOnly

end Harmless

/-- A character that is none of those of the markup is left alone. -/
theorem escapeChars_of_notMem {c : Char} (h : c ∉ ['&', '<', '>', '"', '\'']) :
    escapeChars [c] = [c] := by
  rw [escapeChars_eq_flatMap, List.flatMap_singleton]
  exact replacement_of_notMem h

/-- A character in escaped form is an entity, or itself if it is none of those of the markup. -/
theorem escapeChars_singleton (c : Char) :
    (∃ e ∈ entities, escapeChars [c] = e.toList) ∨
      escapeChars [c] = [c] ∧ IsPlain c ∧ c ≠ '&' := by
  by_cases hc : c ∈ ['&', '<', '>', '"', '\'']
  · left
    obtain ⟨r, hr, he⟩ : ∃ r ∈ entityRules, replacement entityRules c = r.2.toList :=
      exists_replacement hc
    have hmem : r.2 ∈ entityRules.map Prod.snd := List.mem_map_of_mem hr
    refine ⟨r.2, hmem, ?_⟩
    rw [escapeChars_eq_flatMap, List.flatMap_singleton, he]
  · right
    refine ⟨escapeChars_of_notMem hc, ?_⟩
    simp only [List.mem_cons, List.not_mem_nil, or_false, not_or] at hc
    obtain ⟨hamp, hlt, hgt, hquote, hapostrophe⟩ := hc
    exact ⟨⟨hlt, hgt, hquote, hapostrophe⟩, hamp⟩

/-- **Escaped text is harmless**, whatever it is made from. -/
theorem harmless_escapeChars (cs : List Char) : Harmless (escapeChars cs) := by
  -- By induction on the text, since escaping goes character by character.
  induction cs with
  | nil => exact .nil
  | cons c cs ih =>
    rw [← List.singleton_append, escapeChars_append]
    refine .append ?_ ih
    rcases escapeChars_singleton c with ⟨e, he, hc⟩ | ⟨hc, hp⟩
    · rw [hc]
      exact .of_mem_entities he
    · rw [hc]
      exact .of_forall (by simpa using hp)

theorem harmless_escape (s : String) : Harmless (escape s).toList := by
  rw [toList_escape]
  exact harmless_escapeChars s.toList

namespace Harmless

variable {s t : String}

theorem toList_append (hs : Harmless s.toList) (ht : Harmless t.toList) :
    Harmless (s ++ t).toList := by
  rw [String.toList_append]
  exact hs.append ht

/-- An escaped text between two harmless ones. -/
theorem around_escape (hs : Harmless s.toList) (u : String) (ht : Harmless t.toList) :
    Harmless (s ++ escape u ++ t).toList :=
  (hs.toList_append (harmless_escape u)).toList_append ht

end Harmless

end SequenceDiagram.Text
