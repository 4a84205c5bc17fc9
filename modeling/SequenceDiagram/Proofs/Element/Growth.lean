import SequenceDiagram.Proofs.Element.Memory

/-!
# Trees that grow

A tree grows when elements are added to its blocks. Whatever stands in it stays at its path and
remains what it is by itself, and the elements of a block stay the first ones of it. Since paths
are kept, so is the number of blocks around an element.

## Main definitions

* `Element.own`: what an element is by itself
* `Element.GrowsTo`: a tree in which everything of another tree is still to be found

## Main results

* `Element.GrowsTo.trans`: growing on
* `Element.growsTo_append`: an addition, wherever it is made, lets a tree grow
-/

namespace SequenceDiagram

namespace Element

/-- What an element is by itself, without the elements in it. -/
def own : Element → Element
  | block k _ => block k []
  | e => e

/-- Everything in a tree is in another one too: at the same path, the same by itself, and with the
same elements in it, possibly followed by others. -/
def GrowsTo (e e' : Element) : Prop :=
  ∀ p c, e.get? p = some c → ∃ c', e'.get? p = some c' ∧ c'.own = c.own ∧
    c.children.map own <+: c'.children.map own

namespace GrowsTo

theorem refl (e : Element) : e.GrowsTo e := fun _ c h => ⟨c, h, rfl, List.prefix_refl _⟩

theorem trans {e e' e'' : Element} (h : e.GrowsTo e') (h' : e'.GrowsTo e'') : e.GrowsTo e'' := by
  intro p c hc
  obtain ⟨c', hc', ho, hp⟩ := h p c hc
  obtain ⟨c'', hc'', ho', hp'⟩ := h' p c' hc'
  exact ⟨c'', hc'', ho'.trans ho, hp.trans hp'⟩

end GrowsTo

@[simp] theorem own_append (e : Element) (p : Path) (new : Element) :
    (e.append p new).own = e.own := by
  cases e <;> cases p <;> rfl

/-- Only the block at the path has another element, behind those that it had. -/
theorem map_own_children_append (e : Element) (p : Path) (new : Element) :
    e.children.map own <+: (e.append p new).children.map own := by
  cases e with
  | block k children =>
    cases p with
    | nil => simp [Element.children]
    | cons i p =>
      -- Behind an index nothing changes that an element is by itself.
      have hm : (children.modify i fun c => c.append p new).map own = children.map own := by
        refine List.ext_getElem (by simp) fun j _ _ => ?_
        rw [List.getElem_map, List.getElem_map, List.getElem_modify]
        split <;> simp
      rw [append_block_cons]
      exact ⟨[], (List.append_nil _).trans hm.symm⟩
  | _ => cases p <;> exact List.prefix_refl _

/-- **An addition lets a tree grow**, wherever it is made. -/
theorem growsTo_append (e : Element) (p : Path) (new : Element) : e.GrowsTo (e.append p new) := by
  intro q c hc
  by_cases hq : q <+: p
  · -- An element that encloses the place takes the addition up itself.
    obtain ⟨r, rfl⟩ := hq
    rw [get?_append_along, hc]
    exact ⟨_, rfl, c.own_append r new, c.map_own_children_append r new⟩
  · exact ⟨c, get?_append_of_not_prefix hq hc new, rfl, List.prefix_refl _⟩

end Element

end SequenceDiagram
