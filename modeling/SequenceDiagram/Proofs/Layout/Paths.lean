import Mathlib.Data.List.Nodup
import SequenceDiagram.Proofs.Layout.Tiling

/-!
# Paths in a layout

A layout places every element of a tree once: what is placed with a path is the element at that
path.

## Main results

* `Element.mem_layout_iff_get?`: what is placed in an element, by paths
* `Element.nodup_map_path_layout`: no path is placed twice
-/

namespace SequenceDiagram

namespace Element

variable {e : Element} {p : Path} {top : Quantity}

/-- What is placed in an element is at its path in the element. -/
theorem get?_of_mem_layout {b : Placed} (h : b ∈ e.layout [] p top) :
    ∃ q, b.path = p ++ q ∧ e.get? q = some b.element := by
  induction e using Element.induction generalizing p top with
  | leaf e he =>
    rw [layout_leaf he] at h
    obtain rfl := List.mem_singleton.1 h
    exact ⟨[], (List.append_nil p).symm, get?_nil e⟩
  | block k children ih =>
    rw [layout_block] at h
    rcases List.mem_cons.1 h with rfl | h
    · exact ⟨[], (List.append_nil p).symm, get?_nil _⟩
    · obtain ⟨c, hc, hb⟩ := List.mem_flatMap.1 h
      obtain ⟨i, hi⟩ := List.getElem?_of_mem hc
      obtain ⟨q, hq, hg⟩ := ih c.element (BlockKind.of_mem_row hc).1 hb
      have hci : children[i]? = some c.element := by
        rw [← k.map_element_row p top children, List.getElem?_map, hi, Option.map_some]
      refine ⟨i :: q, ?_, ?_⟩
      · rw [hq, (k.of_getElem?_row p top children hi).1, List.append_assoc, List.singleton_append]
      · rw [get?_block_cons, hci, Option.bind_some, hg]

/-- The element at a path is placed with this path. -/
theorem exists_mem_layout_of_get? {c : Element} {q : Path} (h : e.get? q = some c) :
    ∃ b ∈ e.layout [] p top, b.path = p ++ q ∧ b.element = c := by
  induction q generalizing e p top with
  | nil =>
    obtain rfl : e = c := by simpa using h
    refine ⟨⟨p, top, e.height, e⟩, ?_, (List.append_nil p).symm, rfl⟩
    cases e <;> exact List.mem_cons_self
  | cons i q ih =>
    cases e with
    | block k children =>
      obtain ⟨e', he', hq⟩ := Option.bind_eq_some_iff.1 h
      rw [← k.map_element_row p top children, List.getElem?_map, Option.map_eq_some_iff] at he'
      obtain ⟨a, ha, rfl⟩ := he'
      obtain ⟨b, hb, hp, hbc⟩ : ∃ b ∈ a.element.layout [] a.path a.top,
          b.path = a.path ++ q ∧ b.element = c := ih hq
      refine ⟨b, ?_, ?_, hbc⟩
      · rw [layout_block]
        exact List.mem_cons_of_mem _
          (List.mem_flatMap.2 ⟨a, List.mem_of_getElem? ha, hb⟩)
      · rw [hp, (k.of_getElem?_row p top children ha).1, List.append_assoc,
          List.singleton_append]
    | _ => simp [get?] at h

/-- **A layout places every element of the tree**, each with its path. -/
theorem mem_layout_iff_get? {c : Element} {q : Path} :
    (∃ b ∈ e.layout [] [] top, b.path = q ∧ b.element = c) ↔ e.get? q = some c := by
  constructor
  · rintro ⟨b, hb, rfl, rfl⟩
    obtain ⟨q, hq, hg⟩ := get?_of_mem_layout hb
    rwa [hq]
  · exact exists_mem_layout_of_get?

/-- No path is placed twice. -/
theorem nodup_map_path_layout : ((e.layout [] p top).map Placed.path).Nodup := by
  induction e using Element.induction generalizing p top with
  | leaf e he =>
    rw [layout_leaf he]
    exact List.nodup_singleton p
  | block k children ih =>
    -- The elements of the block are placed with longer paths than that of the block, and go on
    -- with indices of their own.
    have hpath : ∀ c ∈ k.row p top children, ∀ q ∈ c.layout.map Placed.path, c.path <+: q := by
      intro c _ q hq
      obtain ⟨b, hb, rfl⟩ := List.mem_map.1 hq
      obtain ⟨q, hq, -⟩ := get?_of_mem_layout hb
      exact ⟨q, hq.symm⟩
    have hindex := fun i c hi => (k.of_getElem?_row p top children (i := i) (c := c) hi).1
    rw [layout_block, List.map_cons, List.map_flatMap, List.nodup_cons]
    refine ⟨?_, List.nodup_flatMap.2 ⟨?_, ?_⟩⟩
    · intro hp
      obtain ⟨c, hc, hq⟩ := List.mem_flatMap.1 hp
      obtain ⟨i, hi⟩ := List.getElem?_of_mem hc
      have hle := (hpath c hc p hq).length_le
      rw [hindex i c hi, List.length_append, List.length_singleton] at hle
      omega
    · intro c hc
      exact ih c.element (BlockKind.of_mem_row hc).1
    · refine List.pairwise_iff_getElem.2 ?_
      intro i j hi hj hij q hqi hqj
      have hpi := hpath _ (List.getElem_mem hi) q hqi
      have hpj := hpath _ (List.getElem_mem hj) q hqj
      rw [hindex i _ (List.getElem?_eq_getElem hi)] at hpi
      rw [hindex j _ (List.getElem?_eq_getElem hj)] at hpj
      have he := List.prefix_of_prefix_length_le hpi hpj (by simp)
      have hl := he.eq_of_length (by simp)
      simp only [List.append_cancel_left_eq, List.cons.injEq, and_true] at hl
      omega

end Element

end SequenceDiagram
