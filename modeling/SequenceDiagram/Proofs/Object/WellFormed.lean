import SequenceDiagram.Proofs.Object.Trace

/-!
# References that agree

Objects that stand for a diagram are reached along the same paths as what they stand for, and their
references agree with each other.

## Main results

* `Store.Traces.item?_eq_container_iff`: a block is reached along its path only
* `Store.Traces.own?_item?`: along every path, objects and diagram have the same
* `Store.Traces.wellFormed`: the references of the objects agree with each other
-/

namespace SequenceDiagram.Store

variable {s : Store} {d : Diagram} {paths : List Path}

/-- A path that goes on by an index. -/
theorem item?_concat (s : Store) (p : Path) (i : Nat) :
    s.item? (p ++ [i]) = (s.item? p).bind fun x => s.get? x [i] := by
  rw [item?, item?]
  generalize Item.container 0 = x
  induction p generalizing x with
  | nil => simp [get?]
  | cons j p ih =>
    cases x with
    | container c =>
      simp only [List.cons_append, get?, Option.bind_assoc, ih]
    | _ => rfl

theorem get?_container (s : Store) (c i : Nat) :
    s.get? (.container c) [i] = (s.containers[c]?).bind fun y => y.items[i]? := by
  simp [get?]

/-- Only blocks have items. -/
theorem get?_singleton_of_ne {x : Item} (hx : ∀ c, x ≠ .container c) (i : Nat) :
    s.get? x [i] = none := by
  cases x with
  | container c => exact absurd rfl (hx c)
  | _ => rfl

/-- Only blocks are blocks by themselves. -/
theorem exists_container_of_own? {x : Item} {k : BlockKind} {children : List Element}
    (hx : s.own? x = some (.block k children)) : ∃ c, x = .container c := by
  cases x with
  | signal a b text dotted double openHead => simp [own?, Option.bind_eq_some_iff] at hx
  | note r text => simp [own?] at hx
  | separator condition b => simp [own?] at hx
  | container c => exact ⟨c, rfl⟩

namespace Traces

variable (h : s.Traces d paths)
include h

/-- **A block is reached along its path only.** -/
theorem item?_eq_container_iff {c : Nat} {p : Path} :
    s.item? p = some (.container c) ↔ paths[c]? = some p := by
  induction p using List.reverseRecOn generalizing c with
  | nil =>
    have hnil : s.item? [] = some (.container 0) := by simp [item?, get?]
    rw [hnil]
    constructor
    · intro hc
      obtain rfl : 0 = c := by simpa using hc
      exact h.root
    · intro hc
      rw [h.eq_of_getElem?_eq_some hc h.root]
  | append_singleton p i ih =>
    rw [item?_concat]
    constructor
    · intro hc
      obtain ⟨x, hx, hi⟩ := Option.bind_eq_some_iff.1 hc
      cases x with
      | container b =>
        have hb := ih.1 hx
        rw [get?_container] at hi
        obtain ⟨y, hy, hi⟩ := Option.bind_eq_some_iff.1 hi
        exact (h.stands b y p hy hb).inner i c hi
      | _ => simp [get?] at hi
    · intro hc
      obtain ⟨y, hy⟩ := h.exists_container hc
      obtain ⟨b, x, -, hb, hx, hi⟩ := (h.stands c y _ hy hc).parent p i rfl
      rw [ih.2 hb, Option.bind_some, get?_container, hx, Option.bind_some, hi]

/-- **Along every path, objects and diagram have the same.** -/
theorem own?_item? (p : Path) :
    (s.item? p).bind s.own? = (d.element? p).map Element.own := by
  induction p using List.reverseRecOn with
  | nil =>
    obtain ⟨y, hy⟩ := h.exists_container h.root
    obtain ⟨children, he, -⟩ := (h.stands 0 y [] hy h.root).block
    rw [h.item?_eq_container_iff.2 h.root, he]
    simp [own?, kind?, hy, Element.own]
  | append_singleton p i ih =>
    have helement : d.element? (p ++ [i]) = (d.element? p).bind fun e => e.get? [i] :=
      Element.get?_append_path ..
    rw [item?_concat, helement]
    cases hx : s.item? p with
    | none =>
      -- Nothing is there in the diagram either.
      have hnone : d.element? p = none := by simpa [hx] using ih.symm
      simp [hnone]
    | some x =>
      by_cases hc : ∃ c, x = .container c
      · obtain ⟨c, rfl⟩ := hc
        have hp := h.item?_eq_container_iff.1 hx
        obtain ⟨y, hy⟩ := h.exists_container hp
        obtain ⟨children, he, ho⟩ := (h.stands c y p hy hp).block
        have hi := congrArg (·[i]?) ho
        simp only [List.getElem?_map, Option.map_map] at hi
        rw [Option.bind_some, get?_container, hy, he]
        cases hxi : y.items[i]? <;> cases hei : children[i]? <;> simp_all
      · rw [not_exists] at hc
        rw [Option.bind_some, get?_singleton_of_ne hc]
        cases he : d.element? p with
        | none => rfl
        | some e =>
          cases e with
          | block k children =>
            rw [hx, he] at ih
            obtain ⟨c, hxc⟩ := exists_container_of_own? ih
            exact absurd hxc (hc c)
          | _ => rfl

/-- Where the diagram has a block, there is one. -/
theorem exists_container_of_block {p : Path} {k : BlockKind} {children : List Element}
    (he : d.element? p = some (.block k children)) : ∃ c, s.item? p = some (.container c) := by
  have hown := h.own?_item? p
  rw [he] at hown
  obtain ⟨x, hx, hxe⟩ := Option.bind_eq_some_iff.1 hown
  obtain ⟨c, rfl⟩ := exists_container_of_own? hxe
  exact ⟨c, hx⟩

/-- A separator of the diagram refers to the block that it is in, and is one deeper. -/
theorem exists_owner {p : Path} {condition : String}
    (he : d.element? p = some (.separator condition)) :
    ∃ (c : Nat) (y : Container), s.item? p = some (.separator condition c) ∧
      s.item? p.dropLast = some (.container c) ∧ s.containers[c]? = some y ∧
      p.length = y.depth + 1 := by
  have hown := h.own?_item? p
  rw [he] at hown
  obtain ⟨x, hx, hxe⟩ := Option.bind_eq_some_iff.1 hown
  obtain ⟨c, rfl⟩ : ∃ c, x = .separator condition c := by
    cases x with
    | signal a b text dotted double openHead =>
      simp [own?, Option.bind_eq_some_iff, Element.own] at hxe
    | note r text => simp [own?, Element.own] at hxe
    | separator condition' c =>
      obtain rfl : condition' = condition := by simpa [own?, Element.own] using hxe
      exact ⟨c, rfl⟩
    | container c => simp [own?, Element.own] at hxe
  induction p using List.reverseRecOn with
  | nil => simp [item?, get?] at hx
  | append_singleton q i _ =>
    have hx' := hx
    rw [item?_concat] at hx'
    obtain ⟨z, hz, hi⟩ := Option.bind_eq_some_iff.1 hx'
    cases z with
    | container b =>
      have hb := h.item?_eq_container_iff.1 hz
      rw [get?_container] at hi
      obtain ⟨y, hy, hi⟩ := Option.bind_eq_some_iff.1 hi
      have hs := h.stands b y q hy hb
      obtain rfl := hs.owner condition c (List.mem_of_getElem? hi)
      refine ⟨c, y, hx, ?_, hy, ?_⟩
      · rw [List.dropLast_concat]
        exact hz
      · rw [List.length_append, hs.depth]
        rfl
    | _ => simp [get?] at hi

/-- The path of a block. -/
theorem exists_path {c : Nat} {y : Container} (hy : s.containers[c]? = some y) :
    ∃ q, paths[c]? = some q := by
  have hlt := (List.getElem?_eq_some_iff.1 hy).1
  rw [← h.length] at hlt
  exact ⟨_, List.getElem?_eq_getElem hlt⟩

/-- **The references of the objects agree with each other.** -/
theorem wellFormed : s.WellFormed where
  outermost := by
    obtain ⟨y, hy⟩ := h.exists_container h.root
    have hs := h.stands 0 y [] hy h.root
    exact ⟨y, hy, hs.outermost rfl, hs.depth⟩
  once c y hy := by
    obtain ⟨q, hq⟩ := h.exists_path hy
    refine ⟨⟨q, h.item?_eq_container_iff.2 hq, fun p hp => ?_⟩, fun p hp => ?_⟩
    · exact Option.some.inj ((h.item?_eq_container_iff.1 hp).symm.trans hq)
    · exact (h.stands c y p hy (h.item?_eq_container_iff.1 hp)).depth
  parent c y hpos hy := by
    obtain ⟨q, hq⟩ := h.exists_path hy
    have hne : q ≠ [] := by
      rintro rfl
      have := h.eq_of_getElem?_eq_some hq h.root
      omega
    obtain ⟨q', i, rfl⟩ : ∃ q' i, q = q' ++ [i] :=
      ⟨q.dropLast, q.getLast hne, (List.dropLast_concat_getLast hne).symm⟩
    obtain ⟨b, x, hyb, hb, hx, hxi⟩ := (h.stands c y _ hy hq).parent q' i rfl
    refine ⟨b, x, i, hyb, hx, hxi, ?_⟩
    intro b' x' i' hx' hi'
    obtain ⟨q'', hq''⟩ := h.exists_path hx'
    have hc := (h.stands b' x' q'' hx' hq'').inner i' c hi'
    obtain ⟨rfl, hii⟩ := List.append_inj' (Option.some.inj (hq.symm.trans hc)) rfl
    exact ⟨h.eq_of_getElem?_eq_some hq'' hb, by simpa using hii.symm⟩
  active := ⟨d.active, h.item?_eq_container_iff.2 h.active⟩
  table := by
    rw [h.table, List.zipIdx_map_fst]
    refine ⟨h.names, ?_, ?_⟩
    · rintro ⟨name, r⟩ he
      rw [h.name?_eq]
      exact List.mem_zipIdx_iff_getElem?.1 he
    · intro r name hr
      rw [List.mem_zipIdx_iff_getElem?, ← h.name?_eq, hr]
  participants c y hy x hx r hr := by
    obtain ⟨q, hq⟩ := h.exists_path hy
    obtain ⟨children, -, ho⟩ := (h.stands c y q hy hq).block
    obtain ⟨e, -, he⟩ : ∃ e ∈ children.map Element.own, some e = s.own? x :=
      List.mem_map.1 (ho ▸ List.mem_map_of_mem hx)
    have hname : ∃ name, s.name? r = some name := by
      cases x with
      | signal a b text dotted double openHead =>
        obtain ⟨source, hs, target, ht, -⟩ : ∃ source, s.name? a = some source ∧
            ∃ target, s.name? b = some target ∧ _ := by
          simpa [own?, Option.bind_eq_some_iff] using he.symm
        have hr : r = a ∨ r = b := by simpa [Item.participants] using hr
        rcases hr with rfl | rfl
        · exact ⟨source, hs⟩
        · exact ⟨target, ht⟩
      | note a text =>
        obtain ⟨name, hn, -⟩ := Option.map_eq_some_iff.1 he.symm
        rw [List.mem_singleton.1 hr]
        exact ⟨name, hn⟩
      | separator condition b => simp [Item.participants] at hr
      | container b => simp [Item.participants] at hr
    obtain ⟨name, hn⟩ := hname
    exact ⟨name, hn, h.lookup_eq_some_iff.2 hn⟩
  owner c y hy condition b hb := by
    obtain ⟨q, hq⟩ := h.exists_path hy
    exact (h.stands c y q hy hq).owner condition b hb

end Traces

end SequenceDiagram.Store
