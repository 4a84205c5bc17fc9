import SequenceDiagram.Layout

/-!
# Sound memories

A memory of heights is sound for a tree if every height in it is that of the block at its path.
Computing heights keeps a memory sound, and so does a change of the tree, because everything that
encloses the change is forgotten. A sound memory shows nowhere in a layout.

## Main definitions

* `Element.room`: the height of an element in user units, from its parts
* `Heights.Sound`: every remembered height is that of the block at its path

## Main results

* `Element.height_eq_room`: heights are what the fixed measures add up to
* `Heights.Sound.measure`: a height is computed right, and the memory stays sound
* `Heights.Sound.forget`: a memory stays sound when an element is added
* `Heights.Sound.layout_eq`: a layout from a sound memory is the one from an empty memory
-/

namespace SequenceDiagram

namespace Element

/-! ## Heights from their parts -/

mutual

/-- The height of an element in user units, from its parts. -/
def room : Element → Nat
  | signal s => 20 * s.text.length + 10 + if s.source = s.target then 20 else 0
  | note n => 20 * n.text.length + 15
  | separator _ => 30
  | block .sequence children => total (rooms children)
  | block .parallel children => (rooms children).max?.getD 0
  | block (.framed ..) children => 60 + total (rooms children)
  | block (.alternative _) children => 60 + total (rooms children)

/-- The heights of several elements. -/
def rooms : List Element → List Nat
  | [] => []
  | e :: es => e.room :: rooms es

end

theorem foldr_max_eq (hs : List Nat) : hs.foldr max 0 = hs.max?.getD 0 := by
  induction hs with
  | nil => rfl
  | cons h hs ih =>
    cases hs with
    | nil => simp
    | cons g gs =>
      rw [List.foldr_cons, ih, List.max?_cons]
      simp [List.max?_cons]

theorem le_foldr_max {h : Nat} {hs : List Nat} (hm : h ∈ hs) : h ≤ hs.foldr max 0 := by
  rw [foldr_max_eq]
  exact List.le_max?_getD_of_mem hm

mutual

/-- Heights are what the fixed measures add up to. -/
theorem height_eq_room : (e : Element) → e.height = e.room
  | signal s => by
    simp only [height, room, Signal.height, Metrics.textHeight_eq, Signal.isLoop,
      decide_eq_true_eq]
  | note n => by
    simp only [height, room, Note.height, Nat.mul_comm]
  | separator _ => rfl
  | block k children => by
    have hc := heights_eq_rooms children
    cases k with
    | parallel => simp only [height, room, BlockKind.height, hc, foldr_max_eq]
    | _ => simp only [height, room, BlockKind.height, hc]

theorem heights_eq_rooms : (es : List Element) → heights es = rooms es
  | [] => rfl
  | e :: es => by rw [heights, rooms, height_eq_room e, heights_eq_rooms es]

end

/-! ## Paths -/

/-- A path that goes on inside an element. -/
theorem get?_append_path (e : Element) (p q : Path) :
    e.get? (p ++ q) = (e.get? p).bind fun c => c.get? q := by
  induction p generalizing e with
  | nil => simp
  | cons i p ih =>
    cases e with
    | block k children =>
      simp only [List.cons_append, get?_block_cons, Option.bind_assoc, ih]
    | _ => rfl

/-- The elements stand in the tree from an index on of the block at a path. -/
def HasRow (root : Element) (p : Path) (i : Nat) (es : List Element) : Prop :=
  ∀ j c, es[j]? = some c → root.get? (p ++ [i + j]) = some c

namespace HasRow

variable {root e : Element} {p : Path} {i : Nat} {es : List Element}

theorem head (h : root.HasRow p i (e :: es)) : root.get? (p ++ [i]) = some e := h 0 e rfl

theorem tail (h : root.HasRow p i (e :: es)) : root.HasRow p (i + 1) es := by
  intro j c hj
  rw [Nat.add_assoc, Nat.add_comm 1 j]
  exact h (j + 1) c (by simpa using hj)

end HasRow

theorem hasRow_children {root : Element} {p : Path} {k : BlockKind} {children : List Element}
    (h : root.get? p = some (.block k children)) : root.HasRow p 0 children := by
  intro j c hj
  rw [get?_append_path, h]
  simp [hj]

/-- An element that does not enclose a change is left as it is. -/
theorem get?_append_of_not_prefix {e c : Element} {p q : Path} (hq : ¬ q <+: p)
    (hc : e.get? q = some c) (new : Element) : (e.append p new).get? q = some c := by
  -- Along the change as long as the two paths agree. Where they part, the element is behind an
  -- index at which nothing changes.
  induction p generalizing e q with
  | nil =>
    cases q with
    | nil => simp at hq
    | cons j q =>
      cases e with
      | block k children =>
        obtain ⟨b, hb, hbc⟩ := Option.bind_eq_some_iff.1 hc
        have hj : (children ++ [new])[j]? = some b := by
          rw [List.getElem?_append_left (List.getElem?_eq_some_iff.1 hb).1, hb]
        simp [hj, hbc]
      | _ => simp [get?] at hc
  | cons i p ih =>
    cases q with
    | nil => simp at hq
    | cons j q =>
      cases e with
      | block k children =>
        obtain ⟨b, hb, hbc⟩ := Option.bind_eq_some_iff.1 hc
        by_cases hij : i = j
        · subst hij
          simpa [hb] using ih (fun h => hq (List.cons_prefix_cons.2 ⟨rfl, h⟩)) hbc
        · simp [hij, hb, hbc]
      | _ => simp [get?] at hc

/-- An element that encloses a change, or is changed, takes it up at the rest of the path. -/
theorem get?_append_along (e new : Element) (q r : Path) :
    (e.append (q ++ r) new).get? q = (e.get? q).map fun c => c.append r new := by
  induction q generalizing e with
  | nil => simp
  | cons i q ih =>
    cases e with
    | block k children =>
      cases hc : children[i]? <;> simp [hc, ih]
    | _ => rfl

@[simp] theorem kind?_append (e new : Element) (p : Path) : (e.append p new).kind? = e.kind? := by
  cases e <;> cases p <;> rfl

/-- An addition leaves every element at its path, as the kind of element that it is. -/
theorem exists_get?_append {e c : Element} {q : Path} (hc : e.get? q = some c) (p : Path)
    (new : Element) : ∃ c', (e.append p new).get? q = some c' ∧ c'.kind? = c.kind? := by
  by_cases hq : q <+: p
  · obtain ⟨r, rfl⟩ := hq
    rw [get?_append_along, hc]
    exact ⟨_, rfl, kind?_append ..⟩
  · exact ⟨c, get?_append_of_not_prefix hq hc new, rfl⟩

end Element

namespace Heights

variable {m : Heights} {root e : Element} {p : Path}

/-- Every remembered height is that of the block at its path. -/
def Sound (m : Heights) (root : Element) : Prop :=
  ∀ p h, m.lookup p = some h → ∃ e, root.get? p = some e ∧ e.height = h

theorem sound_nil (root : Element) : Sound [] root := fun _ _ h => by simp at h

namespace Sound

theorem height_of_lookup {h : Nat} (hm : m.Sound root) (he : root.get? p = some e)
    (hl : m.lookup p = some h) : h = e.height := by
  obtain ⟨c, hc, rfl⟩ := hm p h hl
  rw [Option.some.inj (he.symm.trans hc)]

/-- A height that is read from a sound memory is right. -/
theorem read_eq (hm : m.Sound root) (he : root.get? p = some e) : m.read p e = e.height := by
  unfold read
  cases hl : m.lookup p with
  | none => rfl
  | some h => exact hm.height_of_lookup he hl

/-- A height may be remembered once it is right. -/
theorem cons (hm : m.Sound root) (he : root.get? p = some e) :
    Sound ((p, e.height) :: m) root := by
  intro q h hl
  rw [List.lookup_cons] at hl
  by_cases hq : q = p
  · subst hq
    exact ⟨e, he, by simpa using hl⟩
  · exact hm q h (by simpa [beq_false_of_ne hq] using hl)

mutual

/-- **A height is computed right, and the memory stays sound.** -/
theorem measure {m : Heights} {p : Path} (hm : m.Sound root) :
    (e : Element) → root.get? p = some e →
      (m.measure p e).1 = e.height ∧ (m.measure p e).2.Sound root
  | .signal _, _ => ⟨rfl, hm⟩
  | .note _, _ => ⟨rfl, hm⟩
  | .separator _, _ => ⟨rfl, hm⟩
  | .block k children, he => by
    rw [Heights.measure]
    cases hl : m.lookup p with
    | some h => exact ⟨hm.height_of_lookup he hl, hm⟩
    | none =>
      obtain ⟨hh, hs⟩ := measureAll hm 0 children (Element.hasRow_children he)
      have hk : k.height (m.measureAll p 0 children).1 = (Element.block k children).height := by
        rw [hh, Element.height_block]
      refine ⟨hk, ?_⟩
      simp only [hk]
      exact hs.cons he

theorem measureAll {m : Heights} {p : Path} (hm : m.Sound root) (i : Nat) :
    (es : List Element) → root.HasRow p i es →
      (m.measureAll p i es).1 = es.map Element.height ∧ (m.measureAll p i es).2.Sound root
  | [], _ => ⟨rfl, hm⟩
  | e :: es, h => by
    obtain ⟨hh, hs⟩ := measure hm e h.head
    obtain ⟨hhs, hss⟩ := measureAll hs (i + 1) es h.tail
    exact ⟨by simp only [Heights.measureAll, hh, hhs, List.map_cons], hss⟩

end

/-- **A memory stays sound when an element is added**: all that encloses the new element is
forgotten, and all else is as high as before. -/
theorem forget (hm : m.Sound root) (p : Path) (new : Element) :
    (m.forget p).Sound (root.append p new) := by
  intro q h hl
  rw [lookup_forget] at hl
  split at hl
  · simp at hl
  · rename_i hq
    obtain ⟨c, hc, rfl⟩ := hm q h hl
    exact ⟨c, Element.get?_append_of_not_prefix hq hc new, rfl⟩

mutual

/-- **A sound memory shows nowhere in a layout.** -/
theorem layout_eq (hm : m.Sound root) {p : Path} (top : Quantity) :
    (e : Element) → root.get? p = some e → e.layout m p top = e.layout [] p top
  | .signal _, _ => by simp [Element.layout, hm.read_eq ‹_›]
  | .note _, _ => by simp [Element.layout, hm.read_eq ‹_›]
  | .separator _, _ => by simp [Element.layout, hm.read_eq ‹_›]
  | .block k children, he => by
    have hrow := Element.hasRow_children he
    have hr : (children.mapIdx fun i e => m.read (p ++ [i]) e) =
        children.mapIdx fun i e => read [] (p ++ [i]) e := by
      refine List.mapIdx_eq_mapIdx_iff.2 fun i hi => ?_
      exact hm.read_eq (by simpa using hrow i _ (List.getElem?_eq_getElem hi))
    simp only [Element.layout, hr, hm.read_eq he, read_nil, layoutAll_eq hm _ 0 children hrow]

theorem layoutAll_eq (hm : m.Sound root) {p : Path} (tops : List Quantity) (i : Nat) :
    (es : List Element) → root.HasRow p i es →
      Element.layoutAll m p i tops es = Element.layoutAll [] p i tops es
  | [], _ => by cases tops <;> rfl
  | e :: es, h => by
    cases tops with
    | nil => rfl
    | cons top tops =>
      rw [Element.layoutAll, Element.layoutAll, layout_eq hm top e h.head,
        layoutAll_eq hm tops (i + 1) es h.tail]

end

end Sound

end Heights

end SequenceDiagram
