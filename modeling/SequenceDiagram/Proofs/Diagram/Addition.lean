import SequenceDiagram.Proofs.Diagram.Session

/-!
# Heights after an addition

An element that is added to a block makes the block higher, and those around it, by no more than its
own height. It makes them higher by exactly its height as long as heights are added up on the way,
that is, up to the innermost block whose elements stand side by side. Nothing else changes its
height.

## Main results

* `BlockKind.height_concat`, `BlockKind.height_set`: one element more, and one that grows
* `Element.height_append`: the height of a tree with an element more
* `heightAt_addAt`: the heights of a diagram after an addition
-/

namespace SequenceDiagram

/-! ## Heights of blocks -/

theorem total_set {hs : List Nat} {i a b : Nat} (h : hs[i]? = some a) :
    total (hs.set i b) + a = total hs + b := by
  induction hs generalizing i with
  | nil => simp at h
  | cons g hs ih =>
    cases i with
    | zero =>
      obtain rfl : g = a := by simpa using h
      simp only [List.set_cons_zero, total_cons]
      omega
    | succ i =>
      have hi := ih (by simpa using h)
      simp only [List.set_cons_succ, total_cons]
      omega

/-- The greatest of some heights grows with one of them, but by no more. -/
theorem foldr_max_set {hs : List Nat} {i a b n : Nat} (h : hs[i]? = some a) (hab : a ≤ b)
    (hbn : b ≤ a + n) :
    hs.foldr max 0 ≤ (hs.set i b).foldr max 0 ∧
      (hs.set i b).foldr max 0 ≤ hs.foldr max 0 + n := by
  induction hs generalizing i with
  | nil => simp at h
  | cons g hs ih =>
    cases i with
    | zero =>
      obtain rfl : g = a := by simpa using h
      simp only [List.set_cons_zero, List.foldr_cons]
      omega
    | succ i =>
      have hi := ih (by simpa using h)
      simp only [List.set_cons_succ, List.foldr_cons]
      omega

theorem foldr_max_concat (hs : List Nat) (n : Nat) :
    (hs ++ [n]).foldr max 0 = max (hs.foldr max 0) n := by
  induction hs with
  | nil => simp
  | cons g hs ih => rw [List.cons_append, List.foldr_cons, ih, List.foldr_cons, Nat.max_assoc]

namespace BlockKind

variable (k : BlockKind)

/-- A block with one element more is higher by no more than the element, and by exactly that unless
its elements stand side by side. -/
theorem height_concat (hs : List Nat) (n : Nat) :
    k.height hs ≤ k.height (hs ++ [n]) ∧ k.height (hs ++ [n]) ≤ k.height hs + n ∧
      (k ≠ .parallel → k.height (hs ++ [n]) = k.height hs + n) := by
  cases k with
  | parallel =>
    simp only [height, foldr_max_concat, ne_eq, not_true_eq_false, false_implies, and_true]
    omega
  | sequence | framed | alternative =>
    simp only [height, total_append, total_cons, total_nil]
    omega

/-- A block with an element that grows is higher by no more than the element is, and by exactly that
unless its elements stand side by side. -/
theorem height_set {hs : List Nat} {i a b n : Nat} (h : hs[i]? = some a) (hab : a ≤ b)
    (hbn : b ≤ a + n) :
    k.height hs ≤ k.height (hs.set i b) ∧ k.height (hs.set i b) ≤ k.height hs + n ∧
      (k ≠ .parallel → b = a + n → k.height (hs.set i b) = k.height hs + n) := by
  have ht := total_set (b := b) h
  cases k with
  | parallel =>
    obtain ⟨hle, hge⟩ := foldr_max_set h hab hbn
    exact ⟨hle, hge, fun hk => absurd rfl hk⟩
  | sequence | framed | alternative =>
    simp only [height]
    omega

end BlockKind

/-! ## Heights of trees -/

namespace Element

/-- The rooms of elements one of which changes. -/
theorem map_height_modify {es : List Element} {i : Nat} {c : Element} (h : es[i]? = some c)
    (f : Element → Element) :
    (es.modify i f).map height = (es.map height).set i (f c).height := by
  refine List.ext_getElem? fun j => ?_
  rw [List.getElem?_map, List.getElem?_modify, List.getElem?_set, List.getElem?_map]
  by_cases hij : i = j
  · subst hij
    obtain ⟨hlt, rfl⟩ := List.getElem?_eq_some_iff.1 h
    simp [hlt]
  · simp [hij]

/-- **A tree with an element more** is higher by no more than the element, and by exactly that if no
block from the outermost one down to that of the element has its elements side by side. -/
theorem height_append {e : Element} {p : Path} {k : BlockKind} {children : List Element}
    (h : e.get? p = some (block k children)) (new : Element) :
    e.height ≤ (e.append p new).height ∧
      (e.append p new).height ≤ e.height + new.height ∧
      ((∀ q, q <+: p → (e.get? q).bind kind? ≠ some .parallel) →
        (e.append p new).height = e.height + new.height) := by
  -- By induction on the path: the element is added to the block itself, or to one of its elements,
  -- which grows.
  induction p generalizing e with
  | nil =>
    obtain rfl : e = block k children := by simpa using h
    obtain ⟨hle, hge, heq⟩ := k.height_concat (children.map height) new.height
    simp only [append_block_nil, height_block, List.map_append, List.map_cons, List.map_nil]
    refine ⟨hle, hge, fun hp => heq fun hk => ?_⟩
    exact hp [] List.nil_prefix (by simp [kind?, hk])
  | cons i p ih =>
    cases e with
    | block k' es =>
      obtain ⟨c, hc, hcp⟩ := Option.bind_eq_some_iff.1 h
      obtain ⟨hcle, hcge, hceq⟩ := ih hcp
      have hi : (es.map height)[i]? = some c.height := by simp [hc]
      obtain ⟨hle, hge, heq⟩ := k'.height_set hi hcle hcge
      rw [append_block_cons, height_block, height_block, map_height_modify hc]
      refine ⟨hle, hge, fun hp => heq (fun hk => ?_) (hceq fun q hq => ?_)⟩
      · exact hp [] List.nil_prefix (by simp [kind?, hk])
      · have hiq := hp (i :: q) (List.cons_prefix_cons.2 ⟨rfl, hq⟩)
        simpa [hc] using hiq
    | _ => simp [get?] at h

end Element

/-! ## Heights of diagrams -/

namespace Diagram

variable {d : Diagram} {p q : Path} {k : BlockKind} {children : List Element}

/-- A block around the place of an addition, or the block at that place itself, is higher by no more
than the new element, and by exactly that if there is no parallel block from it down to the
place. -/
theorem MemorySound.heightAt_along (hm : d.MemorySound)
    (hp : d.element? p = some (.block k children)) (new : Element) (hq : q <+: p) :
    (d.heightAt q).1 ≤ ((d.addAt p new).heightAt q).1 ∧
      ((d.addAt p new).heightAt q).1 ≤ (d.heightAt q).1 + new.height ∧
      ((∀ s, q <+: s → s <+: p → (d.element? s).bind Element.kind? ≠ some .parallel) →
        ((d.addAt p new).heightAt q).1 = (d.heightAt q).1 + new.height) := by
  -- The place is reached from the block around it by the rest of the path, along which the block
  -- takes the addition up. Both diagrams give the heights of their own trees.
  obtain ⟨r, rfl⟩ := hq
  obtain ⟨e, he, hr⟩ := Option.bind_eq_some_iff.1 ((d.root.get?_append_path q r).symm.trans hp)
  have he' : (d.addAt (q ++ r) new).element? q = some (e.append r new) := by
    rw [element?, root_addAt, Element.get?_append_along, he, Option.map_some]
  rw [(hm.heightAt q).1 e he, ((hm.addAt (q ++ r) new).heightAt q).1 _ he']
  obtain ⟨hle, hge, heq⟩ := Element.height_append hr new
  refine ⟨hle, hge, fun hs => heq fun t ht => ?_⟩
  have hqt := hs (q ++ t) (List.prefix_append q t) ((List.prefix_append_right_inj q).2 ht)
  rwa [element?, Element.get?_append_path, he, Option.bind_some] at hqt

end Diagram

/-- **An addition moves the heights around it only, and by no more than the new element.** After any
session, an element is put at the end of a block. Every element that is not around the place keeps
its height, and the new one with all that is in it has its own. The block and those around it become
higher by no more than the new element, and by exactly that where no parallel block is between,
neither the block around nor the one at the place being one. All these are heights that the diagram
gives when asked, from what it remembers. -/
theorem heightAt_addAt (operations : List Operation) {p : Path} {k : BlockKind}
    {children : List Element} (hp : (session operations).element? p = some (.block k children))
    (new : Element) :
    let d := session operations
    let d' := d.addAt p new
    (∀ q e, d.element? q = some e → ¬ q <+: p →
        d'.element? q = some e ∧ (d'.heightAt q).1 = (d.heightAt q).1) ∧
      (∀ r e, new.get? r = some e → d'.element? (p ++ children.length :: r) = some e ∧
        (d'.heightAt (p ++ children.length :: r)).1 = e.height) ∧
      ∀ q, q <+: p →
        (d.heightAt q).1 ≤ (d'.heightAt q).1 ∧
        (d'.heightAt q).1 ≤ (d.heightAt q).1 + new.height ∧
        ((∀ s, q <+: s → s <+: p → (d.element? s).bind Element.kind? ≠ some .parallel) →
          (d'.heightAt q).1 = (d.heightAt q).1 + new.height) := by
  intro d d'
  have hm : d.MemorySound := memorySound_session operations
  have hm' : d'.MemorySound := hm.addAt p new
  refine ⟨?_, ?_, fun q hq => hm.heightAt_along hp new hq⟩
  · intro q e he hq
    have he' : d'.element? q = some e := by
      rw [Diagram.element?, Diagram.root_addAt]
      exact Element.get?_append_of_not_prefix hq he new
    exact ⟨he', by rw [(hm'.heightAt q).1 e he', (hm.heightAt q).1 e he]⟩
  · intro r e he
    have he' : d'.element? (p ++ children.length :: r) = some e := by
      rw [Diagram.element?, Diagram.root_addAt, Element.get?_append_path,
        Element.get?_append_self hp new]
      simp [he]
    exact ⟨he', (hm'.heightAt _).1 e he'⟩

/-- A message is added to an alternative beside a note of four lines, whose parallel block is
higher. -/
theorem heightAt_addAt_alternative :
    let d := session [.openBlock (.framed "opt" ""), .openBlock .parallel,
      .addNote ⟨"A", ["1", "2", "3", "4"]⟩, .openBlock (.alternative "x"), .measure []]
    let d' := d.addAt [0, 0, 1] (.signal { source := "A", target := "B", text := ["m"] })
    d.element? [0, 0, 1] = some (.block (.alternative "x") []) ∧
      (d'.heightAt [0, 0, 1]).1 = (d.heightAt [0, 0, 1]).1 + 30 ∧
      (d'.heightAt [0, 0, 0]).1 = (d.heightAt [0, 0, 0]).1 ∧
      (d'.heightAt [0, 0]).1 ≤ (d.heightAt [0, 0]).1 + 30 ∧
      (d.heightAt [0, 0]).1 = 95 ∧ (d'.heightAt [0, 0]).1 = 95 := by
  intro d d'
  have hp : d.element? [0, 0, 1] = some (.block (.alternative "x") []) := rfl
  obtain ⟨hapart, -, halong⟩ := heightAt_addAt _ hp
    (.signal { source := "A", target := "B", text := ["m"] })
  have hnote := (hapart [0, 0, 0] _ rfl (by decide)).2
  have hblock := (halong [0, 0, 1] List.prefix_rfl).2.2 ?_
  · exact ⟨hp, hblock, hnote, (halong [0, 0] (by decide)).2.1, by decide, by decide⟩
  · intro s hs hs'
    obtain rfl := hs.eq_of_length_le hs'.length_le
    rw [hp]
    decide

end SequenceDiagram
