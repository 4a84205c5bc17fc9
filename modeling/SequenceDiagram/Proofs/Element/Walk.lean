import SequenceDiagram.Element.Basic

/-!
# Walks through a tree

A walk through a tree from its beginning to its end meets every leaf once and every block twice,
when it is entered and when it is left. What holds of every element together with the kind of
the block it stands in holds throughout the tree.

## Main definitions

* `Event`, `Element.walk`: the events of a walk through an element
* `Event.element?`: the element that an event is about
* `Element.Throughout`: a property of every element in a tree and the kind of block around it

## Main results

* `Element.mem_walk_of_get?`: a walk meets every element of the tree
* `Element.Throughout.of_get?`: an element at a path has the property in the block that holds it
-/

namespace SequenceDiagram

mutual

/-- What holds of leaves, and of a block if it holds of its elements, holds of every element. -/
@[elab_as_elim]
protected theorem Element.induction {P : Element → Prop} (leaf : ∀ e, e.kind? = none → P e)
    (block : ∀ k children, (∀ c ∈ children, P c) → P (.block k children)) : (e : Element) → P e
  | .signal s => leaf (.signal s) rfl
  | .note n => leaf (.note n) rfl
  | .separator c => leaf (.separator c) rfl
  | .block k children => block k children (Element.forall_mem_induction leaf block children)

/-- What holds of every element holds of the elements of a list. -/
protected theorem Element.forall_mem_induction {P : Element → Prop}
    (leaf : ∀ e, e.kind? = none → P e)
    (block : ∀ k children, (∀ c ∈ children, P c) → P (.block k children)) :
    (es : List Element) → ∀ c ∈ es, P c
  | [] => fun _ h => absurd h List.not_mem_nil
  | e :: es => List.forall_mem_cons.2
    ⟨Element.induction leaf block e, Element.forall_mem_induction leaf block es⟩

end

/-- What a walk through a tree meets. -/
inductive Event where
  | signal (signal : Signal)
  | note (note : Note)
  | separator (condition : String)
  | enter (kind : BlockKind)
  | leave (kind : BlockKind)

/-- The element that an event is about, if it is not a block. -/
def Event.element? : Event → Option Element
  | signal s => some (.signal s)
  | note n => some (.note n)
  | separator c => some (.separator c)
  | enter _ | leave _ => none

namespace Element

mutual

/-- The events of a walk through an element. -/
def walk : Element → List Event
  | signal s => [.signal s]
  | note n => [.note n]
  | separator c => [.separator c]
  | block k children => .enter k :: (walkAll children ++ [.leave k])

/-- The events of a walk through several elements. -/
def walkAll : List Element → List Event
  | [] => []
  | e :: es => e.walk ++ walkAll es

end

@[simp] theorem walkAll_eq_flatMap (es : List Element) : walkAll es = es.flatMap walk := by
  induction es with
  | nil => rfl
  | cons e es ih => simp [walkAll, ih]

@[simp] theorem walk_block (k : BlockKind) (children : List Element) :
    (block k children).walk = .enter k :: (children.flatMap walk ++ [.leave k]) := by
  rw [walk, walkAll_eq_flatMap]

/-- A walk through an element meets what a walk through an element in it meets. -/
theorem mem_walk_of_get? {e c : Element} {p : Path} {ev : Event} (h : e.get? p = some c)
    (hev : ev ∈ c.walk) : ev ∈ e.walk := by
  induction p generalizing e with
  | nil =>
    obtain rfl : e = c := by simpa using h
    exact hev
  | cons i p ih =>
    cases e with
    | block k children =>
      obtain ⟨b, hb, hc⟩ := Option.bind_eq_some_iff.1 h
      have hm : ev ∈ children.flatMap walk :=
        List.mem_flatMap.2 ⟨b, List.mem_of_getElem? hb, ih hc⟩
      simp [hm]
    | _ => simp [get?] at h

/-- The property `P` holds of an element in a block of kind `k`, and so on inside the element. -/
inductive Throughout (P : BlockKind → Element → Prop) : BlockKind → Element → Prop
  | intro {k : BlockKind} {e : Element} (here : P k e)
      (inside : ∀ inner, e.kind? = some inner → ∀ c ∈ e.children, Throughout P inner c) :
      Throughout P k e

namespace Throughout

variable {P : BlockKind → Element → Prop} {k : BlockKind} {e : Element}

theorem here (h : Throughout P k e) : P k e := by
  cases h with
  | intro here _ => exact here

theorem block {inner : BlockKind} {children : List Element} (here : P k (.block inner children))
    (inside : ∀ c ∈ children, Throughout P inner c) : Throughout P k (.block inner children) := by
  refine .intro here ?_
  intro k' hk' c hc
  obtain rfl : inner = k' := by simpa [kind?] using hk'
  exact inside c hc

theorem inside {inner : BlockKind} {children : List Element}
    (h : Throughout P k (.block inner children)) : ∀ c ∈ children, Throughout P inner c := by
  cases h with
  | intro _ inside => exact inside inner rfl

/-- Only blocks have elements inside. -/
theorem leaf (here : P k e) (he : e.kind? = none) : Throughout P k e := by
  refine .intro here ?_
  intro inner hk
  simp [he] at hk

/-- An element at a path stands in a block and has the property there. -/
theorem of_get? {p : Path} {i : Nat} {c : Element} (h : Throughout P k e)
    (hc : e.get? (p ++ [i]) = some c) :
    ∃ inner children, e.get? p = some (.block inner children) ∧ P inner c := by
  -- By induction on the path to the block, which leads from `e` into one of its elements.
  induction p generalizing k e with
  | nil =>
    cases e with
    | block inner children =>
      obtain ⟨b, hb, rfl⟩ : ∃ b, children[i]? = some b ∧ b = c := by
        simpa [Option.bind_eq_some_iff] using hc
      exact ⟨inner, children, get?_nil _, (h.inside b (List.mem_of_getElem? hb)).here⟩
    | _ => simp [get?] at hc
  | cons j p ih =>
    cases e with
    | block inner children =>
      obtain ⟨b, hb, hbc⟩ := Option.bind_eq_some_iff.1 (show
        (children[j]?.bind fun b => b.get? (p ++ [i])) = some c from hc)
      obtain ⟨k', cs, hg, hP⟩ := ih (h.inside b (List.mem_of_getElem? hb)) hbc
      exact ⟨k', cs, by simp [hb, hg], hP⟩
    | _ => simp [get?] at hc

end Throughout

end Element

end SequenceDiagram
