import SequenceDiagram.Proofs.Object.Basic

/-!
# Objects and paths

The objects of a diagram stand for what the diagram has at certain paths, and every change of the
objects is the same change of the diagram. Every block as an object has one path, which is fixed
when it is made; what refers to it is found at the path without its last index.

## Main definitions

* `Store.Extends`: objects that are still what they were
* `Store.Stands`: a block as an object, and the block at a path
* `Store.Traces`: the objects of a diagram and their paths

## Main results

* `Store.Traces.register`, `Store.Traces.add`, `Store.Traces.nest`: the changes, on both sides
* `Store.Traces.insert`: a whole tree that is put into a block
-/

namespace SequenceDiagram

/-! ## Additions to a tree -/

namespace Element

/-- An addition at a path goes to the end of the block at the path; any other block has, by
themselves, the same elements as before. -/
theorem exists_block_append (p : Path) (new : Element) {e : Element} {q : Path} {k : BlockKind}
    {children : List Element} (h : e.get? q = some (.block k children)) :
    ∃ children', (e.append p new).get? q = some (.block k children') ∧
      children'.map own = children.map own ++ if q = p then [new.own] else [] := by
  by_cases hq : q <+: p
  · obtain ⟨r, rfl⟩ := hq
    rw [get?_append_along, h, Option.map_some]
    cases r with
    | nil => exact ⟨children ++ [new], rfl, by simp⟩
    | cons i r =>
      refine ⟨children.modify i fun c => c.append r new, rfl, ?_⟩
      have hlen : q ≠ q ++ i :: r := by simp
      rw [if_neg hlen, List.append_nil]
      refine List.ext_getElem (by simp) fun j _ _ => ?_
      rw [List.getElem_map, List.getElem_map, List.getElem_modify]
      split <;> simp
  · refine ⟨children, get?_append_of_not_prefix hq h new, ?_⟩
    rw [if_neg (fun he : q = p => hq (he ▸ List.prefix_refl _)), List.append_nil]

/-- Where no block is, nothing is added. -/
theorem append_of_ne_block {e : Element} {p : Path}
    (h : ∀ k children, e.get? p ≠ some (.block k children)) (new : Element) :
    e.append p new = e := by
  induction p generalizing e with
  | nil =>
    cases e with
    | block k children => exact absurd (get?_nil _) (h k children)
    | _ => rfl
  | cons i p ih =>
    cases e with
    | block k children =>
      rw [append_block_cons]
      congr 1
      refine List.ext_getElem (by simp) fun j _ hj => ?_
      rw [List.getElem_modify]
      split
      · rename_i hij
        subst hij
        refine ih fun k' children' hc => h k' children' ?_
        rw [get?_block_cons, List.getElem?_eq_getElem hj, Option.bind_some, hc]
      · rfl
    | _ => rfl

theorem modify_length_append {α : Type} (as : List α) (a : α) (f : α → α) :
    (as ++ [a]).modify as.length f = as ++ [f a] := by
  induction as with
  | nil => rfl
  | cons b as ih => simp [ih]

/-- What is added inside an element that was added before might have been in it before. -/
theorem append_append {e new inner : Element} {p q : Path} {k : BlockKind}
    {children : List Element} (h : e.get? p = some (.block k children)) :
    (e.append p new).append (p ++ children.length :: q) inner =
      e.append p (new.append q inner) := by
  induction p generalizing e with
  | nil =>
    obtain rfl : e = .block k children := by simpa using h
    rw [append_block_nil, List.nil_append, append_block_cons, append_block_nil,
      modify_length_append]
  | cons i p ih =>
    cases e with
    | block k' es =>
      obtain ⟨b, hb, hp⟩ := Option.bind_eq_some_iff.1 h
      obtain ⟨hi, rfl⟩ := List.getElem?_eq_some_iff.1 hb
      rw [List.cons_append, append_block_cons, append_block_cons, append_block_cons,
        List.modify_modify_eq]
      congr 1
      refine List.ext_getElem (by simp) fun j _ _ => ?_
      simp only [List.getElem_modify]
      split
      · rename_i hij
        subst hij
        exact ih hp
      · rfl
    | _ => simp [get?] at h

end Element

namespace Store

variable {s s' : Store} {d d' : Diagram} {paths paths' : List Path}

/-- What is in a list is in a longer one, at the same place. -/
theorem getElem?_mono {α : Type} {as bs : List α} (h : as <+: bs) {i : Nat} {a : α}
    (ha : as[i]? = some a) : bs[i]? = some a := by
  obtain ⟨hi, rfl⟩ := List.getElem?_eq_some_iff.1 ha
  exact List.prefix_iff_getElem?.1 h i hi

/-! ## Objects that are still what they were -/

/-- Participants keep their names and blocks their kinds. -/
structure Extends (s s' : Store) : Prop where
  name? {r : Nat} {name : String} : s.name? r = some name → s'.name? r = some name
  kind? {c : Nat} {k : BlockKind} : s.kind? c = some k → s'.kind? c = some k

namespace Extends

theorem refl (s : Store) : s.Extends s := ⟨id, id⟩

theorem trans {s'' : Store} (h : s.Extends s') (h' : s'.Extends s'') : s.Extends s'' :=
  ⟨fun hn => h'.name? (h.name? hn), fun hk => h'.kind? (h.kind? hk)⟩

/-- What an item is by itself, it remains. -/
theorem own? (h : s.Extends s') {x : Item} {e : Element} (hx : s.own? x = some e) :
    s'.own? x = some e := by
  cases x with
  | signal a b text dotted double openHead =>
    obtain ⟨source, hs, target, ht, he⟩ : ∃ source, s.name? a = some source ∧
        ∃ target, s.name? b = some target ∧
          Element.signal { source, target, text, dotted, double, openHead } = e := by
      simpa [Store.own?, Option.bind_eq_some_iff] using hx
    simp [Store.own?, h.name? hs, h.name? ht, he]
  | note r text =>
    obtain ⟨name, hn, rfl⟩ := Option.map_eq_some_iff.1 hx
    simp [Store.own?, h.name? hn]
  | separator condition b => exact hx
  | container c =>
    obtain ⟨k, hk, rfl⟩ := Option.map_eq_some_iff.1 hx
    simp [Store.own?, h.kind? hk]

/-- What items are by themselves, they remain. -/
theorem map_own? (h : s.Extends s') {xs : List Item} {es : List Element}
    (hx : xs.map s.own? = es.map some) : xs.map s'.own? = es.map some := by
  induction xs generalizing es with
  | nil => simpa using hx
  | cons x xs ih =>
    cases es with
    | nil => simp at hx
    | cons e es =>
      obtain ⟨he, hes⟩ := List.cons.inj hx
      rw [List.map_cons, List.map_cons, h.own? he, ih hes]

end Extends

theorem own?_signal {a b : Nat} {x : Signal} (ha : s.name? a = some x.source)
    (hb : s.name? b = some x.target) :
    s.own? (.signal a b x.text x.dotted x.double x.openHead) = some (.signal x) := by
  simp [own?, ha, hb]

theorem own?_note {r : Nat} {n : Note} (hr : s.name? r = some n.participant) :
    s.own? (.note r n.text) = some (.note n) := by
  simp [own?, hr]

/-! ## Objects and what they stand for -/

/-- A block as an object stands for the block at a path: it is as deep, of the same kind and holds
the same, the blocks in it have the paths that go on from its own, the separators in it refer to it,
and it is in the block that it refers to. -/
structure Stands (s : Store) (d : Diagram) (paths : List Path) (c : Nat) (y : Container)
    (q : Path) : Prop where
  depth : y.depth = q.length
  block : ∃ children, d.element? q = some (.block y.kind children) ∧
    y.items.map s.own? = (children.map Element.own).map some
  inner : ∀ (i b : Nat), y.items[i]? = some (.container b) → paths[b]? = some (q ++ [i])
  owner : ∀ condition b, .separator condition b ∈ y.items → b = c
  outermost : q = [] → y.parent = none
  parent : ∀ q' i, q = q' ++ [i] → ∃ (b : Nat) (x : Container), y.parent = some b ∧
    paths[b]? = some q' ∧ s.containers[b]? = some x ∧ x.items[i]? = some (.container c)

/-- The objects of a diagram, where the block of every number has a path. -/
structure Traces (s : Store) (d : Diagram) (paths : List Path) : Prop where
  length : paths.length = s.containers.length
  nodup : paths.Nodup
  root : paths[0]? = some []
  stands : ∀ (c : Nat) y q, s.containers[c]? = some y → paths[c]? = some q →
    s.Stands d paths c y q
  active : paths[s.active]? = some d.active
  participants : s.participants = d.roster
  table : s.table = d.roster.names.zipIdx
  names : d.roster.names.Nodup
  counter : s.counter = d.counter

theorem traces_empty : empty.Traces .empty [[]] where
  length := rfl
  nodup := by simp
  root := rfl
  stands c y q hy hq := by
    obtain rfl : c = 0 := by
      have := (List.getElem?_eq_some_iff.1 hq).1
      simpa using this
    obtain rfl : { kind := .sequence, parent := none, depth := 0 } = y := by simpa [empty] using hy
    obtain rfl : [] = q := by simpa using hq
    exact ⟨rfl, ⟨[], rfl, rfl⟩, by simp, by simp, fun _ => rfl, by simp⟩
  active := rfl
  participants := rfl
  table := rfl
  names := List.nodup_nil
  counter := rfl

/-! ## Participants -/

/-- A key that comes once is looked up if it is there. -/
theorem lookup_eq_some_iff_mem {table : List (String × Nat)} (h : (table.map Prod.fst).Nodup)
    {name : String} {r : Nat} : table.lookup name = some r ↔ (name, r) ∈ table := by
  rw [List.lookup_eq_some_iff]
  constructor
  · rintro ⟨before, after, rfl, -⟩
    simp
  · intro hm
    obtain ⟨before, after, rfl⟩ := List.append_of_mem hm
    refine ⟨before, after, rfl, ?_⟩
    intro e he
    rw [List.map_append, List.nodup_append] at h
    simpa using (h.2.2 e.1 (List.mem_map_of_mem he) name (by simp)).symm

namespace Traces

variable (h : s.Traces d paths)
include h

theorem name?_eq (r : Nat) : s.name? r = d.roster.names[r]? := by
  rw [name?, h.participants, Roster.names, List.getElem?_map]

/-- The table refers to the participant of every name. -/
theorem lookup_eq_some_iff {name : String} {r : Nat} :
    s.table.lookup name = some r ↔ s.name? r = some name := by
  rw [lookup_eq_some_iff_mem, h.table, List.mem_zipIdx_iff_getElem?, h.name?_eq]
  rw [h.table, List.zipIdx_map_fst]
  exact h.names

theorem lookup_eq_none_iff {name : String} :
    s.table.lookup name = none ↔ name ∉ d.roster.names := by
  rw [Option.eq_none_iff_forall_ne_some, List.mem_iff_getElem?, not_exists]
  refine forall_congr' fun r => ?_
  rw [← h.name?_eq, ← h.lookup_eq_some_iff]

/-- A change of the participants, of the counter or of the open block. -/
theorem congr (hs : s.Extends s') (hc : s'.containers = s.containers) (hb : d'.body = d.body)
    (active : paths[s'.active]? = some d'.active) (participants : s'.participants = d'.roster)
    (table : s'.table = d'.roster.names.zipIdx) (names : d'.roster.names.Nodup)
    (counter : s'.counter = d'.counter) : s'.Traces d' paths where
  length := by rw [hc, h.length]
  nodup := h.nodup
  root := h.root
  stands c y q hy hq := by
    rw [hc] at hy
    obtain ⟨hd, ⟨children, he, ho⟩, hi, how, hout, hp⟩ := h.stands c y q hy hq
    refine ⟨hd, ⟨children, ?_, hs.map_own? ho⟩, hi, how, hout, ?_⟩
    · rw [Diagram.element?, Diagram.root, hb]
      exact he
    · rwa [hc]
  active := active
  participants := participants
  table := table
  names := names
  counter := counter

/-- **A mention** gives a participant of the name, on both sides. -/
theorem register (name : String) (label : Option String) :
    (s.register name label).2.Traces (d.register name label) paths ∧
      s.Extends (s.register name label).2 ∧
      (s.register name label).2.name? (s.register name label).1 = some name ∧
      (s.register name label).2.active = s.active := by
  unfold Store.register
  split
  · -- The participant is there already.
    rename_i r hr
    have hn := h.lookup_eq_some_iff.1 hr
    have hmem : name ∈ d.roster.names := List.mem_of_getElem? (h.name?_eq r ▸ hn)
    have hd : d.register name label = d := by
      rw [Diagram.register, Roster.register_of_mem hmem]
    rw [hd]
    exact ⟨h, .refl s, hn, rfl⟩
  · rename_i hnone
    have hmem := h.lookup_eq_none_iff.1 hnone
    have hroster : (d.register name label).roster = d.roster ++ [Participant.create name label] :=
      Roster.register_of_notMem hmem label
    have hnames : (d.register name label).roster.names = d.roster.names ++ [name] := by
      rw [hroster, Roster.names_append]
      rfl
    have hlen : d.roster.names.length = s.participants.length := by
      rw [Roster.names, List.length_map, h.participants]
    have hext : s.Extends
        { s with
          participants := s.participants ++ [Participant.create name label]
          table := s.table ++ [(name, s.participants.length)] } := by
      refine ⟨fun {r n} hr => ?_, id⟩
      obtain ⟨p, hp, hn⟩ := Option.map_eq_some_iff.1 hr
      have hlt := (List.getElem?_eq_some_iff.1 hp).1
      simp [name?, List.getElem?_append_left hlt, hp, hn]
    refine ⟨h.congr hext rfl rfl h.active ?_ ?_ ?_ h.counter, hext, ?_, rfl⟩
    · rw [hroster, h.participants]
    · rw [hnames, List.zipIdx_append, ← h.table, hlen]
      simp
    · rw [hnames]
      exact List.nodup_append.2 ⟨h.names, by simp, by rintro a ha b hb rfl; simp_all⟩
    · simp [name?]

/-! ## Additions -/

/-- A block has one path, and a path belongs to one block. -/
theorem eq_of_getElem?_eq_some {b c : Nat} {q : Path} (hb : paths[b]? = some q)
    (hc : paths[c]? = some q) : b = c :=
  (List.getElem?_inj (List.getElem?_eq_some_iff.1 hb).1 h.nodup).1 (hb.trans hc.symm)

/-- The block as an object that has a path. -/
theorem exists_container {c : Nat} {q : Path} (hc : paths[c]? = some q) :
    ∃ y, s.containers[c]? = some y := by
  have hlt := (List.getElem?_eq_some_iff.1 hc).1
  rw [h.length] at hlt
  exact ⟨_, List.getElem?_eq_getElem hlt⟩

end Traces

/-- The blocks after an item is put into one of them, while others are made. -/
theorem getElem?_containers_add {fresh : List Container} {b c : Nat} {x : Item} {y : Container}
    (hb : s.containers[b]? = some y) :
    ({ s with containers := s.containers ++ fresh }.add c x).containers[b]? =
      some { y with items := y.items ++ if b = c then [x] else [] } := by
  have hlt := (List.getElem?_eq_some_iff.1 hb).1
  simp only [add, List.getElem?_modify, List.getElem?_append_left hlt, hb]
  by_cases hbc : b = c
  · simp [hbc]
  · simp [hbc, Ne.symm hbc]

theorem nest_eq {c : Nat} {y : Container} (hy : s.containers[c]? = some y) (k : BlockKind) :
    s.nest c k =
      { s with containers := s.containers ++ [Container.mk k (some c) (y.depth + 1) []] }.add c
        (.container s.containers.length) := by
  rw [nest, create, hy]
  rfl

theorem extends_add (s : Store) (fresh : List Container) (c : Nat) (x : Item) :
    s.Extends ({ s with containers := s.containers ++ fresh }.add c x) := by
  refine ⟨id, fun {b k} hb => ?_⟩
  obtain ⟨y, hy, rfl⟩ := Option.map_eq_some_iff.1 hb
  rw [kind?, getElem?_containers_add hy]
  rfl

namespace Traces

variable (h : s.Traces d paths)
include h

/-- What the blocks stand for after an item is put at the end of one of them, and an element at the
end of the block at its path. -/
theorem stands_add {fresh : List Container} {c : Nat} {p : Path} {x : Item} {e : Element}
    (hc : paths[c]? = some p) (hpaths : paths <+: paths')
    (hs : s' = { s with containers := s.containers ++ fresh }.add c x)
    (hown : s'.own? x = some e.own)
    (hinner : ∀ b y, x = .container b → s.containers[c]? = some y →
      paths'[b]? = some (p ++ [y.items.length]))
    (howner : ∀ condition b, x = .separator condition b → b = c) {b : Nat} {y : Container}
    {q : Path} (hy : s.containers[b]? = some y) (hq : paths[b]? = some q) :
    s'.Stands (d.addAt p e) paths' b
      { y with items := y.items ++ if b = c then [x] else [] } q := by
  have hext : s.Extends s' := hs ▸ extends_add s fresh c x
  have hpath : q = p ↔ b = c :=
    ⟨fun hqp => h.eq_of_getElem?_eq_some (hqp ▸ hq) hc,
      fun hbc => Option.some.inj (hq.symm.trans (hbc ▸ hc))⟩
  obtain ⟨hd, ⟨children, he, ho⟩, hi, how, hout, hpar⟩ := h.stands b y q hy hq
  refine ⟨hd, ?_, ?_, ?_, hout, ?_⟩
  · obtain ⟨children', he', ho'⟩ := Element.exists_block_append p e he
    refine ⟨children', by rw [Diagram.element?, Diagram.root_addAt, he'], ?_⟩
    rw [List.map_append, hext.map_own? ho, ho', List.map_append]
    by_cases hbc : b = c
    · simp [hbc, hpath.2 hbc, hown]
    · simp [hbc, mt hpath.1 hbc]
  · intro i b' hi'
    rcases Nat.lt_or_ge i y.items.length with hlt | hge
    · rw [List.getElem?_append_left hlt] at hi'
      exact getElem?_mono hpaths (hi i b' hi')
    · -- Only the item that is added is new.
      rw [List.getElem?_append_right hge] at hi'
      by_cases hbc : b = c
      · obtain ⟨hlast, rfl⟩ : i - y.items.length = 0 ∧ x = .container b' := by
          have := (List.getElem?_eq_some_iff.1 hi').1
          simp only [hbc, if_true, List.length_singleton] at this
          have hz : i - y.items.length = 0 := by omega
          simpa [hbc, hz] using hi'
        obtain rfl : i = y.items.length := by omega
        rw [hpath.2 hbc]
        exact hinner b' y rfl (hbc ▸ hy)
      · simp [hbc] at hi'
  · intro condition o ho
    rcases List.mem_append.1 ho with ho | ho
    · exact how condition o ho
    · by_cases hbc : b = c
      · simp only [hbc, if_true, List.mem_singleton] at ho
        rw [howner condition o ho.symm, hbc]
      · simp [hbc] at ho
  · rintro q' i rfl
    obtain ⟨a, z, ha, haq, hz, hzi⟩ := hpar q' i rfl
    refine ⟨a, _, ha, getElem?_mono hpaths haq, by rw [hs, getElem?_containers_add hz], ?_⟩
    exact getElem?_mono (List.prefix_append ..) hzi

/-- **A leaf** that is put at the end of a block, on both sides. -/
theorem add {c : Nat} {p : Path} {x : Item} {e : Element} (hc : paths[c]? = some p)
    (hown : s.own? x = some e.own) (hleaf : ∀ b, x ≠ .container b)
    (howner : ∀ condition b, x = .separator condition b → b = c) :
    (s.add c x).Traces (d.addAt p e) paths where
  length := by rw [Store.add, List.length_modify, h.length]
  nodup := h.nodup
  root := h.root
  stands b y q hy hq := by
    have hs : s.add c x = { s with containers := s.containers ++ [] }.add c x := by
      rw [List.append_nil]
    obtain ⟨z, hz⟩ := h.exists_container hq
    rw [hs, getElem?_containers_add hz] at hy
    obtain rfl := Option.some.inj hy
    exact h.stands_add hc (List.prefix_refl _) hs (by rw [hs]; exact (extends_add ..).own? hown)
      (fun b _ hx => absurd hx (hleaf b)) howner hz hq
  active := h.active
  participants := h.participants
  table := h.table
  names := h.names
  counter := h.counter

/-- The block as an object and the block of the diagram at a path. -/
theorem exists_block {c : Nat} {p : Path} (hc : paths[c]? = some p) :
    ∃ y, s.containers[c]? = some y ∧ ∃ children, d.element? p = some (.block y.kind children) ∧
      d.childrenAt p = children ∧ y.items.length = children.length := by
  obtain ⟨y, hy⟩ := h.exists_container hc
  obtain ⟨children, he, ho⟩ := (h.stands c y p hy hc).block
  refine ⟨y, hy, children, he, ?_, ?_⟩
  · rw [Diagram.childrenAt, he]
    rfl
  · simpa using congrArg List.length ho

/-- The path of a new block, which has the next number. -/
theorem getElem?_concat (q : Path) : (paths ++ [q])[s.containers.length]? = some q := by
  rw [← h.length]
  exact List.getElem?_concat_length

/-- No block has the path that a new one gets. -/
theorem child_notMem {c : Nat} {p : Path} (hc : paths[c]? = some p) :
    p ++ [(d.childrenAt p).length] ∉ paths := by
  obtain ⟨y, -, children, he, hchildren, -⟩ := h.exists_block hc
  intro hm
  obtain ⟨b, hb⟩ := List.mem_iff_getElem?.1 hm
  obtain ⟨z, -, children', he', -⟩ := h.exists_block hb
  rw [Diagram.element?] at he he'
  rw [Element.get?_append_path, he, hchildren] at he'
  simp at he'

/-- What a new block stands for. -/
theorem stands_nest {c : Nat} {p : Path} {y : Container} (hc : paths[c]? = some p)
    (hy : s.containers[c]? = some y) (k : BlockKind) :
    (s.nest c k).Stands (d.addAt p (.block k [])) (paths ++ [p ++ [(d.childrenAt p).length]])
      s.containers.length ⟨k, some c, y.depth + 1, []⟩ (p ++ [(d.childrenAt p).length]) := by
  obtain ⟨y', hy', children, he, hchildren, hlen⟩ := h.exists_block hc
  obtain rfl := Option.some.inj (hy.symm.trans hy')
  have hchild : (d.addAt p (.block k [])).element? (p ++ [children.length]) =
      some (.block k []) := by
    rw [Diagram.element?, Diagram.root_addAt, Element.get?_append_path,
      Element.get?_append_self he]
    simp
  rw [hchildren]
  refine ⟨?_, ⟨[], hchild, rfl⟩, by simp, by simp, by simp, ?_⟩
  · simp [(h.stands c y p hy hc).depth]
  · intro q' i hqi
    obtain ⟨rfl, hi⟩ := List.append_inj' hqi rfl
    obtain rfl : children.length = i := by simpa using hi
    refine ⟨c, _, rfl, getElem?_mono (List.prefix_append ..) hc,
      by rw [nest_eq hy, getElem?_containers_add hy], ?_⟩
    rw [← hlen]
    simp

/-- **A new block** at the end of another one, on both sides. Its path goes on from that one. -/
theorem nest {c : Nat} {p : Path} (hc : paths[c]? = some p) (k : BlockKind) :
    (s.nest c k).Traces (d.addAt p (.block k []))
      (paths ++ [p ++ [(d.childrenAt p).length]]) := by
  obtain ⟨y, hy, children, -, hchildren, hlen⟩ := h.exists_block hc
  have hclt := (List.getElem?_eq_some_iff.1 hy).1
  have hs := nest_eq hy k
  have hnew : (s.nest c k).containers[s.containers.length]? =
      some (Container.mk k (some c) (y.depth + 1) []) := by
    rw [hs]
    simp [Store.add, Nat.ne_of_lt hclt]
  refine
    { length := by rw [hs]; simp [Store.add, h.length]
      nodup := ?_
      root := getElem?_mono (List.prefix_append ..) h.root
      stands := ?_
      active := getElem?_mono (List.prefix_append ..) h.active
      participants := h.participants
      table := h.table
      names := h.names
      counter := h.counter }
  · refine List.nodup_append.2 ⟨h.nodup, by simp, ?_⟩
    rintro q hq _ hq' rfl
    exact h.child_notMem hc (List.mem_singleton.1 hq' ▸ hq)
  · intro b z q hz hq
    rcases Nat.lt_or_ge b paths.length with hlt | hge
    · rw [List.getElem?_append_left hlt] at hq
      obtain ⟨z', hz'⟩ := h.exists_container hq
      rw [hs, getElem?_containers_add hz'] at hz
      obtain rfl := Option.some.inj hz
      refine h.stands_add hc (List.prefix_append ..) hs ?_ ?_ (by simp) hz' hq
      · rw [own?, kind?, hnew]
        rfl
      · rintro b y' hb hy'
        obtain rfl := Item.container.inj hb
        obtain rfl := Option.some.inj (hy.symm.trans hy')
        rw [h.getElem?_concat, hchildren, hlen]
    · -- The new block has the next number.
      obtain rfl : b = s.containers.length := by
        have hb := (List.getElem?_eq_some_iff.1 hq).1
        have hl := h.length
        simp only [List.length_append, List.length_singleton] at hb
        omega
      obtain rfl := Option.some.inj (hnew.symm.trans hz)
      obtain rfl := Option.some.inj ((h.getElem?_concat _).symm.trans hq)
      exact h.stands_nest hc hy k

/-- Mentions of several names. -/
theorem mention (names : List String) :
    (s.mention names).Traces (names.foldl (fun d name => d.register name none) d) paths := by
  induction names generalizing s d with
  | nil => exact h
  | cons name names ih => exact ih (h.register name none).1

/-- A name that has been mentioned gives its participant, and nothing changes. -/
theorem register_of_mem {name : String} (hn : name ∈ d.roster.names) :
    ∃ r, s.register name none = (r, s) ∧ s.name? r = some name := by
  obtain ⟨r, hr⟩ := List.mem_iff_getElem?.1 hn
  rw [← h.name?_eq] at hr
  refine ⟨r, ?_, hr⟩
  rw [Store.register, h.lookup_eq_some_iff.2 hr]

/-- Several elements at the end of a block, if each of them can be put there. -/
theorem insertAll {es : List Element} (hes : ∀ e ∈ es, ∀ {s : Store} {d : Diagram}
      {paths : List Path} {c : Nat} {p : Path}, s.Traces d paths → paths[c]? = some p →
      (∀ name ∈ e.mentions, name ∈ d.roster.names) →
      ∃ paths', paths <+: paths' ∧ (s.insert c e).Traces (d.addAt p e) paths')
    {c : Nat} {p : Path} (hc : paths[c]? = some p)
    (hn : ∀ e ∈ es, ∀ name ∈ e.mentions, name ∈ d.roster.names) :
    ∃ paths', paths <+: paths' ∧
      (s.insertAll c es).Traces (es.foldl (fun d e => d.addAt p e) d) paths' := by
  induction es generalizing s d paths with
  | nil => exact ⟨paths, List.prefix_refl _, h⟩
  | cons e es ih =>
    obtain ⟨hne, hnes⟩ := List.forall_mem_cons.1 hn
    obtain ⟨he, hes⟩ := List.forall_mem_cons.1 hes
    obtain ⟨paths₁, hp₁, h₁⟩ := he h hc hne
    obtain ⟨paths₂, hp₂, h₂⟩ := ih h₁ hes (getElem?_mono hp₁ hc) hnes
    exact ⟨paths₂, hp₁.trans hp₂, h₂⟩

end Traces

/-- Elements that are put into a block after it was put into another one. -/
theorem root_foldl_addAt {p : Path} {k k' : BlockKind} {children : List Element}
    (hp : d.element? p = some (.block k' children)) (es new : List Element) :
    (es.foldl (fun d e => d.addAt (p ++ [children.length]) e)
        (d.addAt p (.block k new))).root = (d.addAt p (.block k (new ++ es))).root := by
  induction es using List.reverseRecOn with
  | nil => rw [List.append_nil]; rfl
  | append_singleton es e ih =>
    rw [List.foldl_append, List.foldl_cons, List.foldl_nil, Diagram.root_addAt, ih,
      Diagram.root_addAt, Diagram.root_addAt, Element.append_append hp, Element.append_block_nil,
      List.append_assoc]

/-- Elements that are put into the tree change nothing else. -/
theorem foldl_addAt_frame (p : Path) (es : List Element) (d : Diagram) :
    let d' := es.foldl (fun d e => d.addAt p e) d
    d'.roster = d.roster ∧ d'.active = d.active ∧ d'.counter = d.counter := by
  induction es generalizing d with
  | nil => exact ⟨rfl, rfl, rfl⟩
  | cons e es ih => exact ih (d.addAt p e)

namespace Traces

/-- **A whole tree** that is put at the end of a block, on both sides. -/
theorem insert (e : Element) {s : Store} {d : Diagram} {paths : List Path} {c : Nat} {p : Path}
    (h : s.Traces d paths) (hc : paths[c]? = some p)
    (hn : ∀ name ∈ e.mentions, name ∈ d.roster.names) :
    ∃ paths', paths <+: paths' ∧ (s.insert c e).Traces (d.addAt p e) paths' := by
  -- By induction on the tree, for all objects: the elements of a block are put into it one after
  -- another when it is in its place.
  induction e using Element.induction generalizing s d paths c p with
  | leaf e he =>
    refine ⟨paths, List.prefix_refl _, ?_⟩
    cases e with
    | signal x =>
      obtain ⟨a, ha, hna⟩ := h.register_of_mem (hn x.source (by simp [Element.mentions]))
      obtain ⟨b, hb, hnb⟩ := h.register_of_mem (hn x.target (by simp [Element.mentions]))
      simp only [Store.insert, ha, hb]
      exact h.add hc (own?_signal hna hnb) (by simp) (by simp)
    | note n =>
      obtain ⟨r, hr, hnr⟩ := h.register_of_mem (hn n.participant (by simp [Element.mentions]))
      simp only [Store.insert, hr]
      exact h.add hc (own?_note hnr) (by simp) (by simp)
    | separator condition =>
      exact h.add hc rfl (by simp) (by simp)
    | block k children => simp [Element.kind?] at he
  | block k children ih =>
    obtain ⟨y, -, children', he', hchildren, -⟩ := h.exists_block hc
    have hnest := h.nest hc k
    rw [hchildren] at hnest
    have hmentions : ∀ e ∈ children, ∀ name ∈ e.mentions,
        name ∈ (d.addAt p (.block k [])).roster.names := by
      intro e he name hname
      refine hn name ?_
      rw [Element.mentions, Element.mentionsAll_eq_flatMap]
      exact List.mem_flatMap.2 ⟨e, he, hname⟩
    obtain ⟨paths', hp', h'⟩ := hnest.insertAll (fun e he => ih e he)
      (h.getElem?_concat _) hmentions
    refine ⟨paths', (List.prefix_append ..).trans hp', ?_⟩
    rw [Store.insert]
    obtain ⟨hr, ha, hcount⟩ := foldl_addAt_frame (p ++ [children'.length]) children
      (d.addAt p (.block k []))
    have hroot := congrArg Element.children (root_foldl_addAt (k := k) he' children [])
    exact h'.congr (.refl _) rfl hroot.symm (ha ▸ h'.active) (hr ▸ h'.participants)
      (hr ▸ h'.table) (hr ▸ h'.names) (hcount ▸ h'.counter)

end Traces

end Store

end SequenceDiagram
