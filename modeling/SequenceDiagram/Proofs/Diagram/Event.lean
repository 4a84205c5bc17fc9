import SequenceDiagram.Proofs.Diagram.Effect
import SequenceDiagram.Proofs.Diagram.Scope
import SequenceDiagram.Proofs.Element.Walk

/-!
# Statements as events

Each statement that is taken into the tree stands for one event of the walk through it, and the
walk through a tree under construction is a row of events that each statement makes longer by
its own.

## Main definitions

* `Scope.trace`: the walk up to the place where a scope goes on
* `Scope.advance`, `Scope.Allows`: what an event does to a scope, and when it may
* `Scope.Throughout`: a property of the elements that are complete
* `Statement.Describes`, `Statement.DescribesAt`: the events that a statement stands for, also where
  the number of messages is known

## Main results

* `Scope.walk_tree`: a tree is walked through by its trace and by leaving the open blocks
* `Scope.trace_advance`: an event makes the trace longer by itself
* `HasScope.react`: a statement that is taken is an event it describes, or leaves the tree alone
-/

namespace SequenceDiagram

/-! ## The walk so far -/

/-- The walk through open blocks up to the end of the innermost one. -/
def traceThrough : List OpenBlock → List Event
  | [] => []
  | b :: bs => traceThrough bs ++ .enter b.kind :: b.elements.flatMap Element.walk

theorem Element.walk_within (e : Element) (bs : List OpenBlock) :
    (e.within bs).walk = traceThrough bs ++ e.walk ++ bs.map fun b => .leave b.kind := by
  -- The blocks are entered from the outside in and left from the inside out.
  induction bs generalizing e with
  | nil => simp [traceThrough]
  | cons b bs ih =>
    rw [within_cons, ih]
    simp [traceThrough, OpenBlock.element, OpenBlock.add]

namespace Scope

/-- The walk through the tree of a scope up to the place where it goes on. -/
def trace (s : Scope) : List Event := traceThrough s.blocks

/-- What an event does to a scope. -/
def advance (s : Scope) : Event → Scope
  | .signal x => s.add (.signal x)
  | .note n => s.add (.note n)
  | .separator c => s.add (.separator c)
  | .enter k => s.enter k
  | .leave _ => s.leave

/-- Whether an event may be next: separators stand in alternatives, and only the innermost block
is left, never the outermost. -/
def Allows (s : Scope) : Event → Prop
  | .separator _ => s.inner.kind.isAlternative = true
  | .leave k => s.inner.kind = k ∧ s.outer ≠ []
  | .signal _ | .note _ | .enter _ => True

theorem walk_tree (s : Scope) :
    s.tree.walk = s.trace ++ s.blocks.map fun b => .leave b.kind := by
  rw [tree, Element.walk_within]
  simp [trace, blocks, traceThrough, OpenBlock.element]

theorem trace_add (s : Scope) (e : Element) : (s.add e).trace = s.trace ++ e.walk := by
  simp [trace, blocks, traceThrough, add]

theorem trace_advance {s : Scope} {ev : Event} (h : s.Allows ev) :
    (s.advance ev).trace = s.trace ++ [ev] := by
  cases ev with
  | signal x => exact s.trace_add _
  | note n => exact s.trace_add _
  | separator c => exact s.trace_add _
  | enter k => simp [advance, enter, trace, blocks, traceThrough]
  | leave k =>
    obtain ⟨rfl, ho⟩ := h
    obtain ⟨b, bs, hb⟩ := List.exists_cons_of_ne_nil ho
    simp [advance, leave, trace, blocks, traceThrough, hb, OpenBlock.element]

/-- A property of every element that is complete and the kind of block it stands in. -/
def Throughout (P : BlockKind → Element → Prop) (s : Scope) : Prop :=
  ∀ b ∈ s.blocks, ∀ e ∈ b.elements, e.Throughout P b.kind

/-- A property that every block has anyway holds throughout a tree if it holds of what is
complete. -/
theorem Throughout.tree {P : BlockKind → Element → Prop} {s : Scope} (h : s.Throughout P)
    (hP : ∀ k inner children, P k (.block inner children)) (k : BlockKind) :
    s.tree.Throughout P k := by
  -- The induction closes the innermost block and goes on with the block around it, so what is
  -- known of the innermost block is kept apart from what is known of the others.
  obtain ⟨b, bs⟩ := s
  have hb : ∀ e ∈ b.elements, e.Throughout P b.kind := h b List.mem_cons_self
  have hbs : ∀ b' ∈ bs, ∀ e ∈ b'.elements, e.Throughout P b'.kind :=
    fun b' hb' => h b' (List.mem_cons_of_mem _ hb')
  clear h
  change (b.element.within bs).Throughout P k
  induction bs generalizing b with
  | nil => exact .block (hP ..) hb
  | cons b' bs ih =>
    refine ih (b'.add b.element) ?_ fun c hc => hbs c (List.mem_cons_of_mem _ hc)
    intro e he
    rcases List.mem_append.1 he with he | he
    · exact hbs b' List.mem_cons_self e he
    · rw [List.mem_singleton.1 he]
      exact .block (hP ..) hb

protected theorem Throughout.add {P : BlockKind → Element → Prop} {s : Scope} {e : Element}
    (h : s.Throughout P) (he : e.Throughout P s.inner.kind) : (s.add e).Throughout P := by
  intro b hb c hc
  rcases List.mem_cons.1 hb with rfl | hb
  · -- Only the innermost block has a new element.
    rcases List.mem_append.1 hc with hc | hc
    · exact h s.inner List.mem_cons_self c hc
    · rwa [List.mem_singleton.1 hc]
  · exact h b (List.mem_cons_of_mem _ hb) c hc

protected theorem Throughout.enter {P : BlockKind → Element → Prop} {s : Scope}
    (h : s.Throughout P) (k : BlockKind) : (s.enter k).Throughout P := by
  intro b hb c hc
  rcases List.mem_cons.1 hb with rfl | hb
  · exact absurd hc List.not_mem_nil
  · exact h b hb c hc

protected theorem Throughout.leave {P : BlockKind → Element → Prop} {s : Scope}
    (h : s.Throughout P) (hP : ∀ k inner children, P k (.block inner children)) :
    s.leave.Throughout P := by
  obtain ⟨b, _ | ⟨b', bs⟩⟩ := s
  · exact h
  · -- The closed block becomes an element of the one around it.
    have ht : Throughout P ⟨b', bs⟩ := by
      intro c hc
      exact h c (List.mem_cons_of_mem _ hc)
    exact ht.add (.block (hP ..) (h b List.mem_cons_self))

/-- A property that every block has anyway is kept by an event that is about a block or about an
element with the property. -/
protected theorem Throughout.advance {P : BlockKind → Element → Prop} {s : Scope} {ev : Event}
    (h : s.Throughout P) (hP : ∀ k inner children, P k (.block inner children))
    (he : ∀ e, ev.element? = some e → P s.inner.kind e) : (s.advance ev).Throughout P := by
  cases ev with
  | signal x => exact h.add (.leaf (he _ rfl) rfl)
  | note n => exact h.add (.leaf (he _ rfl) rfl)
  | separator c => exact h.add (.leaf (he _ rfl) rfl)
  | enter k => exact h.enter k
  | leave k => exact h.leave hP

end Scope

/-! ## Statements as events -/

namespace Statement

/-- Whether a statement is about the tree. -/
def isStructural : Statement → Bool
  | openParallel | closeParallel | openOption | openLoop _ | openAlternative _ | separator _
  | closeFrame | state .. | signal .. => true
  | aliased .. | participant _ | numberFrom _ | numberOff | comment | blank => false

/-- The events that a statement stands for. A message may have been numbered, and the word that
ends a frame does not tell which. -/
def Describes : Statement → Event → Prop
  | openParallel, .enter k => k = .parallel
  | openOption, .enter k => k = .framed "opt" ""
  | openLoop label, .enter k => k = .framed "loop" label
  | openAlternative condition, .enter k => k = .alternative condition
  | closeParallel, .leave k => k = .parallel
  | closeFrame, .leave k => k.isFramed = true
  | separator condition, .separator c => c = condition
  | state name text, .note n => n = ⟨name, Text.labelLines text⟩
  | signal source double dotted openHead target text, .signal s =>
    ∃ lines, s = ⟨source, target, lines, dotted, double, openHead⟩ ∧
      (lines = Text.labelLines text ∨
        ∃ n, lines = Diagram.numberLines n (Text.labelLines text))
  | _, _ => False

/-- The events that a statement stands for where the next message has the given number, or none. -/
def DescribesAt (number : Option Int) : Statement → Event → Prop
  | signal source double dotted openHead target text, ev =>
    ev = .signal (Signal.numbered number
      ⟨source, target, Text.labelLines text, dotted, double, openHead⟩)
  | st, ev => st.Describes ev

theorem DescribesAt.describes {number : Option Int} {st : Statement} {ev : Event}
    (h : st.DescribesAt number ev) : st.Describes ev := by
  cases st with
  | signal source double dotted openHead target text =>
    obtain rfl := h
    cases number with
    | none => exact ⟨_, rfl, .inl rfl⟩
    | some n => exact ⟨_, rfl, .inr ⟨n, rfl⟩⟩
  | _ => exact h

end Statement

namespace Diagram

@[simp] theorem body_mention (d : Diagram) (e : Element) : (d.mention e).body = d.body := by
  cases e <;> rfl

@[simp] theorem active_mention (d : Diagram) (e : Element) : (d.mention e).active = d.active := by
  cases e <;> rfl

namespace HasScope

variable {d d' : Diagram} {s : Scope}

theorem mention (h : d.HasScope s) (e : Element) : (d.mention e).HasScope s :=
  h.congr (d.body_mention e) (d.active_mention e)

/-- A message is added with its number; its mentions and the counter leave the tree alone. -/
theorem numberedSignal (h : d.HasScope s) (x : Signal) :
    (d.numberedSignal x).HasScope (s.add (.signal (x.numbered d.counter))) := by
  have hm : { d.mention (.signal x) with counter := d.counter.map (· + 1) }.HasScope s :=
    (h.mention (.signal x)).congr rfl rfl
  exact hm.add _

/-- A block that is not the outermost one is left when the open one is closed. -/
theorem dropLast (h : d.HasScope s) (ho : s.outer ≠ []) :
    { d with active := d.active.dropLast }.HasScope s.leave := by
  obtain ⟨_, -, rfl, hs⟩ := h.closeBlock ho
  exact hs

/-- **What a statement does to the tree.** One that is taken leaves the open blocks as they are,
or is an event that they allow. -/
theorem react {st : Statement} (h : d.HasScope s) (hr : d.react st = .applied d') :
    if st.isStructural then
      ∃ ev, st.DescribesAt d.counter ev ∧ s.Allows ev ∧ d'.HasScope (s.advance ev)
    else d'.HasScope s := by
  -- One case for each statement. A closing and a separator are taken where they fit, and the kind
  -- of the open block is that of the innermost block of the scope.
  have hk := fits_of_react hr
  rw [h.activeKind_eq] at hk
  obtain rfl := eq_effect_of_react hr
  cases st with
  | openParallel => exact ⟨.enter .parallel, rfl, trivial, h.openBlock _⟩
  | openOption => exact ⟨.enter (.framed "opt" ""), rfl, trivial, h.openBlock _⟩
  | openLoop label => exact ⟨.enter (.framed "loop" label), rfl, trivial, h.openBlock _⟩
  | openAlternative condition =>
    exact ⟨.enter (.alternative condition), rfl, trivial, h.openBlock _⟩
  | closeParallel =>
    have hp : s.inner.kind = .parallel := of_decide_eq_true hk
    have ho := h.outer_ne_nil (by simp [hp])
    exact ⟨.leave s.inner.kind, hp, ⟨rfl, ho⟩, h.dropLast ho⟩
  | closeFrame =>
    have ho := h.outer_ne_nil (by rintro hs; simp [Statement.fits, hs, BlockKind.isFramed] at hk)
    exact ⟨.leave s.inner.kind, hk, ⟨rfl, ho⟩, h.dropLast ho⟩
  | separator condition => exact ⟨.separator condition, rfl, hk, h.add _⟩
  | state name text =>
    exact ⟨.note ⟨name, Text.labelLines text⟩, rfl, trivial, (h.mention _).add _⟩
  | signal source double dotted openHead target text =>
    exact ⟨_, rfl, trivial, h.numberedSignal _⟩
  | _ => exact h.congr rfl rfl

end HasScope

end Diagram

end SequenceDiagram
