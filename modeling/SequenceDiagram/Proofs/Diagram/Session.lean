import Mathlib.Data.List.Induction
import SequenceDiagram.Drawing.Picture
import SequenceDiagram.Proofs.Diagram.Taking
import SequenceDiagram.Proofs.Element.Memory

/-!
# Sessions

A session is a row of operations on one diagram, in any order: lines and texts are read, the
participants and the tree are changed directly, heights are asked for and pictures are drawn. An
operation that fails leaves behind what it did before the fault. All that an operation does to the
tree, the open block and the memory is made of a few changes, and what these preserve holds after
any session: the heights that the diagram remembers are those of its blocks.

## Main definitions

* `Operation`, `Diagram.perform`: what can be done with a diagram, and the diagram after it
* `session`: the diagram after some operations
* `Diagram.IsInvariant`: a property that every change of the tree preserves
* `Diagram.placed`: the elements of a diagram where they begin in the picture
* `Diagram.MemorySound`: the remembered heights are those of the blocks

## Main results

* `Diagram.IsInvariant.perform`, `Diagram.IsInvariant.session`: an invariant of the changes is one
  of every operation and of every session
* `Diagram.isInvariant_memorySound`: the memory stays sound
* `Diagram.MemorySound.draw_fst`: what is drawn, without the memory
* `heightAt_session`: every height that is asked for is the one of the tree at that moment
-/

namespace SequenceDiagram

open Metrics
open Quantity (units)

/-- What can be done with a diagram. -/
inductive Operation where
  /-- A participant is mentioned, possibly with a label. -/
  | register (name : String) (label : Option String)
  /-- The slot of a participant is set. -/
  | place (name : String) (position : Int)
  /-- The counter of messages is set. -/
  | setCounter (counter : Option Int)
  | readLine (forms : List Form) (line : String)
  | readText (forms : List Form) (text : String)
  | addSignal (signal : Signal)
  | addNote (note : Note)
  | addSeparator (condition : String)
  | openBlock (kind : BlockKind)
  | closeBlock
  /-- An element, or a whole tree, is put at the end of the block at a path. -/
  | addAt (path : Path) (element : Element)
  /-- A height is asked for. -/
  | measure (path : Path)
  /-- The element at a path is drawn. -/
  | drawAt (path : Path) (top width : Quantity)
  /-- The whole diagram is drawn. -/
  | draw

namespace Diagram

/-- The diagram after an operation, also one that fails. -/
def perform (d : Diagram) : Operation → Diagram
  | .register name label => d.register name label
  | .place name position => { d with roster := d.roster.setPosition name position }
  | .setCounter counter => { d with counter := counter }
  | .readLine forms line => d.next forms line
  | .readText forms text => (d.readText forms text).diagram
  | .addSignal s => (d.addSignal s).2
  | .addNote n => d.addNote n
  | .addSeparator condition => (d.addSeparator condition).toOption.getD d
  | .openBlock k => d.openBlock k
  | .closeBlock => d.closeBlock.toOption.getD d
  | .addAt p e => d.addAt p e
  | .measure p => (d.heightAt p).2
  | .drawAt p top width => (d.drawAt p top width).2
  | .draw => d.draw.2

end Diagram

/-- The diagram after some operations, from the empty one on. -/
def session (operations : List Operation) : Diagram := operations.foldl Diagram.perform .empty

theorem session_concat (operations : List Operation) (o : Operation) :
    session (operations ++ [o]) = (session operations).perform o := List.foldl_append

namespace Diagram

/-! ## Reading, whatever comes of it -/

variable {forms : List Form} {d : Diagram} {P : Diagram → Prop}

/-- What every reaction to a statement preserves, a line preserves. -/
theorem next_preserves (hd : P d) (react : ∀ st, P ((d.react st).after d)) (line : String) :
    P (d.next forms line) := by
  -- The reaction to several readings is that to one of them, or the diagram is left alone.
  have hf : ∀ ss : List Statement, P ((d.reactFirst ss).after d) := by
    intro ss
    induction ss with
    | nil => exact hd
    | cons st ss ih =>
      rw [reactFirst_cons]
      have hst := react st
      cases hr : d.react st <;> cases hs : d.reactFirst ss <;>
        simp_all [Reaction.orElse, Reaction.after]
  exact hf _

/-- What every line preserves, several lines preserve, also if a fault ends the reading. -/
theorem readLines_always_preserves (step : ∀ d line, P d → P (d.next forms line)) (hd : P d)
    (number : Int) (ls : List String) : P (readLines forms d number ls).diagram := by
  induction ls generalizing d number with
  | nil => exact hd
  | cons l ls ih =>
    cases hl : (d.readLine forms l).fault? with
    | some f =>
      simp only [readLines, hl]
      exact step d l hd
    | none =>
      rw [readLines_cons hl, Reading.diagram_prepend]
      exact ih (step d l hd) _

/-! ## Invariants of the tree -/

/-- A property of the tree, the open block and the memory of a diagram that none of their changes
breaks. -/
structure IsInvariant (P : Diagram → Prop) : Prop where
  empty : P .empty
  /-- The participants and the counter do not count. -/
  congr {d d' : Diagram} : P d → d'.body = d.body → d'.active = d.active →
    d'.heights = d.heights → P d'
  addAt {d : Diagram} : P d → ∀ p e, P (d.addAt p e)
  openBlock {d : Diagram} : P d → ∀ k, P (d.openBlock k)
  closeBlock {d : Diagram} : P d → d.active ≠ [] → P { d with active := d.active.dropLast }
  heightAt {d : Diagram} : P d → ∀ p, P (d.heightAt p).2

namespace IsInvariant

variable (hP : IsInvariant P)
include hP

theorem add (h : P d) (e : Element) : P (d.add e) := hP.addAt h _ e

theorem mention (h : P d) (e : Element) : P (d.mention e) := by
  cases e <;> exact hP.congr h rfl rfl rfl

theorem addNote (h : P d) (n : Note) : P (d.addNote n) := hP.add (hP.mention h _) _

theorem addSignal (h : P d) (s : Signal) : P (d.addSignal s).2 := by
  have hm := hP.mention h (.signal s)
  rcases d.addSignal_cases s with ⟨f, hs⟩ | hs
  · rw [hs]
    exact hm
  · have hc : P { d.mention (.signal s) with counter := d.counter.map (· + 1) } :=
      hP.congr hm rfl rfl rfl
    rw [hs]
    exact hP.add hc _

theorem ofExcept_closeBlock (h : P d) : P ((Reaction.ofExcept d d.closeBlock).after d) := by
  unfold Diagram.closeBlock
  split
  · exact h
  · exact hP.closeBlock h ‹_›

theorem ofExcept_addSeparator (h : P d) (condition : String) :
    P ((Reaction.ofExcept d (d.addSeparator condition)).after d) := by
  unfold Diagram.addSeparator
  split
  · exact hP.add h _
  · exact h

/-- What the changes preserve, a statement preserves, whether it is taken, rejected or fails. -/
theorem react (h : P d) (st : Statement) : P ((d.react st).after d) := by
  cases st with
  | aliased label name => exact hP.congr h rfl rfl rfl
  | participant name => exact hP.congr h rfl rfl rfl
  | openParallel => exact hP.openBlock h _
  | closeParallel =>
    simp only [Diagram.react]
    split
    · exact hP.ofExcept_closeBlock h
    · exact h
  | openOption => exact hP.openBlock h _
  | openLoop label => exact hP.openBlock h _
  | openAlternative condition => exact hP.openBlock h _
  | separator condition =>
    simp only [Diagram.react]
    split
    · exact hP.ofExcept_addSeparator h condition
    · exact h
  | closeFrame =>
    simp only [Diagram.react]
    split
    · exact hP.ofExcept_closeBlock h
    · exact h
  | numberFrom numeral =>
    simp only [Diagram.react]
    split
    · exact h
    · exact hP.congr h rfl rfl rfl
  | numberOff => exact hP.congr h rfl rfl rfl
  | state name text => exact hP.addNote h _
  | signal source double dotted openHead target text =>
    have hs := hP.addSignal h ⟨source, target, Text.labelLines text, dotted, double, openHead⟩
    simp only [Diagram.react]
    split <;> rename_i hr <;> rw [hr] at hs <;> exact hs
  | comment => exact h
  | blank => exact h

theorem next (h : P d) (line : String) : P (d.next forms line) :=
  next_preserves h (hP.react h) line

theorem readText (h : P d) (text : String) : P (d.readText forms text).diagram := by
  rw [diagram_readText]
  exact readLines_always_preserves (P := P) (fun _ line hd => hP.next hd line) h 1 _

theorem drawAt (h : P d) (p : Path) (top width : Quantity) : P (d.drawAt p top width).2 := by
  unfold Diagram.drawAt
  split
  · exact h
  · exact hP.heightAt h p

theorem draw (h : P d) : P d.draw.2 := by
  have hs : P { d with roster := d.roster.seated } := hP.congr h rfl rfl rfl
  exact hP.drawAt (hP.heightAt hs []) [] (units d.roster.seated.headerHeight)
    (units d.roster.seated.width)

/-- **What the changes preserve, every operation preserves.** -/
theorem perform (h : P d) (o : Operation) : P (d.perform o) := by
  cases o with
  | register name label => exact hP.congr h rfl rfl rfl
  | place name position => exact hP.congr h rfl rfl rfl
  | setCounter counter => exact hP.congr h rfl rfl rfl
  | readLine forms line => exact hP.next h line
  | readText forms text => exact hP.readText h text
  | addSignal s => exact hP.addSignal h s
  | addNote n => exact hP.addNote h n
  | addSeparator condition =>
    have hs := hP.ofExcept_addSeparator h condition
    simp only [Diagram.perform]
    cases ha : d.addSeparator condition with
    | ok d' =>
      rw [ha] at hs
      exact hs
    | error f => exact h
  | openBlock k => exact hP.openBlock h k
  | closeBlock =>
    have hs := hP.ofExcept_closeBlock h
    simp only [Diagram.perform]
    cases hc : d.closeBlock with
    | ok d' =>
      rw [hc] at hs
      exact hs
    | error f => exact h
  | addAt p e => exact hP.addAt h p e
  | measure p => exact hP.heightAt h p
  | drawAt p top width => exact hP.drawAt h p top width
  | draw => exact hP.draw h

/-- **What the changes preserve holds after any session.** -/
theorem session (operations : List Operation) : P (session operations) := by
  -- By induction from the end, so that the last operation is one on a session before it.
  induction operations using List.reverseRecOn with
  | nil => exact hP.empty
  | append_singleton os o ih =>
    rw [session_concat]
    exact hP.perform ih o

end IsInvariant

/-! ## Sound memories -/

@[simp] theorem roster_heightAt (d : Diagram) (p : Path) : (d.heightAt p).2.roster = d.roster := by
  unfold heightAt
  split <;> rfl

@[simp] theorem root_heightAt (d : Diagram) (p : Path) : (d.heightAt p).2.root = d.root := by
  unfold heightAt
  split <;> rfl

@[simp] theorem roster_drawAt (d : Diagram) (p : Path) (top width : Quantity) :
    (d.drawAt p top width).2.roster = d.roster := by
  unfold drawAt
  split
  · rfl
  · exact d.roster_heightAt p

/-- The elements of a diagram, each where it begins in the picture. -/
def placed (d : Diagram) : List Placed := d.root.layout [] [] (units d.roster.headerHeight)

/-- The remembered heights are those of the blocks. -/
def MemorySound (d : Diagram) : Prop := d.heights.Sound d.root

namespace MemorySound

variable {p : Path} {e : Element}

/-- Only the tree and the memory count. -/
theorem congr {d' : Diagram} (h : d.MemorySound) (hb : d'.body = d.body)
    (hh : d'.heights = d.heights) : d'.MemorySound := by
  unfold MemorySound root
  rw [hb, hh]
  exact h

theorem addAt (h : d.MemorySound) (p : Path) (e : Element) : (d.addAt p e).MemorySound := by
  unfold MemorySound
  rw [root_addAt]
  exact h.forget p e

/-- A height that is asked for is right, and the memory stays sound. -/
theorem heightAt (h : d.MemorySound) (p : Path) :
    (∀ e, d.element? p = some e → (d.heightAt p).1 = e.height) ∧ (d.heightAt p).2.MemorySound := by
  unfold Diagram.heightAt
  cases he : d.element? p with
  | none => exact ⟨by simp, h⟩
  | some e =>
    obtain ⟨hh, hs⟩ := Heights.Sound.measure h e he
    refine ⟨?_, hs⟩
    intro c hc
    rw [← Option.some.inj hc]
    exact hh

/-- What is drawn does not depend on a sound memory. -/
theorem drawAt_fst (h : d.MemorySound) (he : d.element? p = some e) (top width : Quantity) :
    (d.drawAt p top width).1 =
      (e.layout [] p top).flatMap (Placed.shapes d.roster width) := by
  have hs : (d.heights.measure p e).2.Sound d.root := (Heights.Sound.measure h e he).2
  simp only [Diagram.drawAt, Diagram.heightAt, he]
  rw [hs.layout_eq top e he]

theorem seated (h : d.MemorySound) :
    MemorySound { d with roster := d.roster.seated } := h.congr rfl rfl

/-- The picture of a diagram, from its participants and its tree. -/
theorem draw_fst (h : d.MemorySound) :
    d.draw.1 =
      { width := d.roster.width
        height := d.roster.headerHeight + d.root.height + d.roster.headerHeight + 2 * margin
        shapes := d.roster.seated.map
            (Participant.shape · (units (d.roster.headerHeight + d.root.height))) ++
          d.placed.flatMap (Placed.shapes d.roster.seated (units d.roster.width)) } := by
  have hh := (h.seated.heightAt []).1 _ (element?_root _)
  have hd := (h.seated.heightAt []).2.drawAt_fst (element?_root _)
    (units d.roster.headerHeight) (units d.roster.width)
  simp only [roster_heightAt, root_heightAt] at hd
  simp only [Diagram.draw, roster_heightAt, roster_drawAt, hh, hd, Roster.headerHeight_seated,
    Roster.width_seated]
  rfl

end MemorySound

/-- **The memory stays sound**, whatever is done with a diagram. -/
theorem isInvariant_memorySound : IsInvariant MemorySound where
  empty := Heights.sound_nil _
  congr h hb _ hh := h.congr hb hh
  addAt h := h.addAt
  openBlock h k := (h.addAt _ (.block k [])).congr rfl rfl
  closeBlock h _ := h.congr rfl rfl
  heightAt h p := (h.heightAt p).2

theorem memorySound_empty : empty.MemorySound := isInvariant_memorySound.empty

theorem MemorySound.readText (h : d.MemorySound) (text : String) :
    (d.readText forms text).diagram.MemorySound := isInvariant_memorySound.readText h text

end Diagram

/-- After any session the memory is sound. -/
theorem memorySound_session (operations : List Operation) :
    (session operations).MemorySound := Diagram.isInvariant_memorySound.session operations

/-- **Every height is the one of the tree at that moment.** After any session a height that is
asked for is what the measures of the element add up to, and what is drawn, of the element at a
path or of the whole diagram, is what is drawn with nothing remembered. -/
theorem heightAt_session (operations : List Operation) :
    (∀ p e, (session operations).element? p = some e →
      ((session operations).heightAt p).1 = e.room ∧
        ∀ top width, ((session operations).drawAt p top width).1 =
          (e.layout [] p top).flatMap (Placed.shapes (session operations).roster width)) ∧
      (session operations).draw.1 = { session operations with heights := [] }.draw.1 := by
  have hm := memorySound_session operations
  refine ⟨?_, ?_⟩
  · intro p e he
    refine ⟨?_, fun top width => hm.drawAt_fst he top width⟩
    rw [(hm.heightAt p).1 e he, e.height_eq_room]
  · -- Both pictures are made of the same participants and the same tree.
    have hn : Diagram.MemorySound { session operations with heights := [] } :=
      Heights.sound_nil _
    rw [hm.draw_fst, hn.draw_fst]
    rfl

/-- A message is added to an alternative whose height is remembered. -/
theorem heightAt_session_after_reading :
    ((session [.openBlock (.alternative "x"), .addNote ⟨"A", ["n"]⟩, .measure [], .closeBlock,
      .draw, .addAt [0] (.signal { source := "A", target := "A", text := ["m"] })]).heightAt
        [0]).1 = 145 := by
  refine (((heightAt_session _).1 [0] (.block (.alternative "x") [.note ⟨"A", ["n"]⟩,
    .signal { source := "A", target := "A", text := ["m"] }]) rfl).1).trans ?_
  decide

end SequenceDiagram
