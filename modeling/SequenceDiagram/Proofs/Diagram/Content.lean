import SequenceDiagram.Markup.Document
import SequenceDiagram.Proofs.Diagram.Session

/-!
# The content of a diagram

The content of a diagram are its participants by name and label, its tree, the open block and the
counter. Two things are left over from what has been done with it otherwise: the slots of its
participants and the heights that it remembers. Lines do not read them, and drawing sets the slots
before it uses them, so that measuring, placing and drawing show in nothing that comes later.

## Main definitions

* `Roster.unseated`: the participants without their slots
* `Diagram.content`, `Reaction.content`, `Reading.content`: what does not come from drawing
* `Operation.isQuiet`: the operations that leave the content alone

## Main results

* `Diagram.react_content`, `Diagram.readText_content`: statements and texts act on the content
* `Diagram.perform_content`, `Diagram.content_perform_of_isQuiet`: what an operation does to it
* `Diagram.MemorySound.draw_content`: the picture of a diagram is that of its content
* `content_session`: the content after a session is that after its other operations
* `document_session`: quiet operations show nowhere
-/

namespace SequenceDiagram

namespace Roster

variable {r : Roster}

/-- The participants without their slots. -/
def unseated (r : Roster) : Roster := r.map fun p => { p with position := 0 }

@[simp] theorem names_unseated (r : Roster) : r.unseated.names = r.names := by
  simp [names, unseated]

@[simp] theorem seated_unseated (r : Roster) : r.unseated.seated = r.seated := by
  refine List.ext_getElem (by simp [seated, unseated]) fun i _ _ => ?_
  simp [seated, unseated]

@[simp] theorem unseated_seated (r : Roster) : r.seated.unseated = r.unseated := by
  refine List.ext_getElem (by simp [seated, unseated]) fun i _ _ => ?_
  simp [seated, unseated]

@[simp] theorem unseated_setPosition (r : Roster) (name : String) (position : Int) :
    (r.setPosition name position).unseated = r.unseated := by
  simp only [setPosition, unseated, List.map_map]
  refine List.map_congr_left fun p _ => ?_
  simp only [Function.comp_apply]
  split <;> rfl

/-- A new participant has no slot of its own yet. -/
theorem register_unseated (r : Roster) (name : String) (label : Option String) :
    r.unseated.register name label = (r.register name label).unseated := by
  by_cases h : name ∈ r.names
  · rw [register_of_mem h, register_of_mem (by simpa using h)]
  · rw [register_of_notMem h, register_of_notMem (by simpa using h)]
    simp [unseated, Participant.create]

/-- Of the slots of the participants nothing shows where they are seated anew. -/
theorem seated_congr {r r' : Roster} (h : r.unseated = r'.unseated) :
    r.seated = r'.seated ∧ r.width = r'.width ∧ r.headerHeight = r'.headerHeight := by
  have hs : r.seated = r'.seated := by rw [← seated_unseated, h, seated_unseated]
  refine ⟨hs, ?_, ?_⟩
  · rw [← width_seated, hs, width_seated]
  · rw [← headerHeight_seated, hs, headerHeight_seated]

end Roster

namespace Diagram

/-- A diagram without what drawing leaves behind. -/
def content (d : Diagram) : Diagram := { d with roster := d.roster.unseated, heights := [] }

end Diagram

/-- A reaction as far as it is about the content. -/
def Reaction.content : Reaction → Reaction
  | applied d => applied d.content
  | mismatch => mismatch
  | skipped => skipped
  | failed f d => failed f d.content

/-- A reading as far as it is about the content. -/
def Reading.content (r : Reading) : Reading := { r with diagram := r.diagram.content }

namespace Reaction

@[simp] theorem content_orElse (r t : Reaction) :
    (r.orElse t).content = r.content.orElse t.content := by
  cases r <;> cases t <;> rfl

@[simp] theorem fault?_content (r : Reaction) : r.content.fault? = r.fault? := by
  cases r <;> rfl

@[simp] theorem complaint_content (r : Reaction) (number : Int) :
    r.content.complaint number = r.complaint number := by
  cases r <;> rfl

@[simp] theorem after_content (r : Reaction) (d : Diagram) :
    r.content.after d.content = (r.after d).content := by
  cases r <;> rfl

end Reaction

namespace Reading

@[simp] theorem report_content (r : Reading) : r.content.report = r.report := rfl

@[simp] theorem fault_content (r : Reading) : r.content.fault = r.fault := rfl

end Reading

namespace Diagram

variable {d : Diagram} {forms : List Form}

/-! ## Changes of the content -/

@[simp] theorem register_content (d : Diagram) (name : String) (label : Option String) :
    d.content.register name label = (d.register name label).content := by
  simp [content, register, Roster.register_unseated]

@[simp] theorem mention_content (d : Diagram) (e : Element) :
    d.content.mention e = (d.mention e).content := by
  cases e <;> simp [mention, Element.participants]

@[simp] theorem addNote_content (d : Diagram) (n : Note) :
    d.content.addNote n = (d.addNote n).content := by
  rw [addNote, mention_content]
  rfl

@[simp] theorem number_content (d : Diagram) (s : Signal) :
    d.content.number s = (d.number s).map fun x => (x.1, x.2.content) := by
  obtain ⟨roster, body, active, counter, heights⟩ := d
  cases counter with
  | none => rfl
  | some n =>
    simp only [number, content]
    split <;> rfl

@[simp] theorem addSignal_content (d : Diagram) (s : Signal) :
    d.content.addSignal s = ((d.addSignal s).1, (d.addSignal s).2.content) := by
  simp only [addSignal, mention_content, number_content]
  cases (d.mention (.signal s)).number s <;> rfl

@[simp] theorem addSeparator_content (d : Diagram) (condition : String) :
    d.content.addSeparator condition = (d.addSeparator condition).map content := by
  have hk : d.content.activeKind = d.activeKind := rfl
  simp only [addSeparator, hk]
  split <;> rfl

@[simp] theorem closeBlock_content (d : Diagram) :
    d.content.closeBlock = d.closeBlock.map content := by
  have ha : d.content.active = d.active := rfl
  simp only [closeBlock, ha]
  split <;> rfl

theorem ofExcept_content (d : Diagram) (x : Except Fault Diagram) :
    Reaction.ofExcept d.content (x.map content) = (Reaction.ofExcept d x).content := by
  cases x <;> rfl

/-- **Statements act on the content.** -/
theorem react_content (d : Diagram) (st : Statement) :
    d.content.react st = (d.react st).content := by
  have hk : d.content.activeKind = d.activeKind := rfl
  cases st with
  | aliased label name => simp [react, Reaction.content]
  | participant name => simp [react, Reaction.content]
  | closeParallel =>
    simp only [react, hk, closeBlock_content, ofExcept_content]
    split <;> rfl
  | separator condition =>
    simp only [react, hk, addSeparator_content, ofExcept_content]
    split <;> rfl
  | closeFrame =>
    simp only [react, hk, closeBlock_content, ofExcept_content]
    split <;> rfl
  | numberFrom numeral =>
    simp only [react]
    split <;> rfl
  | state name text => simp [react, Reaction.content]
  | signal source double dotted openHead target text =>
    simp only [react, addSignal_content]
    rcases d.addSignal _ with ⟨_ | f, d'⟩ <;> rfl
  | _ => rfl

theorem readLine_content (forms : List Form) (d : Diagram) (line : String) :
    d.content.readLine forms line = (d.readLine forms line).content := by
  unfold readLine
  induction readings forms line with
  | nil => rfl
  | cons st sts ih => simp [react_content, ih]

theorem readLines_content (forms : List Form) (d : Diagram) (number : Int) (ls : List String) :
    readLines forms d.content number ls = (readLines forms d number ls).content := by
  induction ls generalizing d number with
  | nil => rfl
  | cons l ls ih =>
    simp only [readLines, readLine_content, Reaction.fault?_content, Reaction.after_content,
      Reaction.complaint_content, ih]
    split <;> rfl

/-- **Texts act on the content**: they are reported on alike whatever drawing has left behind. -/
theorem readText_content (forms : List Form) (d : Diagram) (text : String) :
    d.content.readText forms text = (d.readText forms text).content := by
  have ha (r : Reading) : r.content.diagram.active = r.diagram.active := rfl
  simp only [readText, readLines_content, Reading.fault_content, ha]
  split <;> rfl

/-! ## Operations that leave the content alone -/

@[simp] theorem content_heightAt (d : Diagram) (p : Path) : (d.heightAt p).2.content = d.content := by
  unfold heightAt
  split <;> rfl

@[simp] theorem content_drawAt (d : Diagram) (p : Path) (top width : Quantity) :
    (d.drawAt p top width).2.content = d.content := by
  unfold drawAt
  split
  · rfl
  · exact d.content_heightAt p

@[simp] theorem content_draw (d : Diagram) : d.draw.2.content = d.content := by
  simp only [draw, content_drawAt, content_heightAt]
  simp [content]

end Diagram

/-- Whether an operation leaves the content alone: heights are asked for, slots are set, or
something is drawn. -/
def Operation.isQuiet : Operation → Bool
  | place .. | measure _ | drawAt .. | draw => true
  | _ => false

namespace Diagram

/-- **A quiet operation leaves the content alone.** -/
theorem content_perform_of_isQuiet {o : Operation} (h : o.isQuiet = true) (d : Diagram) :
    (d.perform o).content = d.content := by
  cases o with
  | place name position => simp [perform, content]
  | measure p => exact d.content_heightAt p
  | drawAt p top width => exact d.content_drawAt p top width
  | draw => exact d.content_draw
  | _ => simp [Operation.isQuiet] at h

/-- **Every other operation acts on the content.** -/
theorem perform_content {o : Operation} (h : o.isQuiet = false) (d : Diagram) :
    d.content.perform o = (d.perform o).content := by
  cases o with
  | register name label => exact d.register_content name label
  | readLine forms line => simp [perform, next, readLine_content]
  | readText forms text => simp [perform, readText_content, Reading.content]
  | addSignal s => simp [perform]
  | addNote n => exact d.addNote_content n
  | addSeparator condition =>
    simp only [perform, addSeparator_content]
    cases d.addSeparator condition <;> rfl
  | closeBlock =>
    simp only [perform, closeBlock_content]
    cases d.closeBlock <;> rfl
  | setCounter counter | openBlock k | addAt p e => rfl
  | _ => simp [Operation.isQuiet] at h

end Diagram

/-- **The content after a session** is the diagram after the session without its quiet
operations. -/
theorem content_session (operations : List Operation) :
    (session operations).content = session (operations.filter fun o => !o.isQuiet) := by
  induction operations using List.reverseRecOn with
  | nil => rfl
  | append_singleton os o ih =>
    rw [session_concat, List.filter_append]
    cases ho : o.isQuiet with
    | true =>
      rw [Diagram.content_perform_of_isQuiet ho, ih]
      simp [ho]
    | false =>
      rw [← Diagram.perform_content ho, ih]
      simp [ho, session_concat]

namespace Diagram

variable {d d' : Diagram}

/-! ## What is read off the content -/

/-- Heights that are asked for are those of the content. -/
theorem MemorySound.heightAt_content (h : d.MemorySound) (p : Path) :
    (d.content.heightAt p).1 = (d.heightAt p).1 := by
  have hc : d.content.MemorySound := Heights.sound_nil _
  have he : d.content.element? p = d.element? p := rfl
  cases hp : d.element? p with
  | none => simp [Diagram.heightAt, he, hp]
  | some e => rw [(hc.heightAt p).1 e (he.trans hp), (h.heightAt p).1 e hp]

/-- **What is drawn** depends on the participants, without their slots, and on the tree only. -/
theorem MemorySound.draw_congr (h : d.MemorySound) (h' : d'.MemorySound)
    (hr : d.roster.unseated = d'.roster.unseated) (hb : d.body = d'.body) :
    d.draw.1 = d'.draw.1 := by
  obtain ⟨hs, hw, hh⟩ := Roster.seated_congr hr
  simp only [h.draw_fst, h'.draw_fst, placed, root, hs, hw, hh, hb]

end Diagram

open Diagram in
/-- **What drawing leaves behind shows nowhere.** Drawing sets the slots of the participants to
their order. Two sessions that lead to the same participants, by name and label, and to the same
tree have the same document, whatever slots and heights they have left. Two sessions that differ in
quiet operations only, wherever these stand, report alike on every line and every text, have the
same heights and the same document. -/
theorem drawing_unobservable (os os' : List Operation) :
    let d := session os
    let d' := session os'
    (d.draw.2.roster = d.roster.mapIdx fun i p => { p with position := i }) ∧
    (d.roster.unseated = d'.roster.unseated → d.body = d'.body → ∀ palette font,
      d.draw.1.document palette font = d'.draw.1.document palette font) ∧
    (os.filter (fun o => !o.isQuiet) = os'.filter (fun o => !o.isQuiet) →
      (∀ forms line number,
        (d.readLine forms line).complaint number = (d'.readLine forms line).complaint number ∧
          (d.readLine forms line).fault? = (d'.readLine forms line).fault?) ∧
      (∀ forms text, (d.readText forms text).report = (d'.readText forms text).report ∧
        (d.readText forms text).fault = (d'.readText forms text).fault) ∧
      (∀ p, (d.heightAt p).1 = (d'.heightAt p).1) ∧
      ∀ palette font, d.draw.1.document palette font = d'.draw.1.document palette font) := by
  intro d d'
  have hm : d.MemorySound := memorySound_session os
  have hm' : d'.MemorySound := memorySound_session os'
  refine ⟨by simp [draw, Roster.seated], fun hr hb palette font => ?_, fun hos => ?_⟩
  · rw [hm.draw_congr hm' hr hb]
  · -- The two diagrams have the same content, and all that is seen is seen of the content.
    have hc : d.content = d'.content := by
      simp only [d, d', content_session, hos]
    refine ⟨fun forms line number => ?_, fun forms text => ?_, fun p => ?_, fun palette font => ?_⟩
    · have hl : (d.readLine forms line).content = (d'.readLine forms line).content := by
        rw [← readLine_content, hc, readLine_content]
      constructor
      · rw [← Reaction.complaint_content, hl, Reaction.complaint_content]
      · rw [← Reaction.fault?_content, hl, Reaction.fault?_content]
    · have ht : (d.readText forms text).content = (d'.readText forms text).content := by
        rw [← readText_content, hc, readText_content]
      constructor
      · rw [← Reading.report_content, ht, Reading.report_content]
      · rw [← Reading.fault_content, ht, Reading.fault_content]
    · rw [← hm.heightAt_content, hc, hm'.heightAt_content]
    · have hr : d.content.roster = d'.content.roster := by rw [hc]
      have hb : d.content.body = d'.content.body := by rw [hc]
      rw [hm.draw_congr hm' hr hb]

/-- A picture is drawn and a participant is placed elsewhere between two notes. -/
theorem drawing_unobservable_between_notes :
    let d := session [.addNote ⟨"A", ["n"]⟩, .draw, .place "A" 5, .addNote ⟨"B", ["m"]⟩, .measure []]
    let d' := session [.addNote ⟨"A", ["n"]⟩, .addNote ⟨"B", ["m"]⟩]
    d.roster ≠ d'.roster ∧ d.heights ≠ d'.heights ∧
      d.draw.2.roster = [⟨"A", ["A"], 0⟩, ⟨"B", ["B"], 1⟩] ∧
      (∀ palette font, d.draw.1.document palette font = d'.draw.1.document palette font) ∧
      (d.heightAt []).1 = (d'.heightAt []).1 ∧
      ∀ text, (d.readText Form.table text).report = (d'.readText Form.table text).report := by
  intro d d'
  obtain ⟨hs, hc, hq⟩ := drawing_unobservable
    [.addNote ⟨"A", ["n"]⟩, .draw, .place "A" 5, .addNote ⟨"B", ["m"]⟩, .measure []]
    [.addNote ⟨"A", ["n"]⟩, .addNote ⟨"B", ["m"]⟩]
  obtain ⟨-, ht, hh, -⟩ := hq rfl
  exact ⟨by decide, by decide, hs.trans (by decide), hc (by decide) rfl, hh [],
    fun text => (ht Form.table text).1⟩

end SequenceDiagram
