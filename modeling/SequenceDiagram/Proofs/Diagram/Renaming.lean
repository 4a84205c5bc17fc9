import Mathlib.SetTheory.Cardinal.Arithmetic
import SequenceDiagram.Markup.Document
import SequenceDiagram.Proofs.Layout.Drawing
import SequenceDiagram.Proofs.Participant.Mention

/-!
# Names of participants

The name of a participant is a key: it is compared with other names, and it is the label if no other
one is given. A diagram that is built by operations which give every participant a label of its own
is drawn alike whatever the names are, as long as different names stay different.

Renaming by an injective function commutes with every operation that builds a diagram. A function
that is injective on the names that occur does the same there as one that is injective everywhere.

## Main definitions

* `Element.rename`, `Diagram.rename`, `Operation.rename`: other names for the participants
* `Operation.builds`: the operations that change a diagram directly, from its open block on
* `Operation.mentions`: the names that an operation mentions, with the labels that it gives
* `LabelledFirst`: the first mention of every name gives a label
* `Diagram.fault?`: the fault of an operation

## Main results

* `Element.height_rename`, `Element.drawing_rename`: renaming shows in no height and no drawing
* `Diagram.perform_rename`, `Diagram.fault?_rename`: renaming commutes with operations
* `session_rename`: the diagram after a renamed session
* `document_renamed`: names show nowhere but in their order
-/

namespace SequenceDiagram

open Quantity (units)

variable {f g : String → String}

/-! ## Renamed trees -/

/-- A message between participants of other names. -/
def Signal.rename (f : String → String) (s : Signal) : Signal :=
  { s with source := f s.source, target := f s.target }

/-- A note over a participant of another name. -/
def Note.rename (f : String → String) (n : Note) : Note := { n with participant := f n.participant }

theorem Signal.isLoop_rename (hf : f.Injective) (s : Signal) : (s.rename f).isLoop = s.isLoop := by
  simp [isLoop, rename, hf.eq_iff]

theorem Signal.height_rename (hf : f.Injective) (s : Signal) : (s.rename f).height = s.height := by
  rw [height, s.isLoop_rename hf]
  rfl

namespace Element

mutual

/-- The tree with other names. -/
def rename (f : String → String) : Element → Element
  | signal s => .signal (s.rename f)
  | note n => .note (n.rename f)
  | separator c => .separator c
  | block k children => .block k (renameAll f children)

/-- Several trees with other names. -/
def renameAll (f : String → String) : List Element → List Element
  | [] => []
  | e :: es => e.rename f :: renameAll f es

end

attribute [local simp] rename

@[simp] theorem renameAll_eq_map (f : String → String) (es : List Element) :
    renameAll f es = es.map (rename f) := by
  induction es with
  | nil => rfl
  | cons e es ih => simp [renameAll, ih]

@[simp] theorem rename_block (f : String → String) (k : BlockKind) (children : List Element) :
    (block k children).rename f = block k (children.map (rename f)) := by
  rw [rename, renameAll_eq_map]

@[simp] theorem kind?_rename (f : String → String) (e : Element) : (e.rename f).kind? = e.kind? := by
  cases e <;> simp [kind?]

@[simp] theorem children_rename (f : String → String) (e : Element) :
    (e.rename f).children = e.children.map (rename f) := by
  cases e <;> simp [children]

@[simp] theorem get?_rename (f : String → String) (e : Element) (p : Path) :
    (e.rename f).get? p = (e.get? p).map (rename f) := by
  induction p generalizing e with
  | nil => simp
  | cons i p ih =>
    cases e with
    | block k children => cases h : children[i]? <;> simp [h, ih]
    | _ => simp [get?]

theorem append_rename (f : String → String) (e : Element) (p : Path) (new : Element) :
    (e.rename f).append p (new.rename f) = (e.append p new).rename f := by
  induction p generalizing e with
  | nil => cases e <;> simp [append]
  | cons i p ih =>
    cases e with
    | block k children =>
      rw [rename_block, append_block_cons, append_block_cons, rename_block]
      -- Only the element at `i` is changed, before its renaming or after it.
      refine congrArg (block k) (List.ext_getElem? fun j => ?_)
      simp only [List.getElem?_modify, List.getElem?_map]
      cases children[j]? <;> by_cases hij : i = j <;> simp [hij, ih]
    | _ => simp [append]

/-- Whether a message returns to its sender does not change, and so heights do not. -/
theorem height_rename (hf : f.Injective) (e : Element) : (e.rename f).height = e.height := by
  induction e using Element.induction with
  | leaf e he =>
    cases e with
    | signal s => exact s.height_rename hf
    | block k children => simp [kind?] at he
    | _ => rfl
  | block k children ih =>
    rw [rename_block, height_block, height_block, List.map_map]
    exact congrArg k.height (List.map_congr_left ih)

end Element

/-! ## Renamed participants -/

/-- A participant of another name with the same label. -/
def Participant.rename (f : String → String) (p : Participant) : Participant :=
  { p with name := f p.name }

namespace Roster

/-- The participants with other names. -/
def rename (f : String → String) (r : Roster) : Roster := r.map (Participant.rename f)

variable {r : Roster} {name : String} {label : Option String}

@[simp] theorem names_rename (f : String → String) (r : Roster) :
    (r.rename f).names = r.names.map f := by
  simp [names, rename, Participant.rename]

@[simp] theorem width_rename (f : String → String) (r : Roster) : (r.rename f).width = r.width := by
  simp [width, rename]

@[simp] theorem headerHeight_rename (f : String → String) (r : Roster) :
    (r.rename f).headerHeight = r.headerHeight := by
  simp only [headerHeight, rename, List.map_map]
  rfl

@[simp] theorem seated_rename (f : String → String) (r : Roster) :
    (r.rename f).seated = r.seated.rename f :=
  List.ext_getElem (by simp [seated, rename]) (by simp [seated, rename, Participant.rename])

/-- The participant of a name is found under its other name. -/
theorem position_rename (hf : f.Injective) (r : Roster) (name : String) :
    (r.rename f).position (f name) = r.position name := by
  -- The search passes over the same participants, as no other name becomes the one looked for.
  simp only [position, participant?, rename, List.find?_map, Option.map_map]
  simp [Function.comp_def, Participant.rename, hf.eq_iff]

/-- **A mention that gives a label**, or that is not the first one, is renamed with its name. -/
theorem register_rename (hf : f.Injective) (h : label = none → name ∈ r.names) :
    (r.rename f).register (f name) label = (r.register name label).rename f := by
  by_cases hn : name ∈ r.names
  · rw [register_of_mem hn, register_of_mem (by simpa using ⟨name, hn, rfl⟩)]
  · have hn' : f name ∉ (r.rename f).names := by
      simpa [hf.eq_iff] using hn
    -- A new participant has a label here, or else the label would be its name.
    obtain ⟨l, rfl⟩ := Option.ne_none_iff_exists'.1 (mt h hn)
    rw [register_of_notMem hn, register_of_notMem hn']
    simp [rename, Participant.rename, Participant.create]

end Roster

/-! ## Renamed drawings -/

theorem Signal.shape_rename (hf : f.Injective) (s : Signal) (r : Roster) (top : Quantity) :
    (s.rename f).shape (r.rename f) top = s.shape r top := by
  simp only [shape, s.isLoop_rename hf]
  simp only [rename, r.position_rename hf]

namespace Element

/-- The elements of a block begin where they do with other names. -/
theorem places_rename (hf : f.Injective) (k : BlockKind) (top : Quantity)
    (children : List Element) :
    k.places top (children.map (rename f)) =
      (k.places top children).map (Prod.map id (rename f)) := by
  have hheights : (children.map (rename f)).map height = children.map height := by
    rw [List.map_map]
    exact List.map_congr_left fun c _ => height_rename hf c
  simp only [BlockKind.places, height_block, hheights, List.zip_map_right]

/-- **Renaming shows in no drawing**: participants are found by their names, and nothing else is
read off these. -/
theorem drawing_rename (hf : f.Injective) (e : Element) (r : Roster) (width : Quantity) (p : Path)
    (top : Quantity) :
    (e.rename f).drawing (r.rename f) width p top = e.drawing r width p top := by
  induction e using Element.induction generalizing p top with
  | leaf e he =>
    rw [drawing_leaf he, drawing_leaf (by simpa using he), height_rename hf]
    cases e with
    | block k children => simp [kind?] at he
    | signal s => simp [rename, Placed.shapes, s.shape_rename hf]
    | note n => simp [rename, Placed.shapes, Note.rename, r.position_rename hf]
    | separator c => rfl
  | block k children ih =>
    -- The block is as high as before, its elements begin where they did, and these are drawn alike.
    have hheight := height_rename hf (block k children)
    rw [rename_block] at hheight ⊢
    rw [drawing_block, drawing_block, places_rename hf, List.flatMap_map, hheight]
    exact congrArg (_ ++ ·) (List.flatMap_congr fun c hc => ih c.2 (k.mem_of_mem_places hc) _ _)

end Element

/-! ## Renamed diagrams -/

namespace Diagram

variable {d : Diagram} {name : String} {label : Option String}

/-- The diagram with other names. -/
def rename (f : String → String) (d : Diagram) : Diagram :=
  { d with roster := d.roster.rename f, body := d.body.map (Element.rename f) }

@[simp] theorem root_rename (f : String → String) (d : Diagram) :
    (d.rename f).root = d.root.rename f := by
  simp [root, rename]

@[simp] theorem element?_rename (f : String → String) (d : Diagram) (p : Path) :
    (d.rename f).element? p = (d.element? p).map (Element.rename f) := by
  simp [element?]

@[simp] theorem activeKind_rename (f : String → String) (d : Diagram) :
    (d.rename f).activeKind = d.activeKind := by
  have ha : (d.rename f).active = d.active := rfl
  simp [activeKind, ha, Option.bind_map]

theorem add_rename (f : String → String) (d : Diagram) (e : Element) :
    (d.rename f).add (e.rename f) = (d.add e).rename f := by
  simp only [add, addAt, root_rename]
  simp [rename, Element.append_rename]

theorem openBlock_rename (f : String → String) (d : Diagram) (k : BlockKind) :
    (d.rename f).openBlock k = (d.openBlock k).rename f := by
  have ha : (d.rename f).active = d.active := rfl
  have hc (p : Path) : ((d.rename f).childrenAt p).length = (d.childrenAt p).length := by
    simp only [childrenAt, element?_rename]
    cases d.element? p <;> simp
  have hadd := d.add_rename f (.block k [])
  rw [Element.rename_block, List.map_nil] at hadd
  rw [openBlock, hadd, ha, hc]
  rfl

theorem closeBlock_rename (f : String → String) (d : Diagram) :
    (d.rename f).closeBlock = d.closeBlock.map (rename f) := by
  have ha : (d.rename f).active = d.active := rfl
  simp only [closeBlock, ha]
  split <;> rfl

theorem addSeparator_rename (f : String → String) (d : Diagram) (condition : String) :
    (d.rename f).addSeparator condition = (d.addSeparator condition).map (rename f) := by
  simp only [addSeparator, activeKind_rename]
  split
  · exact congrArg Except.ok (d.add_rename f (.separator condition))
  · rfl

theorem number_rename (f : String → String) (d : Diagram) (s : Signal) :
    (d.rename f).number (s.rename f) =
      (d.number s).map (Prod.map (Signal.rename f) (rename f)) := by
  have hc : (d.rename f).counter = d.counter := rfl
  simp only [number, hc]
  cases d.counter with
  | none => rfl
  | some n =>
    dsimp only
    split <;> rfl

theorem register_rename (hf : f.Injective) (h : label = none → name ∈ d.roster.names) :
    (d.rename f).register (f name) label = (d.register name label).rename f := by
  simp [register, rename, Roster.register_rename hf h]

theorem addNote_rename (hf : f.Injective) {n : Note} (h : n.participant ∈ d.roster.names) :
    (d.rename f).addNote (n.rename f) = (d.addNote n).rename f := by
  have hm : (d.rename f).register (f n.participant) none =
      (d.register n.participant none).rename f := register_rename hf fun _ => h
  simp only [addNote, mention_note, ← add_rename, ← hm]
  rfl

theorem addSignal_rename (hf : f.Injective) {s : Signal} (hs : s.source ∈ d.roster.names)
    (ht : s.target ∈ d.roster.names) :
    (d.rename f).addSignal (s.rename f) = ((d.addSignal s).1, (d.addSignal s).2.rename f) := by
  have hm : (d.rename f).mention (.signal (s.rename f)) = (d.mention (.signal s)).rename f := by
    -- The target is mentioned when the source has been.
    have ht' : s.target ∈ (d.register s.source none).roster.names :=
      (Roster.mem_names_register ..).2 (.inl ht)
    rw [mention_signal, mention_signal, ← register_rename hf fun _ => ht',
      ← register_rename hf fun _ => hs]
    rfl
  simp only [addSignal, hm, number_rename]
  cases (d.mention (.signal s)).number s with
  | error fault => rfl
  | ok x => exact congrArg (Prod.mk none) (x.2.add_rename f (.signal x.1))

end Diagram

/-! ## Renamed sessions -/

namespace Operation

/-- Whether an operation changes the participants, the counter, or the tree at its open block. -/
def builds : Operation → Bool
  | register .. | setCounter _ | addSignal _ | addNote _ | addSeparator _ | openBlock _
  | closeBlock => true
  | place .. | readLine .. | readText .. | addAt .. | measure _ | drawAt .. | draw => false

/-- The operation with other names. What it reads or draws stays as it is. -/
def rename (f : String → String) : Operation → Operation
  | register name label => register (f name) label
  | place name position => place (f name) position
  | addSignal s => addSignal (s.rename f)
  | addNote n => addNote (n.rename f)
  | addAt p e => addAt p (e.rename f)
  | o => o

/-- The names that an operation mentions, with the label that it gives. -/
def mentions : Operation → List Mention
  | register name label => [(name, label)]
  | addSignal s => [(s.source, none), (s.target, none)]
  | addNote n => [(n.participant, none)]
  | _ => []

variable {o : Operation}

/-- Only the names that an operation mentions count for what it is called with other names. -/
theorem rename_congr (ho : o.builds = true) (h : ∀ m ∈ o.mentions, f m.1 = g m.1) :
    o.rename f = o.rename g := by
  cases o with
  | register name label => simpa [rename, mentions] using h
  | addSignal s => simpa [rename, mentions, Signal.rename] using h
  | addNote n => simpa [rename, mentions, Note.rename] using h
  | setCounter | addSeparator | openBlock | closeBlock => rfl
  | _ => simp [builds] at ho

/-- An operation that mentions a name without a label gives no label at all. -/
theorem join_lookup_mentions {name : String} (h : (name, none) ∈ o.mentions) (other : String) :
    (o.mentions.lookup other).join = none := by
  cases o <;> simp [mentions] at h <;> simp [mentions, List.lookup_cons] <;> grind

end Operation

/-- The first mention of every name gives a label. -/
def LabelledFirst (mentions : List Mention) : Prop :=
  ∀ m ∈ mentions, ((mentions.lookup m.1).join).isSome = true

namespace LabelledFirst

variable {xs ys : List Mention}

theorem of_append (h : LabelledFirst (xs ++ ys)) : LabelledFirst xs := by
  intro m hm
  -- The first mention of a name in all of them is the first one in `xs`.
  obtain ⟨label, hl⟩ : ∃ label, xs.lookup m.1 = some label := by
    rw [← Option.isSome_iff_exists, List.lookup_isSome_iff]
    exact ⟨m, hm, beq_self_eq_true _⟩
  have hfirst := h m (List.mem_append_left ys hm)
  rwa [List.lookup_append, hl, Option.some_or, ← hl] at hfirst

/-- A name that is mentioned without a label has been mentioned before. -/
theorem mem_of_bare {o : Operation} {name : String} (h : LabelledFirst (xs ++ o.mentions))
    (ho : (name, none) ∈ o.mentions) : name ∈ xs.map Prod.fst := by
  -- Otherwise its first mention would be one by the operation, which gives no label.
  by_contra hn
  have hl : xs.lookup name = none := by
    refine List.lookup_eq_none_iff.2 fun m hm => ?_
    rw [bne_iff_ne]
    rintro rfl
    exact hn (List.mem_map_of_mem hm)
  have hfirst := h (name, none) (List.mem_append_right xs ho)
  rw [List.lookup_append, hl, Option.none_or, Operation.join_lookup_mentions ho] at hfirst
  simp at hfirst

end LabelledFirst

namespace Diagram

variable {d : Diagram} {o : Operation}

/-- The fault of an operation. -/
def fault? (d : Diagram) : Operation → Option Fault
  | .readLine forms line => (d.readLine forms line).fault?
  | .readText forms text => (d.readText forms text).fault
  | .addSignal s => (d.addSignal s).1
  | .addSeparator condition =>
    match d.addSeparator condition with
    | .ok _ => none
    | .error f => some f
  | .closeBlock =>
    match d.closeBlock with
    | .ok _ => none
    | .error f => some f
  | .register .. | .place .. | .setCounter _ | .addNote _ | .openBlock _ | .addAt .. | .measure _
  | .drawAt .. | .draw => none

/-- An operation that builds a diagram registers what it mentions. -/
theorem roster_perform (ho : o.builds = true) (d : Diagram) :
    (d.perform o).roster = d.roster.registerAll o.mentions := by
  cases o with
  | addSignal s => rcases d.addSignal_cases s with ⟨_, hs⟩ | hs <;> rw [perform, hs] <;> rfl
  | addSeparator condition =>
    simp only [perform, addSeparator]
    split <;> rfl
  | closeBlock =>
    simp only [perform, closeBlock]
    split <;> rfl
  | register | setCounter | addNote | openBlock => rfl
  | _ => simp [Operation.builds] at ho

/-- **Renaming commutes with operations** if names are registered that are mentioned without a
label. -/
theorem perform_rename (hf : f.Injective) (ho : o.builds = true)
    (hm : ∀ name, (name, none) ∈ o.mentions → name ∈ d.roster.names) :
    (d.rename f).perform (o.rename f) = (d.perform o).rename f := by
  cases o with
  | register name label =>
    refine register_rename hf fun hl => hm name ?_
    rw [hl]
    exact List.mem_singleton_self _
  | addSignal s =>
    have hs := addSignal_rename hf (hm s.source (by simp [Operation.mentions]))
      (hm s.target (by simp [Operation.mentions]))
    simp only [Operation.rename, perform, hs]
  | addNote n => exact addNote_rename hf (hm n.participant (by simp [Operation.mentions]))
  | addSeparator condition =>
    simp only [Operation.rename, perform, addSeparator_rename]
    cases d.addSeparator condition <;> rfl
  | closeBlock =>
    simp only [Operation.rename, perform, closeBlock_rename]
    cases d.closeBlock <;> rfl
  | openBlock k => exact d.openBlock_rename f k
  | setCounter counter => rfl
  | _ => simp [Operation.builds] at ho

/-- **Renamed operations fail alike.** -/
theorem fault?_rename (hf : f.Injective) (ho : o.builds = true)
    (hm : ∀ name, (name, none) ∈ o.mentions → name ∈ d.roster.names) :
    (d.rename f).fault? (o.rename f) = d.fault? o := by
  cases o with
  | addSignal s =>
    have hs := addSignal_rename hf (hm s.source (by simp [Operation.mentions]))
      (hm s.target (by simp [Operation.mentions]))
    simp only [Operation.rename, fault?, hs]
  | addSeparator condition =>
    simp only [Operation.rename, fault?, addSeparator_rename]
    cases d.addSeparator condition <;> rfl
  | closeBlock =>
    simp only [Operation.rename, fault?, closeBlock_rename]
    cases d.closeBlock <;> rfl
  | register | setCounter | addNote | openBlock => rfl
  | _ => simp [Operation.builds] at ho

end Diagram

open Diagram

variable {os : List Operation} {o : Operation}

/-- The participants after a session that builds a diagram are those that it mentions. -/
theorem mem_names_session (hb : ∀ o ∈ os, o.builds = true) {name : String} :
    name ∈ (session os).roster.names ↔ name ∈ (os.flatMap Operation.mentions).map Prod.fst := by
  induction os using List.reverseRecOn with
  | nil => simp [session, empty, Roster.names]
  | append_singleton os o ih =>
    rw [List.forall_mem_append, List.forall_mem_singleton] at hb
    rw [session_concat, roster_perform hb.2, Roster.mem_names_registerAll, ih hb.1]
    simp

/-- A name that is mentioned without a label after a session is that of a participant. -/
theorem LabelledFirst.mem_names_session (hb : ∀ o ∈ os, o.builds = true)
    (h : LabelledFirst ((os ++ [o]).flatMap Operation.mentions)) {name : String}
    (hm : (name, none) ∈ o.mentions) : name ∈ (session os).roster.names := by
  rw [List.flatMap_append, List.flatMap_singleton] at h
  exact (SequenceDiagram.mem_names_session hb).2 (h.mem_of_bare hm)

/-- **The diagram after a renamed session** is the renamed one. -/
theorem session_rename (hf : f.Injective) (hb : ∀ o ∈ os, o.builds = true)
    (h : LabelledFirst (os.flatMap Operation.mentions)) :
    session (os.map (Operation.rename f)) = (session os).rename f := by
  -- By induction from the end: the names that the last operation mentions without a label are
  -- those of participants by then.
  induction os using List.reverseRecOn with
  | nil => rfl
  | append_singleton os o ih =>
    rw [List.forall_mem_append, List.forall_mem_singleton] at hb
    have hm : ∀ name, (name, none) ∈ o.mentions → name ∈ (session os).roster.names :=
      fun _ hname => h.mem_names_session hb.1 hname
    rw [List.flatMap_append] at h
    rw [List.map_append, List.map_singleton, session_concat, session_concat, ih hb.1 h.of_append,
      perform_rename hf hb.2 hm]

namespace Diagram

variable {d : Diagram}

theorem MemorySound.heightAt_rename (hf : f.Injective) (h : d.MemorySound)
    (h' : (d.rename f).MemorySound) (p : Path) : ((d.rename f).heightAt p).1 = (d.heightAt p).1 := by
  cases hp : d.element? p with
  | none => simp [Diagram.heightAt, hp]
  | some e =>
    rw [(h.heightAt p).1 e hp, (h'.heightAt p).1 (e.rename f) (by simp [hp]), e.height_rename hf]

/-- **A renamed diagram has the same picture.** -/
theorem MemorySound.draw_rename (hf : f.Injective) (h : d.MemorySound)
    (h' : (d.rename f).MemorySound) : (d.rename f).draw.1 = d.draw.1 := by
  have hr : (d.rename f).roster = d.roster.rename f := rfl
  have hheight := d.root.height_rename hf
  -- Of a participant its slot and its label are drawn, which stay as they are.
  have hparticipants : (d.roster.seated.rename f).map
      (Participant.shape · (units (d.roster.headerHeight + d.root.height))) =
        d.roster.seated.map (Participant.shape ·
          (units (d.roster.headerHeight + d.root.height))) := by
    rw [Roster.rename, List.map_map]
    rfl
  have hshapes : (d.rename f).draw.1.shapes = d.draw.1.shapes := by
    rw [h'.shapes_draw, h.shapes_draw, root_rename, hr, Roster.seated_rename, Roster.width_rename,
      Roster.headerHeight_rename, hheight, hparticipants, Element.drawing_rename hf]
  rw [h'.draw_fst, h.draw_fst] at hshapes ⊢
  rw [Picture.mk.injEq]
  refine ⟨Roster.width_rename f d.roster, ?_, hshapes⟩
  rw [root_rename, hr, Roster.headerHeight_rename, hheight]

end Diagram

/-- A renaming that is injective on finitely many names does there what a renaming does that is
injective everywhere. -/
theorem exists_injective_eq_on {names : Set String} (hn : names.Finite) (hf : Set.InjOn f names) :
    ∃ g : String → String, g.Injective ∧ ∀ name ∈ names, f name = g name := by
  have hlt : Cardinal.mk names < Cardinal.mk String :=
    hn.lt_aleph0.trans_le (Cardinal.aleph0_le_mk String)
  obtain ⟨g, hg⟩ := Cardinal.extend_function_of_lt ⟨fun name : names => f name, hf.injective⟩ hlt
    ⟨Equiv.refl String⟩
  exact ⟨g, g.injective, fun name hname => (hg ⟨name, hname⟩).symm⟩

/-- **Names reach the document through order and equality only.** Let a session register
participants, set the counter, add messages, notes and separators, and open and close blocks, such
that the first mention of every name gives a label. If its names are replaced by others, different
ones by different ones, then every operation fails as it did, with the same fault, or succeeds as it
did, all heights are the same, and the documents of the two diagrams are the same for all colours
and fonts. -/
theorem document_renamed {f : String → String} {os : List Operation}
    (hb : ∀ o ∈ os, o.builds = true) (hl : LabelledFirst (os.flatMap Operation.mentions))
    (hf : Set.InjOn f {name | name ∈ (os.flatMap Operation.mentions).map Prod.fst}) :
    let renamed := os.map (Operation.rename f)
    (∀ i o, os[i]? = some o →
      (session (renamed.take i)).fault? (o.rename f) = (session (os.take i)).fault? o) ∧
    (∀ p, ((session renamed).heightAt p).1 = ((session os).heightAt p).1) ∧
    ∀ palette font, (session renamed).draw.1.document palette font =
      (session os).draw.1.document palette font := by
  intro renamed
  -- On the names that occur `f` does what a function does that is injective everywhere.
  obtain ⟨g, hg, hfg⟩ := exists_injective_eq_on (List.finite_toSet _) hf
  have hrename : ∀ o ∈ os, o.rename f = o.rename g := by
    intro o ho
    refine Operation.rename_congr (hb o ho) fun m hm => hfg m.1 ?_
    exact List.mem_map_of_mem (List.mem_flatMap.2 ⟨o, ho, hm⟩)
  have hrenamed : renamed = os.map (Operation.rename g) := List.map_congr_left hrename
  have hm : (session os).MemorySound := memorySound_session os
  have hm' : ((session os).rename g).MemorySound := by
    rw [← session_rename hg hb hl]
    exact memorySound_session _
  rw [hrenamed]
  refine ⟨fun i o hi => ?_, fun p => ?_, fun palette font => ?_⟩
  · -- What is registered before an operation is what the operations before it mention.
    have hsplit : os.take i ++ o :: os.drop (i + 1) = os := by
      obtain ⟨hlt, rfl⟩ := List.getElem?_eq_some_iff.1 hi
      rw [List.getElem_cons_drop, List.take_append_drop]
    have hbefore : ∀ o ∈ os.take i, o.builds = true := fun o ho => hb o (List.mem_of_mem_take ho)
    have hlabelled : LabelledFirst ((os.take i ++ [o]).flatMap Operation.mentions) := by
      rw [← hsplit, List.append_cons, List.flatMap_append] at hl
      exact hl.of_append
    have hfirst := hlabelled
    rw [List.flatMap_append] at hfirst
    rw [hrename o (List.mem_of_getElem? hi), ← List.map_take,
      session_rename hg hbefore hfirst.of_append,
      fault?_rename hg (hb o (List.mem_of_getElem? hi)) fun name hname =>
        hlabelled.mem_names_session hbefore hname]
  · rw [session_rename hg hb hl, hm.heightAt_rename hg hm']
  · rw [session_rename hg hb hl, hm.draw_rename hg hm']

/-- Two participants swap their names, in a session in which a block is closed twice. -/
theorem document_renamed_swap :
    let f := fun name => if name = "A" then "B" else "A"
    let os := [.register "A" (some "x"), .register "B" (some "y"), .openBlock .parallel,
      .addSignal ⟨"A", "B", ["m"], false, false, false⟩, .closeBlock, .closeBlock,
      .addNote ⟨"A", ["n"]⟩]
    let renamed := os.map (Operation.rename f)
    (session renamed).roster.names = ["B", "A"] ∧
      (session (renamed.take 5)).fault? .closeBlock = some .closedRoot ∧
      ((session renamed).heightAt []).1 = ((session os).heightAt []).1 ∧
      ∀ palette font, (session renamed).draw.1.document palette font =
        (session os).draw.1.document palette font := by
  intro f os renamed
  have hbuilds : ∀ o ∈ os, o.builds = true := by decide
  have hlabelled : LabelledFirst (os.flatMap Operation.mentions) := by
    unfold LabelledFirst
    decide
  have hf : ∀ a ∈ (os.flatMap Operation.mentions).map Prod.fst,
      ∀ b ∈ (os.flatMap Operation.mentions).map Prod.fst, f a = f b → a = b := by decide
  obtain ⟨hfault, hheight, hdocument⟩ := document_renamed hbuilds hlabelled
    fun a ha b hb hab => hf a ha b hb hab
  exact ⟨by decide, (hfault 5 .closeBlock rfl).trans (by decide), hheight [], hdocument⟩

end SequenceDiagram
