import SequenceDiagram.Proofs.Diagram.Content
import SequenceDiagram.Proofs.Diagram.Failure
import SequenceDiagram.Proofs.Diagram.Mentions
import SequenceDiagram.Proofs.Layout.Paths
import SequenceDiagram.Proofs.Object.WellFormed

/-!
# Sessions on objects

Whatever is done with a diagram, its objects stand for it: every operation does the same to both,
also one that fails. So the references of the objects agree with each other and with the tree after
any session.

## Main definitions

* `Store.Represents`: objects that stand for a diagram
* `Operation.introduced`: an operation, with the mentions that go before it

## Main results

* `Store.Represents.react`, `Store.Represents.readLine`: statements and lines
* `Store.Represents.perform`: operations
* `session_wellFormed`: the references after any session
* `readLine_fails`: which lines fail after a session, and what they leave behind
-/

namespace SequenceDiagram

namespace Store

/-- The objects stand for the diagram, for some paths of the blocks. -/
def Represents (s : Store) (d : Diagram) : Prop := ∃ paths, s.Traces d paths

/-- What comes of an operation on both sides: the same fault, or objects that stand for the
diagram. -/
inductive Corresponds : Except Fault Store → Except Fault Diagram → Prop
  | ok {s : Store} {d : Diagram} (h : s.Represents d) : Corresponds (.ok s) (.ok d)
  | error (f : Fault) : Corresponds (.error f) (.error f)

variable {s s' : Store} {d : Diagram} {paths : List Path}

/-! ## Slots -/

/-- Participants of a table who are put into the slots from a number on. -/
theorem foldl_modify_position (names : List String) (k : Nat) (ps : List Participant) :
    ((names.zipIdx k).zipIdx k).foldl
        (fun ps e => ps.modify e.1.2 fun p => { p with position := e.2 }) ps =
      ps.mapIdx fun i p =>
        if k ≤ i ∧ i < k + names.length then { p with position := i } else p := by
  induction names generalizing k ps with
  | nil =>
    refine List.ext_getElem (by simp) fun i _ _ => ?_
    rw [List.getElem_mapIdx, if_neg (by simp)]
    rfl
  | cons name names ih =>
    rw [List.zipIdx_cons, List.zipIdx_cons, List.foldl_cons, ih]
    refine List.ext_getElem (by simp) fun i _ _ => ?_
    simp only [List.getElem_mapIdx, List.getElem_modify, List.length_cons]
    by_cases hk : k = i
    · subst hk
      rw [if_neg (by omega), if_pos rfl, if_pos (by omega)]
    · rw [if_neg hk]
      by_cases hi : k + 1 ≤ i ∧ i < k + 1 + names.length
      · rw [if_pos hi, if_pos (by omega)]
      · rw [if_neg hi, if_neg (by omega)]

namespace Traces

variable (h : s.Traces d paths)
include h

theorem participants_seat : s.seat.participants = d.roster.seated := by
  have hlen : d.roster.names.length = d.roster.length := List.length_map ..
  rw [seat, h.table, foldl_modify_position, Roster.seated, h.participants, hlen]
  refine List.ext_getElem (by simp) fun i hi _ => ?_
  rw [List.length_mapIdx] at hi
  rw [List.getElem_mapIdx, List.getElem_mapIdx, if_pos ⟨Nat.zero_le i, by omega⟩]

/-- The participants and the content of a diagram are all that counts. -/
theorem of_content {d' : Diagram} (hs : s.Extends s') (hcontainers : s'.containers = s.containers)
    (hactive : s'.active = s.active) (htable : s'.table = s.table)
    (hcounter : s'.counter = s.counter) (hparticipants : s'.participants = d'.roster)
    (hnames : d'.roster.names = d.roster.names) (hc : d'.content = d.content) :
    s'.Traces d' paths := by
  have hb : d'.content.body = d.content.body := by rw [hc]
  have ha : d'.content.active = d.content.active := by rw [hc]
  have hn : d'.content.counter = d.content.counter := by rw [hc]
  refine h.congr hs hcontainers hb ?_ hparticipants ?_ ?_ ?_
  · rw [hactive]
    exact h.active.trans (congrArg some ha.symm)
  · rw [htable, hnames, h.table]
  · rw [hnames]
    exact h.names
  · rw [hcounter, h.counter]
    exact hn.symm

/-- Participants who are put into the slots of their order, on both sides. -/
theorem seat {d' : Diagram} (hr : d'.roster = d.roster.seated) (hc : d'.content = d.content) :
    s.seat.Traces d' paths := by
  have hnames : d'.roster.names = d.roster.names := by rw [hr, Roster.names_seated]
  have hname (r : Nat) : s.seat.name? r = s.name? r := by
    rw [name?, h.participants_seat, ← List.getElem?_map, name?, h.participants,
      ← List.getElem?_map]
    exact congrArg (·[r]?) d.roster.names_seated
  exact h.of_content ⟨fun {r name} hn => by rw [hname, hn], id⟩ rfl rfl rfl rfl
    (h.participants_seat.trans hr.symm) hnames hc

/-- A participant who is put into a slot, on both sides. -/
theorem place (name : String) (position : Int) :
    (s.perform (.place name position)).Traces (d.perform (.place name position)) paths := by
  have hnames : (d.roster.setPosition name position).names = d.roster.names := by
    simp only [Roster.names, Roster.setPosition, List.map_map]
    refine List.map_congr_left fun p _ => ?_
    simp only [Function.comp_apply]
    split <;> rfl
  simp only [perform, Diagram.perform]
  cases hl : s.table.lookup name with
  | none =>
    have hmem := h.lookup_eq_none_iff.1 hl
    have hd : d.roster.setPosition name position = d.roster := by
      refine (List.map_congr_left fun p hp => ?_).trans (List.map_id _)
      rw [if_neg]
      · rfl
      · rintro rfl
        exact hmem (List.mem_map_of_mem hp)
    rw [hd]
    exact h
  | some r =>
    have hr := h.lookup_eq_some_iff.1 hl
    rw [h.name?_eq] at hr
    have hparticipants : s.participants.modify r (fun p => { p with position }) =
        d.roster.setPosition name position := by
      rw [h.participants, Roster.setPosition]
      refine List.ext_getElem (by simp) fun i hi _ => ?_
      rw [List.length_modify] at hi
      rw [List.getElem_modify, List.getElem_map]
      -- The name is that of one participant only.
      have hi' : d.roster.names[i]? = some d.roster[i].name := by simp [Roster.names, hi]
      by_cases hri : r = i
      · subst hri
        rw [if_pos rfl, if_pos (Option.some.inj (hi'.symm.trans hr))]
      · rw [if_neg hri, if_neg]
        intro hn
        rw [hn] at hi'
        exact hri ((List.getElem?_inj (List.getElem?_eq_some_iff.1 hr).1 h.names).1
          (hr.trans hi'.symm))
    have hext : s.Extends
        { s with participants := s.participants.modify r fun p => { p with position } } := by
      refine ⟨fun {i n} hn => ?_, id⟩
      rw [name?, hparticipants, ← List.getElem?_map]
      rw [h.name?_eq] at hn
      exact (congrArg (·[i]?) hnames).trans hn
    exact h.of_content hext rfl rfl rfl rfl hparticipants hnames
      (Diagram.content_perform_of_isQuiet (o := .place name position) rfl d)

/-! ## Elements and blocks -/

/-- The kind of the open block, on both sides. -/
theorem activeKind_eq : s.activeKind = d.activeKind := by
  obtain ⟨y, hy, children, he, -⟩ := h.exists_block h.active
  simp [Store.activeKind, Diagram.activeKind, hy, he, Element.kind?]

/-- A new block that is open from now on. -/
theorem openBlock (k : BlockKind) :
    (s.openBlock k).Traces (d.openBlock k)
      (paths ++ [d.active ++ [(d.childrenAt d.active).length]]) := by
  have hn := h.nest h.active k
  refine hn.congr ⟨id, id⟩ rfl rfl ?_ hn.participants hn.table hn.names hn.counter
  simp only [Store.openBlock, Diagram.openBlock, ← h.length]
  simp

/-- The block around the open one is open again, unless the outermost block is open. -/
theorem closeBlock : Corresponds s.closeBlock d.closeBlock := by
  obtain ⟨y, hy⟩ := h.exists_container h.active
  have hs := h.stands _ y _ hy h.active
  rw [Store.closeBlock, hy, Option.bind_some, Diagram.closeBlock]
  by_cases ha : d.active = []
  · rw [if_pos ha, hs.outermost ha]
    exact .error _
  · obtain ⟨b, x, hb, hpath, -⟩ := hs.parent d.active.dropLast (d.active.getLast ha)
      (List.dropLast_concat_getLast ha).symm
    rw [if_neg ha, hb]
    exact .ok ⟨paths, h.congr ⟨id, id⟩ rfl rfl hpath h.participants h.table h.names h.counter⟩

/-- A separator in the open block, if that is an alternative. -/
theorem addSeparator (condition : String) :
    Corresponds (s.addSeparator condition) (d.addSeparator condition) := by
  rw [Store.addSeparator, Diagram.addSeparator, h.activeKind_eq]
  split
  · refine .ok ⟨paths, h.add h.active rfl (by simp) ?_⟩
    intro condition' b hb
    exact ((Item.separator.inj hb).2).symm
  · exact .error _

/-- A note in the open block. -/
theorem addNote (n : Note) : (s.addNote n).Traces (d.addNote n) paths := by
  obtain ⟨h', -, hr, -⟩ := h.register n.participant none
  rw [Store.addNote]
  exact h'.add h'.active (own?_note hr) (by simp) (by simp)

/-- A message in the open block, or the mentions of its participants if it cannot be numbered. -/
theorem addSignal (x : Signal) :
    (s.addSignal x).1 = (d.addSignal x).1 ∧ (s.addSignal x).2.Traces (d.addSignal x).2 paths := by
  obtain ⟨h₁, -, hsource, -⟩ := h.register x.source none
  obtain ⟨h₂, hext, htarget, -⟩ := h₁.register x.target none
  have hsource := hext.name? hsource
  simp only [Store.addSignal]
  -- The counter decides, which no mention changes.
  generalize ((s.register x.source none).2.register x.target none).1 = target at *
  generalize ((s.register x.source none).2.register x.target none).2 = s₂ at *
  generalize (s.register x.source none).1 = source at *
  have hc := h₂.counter
  rw [← Diagram.mention_signal] at h₂ hc
  simp only [Diagram.addSignal, Store.number, Diagram.number, hc]
  cases hd : (d.mention (.signal x)).counter with
  | none =>
    exact ⟨rfl, h₂.add h₂.active (own?_signal hsource htarget) (by simp) (by simp)⟩
  | some n =>
    by_cases hn : digitLimit < digitCount n
    · simp only [hn, if_true]
      exact ⟨trivial, h₂⟩
    · simp only [hn, if_false]
      have h₃ : { s₂ with counter := some (n + 1) }.Traces
          { d.mention (.signal x) with counter := some (n + 1) } paths :=
        h₂.congr ⟨id, id⟩ rfl rfl h₂.active h₂.participants h₂.table h₂.names rfl
      refine ⟨trivial, h₃.add h₃.active ?_ (by simp) (by simp)⟩
      exact own?_signal (x := { x with text := Diagram.numberLines n x.text }) hsource htarget

end Traces

/-! ## Statements, lines and texts -/

/-- A statement or a line is received alike on both sides. -/
structure Agrees (received : Outcome × Store) (r : Reaction) (d : Diagram) : Prop where
  outcome : received.1 = r.outcome
  represents : received.2.Represents (r.after d)

theorem Corresponds.received (h : s.Represents d) {x : Except Fault Store}
    {y : Except Fault Diagram} (hxy : Corresponds x y) :
    Agrees (s.received x) (.ofExcept d y) d := by
  cases hxy with
  | ok h' => exact ⟨rfl, h'⟩
  | error f => exact ⟨rfl, h⟩

theorem Corresponds.getD (h : s.Represents d) {x : Except Fault Store}
    {y : Except Fault Diagram} (hxy : Corresponds x y) :
    (x.toOption.getD s).Represents (y.toOption.getD d) := by
  cases hxy with
  | ok h' => exact h'
  | error f => exact h

namespace Represents

/-- **A statement is received alike** by objects and by the diagram they stand for. -/
theorem react (h : s.Represents d) (st : Statement) : Agrees (s.react st) (d.react st) d := by
  have ⟨paths, ht⟩ := h
  have hk := ht.activeKind_eq
  cases st with
  | aliased label name => exact ⟨rfl, paths, (ht.register name (some label)).1⟩
  | participant name => exact ⟨rfl, paths, (ht.register name none).1⟩
  | openParallel => exact ⟨rfl, _, ht.openBlock .parallel⟩
  | closeParallel =>
    simp only [Store.react, Diagram.react, hk]
    split
    · exact ht.closeBlock.received h
    · exact ⟨rfl, h⟩
  | openOption => exact ⟨rfl, _, ht.openBlock (.framed "opt" "")⟩
  | openLoop label => exact ⟨rfl, _, ht.openBlock (.framed "loop" label)⟩
  | openAlternative condition => exact ⟨rfl, _, ht.openBlock (.alternative condition)⟩
  | separator condition =>
    simp only [Store.react, Diagram.react, hk]
    split
    · exact (ht.addSeparator condition).received h
    · exact ⟨rfl, h⟩
  | closeFrame =>
    simp only [Store.react, Diagram.react, hk]
    split
    · exact ht.closeBlock.received h
    · exact ⟨rfl, h⟩
  | numberFrom numeral =>
    simp only [Store.react, Diagram.react]
    split
    · exact ⟨rfl, h⟩
    · exact ⟨rfl, paths, ht.congr ⟨id, id⟩ rfl rfl ht.active ht.participants ht.table ht.names rfl⟩
  | numberOff =>
    exact ⟨rfl, paths, ht.congr ⟨id, id⟩ rfl rfl ht.active ht.participants ht.table ht.names rfl⟩
  | state name text => exact ⟨rfl, paths, ht.addNote _⟩
  | signal source double dotted openHead target text =>
    obtain ⟨hf, hs⟩ := ht.addSignal ⟨source, target, Text.labelLines text, dotted, double, openHead⟩
    simp only [Store.react, Diagram.react]
    generalize s.addSignal ⟨source, target, Text.labelLines text, dotted, double, openHead⟩ = x at *
    generalize d.addSignal ⟨source, target, Text.labelLines text, dotted, double, openHead⟩ = y at *
    obtain ⟨f, s'⟩ := x
    obtain ⟨g, d'⟩ := y
    obtain rfl : f = g := hf
    cases f with
    | none => exact ⟨rfl, paths, hs⟩
    | some f => exact ⟨rfl, paths, hs⟩
  | comment => exact ⟨rfl, h⟩
  | blank => exact ⟨rfl, h⟩

/-- Several readings of a line are received alike. -/
theorem reactFirst (h : s.Represents d) (ss : List Statement) :
    Agrees (s.reactFirst ss) (d.reactFirst ss) d := by
  induction ss generalizing s with
  | nil => exact ⟨rfl, h⟩
  | cons st ss ih =>
    obtain ⟨ho, hs⟩ := h.react st
    rw [Store.reactFirst, Diagram.reactFirst_cons]
    -- The reading that comes first decides, unless it is passed over.
    generalize s.react st = received at *
    obtain ⟨o, s'⟩ := received
    simp only at ho hs
    subst ho
    cases hr : d.react st with
    | applied d' =>
      rw [hr] at hs
      exact ⟨rfl, hs⟩
    | failed f d' =>
      rw [hr] at hs
      exact ⟨rfl, hs⟩
    | skipped =>
      rw [hr] at hs
      exact ih hs
    | mismatch =>
      rw [hr] at hs
      obtain ⟨ho', hs'⟩ := ih hs
      simp only [Reaction.outcome]
      generalize s'.reactFirst ss = received at *
      obtain ⟨o, s''⟩ := received
      simp only at ho' hs'
      subst ho'
      cases hrs : d.reactFirst ss <;> rw [hrs] at hs' <;> exact ⟨rfl, hs'⟩

/-- **A line is received alike**, read in the forms of any table. -/
theorem readLine (h : s.Represents d) (forms : List Form) (line : String) :
    Agrees (s.readLine forms line) (d.readLine forms line) d := h.reactFirst _

/-- Several lines do the same on both sides, also if a fault ends the reading. -/
theorem readLines (h : s.Represents d) (forms : List Form) (number : Int) (ls : List String) :
    (Store.readLines forms s ls).Represents (Diagram.readLines forms d number ls).diagram := by
  induction ls generalizing s d number with
  | nil => exact h
  | cons l ls ih =>
    obtain ⟨ho, hs⟩ := h.readLine forms l
    rw [Store.readLines, Diagram.readLines]
    generalize s.readLine forms l = received at *
    obtain ⟨o, s'⟩ := received
    simp only at ho hs
    subst ho
    cases hr : d.readLine forms l with
    | failed f d' => simpa [hr, Reaction.outcome, Reaction.fault?] using hs
    | _ =>
      rw [hr] at hs
      exact ih hs (number + 1)

end Represents

end Store

/-! ## Operations and sessions -/

/-- An operation, with the mentions that go before it: the participants of a tree that is put into
a block are mentioned when it is made. -/
def Operation.introduced : Operation → List Operation
  | addAt p e => e.mentions.map (register · none) ++ [addAt p e]
  | o => [o]

namespace Store

variable {s : Store} {d : Diagram}

/-- Names that are mentioned are names of participants. -/
theorem mem_names_foldl_register {names : List String} {name : String} (hn : name ∈ names)
    (d : Diagram) :
    name ∈ (names.foldl (fun d name => d.register name none) d).roster.names := by
  have hr : (names.foldl (fun d name => d.register name none) d).roster =
      d.roster.registerAll (names.map fun name => (name, none)) := by
    rw [Roster.registerAll, List.foldl_map]
    exact (List.foldl_hom Diagram.roster fun _ _ => rfl).symm
  rw [hr, Roster.mem_names_registerAll]
  exact .inr (by simpa using hn)

namespace Represents

/-- A whole tree that is put into the block at a path, if there is one. -/
theorem addAt (h : s.Represents d) (p : Path) (e : Element) :
    (s.perform (.addAt p e)).Represents
      ((Operation.addAt p e).introduced.foldl Diagram.perform d) := by
  obtain ⟨paths, ht⟩ := h
  have hm := ht.mention e.mentions
  have hn := fun name (hname : name ∈ e.mentions) => mem_names_foldl_register hname d
  have hd : (Operation.addAt p e).introduced.foldl Diagram.perform d =
      (e.mentions.foldl (fun d name => d.register name none) d).addAt p e := by
    rw [Operation.introduced, List.foldl_append, List.foldl_map]
    rfl
  rw [hd]
  generalize e.mentions.foldl (fun d name => d.register name none) d = d' at *
  simp only [perform]
  generalize s.mention e.mentions = s' at *
  by_cases hc : ∃ c, s'.item? p = some (.container c)
  · obtain ⟨c, hc⟩ := hc
    obtain ⟨paths', -, h'⟩ := hm.insert e (hm.item?_eq_container_iff.1 hc) hn
    rw [hc]
    exact ⟨paths', h'⟩
  · -- Nothing is added on either side.
    have hroot : (d'.addAt p e).root = d'.root := by
      rw [Diagram.root_addAt]
      exact Element.append_of_ne_block (fun k children he => hc (hm.exists_container_of_block he)) e
    split
    · rename_i c hx
      exact absurd ⟨c, hx⟩ hc
    · exact ⟨paths, hm.congr (.refl s') rfl (congrArg Element.children hroot) hm.active
        hm.participants hm.table hm.names hm.counter⟩

/-- **Every operation does the same on both sides**, also one that fails. -/
theorem perform (h : s.Represents d) (o : Operation) :
    (s.perform o).Represents (o.introduced.foldl Diagram.perform d) := by
  have ⟨paths, ht⟩ := h
  cases o with
  | register name label => exact ⟨paths, (ht.register name label).1⟩
  | place name position => exact ⟨paths, ht.place name position⟩
  | setCounter counter =>
    exact ⟨paths, ht.congr ⟨id, id⟩ rfl rfl ht.active ht.participants ht.table ht.names rfl⟩
  | readLine forms line => exact (h.readLine forms line).represents
  | readText forms text =>
    have hr := h.readLines forms 1 (Text.lines text)
    rw [← Diagram.diagram_readText] at hr
    exact hr
  | addSignal x => exact ⟨paths, (ht.addSignal x).2⟩
  | addNote n => exact ⟨paths, ht.addNote n⟩
  | addSeparator condition => exact (ht.addSeparator condition).getD h
  | openBlock k => exact ⟨_, ht.openBlock k⟩
  | closeBlock => exact ht.closeBlock.getD h
  | addAt p e => exact h.addAt p e
  | measure p =>
    exact ⟨paths, ht.of_content (.refl s) rfl rfl rfl rfl (ht.participants.trans
      (d.roster_heightAt p).symm) (congrArg Roster.names (d.roster_heightAt p))
      (d.content_heightAt p)⟩
  | drawAt p top width =>
    exact ⟨paths, ht.of_content (.refl s) rfl rfl rfl rfl (ht.participants.trans
      (d.roster_drawAt p top width).symm) (congrArg Roster.names (d.roster_drawAt p top width))
      (d.content_drawAt p top width)⟩
  | draw => exact ⟨paths, ht.seat d.roster_draw d.content_draw⟩

/-- **Objects stand for their diagram after any session.** -/
theorem session (operations : List Operation) :
    (session operations).Represents
      (SequenceDiagram.session (operations.flatMap Operation.introduced)) := by
  -- By induction from the end, so that the last operation is one on objects that stand for a
  -- diagram.
  induction operations using List.reverseRecOn with
  | nil => exact ⟨[[]], traces_empty⟩
  | append_singleton os o ih =>
    rw [session_concat, List.flatMap_append, List.flatMap_singleton, SequenceDiagram.session,
      List.foldl_append]
    exact ih.perform o

end Represents

end Store

/-- **The references of a diagram agree with each other after any session**, whatever tables of
forms its lines are read with and whether operations fail. The objects stand for the diagram that
the session leads to: the participants and the open block are the same, along every path they have
the same, and a separator is drawn as deep as the block that it refers to demands. -/
theorem session_wellFormed (operations : List Operation) :
    let s := Store.session operations
    let d := session (operations.flatMap Operation.introduced)
    s.WellFormed ∧
      s.participants = d.roster ∧ s.counter = d.counter ∧
      s.item? d.active = some (.container s.active) ∧
      (∀ p, (s.item? p).bind s.own? = (d.element? p).map Element.own) ∧
      ∀ b ∈ d.placed, ∀ condition, b.element = .separator condition →
        ∃ (c : Nat) (y : Container), s.item? b.path = some (.separator condition c) ∧
          s.item? b.path.dropLast = some (.container c) ∧ s.containers[c]? = some y ∧
          b.depth = y.depth + 1 := by
  obtain ⟨paths, ht⟩ := Store.Represents.session operations
  refine ⟨ht.wellFormed, ht.participants, ht.counter, ht.item?_eq_container_iff.2 ht.active,
    ht.own?_item?, ?_⟩
  intro b hb condition he
  obtain ⟨q, hq, hg⟩ := Element.get?_of_mem_layout hb
  rw [List.nil_append] at hq
  rw [he, ← hq] at hg
  exact ht.exists_owner hg

/-- A block is closed twice, which fails once, and a separator is put into a loop. -/
example :
    let s := Store.session [.openBlock (.framed "loop" "n"), .closeBlock, .closeBlock,
      .openBlock .parallel, .addAt [0] (.separator "x")]
    s.item? [0, 0] = some (.separator "x" 1) ∧ s.active = 2 := by decide

/-! ## Lines that fail -/

/-- **A line fails through the limit on digits only**, and failing is almost atomic. After any
session a line fails exactly if it starts numbering with a numeral that is too long, and then
nothing changes, or if the reading of it that may stand in the open block is a message and the
number of the next message is too long, and then nothing changes but that the source and the target
become participants if they are new. So it is for the objects of the diagram, which receive the line
alike: they never come to the faults of closing the outermost block and of a separator outside an
alternative. -/
theorem readLine_fails (operations : List Operation) (line : String) :
    let d := session (operations.flatMap Operation.introduced)
    let s := Store.session operations
    (∀ f d', d.readLine Form.table line = .failed f d' ↔
      (∃ numeral, Form.numberFrom.read? line.toList = some (.numberFrom numeral) ∧
        digitLimit < numeral.length ∧ f = .longNumeral numeral.length ∧ d' = d) ∨
      ∃ source double dotted openHead target text n,
        readIn? d.activeKind line = some (.signal source double dotted openHead target text) ∧
        d.counter = some n ∧ digitLimit < digitCount n ∧ f = .longNumber ∧
        d' = { d with
          roster := d.roster ++ d.roster.newcomers [(source, none), (target, none)] }) ∧
    (∀ f, (s.readLine Form.table line).1 = .failed f ↔
      ∃ d', d.readLine Form.table line = .failed f d') ∧
    (s.readLine Form.table line).2.Represents ((d.readLine Form.table line).after d) := by
  intro d s
  have hs := (Store.Represents.session operations).readLine Form.table line
  refine ⟨fun f d' => Diagram.readLine_eq_failed_iff, fun f => ?_, hs.represents⟩
  rw [hs.outcome]
  cases d.readLine Form.table line <;> simp [Reaction.outcome]

/-- A message whose number has a digit more than the limit fails when its target has been
mentioned. -/
theorem readLine_fails_with_newcomer :
    let operations := [.register "A" none, .openBlock .parallel,
      .setCounter (some (10 ^ digitLimit))]
    let d := session (operations.flatMap Operation.introduced)
    ∃ d', d.readLine Form.table "A->B: x" = .failed .longNumber d' ∧
      d'.roster.names = ["A", "B"] ∧ d'.body = [.block .parallel []] ∧ d'.active = [0] ∧
      d'.counter = some (10 ^ digitLimit) ∧
      ((Store.session operations).readLine Form.table "A->B: x").1 = .failed .longNumber := by
  intro operations d
  obtain ⟨hiff, hobjects, -⟩ := readLine_fails operations "A->B: x"
  have hlong : digitLimit < digitCount (10 ^ digitLimit) := by
    simp [digitLimit_lt_digitCount_iff, Int.natAbs_pow]
  have hf := (hiff .longNumber _).2 (.inr ⟨"A", false, false, false, "B", "x", 10 ^ digitLimit,
    by decide, rfl, hlong, rfl, rfl⟩)
  exact ⟨_, hf, by decide, rfl, rfl, rfl, (hobjects _).2 ⟨_, hf⟩⟩

end SequenceDiagram
