import SequenceDiagram.Compile
import SequenceDiagram.Proofs.Diagram.Taking
import SequenceDiagram.Proofs.Element.Written
import SequenceDiagram.Proofs.Participant.Mention

/-!
# Descriptions

A roster and a tree are described by a text: a declaration for each participant, then a line for
each event of a walk through the tree. The text is read as that roster and that tree, without a
report. Participants that are only mentioned come after the declared ones.

## Main definitions

* `Roster.mentionAll`: the roster after several mentions
* `Scope.Writes`: a row of events that can be written one after another
* `Scope.diagram`: the diagram of open blocks and a roster
* `description`: the text of a roster and a tree

## Main results

* `Roster.mentionAll_eq`: mentioned participants come once, in the order of their first mention
* `Scope.writes_walk`: a walk through an element can be written and adds the element
* `Scope.Writes.readLines`: events that were written are read one after another
* `read_description`: the reading of a description
-/

namespace SequenceDiagram

namespace Roster

/-- The roster after mentions of several names. -/
def mentionAll (r : Roster) (mentions : List String) : Roster :=
  mentions.foldl (fun r name => r.register name none) r

theorem mentionAll_append (r : Roster) (xs ys : List String) :
    r.mentionAll (xs ++ ys) = (r.mentionAll xs).mentionAll ys := List.foldl_append

theorem join_lookup_map_none (names : List String) (name : String) :
    ((names.map fun name => (name, (none : Option String))).lookup name).join = none := by
  induction names with
  | nil => rfl
  | cons a rest ih =>
    rw [List.map_cons, List.lookup_cons]
    split
    · rfl
    · exact ih

/-- Names that are new come after the others, once each and in the order of their mentions. -/
theorem mentionAll_eq (r : Roster) (mentions : List String) :
    r.mentionAll mentions = r ++ (mentions.filter (· ∉ r.names)).eraseDups.map
      fun name => Participant.create name none := by
  -- They are mentions that give no label.
  have hr : r.mentionAll mentions = r.registerAll (mentions.map fun name => (name, none)) := by
    rw [mentionAll, registerAll, List.foldl_map]
  simp [hr, registerAll_eq, newcomers, join_lookup_map_none, Function.comp_def]

end Roster

/-! ## Events one after another -/

namespace Scope

/-- The events `evs` can be written and lead from the scope `s` to `s'`. -/
inductive Writes : Scope → List Event → Scope → Prop
  | nil {s : Scope} : Writes s [] s
  | cons {s s' : Scope} {ev : Event} {evs : List Event} (writable : ev.IsWritable)
      (allowed : s.Allows ev) (rest : Writes (s.advance ev) evs s') : Writes s (ev :: evs) s'

/-- The scope with several elements at the end of its innermost block. -/
def addAll (s : Scope) (es : List Element) : Scope :=
  { s with inner := { s.inner with elements := s.inner.elements ++ es } }

theorem addAll_nil (s : Scope) : s.addAll [] = s := by
  simp [addAll]

theorem addAll_add (s : Scope) (e : Element) (es : List Element) :
    (s.add e).addAll es = s.addAll (e :: es) := by
  simp [addAll, add, OpenBlock.add]

/-- A block is left with all elements that were added to it. -/
theorem leave_addAll_enter (s : Scope) (k : BlockKind) (es : List Element) :
    ((s.enter k).addAll es).leave = s.add (.block k es) := rfl

namespace Writes

variable {s t u : Scope} {evs xs ys : List Event}

theorem append (h : s.Writes xs t) (h' : t.Writes ys u) : s.Writes (xs ++ ys) u := by
  induction h with
  | nil => exact h'
  | cons hw ha _ ih => exact .cons hw ha (ih h')

theorem isWritable (h : s.Writes evs t) : ∀ ev ∈ evs, ev.IsWritable := by
  induction h with
  | nil =>
    intro ev hev
    exact absurd hev List.not_mem_nil
  | cons hw _ _ ih => exact List.forall_mem_cons.2 ⟨hw, ih⟩

end Writes

/-- Elements that can be written one by one can be written one after another. -/
theorem writes_flatMap_walk {k : BlockKind} {es : List Element}
    (h : ∀ e ∈ es, ∀ s : Scope, s.inner.kind = k → s.Writes e.walk (s.add e)) {s : Scope}
    (hk : s.inner.kind = k) : s.Writes (es.flatMap Element.walk) (s.addAll es) := by
  induction es generalizing s with
  | nil =>
    rw [addAll_nil]
    exact .nil
  | cons e es ih =>
    have he := h e List.mem_cons_self s hk
    rw [List.flatMap_cons, ← addAll_add]
    exact he.append (ih (fun c hc => h c (List.mem_cons_of_mem _ hc)) hk)

/-- **A walk through an element** can be written in its block and adds the element to it. -/
theorem writes_walk {k : BlockKind} {e : Element} (h : e.Throughout Element.IsWritable k)
    {s : Scope} (hk : s.inner.kind = k) : s.Writes e.walk (s.add e) := by
  -- Every element adds itself to whatever scope it is written in, which is what the blocks
  -- around it need.
  induction h generalizing s with
  | @intro k e here inside ih =>
    cases e with
    | signal x => exact .cons here trivial .nil
    | note n => exact .cons here trivial .nil
    | separator c =>
      have ha : s.inner.kind.isAlternative = true := by rw [hk]; exact here.1
      exact .cons here.2 ha .nil
    | block inner children =>
      -- Inside the block its elements are added one by one, and leaving it makes it an element.
      have hin : (s.enter inner).Writes (children.flatMap Element.walk)
          ((s.enter inner).addAll children) :=
        writes_flatMap_walk (fun c hc _ hs => ih inner rfl c hc hs) rfl
      have hleave : ((s.enter inner).addAll children).Writes [.leave inner]
          (s.add (.block inner children)) := by
        rw [← leave_addAll_enter]
        exact .cons here ⟨rfl, List.cons_ne_nil _ _⟩ .nil
      rw [Element.walk_block]
      exact .cons here trivial (hin.append hleave)

/-- The diagram of open blocks and a roster, without numbers and before anything is measured. -/
def diagram (s : Scope) (r : Roster) : Diagram :=
  { roster := r, body := s.tree.children, active := s.path }

end Scope

namespace Diagram

variable {d d' : Diagram} {s s' : Scope} {r : Roster} {ev : Event} {evs : List Event}

/-- Open blocks and a roster are all there is to a diagram that is not numbered nor measured. -/
theorem HasScope.eq_diagram (h : d.HasScope s) (hc : d.counter = none) (hh : d.heights = []) :
    d = s.diagram d.roster := by
  obtain ⟨roster, body, active, counter, heights⟩ := d
  obtain rfl : counter = none := hc
  obtain rfl : heights = [] := hh
  have hb : body = s.tree.children := congrArg Element.children h.root_eq
  have ha : active = s.path := h.active_eq
  rw [hb, ha]
  rfl

/-- **A written event** that is allowed is taken as that event. -/
theorem react_statement (h : (s.diagram r).HasScope s) (hw : ev.IsWritable) (ha : s.Allows ev) :
    (s.diagram r).react ev.statement =
        .applied ((s.advance ev).diagram (r.mentionAll ev.participants)) ∧
      ((s.advance ev).diagram (r.mentionAll ev.participants)).HasScope (s.advance ev) := by
  -- It is enough that the tree goes on as the event says and nothing else but the roster changes.
  suffices hd : ∃ d', (s.diagram r).react ev.statement = .applied d' ∧
      d'.HasScope (s.advance ev) ∧ d'.roster = r.mentionAll ev.participants ∧
      d'.counter = none ∧ d'.heights = [] by
    obtain ⟨d', hr, hs, hro, hc, hh⟩ := hd
    have he := hs.eq_diagram hc hh
    rw [hro] at he
    rw [← he]
    exact ⟨hr, hs⟩
  cases ev with
  | signal x =>
    refine ⟨((s.diagram r).mention (.signal x)).add (.signal x), ?_, (h.mention _).add _, rfl,
      rfl, rfl⟩
    simp only [Event.statement, react, Text.labelLines_label hw.text.toAreLabelLines]
    rfl
  | note n =>
    refine ⟨(s.diagram r).addNote n, ?_, (h.mention _).add _, rfl, rfl, rfl⟩
    simp only [Event.statement, react, Text.labelLines_label hw.text.toAreLabelLines]
  | separator c =>
    have hk : s.inner.kind.isAlternative = true := ha
    refine ⟨(s.diagram r).add (.separator c), ?_, h.add _, rfl, rfl, rfl⟩
    simp [Event.statement, react, addSeparator, h.activeKind_eq, hk, Reaction.ofExcept]
  | enter k =>
    refine ⟨(s.diagram r).openBlock k, ?_, h.openBlock k, rfl, rfl, rfl⟩
    cases k with
    | sequence => exact absurd hw id
    | parallel => rfl
    | alternative c => rfl
    | framed keyword label =>
      rcases hw with ⟨rfl, rfl⟩ | ⟨rfl, -⟩
      · rfl
      · rfl
  | leave k =>
    obtain ⟨hk, ho⟩ := ha
    obtain ⟨d', hd', rfl, hs⟩ := h.closeBlock ho
    refine ⟨_, ?_, hs, rfl, rfl, rfl⟩
    have hak : (s.diagram r).activeKind = k := h.activeKind_eq.trans hk
    cases k with
    | sequence => exact absurd hw id
    | parallel => simp [Event.statement, BlockKind.closing, react, hak, hd', Reaction.ofExcept]
    | framed keyword label =>
      simp [Event.statement, BlockKind.closing, BlockKind.isFramed, react, hak, hd',
        Reaction.ofExcept]
    | alternative c =>
      simp [Event.statement, BlockKind.closing, BlockKind.isFramed, react, hak, hd',
        Reaction.ofExcept]

/-- A written statement that is taken is what its line does. -/
theorem readLine_written {st : Statement} (h : st.IsWritable) (hr : d.react st = .applied d') :
    d.readLine Form.table st.written = .applied d' :=
  readLine_of_head?_readings (Statement.head?_readings_written h) hr

/-- A written statement that is taken is taken from its line. -/
theorem taken?_written {st : Statement} (h : st.IsWritable) (hr : d.react st = .applied d') :
    d.taken? Form.table st.written = some st := by
  obtain ⟨rest, hs⟩ := List.head?_eq_some_iff.1 (Statement.head?_readings_written h)
  rw [taken?, hs, List.find?_cons, hr]
  rfl

/-- **Events that were written** are read one after another. -/
theorem readLines_writes (h : s.Writes evs s') (hs : (s.diagram r).HasScope s) (n : Int) :
    readLines Form.table (s.diagram r) n (evs.map fun ev => ev.statement.written) =
      { diagram := s'.diagram (r.mentionAll (evs.flatMap Event.participants)) } := by
  induction h generalizing r n with
  | nil => rfl
  | cons hw ha _ ih =>
    obtain ⟨hr, hs'⟩ := react_statement hs hw ha
    have hl := readLine_written (Event.isWritable_statement hw) hr
    rw [List.map_cons, readLines_cons_of_applied hl, ih hs', List.flatMap_cons,
      Roster.mentionAll_append]

/-- Declarations of different participants are read as those participants. -/
theorem readLines_declarations {r' : Roster} (hd : ∀ p ∈ r', p.IsDeclarable)
    (hn : (r ++ r').names.Nodup) (n : Int) :
    readLines Form.table { roster := r } n (r'.map fun p => p.declaration.written) =
      { diagram := { roster := r ++ r' } } := by
  induction r' generalizing r n with
  | nil => simp
  | cons p r' ih =>
    obtain ⟨hp, hd⟩ := List.forall_mem_cons.1 hd
    have hnot : p.name ∉ r.names := by
      rw [Roster.names_append, List.nodup_append] at hn
      exact fun hm => hn.2.2 p.name hm p.name (by simp [Roster.names]) rfl
    have hr : Diagram.react { roster := r } p.declaration =
        .applied { roster := r ++ [p] } := by
      simp [Participant.declaration, react, register, Roster.register_of_notMem hnot,
        Participant.create_declaration hp]
    have hl := readLine_written (Participant.isWritable_declaration hp) hr
    rw [List.map_cons, readLines_cons_of_applied hl, ih hd (by simpa using hn)]
    simp

/-- Lines are read from the text of them as they are. -/
theorem readLines_intercalate {ls : List String} (h : ∀ l ∈ ls, Text.IsLine l) (n : Int) :
    readLines Form.table d n (Text.lines ("\n".intercalate ls)) =
      readLines Form.table d n ls := by
  by_cases hne : ls = []
  · rw [hne]
    exact readLines_empty d n
  · rw [Text.lines_intercalate hne h]

end Diagram

/-- The text of a roster and a tree: declarations, then the events of a walk through the tree. -/
def description (r : Roster) (es : List Element) : String :=
  "\n".intercalate ((r.map fun p => p.declaration.written) ++
    (es.flatMap Element.walk).map fun ev => ev.statement.written)

open Diagram in
/-- **Reading a description gives back what it describes.** The text of a roster of different
participants and of a tree is read as that tree, and as that roster followed by the participants
that are mentioned only; nothing is reported, and no block is open at the end. -/
theorem read_description {r : Roster} {es : List Element} (hr : ∀ p ∈ r, p.IsDeclarable)
    (hn : r.names.Nodup) (he : ∀ e ∈ es, e.Throughout Element.IsWritable .sequence) :
    read (description r es) =
      { diagram :=
          { roster := r ++ (((es.flatMap Element.walk).flatMap Event.participants).filter
              (· ∉ r.names)).eraseDups.map fun name => Participant.create name none
            body := es } } := by
  have hw : Scope.outermost.Writes (es.flatMap Element.walk) (Scope.outermost.addAll es) :=
    Scope.writes_flatMap_walk (fun e hm _ hk => Scope.writes_walk (he e hm) hk) rfl
  have hline : ∀ l ∈ (r.map fun p => p.declaration.written) ++
      (es.flatMap Element.walk).map (fun ev => ev.statement.written), Text.IsLine l := by
    intro l hl
    rcases List.mem_append.1 hl with hl | hl
    · obtain ⟨p, hp, rfl⟩ := List.mem_map.1 hl
      exact Statement.isLine_written (Participant.isWritable_declaration (hr p hp))
    · obtain ⟨ev, hev, rfl⟩ := List.mem_map.1 hl
      exact Statement.isLine_written (Event.isWritable_statement (hw.isWritable ev hev))
  -- The declarations give the roster, and the walk goes on from there.
  have hd := readLines_declarations (r := []) hr hn 1
  have hs : (Scope.outermost.diagram r).HasScope .outermost := ⟨rfl, rfl⟩
  have hl : readLines Form.table empty 1 (Text.lines (description r es)) =
      { diagram := (Scope.outermost.addAll es).diagram
          (r.mentionAll ((es.flatMap Element.walk).flatMap Event.participants)) } := by
    rw [description, readLines_intercalate hline, readLines_append]
    have hempty : empty = { roster := [] } := rfl
    rw [hempty, hd]
    exact readLines_writes hw hs _
  rw [read, readText, hl, Roster.mentionAll_eq]
  rfl

theorem read_description_alternative :
    read ("participant \"Al\\nice\" as \"A\"\nalt tea\nA<-->B: a\\n b\nelse no\nparallel \x7b\n" ++
        "\x7d\nend") =
      { diagram :=
          { roster := [⟨"A", ["Al", "ice"], 0⟩, ⟨"B", ["B"], 0⟩]
            body :=
              [.block (.alternative "tea")
                [.signal ⟨"A", "B", ["a", " b"], true, true, false⟩, .separator "no",
                  .block .parallel []]] } } := by
  have hA : IsName "A" := by constructor <;> simp
  have hB : IsName "B" := by constructor <;> simp
  have htea : IsLabel "tea" := ⟨⟨⟨by simp, by simp⟩, by simp⟩, by simp, by simp⟩
  have hno : IsLabel "no" := ⟨⟨⟨by simp, by simp⟩, by simp⟩, by simp, by simp⟩
  have htext : AreTextLines ["a", " b"] :=
    ⟨⟨by simp, by simp, by decide⟩, by simp, by simp⟩
  have hr : Participant.IsDeclarable ⟨"A", ["Al", "ice"], 0⟩ :=
    ⟨hA, ⟨by simp, by simp, by decide⟩, by simp, rfl⟩
  have he : Element.Throughout Element.IsWritable .sequence
      (.block (.alternative "tea") [.signal ⟨"A", "B", ["a", " b"], true, true, false⟩,
        .separator "no", .block .parallel []]) := by
    refine .block htea ?_
    rintro e (_ | ⟨_, _ | ⟨_, _ | ⟨_, ⟨⟩⟩⟩⟩)
    · exact .leaf ⟨hA, hB, htext⟩ rfl
    · exact .leaf ⟨rfl, hno⟩ rfl
    · exact .block trivial fun _ hm => absurd hm List.not_mem_nil
  have h := read_description (List.forall_mem_singleton.2 hr) (by simp [Roster.names])
    (List.forall_mem_singleton.2 he)
  exact h

end SequenceDiagram
