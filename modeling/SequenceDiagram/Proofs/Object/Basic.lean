import SequenceDiagram.Proofs.Diagram.Session
import SequenceDiagram.Proofs.Element.Growth

/-!
# Diagrams as objects

The same diagrams, built of objects that refer to each other. A participant and a block are objects
that are made once and are referred to afterwards by the number under which they were made: the
table of the participants refers to the participant of every name, messages and notes refer to the
participants they are about, a block refers to the one that it was made for, and a separator to the
block that it was put into. What is said about a diagram by paths and names is said here by these
references, and every operation goes by them; closing a block, for instance, goes back along its
reference to the block around it. Heights that are remembered are left out.

## Main definitions

* `Item`, `Container`, `Store`: leaves, blocks and whole diagrams as objects
* `Store.register`, `Store.add`, `Store.create`, `Store.nest`: a mention, a new element, a new block
* `Store.react`, `Store.readLine`, `Store.readLines`: statements, lines and texts
* `Store.perform`, `Store.session`: the objects after one operation and after several
* `Store.get?`, `Store.own?`: what is reached along a path, and what it is by itself
* `Store.WellFormed`: all references agree with each other
-/

namespace SequenceDiagram

/-- What a block holds, with references to participants and to blocks. -/
inductive Item where
  | signal (source target : Nat) (text : List String) (dotted double openHead : Bool)
  | note (participant : Nat) (text : List String)
  /-- A separator, with the block that it was put into. -/
  | separator (condition : String) (owner : Nat)
  | container (container : Nat)
deriving DecidableEq

/-- The participants that an item refers to. -/
def Item.participants : Item → List Nat
  | signal source target .. => [source, target]
  | note participant _ => [participant]
  | separator .. | container _ => []

/-- A block as an object. -/
structure Container where
  kind : BlockKind
  /-- The block that it was made for, if it is not the outermost one. -/
  parent : Option Nat
  depth : Nat
  items : List Item := []

/-- A diagram as objects. -/
structure Store where
  /-- The participants, by their numbers. -/
  participants : List Participant := []
  /-- The participant that goes by a name, in the order of the first mentions. -/
  table : List (String × Nat) := []
  /-- The blocks, by their numbers. The outermost one is there from the beginning. -/
  containers : List Container := [{ kind := .sequence, parent := none, depth := 0 }]
  active : Nat := 0
  counter : Option Int := none

/-- How a statement or a line is received. -/
inductive Outcome where
  | taken
  | mismatch
  | skipped
  | failed (fault : Fault)

/-- How a statement or a line was received. -/
def Reaction.outcome : Reaction → Outcome
  | applied _ => .taken
  | mismatch => .mismatch
  | skipped => .skipped
  | failed f _ => .failed f

namespace Element

mutual

/-- The participants of an element and of all that is in it, as they are named there. -/
def mentions : Element → List String
  | signal s => [s.source, s.target]
  | note n => [n.participant]
  | separator _ => []
  | block _ children => mentionsAll children

/-- The participants of several elements. -/
def mentionsAll : List Element → List String
  | [] => []
  | e :: es => e.mentions ++ mentionsAll es

end

@[simp] theorem mentionsAll_eq_flatMap (es : List Element) :
    mentionsAll es = es.flatMap mentions := by
  induction es with
  | nil => rfl
  | cons e es ih => simp [mentionsAll, ih]

end Element

namespace Store

variable (s : Store)

/-- The objects of a diagram before anything is said. -/
def empty : Store := {}

/-! ## Changes -/

/-- The participant of a name, who is made at the first mention. -/
def register (name : String) (label : Option String) : Nat × Store :=
  match s.table.lookup name with
  | some r => (r, s)
  | none =>
    (s.participants.length,
      { s with
        participants := s.participants ++ [Participant.create name label]
        table := s.table ++ [(name, s.participants.length)] })

/-- The objects after a mention of several names. -/
def mention (names : List String) : Store :=
  names.foldl (fun s name => (s.register name none).2) s

/-- The objects with an item at the end of a block. -/
def add (c : Nat) (x : Item) : Store :=
  { s with containers := s.containers.modify c fun y => { y with items := y.items ++ [x] } }

/-- The objects with a new block that is made for another one, but is not in it yet. -/
def create (c : Nat) (k : BlockKind) : Store :=
  let depth := ((s.containers[c]?).map fun y => y.depth + 1).getD 0
  { s with containers := s.containers ++ [{ kind := k, parent := some c, depth }] }

/-- The objects with a new block that is made for another one and put at its end. -/
def nest (c : Nat) (k : BlockKind) : Store := (s.create c k).add c (.container s.containers.length)

/-- The objects with a new block at the end of the open one, which is now open. -/
def openBlock (k : BlockKind) : Store :=
  { s.nest s.active k with active := s.containers.length }

/-- The objects after the open block is closed: the block that it was made for is open again. -/
def closeBlock : Except Fault Store :=
  match (s.containers[s.active]?).bind Container.parent with
  | none => .error .closedRoot
  | some c => .ok { s with active := c }

/-- The kind of the open block. -/
def activeKind : BlockKind := ((s.containers[s.active]?).map Container.kind).getD .sequence

/-- Lines of text with the number of a message, if messages are numbered. -/
def number (text : List String) : Except Fault (List String × Store) :=
  match s.counter with
  | none => .ok (text, s)
  | some n =>
    if digitLimit < digitCount n then .error .longNumber
    else .ok (Diagram.numberLines n text, { s with counter := some (n + 1) })

/-- The objects with a message at the end of the open block. -/
def addSignal (x : Signal) : Option Fault × Store :=
  let (source, s) := s.register x.source none
  let (target, s) := s.register x.target none
  match s.number x.text with
  | .error f => (some f, s)
  | .ok (text, s) =>
    (none, s.add s.active (.signal source target text x.dotted x.double x.openHead))

/-- The objects with a note at the end of the open block. -/
def addNote (n : Note) : Store :=
  let (participant, s) := s.register n.participant none
  s.add s.active (.note participant n.text)

/-- The objects with a separator at the end of the open block, which must be an alternative. -/
def addSeparator (condition : String) : Except Fault Store :=
  if s.activeKind.isAlternative then .ok (s.add s.active (.separator condition s.active))
  else .error .straySeparator

mutual

/-- The objects with an element, or a whole tree, at the end of a block. -/
def insert (s : Store) (c : Nat) : Element → Store
  | .signal x =>
    let (source, s) := s.register x.source none
    let (target, s) := s.register x.target none
    s.add c (.signal source target x.text x.dotted x.double x.openHead)
  | .note n =>
    let (participant, s) := s.register n.participant none
    s.add c (.note participant n.text)
  | .separator condition => s.add c (.separator condition c)
  | .block k children => insertAll (s.nest c k) s.containers.length children

/-- The objects with several elements at the end of a block. -/
def insertAll (s : Store) (c : Nat) : List Element → Store
  | [] => s
  | e :: es => insertAll (s.insert c e) c es

end

/-- The objects with every participant at the slot of the order of first mentions. -/
def seat : Store :=
  { s with
    participants := s.table.zipIdx.foldl
      (fun ps e => ps.modify e.1.2 fun p => { p with position := e.2 }) s.participants }

/-! ## Statements, lines and texts -/

/-- How an operation was received that gives nothing but objects or a fault. -/
def received : Except Fault Store → Outcome × Store
  | .ok s' => (.taken, s')
  | .error f => (.failed f, s)

/-- How a statement is received, and the objects after it. -/
def react : Statement → Outcome × Store
  | .aliased label name => (.taken, (s.register name (some label)).2)
  | .participant name => (.taken, (s.register name none).2)
  | .openParallel => (.taken, s.openBlock .parallel)
  | .closeParallel => if s.activeKind = .parallel then s.received s.closeBlock else (.mismatch, s)
  | .openOption => (.taken, s.openBlock (.framed "opt" ""))
  | .openLoop label => (.taken, s.openBlock (.framed "loop" label))
  | .openAlternative condition => (.taken, s.openBlock (.alternative condition))
  | .separator condition =>
    if s.activeKind.isAlternative then s.received (s.addSeparator condition) else (.skipped, s)
  | .closeFrame => if s.activeKind.isFramed then s.received s.closeBlock else (.mismatch, s)
  | .numberFrom numeral =>
    if digitLimit < numeral.length then (.failed (.longNumeral numeral.length), s)
    else (.taken, { s with counter := some (Diagram.numeralValue numeral) })
  | .numberOff => (.taken, { s with counter := none })
  | .state name text => (.taken, s.addNote ⟨name, Text.labelLines text⟩)
  | .signal source double dotted openHead target text =>
    match s.addSignal ⟨source, target, Text.labelLines text, dotted, double, openHead⟩ with
    | (none, s) => (.taken, s)
    | (some f, s) => (.failed f, s)
  | .comment | .blank => (.taken, s)

/-- How several readings of a line are received, which are tried one after another. -/
def reactFirst (s : Store) : List Statement → Outcome × Store
  | [] => (.skipped, s)
  | st :: ss =>
    match s.react st with
    | (.skipped, s) => s.reactFirst ss
    | (.mismatch, s) =>
      match s.reactFirst ss with
      | (.skipped, s) => (.mismatch, s)
      | received => received
    | received => received

/-- How a line is received, read in the forms of a table. -/
def readLine (forms : List Form) (line : String) : Outcome × Store :=
  s.reactFirst (readings forms line)

/-- The objects after several lines; a fault ends the reading. -/
def readLines (forms : List Form) (s : Store) : List String → Store
  | [] => s
  | line :: rest =>
    match s.readLine forms line with
    | (.failed _, s) => s
    | (_, s) => readLines forms s rest

/-! ## Paths -/

/-- What is reached from an item along a path. -/
def get? : Item → Path → Option Item
  | x, [] => some x
  | .container c, i :: p => ((s.containers[c]?).bind fun y => y.items[i]?).bind fun x => get? x p
  | _, _ :: _ => none

/-- What is reached from the outermost block along a path. -/
def item? (p : Path) : Option Item := s.get? (.container 0) p

/-- The name of a participant. -/
def name? (r : Nat) : Option String := (s.participants[r]?).map Participant.name

/-- The kind of a block. -/
def kind? (c : Nat) : Option BlockKind := (s.containers[c]?).map Container.kind

/-- What an item is by itself, with the names of the participants it refers to. -/
def own? : Item → Option Element
  | .signal source target text dotted double openHead => do
    let source ← s.name? source
    let target ← s.name? target
    return .signal { source, target, text, dotted, double, openHead }
  | .note participant text => (s.name? participant).map fun name => .note ⟨name, text⟩
  | .separator condition _ => some (.separator condition)
  | .container c => (s.kind? c).map fun k => .block k []

/-! ## Operations -/

/-- The objects after an operation, also one that fails. The participants of a tree that is put into
a block are mentioned before. -/
def perform : Operation → Store
  | .register name label => (s.register name label).2
  | .place name position =>
    match s.table.lookup name with
    | some r => { s with participants := s.participants.modify r fun p => { p with position } }
    | none => s
  | .setCounter counter => { s with counter }
  | .readLine forms line => (s.readLine forms line).2
  | .readText forms text => readLines forms s (Text.lines text)
  | .addSignal x => (s.addSignal x).2
  | .addNote n => s.addNote n
  | .addSeparator condition => (s.addSeparator condition).toOption.getD s
  | .openBlock k => s.openBlock k
  | .closeBlock => s.closeBlock.toOption.getD s
  | .addAt p e =>
    let s := s.mention e.mentions
    match s.item? p with
    | some (.container c) => s.insert c e
    | _ => s
  | .measure _ | .drawAt .. => s
  | .draw => s.seat

/-- The objects after some operations, from the empty diagram on. -/
def session (operations : List Operation) : Store := operations.foldl perform empty

theorem session_concat (operations : List Operation) (o : Operation) :
    session (operations ++ [o]) = (session operations).perform o := List.foldl_append

/-! ## References that agree -/

/-- All references agree with each other and with the tree. -/
structure WellFormed : Prop where
  /-- The outermost block is in no other one. -/
  outermost : ∃ y, s.containers[0]? = some y ∧ y.parent = none ∧ y.depth = 0
  /-- Every block is in the tree once, as deep as it says. -/
  once : ∀ (c : Nat) y, s.containers[c]? = some y →
    (∃! p, s.item? p = some (.container c)) ∧
      ∀ p, s.item? p = some (.container c) → y.depth = p.length
  /-- Every other block is in the block that it refers to, and in no other one. -/
  parent : ∀ (c : Nat) y, 0 < c → s.containers[c]? = some y →
    ∃ (b : Nat) (x : Container) (i : Nat),
      y.parent = some b ∧ s.containers[b]? = some x ∧ x.items[i]? = some (.container c) ∧
        ∀ (b' : Nat) (x' : Container) (i' : Nat), s.containers[b']? = some x' →
          x'.items[i']? = some (.container c) → b' = b ∧ i' = i
  /-- The open block is in the tree. -/
  active : ∃ p, s.item? p = some (.container s.active)
  /-- Every participant is in the table once, under its own name. -/
  table : (s.table.map Prod.fst).Nodup ∧ (∀ e ∈ s.table, s.name? e.2 = some e.1) ∧
    ∀ r name, s.name? r = some name → (name, r) ∈ s.table
  /-- Messages and notes refer to participants that are in the table. -/
  participants : ∀ (c : Nat) y, s.containers[c]? = some y → ∀ x ∈ y.items, ∀ r ∈ x.participants,
    ∃ name, s.name? r = some name ∧ s.table.lookup name = some r
  /-- Separators refer to the blocks that they are in. -/
  owner : ∀ (c : Nat) y, s.containers[c]? = some y → ∀ condition b,
    .separator condition b ∈ y.items → b = c

end Store

end SequenceDiagram
