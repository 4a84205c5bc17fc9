import SequenceDiagram.Compile
import SequenceDiagram.Proofs.Diagram.Taking
import SequenceDiagram.Proofs.Statement.Precedence

/-!
# Comments

A comment that is put into a text has no effect but that the entries about the lines behind it have
greater numbers. A line that begins with the sign of comments is one if it is no message; the form
of messages is tried before that of comments and has room for the sign in a name.

## Main definitions

* `Diagnostic.moved`, `Reading.moved`: entries and a reading after one line more came in before them

## Main results

* `Diagram.readLine_of_comment`: a line that is a comment and no message changes nothing
* `Diagram.readLines_insertIdx`: a line that changes nothing moves the entries behind it
* `compile_withLine`: a text with a comment more
* `message_after_comment_sign`: a line that begins with the sign and is a message
-/

namespace SequenceDiagram

/-- An entry after a line more has come in with the number `n`, so that the lines from that number
on have the next number. -/
def Diagnostic.moved (n : Int) (e : Diagnostic) : Diagnostic :=
  match e.line with
  | some m => if n ≤ m then .atLine (m + 1) e.kind else e
  | none => e

/-- A reading with the entries of its report moved. -/
def Reading.moved (n : Int) (r : Reading) : Reading :=
  { r with report := r.report.map (Diagnostic.moved n) }

namespace Reaction

variable {n m : Int}

theorem complaint_succ (h : n ≤ m) (r : Reaction) :
    r.complaint (m + 1) = (r.complaint m).map (Diagnostic.moved n) := by
  cases r <;> simp [complaint, Diagnostic.moved, Diagnostic.atLine, h]

theorem moved_complaint (h : m < n) (r : Reaction) :
    (r.complaint m).map (Diagnostic.moved n) = r.complaint m := by
  have hle : ¬ n ≤ m := by omega
  cases r <;> simp [complaint, Diagnostic.moved, Diagnostic.atLine, hle]

end Reaction

namespace Reading

@[simp] theorem moved_prepend (n : Int) (es : List Diagnostic) (r : Reading) :
    (r.prepend es).moved n = (r.moved n).prepend (es.map (Diagnostic.moved n)) := by
  simp [moved, prepend]

end Reading

/-! ## Lines that change nothing -/

/-- A line that begins with the sign of comments fits their form. -/
theorem Form.fits_comment {cs : List Char} (hh : cs.head? = some '#') (hn : '\n' ∉ cs) :
    comment.Fits cs := by
  cases cs with
  | nil => simp at hh
  | cons c cs =>
    obtain rfl : c = '#' := Option.some.inj hh
    refine ⟨.comment, ?_⟩
    have ht := Scan.text?_of_notMem (mt (List.mem_cons_of_mem _) hn)
    simp [read?, Statement.readComment?, Scan.word?, ht]

namespace Diagram

variable {forms : List Form} {d : Diagram} {line : String}

/-- **A comment that is no message changes nothing**, in whatever state the diagram is. -/
theorem readLine_of_comment (hc : Form.comment.Fits line.toList)
    (hs : ¬ Form.signal.Fits line.toList) (d : Diagram) :
    d.readLine Form.table line = .applied d := by
  obtain ⟨st, hst⟩ := hc
  obtain rfl : st = .comment := by
    have ho := Form.ofStatement_of_read? hst
    cases st <;> simp_all [Form.ofStatement]
  exact readLine_of_head?_readings (head?_readings_of_ne_signal hst (by simp) fun _ => hs) rfl

/-! ## One line more -/

/-- Lines with greater numbers are reported with greater numbers. -/
theorem readLines_succ {n m : Int} (h : n ≤ m) (d : Diagram) (ls : List String) :
    readLines forms d (m + 1) ls = (readLines forms d m ls).moved n := by
  induction ls generalizing d m with
  | nil => rfl
  | cons l ls ih =>
    cases hf : (d.readLine forms l).fault? with
    | some f => simp [readLines, hf, Reading.moved]
    | none =>
      rw [readLines_cons hf, readLines_cons hf, Reading.moved_prepend, ih (by omega),
        Reaction.complaint_succ h]
      cases (d.readLine forms l).complaint m <;> rfl

/-- **A line that changes nothing** where it is put in moves the entries about the lines behind it
and has no other effect. -/
theorem readLines_insertIdx (h : ∀ d : Diagram, d.readLine forms line = .applied d) (i : Nat)
    (d : Diagram) (n : Int) (ls : List String) :
    readLines forms d n (ls.insertIdx i line) = (readLines forms d n ls).moved (n + i) := by
  -- By induction on the place of the line: the lines before it are read as ever, and those behind
  -- it from the same diagram on, with the next numbers.
  induction i generalizing d n ls with
  | zero =>
    rw [List.insertIdx_zero, readLines_cons_of_applied (h d)]
    exact readLines_succ (by omega) d ls
  | succ i ih =>
    cases ls with
    | nil => rfl
    | cons l ls =>
      rw [List.insertIdx_succ_cons]
      cases hf : (d.readLine forms l).fault? with
      | some f => simp [readLines, hf, Reading.moved]
      | none =>
        have hn : n + ((i + 1 : Nat) : Int) = n + 1 + i := by omega
        rw [readLines_cons hf, readLines_cons hf, ih, Reading.moved_prepend, hn]
        have hc := (d.readLine forms l).moved_complaint (m := n) (n := n + 1 + i) (by omega)
        cases hcl : (d.readLine forms l).complaint n <;> simp_all

/-- A text with a line more that changes nothing. -/
theorem readText_withLine (hn : '\n' ∉ line.toList)
    (h : ∀ d : Diagram,
      d.readLine forms (String.ofList (Text.dropReturn line.toList)) = .applied d)
    (i : Nat) (d : Diagram) (text : String) :
    d.readText forms (Text.withLine i line text) = (d.readText forms text).moved (i + 1) := by
  have hl := readLines_insertIdx h i d 1 (Text.lines text)
  rw [Int.add_comm] at hl
  simp only [readText, Text.lines_withLine hn, hl, Reading.moved]
  split <;> simp [Diagnostic.moved, Diagnostic.unterminated]

end Diagram

/-- **Comments are neutral.** A line that begins with the sign of comments and is no message, put
into a text at any place, changes neither the diagram that is read nor the fault that ends the
reading nor the document. What is reported is the same, with the numbers of the lines behind the
new one moved by one, and nothing is reported about the line itself. -/
theorem compile_withLine {line : String} (hh : line.toList.head? = some '#')
    (hn : '\n' ∉ line.toList) (hs : ¬ Form.signal.Fits (Text.dropReturn line.toList))
    (i : Nat) (text : String) (options : Options) :
    (read (Text.withLine i line text)).diagram = (read text).diagram ∧
      (read (Text.withLine i line text)).fault = (read text).fault ∧
      (read (Text.withLine i line text)).report =
        (read text).report.map (Diagnostic.moved (i + 1)) ∧
      compile (Text.withLine i line text) options =
        (compile text options).map fun c =>
          { c with diagnostics := c.diagnostics.map (Diagnostic.moved (i + 1)) } := by
  have hc : Form.comment.Fits (Text.dropReturn line.toList) :=
    Form.fits_comment (Text.head?_dropReturn hh (by decide))
      fun h => hn ((Text.dropReturn_sublist _).mem h)
  have hr : read (Text.withLine i line text) = (read text).moved (i + 1) := by
    refine Diagram.readText_withLine hn (fun d => ?_) i .empty text
    rw [← String.toList_ofList (l := Text.dropReturn line.toList)] at hc hs
    exact Diagram.readLine_of_comment hc hs d
  rw [hr]
  refine ⟨rfl, rfl, rfl, ?_⟩
  simp only [compile, hr, Reading.moved]
  cases options.palette with
  | error f => rfl
  | ok palette =>
    cases hf : (read text).fault with
    | some f => simp [bind, Except.bind, Except.map]
    | none =>
      cases hd : (read text).diagram.draw.1.document palette options.font <;>
        simp [bind, Except.bind, hd, Except.map, pure, Except.pure]

/-- A comment behind the first line of three, of which the last one closes nothing. -/
theorem compile_withLine_stray_end :
    let line := "# A->B: later\r"
    (line.toList.head? = some '#' ∧ '\n' ∉ line.toList ∧
      ¬ Form.signal.Fits (Text.dropReturn line.toList)) ∧
    Text.withLine 1 line "A->B: x\n\nend" = "A->B: x\n# A->B: later\r\n\nend" ∧
    (read "A->B: x\n\nend").report = [.atLine 3 .scope] ∧
    (read "A->B: x\n# A->B: later\r\n\nend").report = [.atLine 4 .scope] := by
  intro line
  have hh : line.toList.head? = some '#' := by decide
  have hn : '\n' ∉ line.toList := by decide
  have hs : ¬ Form.signal.Fits (Text.dropReturn line.toList) := by decide
  have hw : Text.withLine 1 line "A->B: x\n\nend" = "A->B: x\n# A->B: later\r\n\nend" := by
    decide
  have hr : (read "A->B: x\n\nend").report = [.atLine 3 .scope] := by decide
  obtain ⟨-, -, hm, -⟩ := compile_withLine hh hn hs 1 "A->B: x\n\nend" {}
  rw [hw, hr] at hm
  exact ⟨⟨hh, hn, hs⟩, hw, hr, hm⟩

/-- A line that begins with the sign of comments and is a message is taken as the message, also
between the lines of a text. -/
theorem message_after_comment_sign :
    ¬ ∀ (line text : String) (i : Nat), line.toList.head? = some '#' → '\n' ∉ line.toList →
      i ≤ (Text.lines text).length →
      (read (Text.withLine i line text)).diagram = (read text).diagram := by
  intro h
  have hd := h "#A->B: x" "" 0 (by decide) (by decide) (by decide)
  have hr : (read (Text.withLine 0 "#A->B: x" "")).diagram.roster.names ≠
      (read "").diagram.roster.names := by decide
  exact hr (congrArg (fun d => d.roster.names) hd)

end SequenceDiagram
