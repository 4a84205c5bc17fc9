import Mathlib.Data.List.InsertIdx
import SequenceDiagram.Text.Lines

/-!
# Lines put together

Lines that are put together with line feeds between them are the lines of the text that results,
and the same holds of the lines of a label and the breaks written between them.

## Main definitions

* `Text.IsLine`: a text that is one line
* `Text.label`, `Text.AreLabelLines`: the label of several lines
* `Text.keep`, `Text.withoutLines`: lines, and the text of them, without those of some numbers
* `Text.withLine`: a text with one line more

## Main results

* `Text.newline_notMem`: a line holds no line feed
* `Text.lines_append`: the lines of two texts put together
* `Text.lines_intercalate`: the lines of lines put together
* `Text.lines_withoutLines`: the lines of a text without some of them
* `Text.lines_withLine`: the lines of a text with one more
* `Text.labelLines_label`: the lines of a label put together
-/

namespace SequenceDiagram.Text

/-! ## Lines of a text -/

theorem notMem_of_mem_splitOn {x : Char} {cs l : List Char} (h : l ∈ cs.splitOn x) : x ∉ l := by
  -- A character begins a new piece if it is `x`, and otherwise goes to the first piece.
  induction cs generalizing l with
  | nil => simp_all
  | cons c cs ih =>
    rw [List.splitOn_cons_eq_if_modifyHead] at h
    by_cases hc : c = x
    · rw [if_pos (by simpa using hc), List.mem_cons] at h
      rcases h with rfl | h
      · exact List.not_mem_nil
      · exact ih h
    · rw [if_neg (by simpa using hc)] at h
      obtain ⟨m, ms, hm⟩ := List.exists_cons_of_ne_nil (List.splitOn_ne_nil x cs)
      rw [hm, List.modifyHead_cons, List.mem_cons] at h
      rcases h with rfl | h
      · rw [List.mem_cons, not_or]
        exact ⟨Ne.symm hc, ih (hm ▸ List.mem_cons_self)⟩
      · exact ih (hm ▸ List.mem_cons_of_mem _ h)

theorem dropReturn_sublist (cs : List Char) : (dropReturn cs).Sublist cs := by
  fun_induction dropReturn cs with
  | case1 => exact .slnil
  | case2 => exact List.nil_sublist _
  | case3 c cs _ ih => exact ih.cons_cons c

theorem dropReturn_of_getLast? {cs : List Char} (h : cs.getLast? ≠ some '\r') :
    dropReturn cs = cs := by
  fun_induction dropReturn cs with
  | case1 => rfl
  | case2 => simp at h
  | case3 c cs hc ih =>
    rw [ih]
    -- The last character of the rest is that of the whole, unless the rest is empty.
    intro hl
    cases cs with
    | nil => simp at hl
    | cons => exact h (by simpa [List.getLast?_cons_cons] using hl)

theorem head?_dropReturn {c : Char} {cs : List Char} (h : cs.head? = some c) (hc : c ≠ '\r') :
    (dropReturn cs).head? = some c := by
  cases cs with
  | nil => simp at h
  | cons d cs =>
    obtain rfl : d = c := Option.some.inj h
    simp [dropReturn, hc]

/-- A line holds no line feed. -/
theorem newline_notMem {text line : String} (h : line ∈ lines text) : '\n' ∉ line.toList := by
  obtain ⟨cs, hcs, rfl⟩ := List.mem_map.1 h
  rw [String.toList_ofList]
  intro hn
  exact notMem_of_mem_splitOn hcs ((dropReturn_sublist cs).mem hn)

/-- The lines of a text and those behind a line feed after it are the lines of both together. -/
theorem lines_append (s t : String) : lines (s ++ "\n" ++ t) = lines s ++ lines t := by
  have ht : (s ++ "\n" ++ t).toList = s.toList ++ '\n' :: t.toList := by simp
  rw [lines, ht, List.splitOn_eq_splitOnP, List.splitOnP_append_cons _ _ (by simp), List.map_append,
    lines, lines, List.splitOn_eq_splitOnP, List.splitOn_eq_splitOnP]

/-- A text that is one line, and stays the same line between others. -/
structure IsLine (line : String) : Prop where
  newline : '\n' ∉ line.toList
  last : line.toList.getLast? ≠ some '\r'

theorem IsLine.append {a b : String} (ha : IsLine a) (hb : IsLine b) : IsLine (a ++ b) := by
  constructor
  · rw [String.toList_append, List.mem_append]
    rintro (h | h)
    · exact ha.newline h
    · exact hb.newline h
  · -- The line ends as its second part, or as the first one if the second is empty.
    rw [String.toList_append, List.getLast?_append]
    have hl := hb.last
    cases hc : b.toList.getLast? with
    | none => exact ha.last
    | some c => rwa [hc] at hl

/-- Lines put together are the lines of the text that results. -/
theorem lines_intercalate {ls : List String} (hne : ls ≠ []) (h : ∀ l ∈ ls, IsLine l) :
    lines ("\n".intercalate ls) = ls := by
  have hs : ("\n".intercalate ls).toList.splitOn '\n' = ls.map String.toList := by
    rw [String.toList_intercalate]
    refine List.splitOn_intercalate '\n' ?_ (by simpa using hne)
    intro l hl
    obtain ⟨m, hm, rfl⟩ := List.mem_map.1 hl
    exact (h m hm).newline
  rw [lines, hs, List.map_map]
  refine (List.map_congr_left fun l hl => ?_).trans (List.map_id ls)
  simp [dropReturn_of_getLast? (h l hl).last]

/-- The lines of a text with other lines behind it. -/
theorem lines_intercalate_cons {ls : List String} (h : ∀ l ∈ ls, IsLine l) (text : String) :
    lines ("\n".intercalate (text :: ls)) = lines text ++ ls := by
  by_cases hne : ls = []
  · simp [hne]
  · rw [String.intercalate_cons_of_ne_nil hne, lines_append, lines_intercalate hne h]

/-! ## Leaving lines out -/

/-- The items of a list without those of some numbers, when the first has number `n`. -/
def keep {α : Type} (numbers : List Int) (n : Nat) (items : List α) : List α :=
  ((items.zipIdx n).filter fun p => (p.2 : Int) ∉ numbers).map Prod.fst

/-- A text without the lines of some numbers, when the first line has number one. -/
def withoutLines (numbers : List Int) (text : String) : String :=
  String.ofList (['\n'].intercalate (keep numbers 1 (text.toList.splitOn '\n')))

section Keep

variable {α β : Type} {numbers : List Int}

@[simp] theorem keep_nil (n : Nat) : keep numbers n ([] : List α) = [] := rfl

theorem keep_cons_of_mem {n : Nat} (h : (n : Int) ∈ numbers) (x : α) (xs : List α) :
    keep numbers n (x :: xs) = keep numbers (n + 1) xs := by
  simp [keep, List.zipIdx_cons, h]

theorem keep_cons_of_notMem {n : Nat} (h : (n : Int) ∉ numbers) (x : α) (xs : List α) :
    keep numbers n (x :: xs) = x :: keep numbers (n + 1) xs := by
  simp [keep, List.zipIdx_cons, h]

theorem mem_of_mem_keep {n : Nat} {x : α} {xs : List α} (h : x ∈ keep numbers n xs) : x ∈ xs := by
  obtain ⟨⟨y, i⟩, hy, rfl⟩ := List.mem_map.1 h
  exact List.fst_mem_of_mem_zipIdx (List.mem_filter.1 hy).1

theorem keep_map (f : α → β) (n : Nat) (xs : List α) :
    keep numbers n (xs.map f) = (keep numbers n xs).map f := by
  induction xs generalizing n with
  | nil => rfl
  | cons x xs ih =>
    by_cases h : (n : Int) ∈ numbers
    · rw [List.map_cons, keep_cons_of_mem h, keep_cons_of_mem h, ih]
    · rw [List.map_cons, keep_cons_of_notMem h, keep_cons_of_notMem h, ih, List.map_cons]

end Keep

/-- The lines of a text without some of them are the others, or one empty line if there are no
others. -/
theorem lines_withoutLines (numbers : List Int) (text : String) :
    lines (withoutLines numbers text) =
      if keep numbers 1 (lines text) = [] then [""] else keep numbers 1 (lines text) := by
  unfold withoutLines lines
  rw [String.toList_ofList, keep_map]
  split
  · rename_i h
    rw [List.map_eq_nil_iff.1 h]
    rfl
  · rename_i h
    rw [List.splitOn_intercalate '\n' (fun l hl => notMem_of_mem_splitOn (mem_of_mem_keep hl))
      (mt (fun h' => by rw [h', List.map_nil]) h)]

/-! ## Putting a line in -/

/-- A text with one line more, which comes behind the first `i` lines. -/
def withLine (i : Nat) (line text : String) : String :=
  String.ofList (['\n'].intercalate ((text.toList.splitOn '\n').insertIdx i line.toList))

/-- The line that is put in is read without the return that ends it, if one does. -/
theorem lines_withLine {line : String} (h : '\n' ∉ line.toList) (i : Nat) (text : String) :
    lines (withLine i line text) =
      (lines text).insertIdx i (String.ofList (dropReturn line.toList)) := by
  have hnil : (text.toList.splitOn '\n').insertIdx i line.toList ≠ [] := by
    intro he
    have hs := List.sublist_insertIdx (text.toList.splitOn '\n') i line.toList
    rw [he, List.sublist_nil] at hs
    exact List.splitOn_ne_nil '\n' text.toList hs
  have hmem : ∀ l ∈ (text.toList.splitOn '\n').insertIdx i line.toList, '\n' ∉ l := by
    intro l hl
    rcases List.eq_or_mem_of_mem_insertIdx hl with rfl | hl
    · exact h
    · exact notMem_of_mem_splitOn hl
  rw [lines, withLine, String.toList_ofList, List.splitOn_intercalate '\n' hmem hnil,
    List.map_insertIdx, lines]

/-! ## Lines of a label -/

theorem splitEscapes_cons {c : Char} {cs : List Char} (h : ¬ ['\\', 'n'] <+: c :: cs) :
    splitEscapes (c :: cs) = (splitEscapes cs).modifyHead (c :: ·) := by
  refine splitEscapes.eq_2 c cs fun rest hc hr => h ?_
  rw [hc, hr]
  exact ⟨rest, rfl⟩

theorem splitEscapes_of_not_infix {l : List Char} (h : ¬ ['\\', 'n'] <:+: l) :
    splitEscapes l = [l] := by
  induction l with
  | nil => rfl
  | cons c l ih =>
    rw [splitEscapes_cons (mt List.IsPrefix.isInfix h), ih fun hl => h (List.infix_cons hl)]
    rfl

/-- A written break ends a line that holds none, also one that ends in a backslash. -/
theorem splitEscapes_append {l : List Char} (h : ¬ ['\\', 'n'] <:+: l) (rest : List Char) :
    splitEscapes (l ++ '\\' :: 'n' :: rest) = l :: splitEscapes rest := by
  induction l with
  | nil => rfl
  | cons c l ih =>
    -- A break at the first character would be one inside the line: behind the last character of
    -- the line comes a backslash, not the letter.
    have hp : ¬ ['\\', 'n'] <+: c :: (l ++ '\\' :: 'n' :: rest) := by
      intro hp
      obtain ⟨hc, hn⟩ := List.cons_prefix_cons.1 hp
      cases l with
      | nil => simp at hn
      | cons d l =>
        obtain ⟨hd, -⟩ := List.cons_prefix_cons.1 hn
        exact h ⟨[], l, by rw [← hc, ← hd]; rfl⟩
    rw [List.cons_append, splitEscapes_cons hp, ih fun hl => h (List.infix_cons hl)]
    rfl

/-- The label of several lines. -/
def label (ls : List String) : String := "\\n".intercalate ls

/-- Lines of which a label can consist. -/
structure AreLabelLines (ls : List String) : Prop where
  ne_nil : ls ≠ []
  newline : ∀ l ∈ ls, '\n' ∉ l.toList
  unbroken : ∀ l ∈ ls, ¬ ['\\', 'n'] <:+: l.toList

theorem toList_label_singleton (l : String) : (label [l]).toList = l.toList := by
  simp [label]

theorem toList_label_cons_cons (l m : String) (ls : List String) :
    (label (l :: m :: ls)).toList = l.toList ++ '\\' :: 'n' :: (label (m :: ls)).toList := by
  simp [label, String.intercalate_cons_cons]

/-- A label holds nothing but its lines and the breaks between them. -/
theorem notMem_label {ls : List String} {c : Char} (hb : c ≠ '\\') (hn : c ≠ 'n')
    (h : ∀ l ∈ ls, c ∉ l.toList) : c ∉ (label ls).toList := by
  induction ls with
  | nil => simp [label]
  | cons l ls ih =>
    obtain ⟨hl, hls⟩ := List.forall_mem_cons.1 h
    cases ls with
    | nil => rwa [toList_label_singleton]
    | cons m ls =>
      have hm := ih hls
      simp [toList_label_cons_cons, hl, hb, hn, hm]

/-- A label begins as its first line, or with a break. -/
theorem head?_label {ls : List String} {c : Char} (h : (label ls).toList.head? = some c)
    (hc : c ≠ '\\') : ∃ l ∈ ls.head?, l.toList.head? = some c := by
  match ls with
  | [] => simp [label] at h
  | [l] => exact ⟨l, rfl, by rwa [toList_label_singleton] at h⟩
  | l :: m :: ls =>
    refine ⟨l, rfl, ?_⟩
    rw [toList_label_cons_cons] at h
    cases hl : l.toList with
    | nil =>
      rw [hl] at h
      exact absurd (Option.some.inj h).symm hc
    | cons d cs => simpa [hl] using h

/-- A label ends as its last line, or with a break. -/
theorem getLast?_label {ls : List String} {c : Char} (h : (label ls).toList.getLast? = some c)
    (hc : c ≠ 'n') : ∃ l ∈ ls.getLast?, l.toList.getLast? = some c := by
  induction ls with
  | nil => simp [label] at h
  | cons l ls ih =>
    cases ls with
    | nil => exact ⟨l, rfl, by rwa [toList_label_singleton] at h⟩
    | cons m ls =>
      rw [List.getLast?_cons_cons]
      refine ih ?_
      rw [toList_label_cons_cons, List.getLast?_append, List.getLast?_cons_cons,
        List.getLast?_cons] at h
      cases hl : (label (m :: ls)).toList.getLast? with
      | none => exact absurd (by simpa [hl] using h.symm) hc
      | some d => simpa [hl] using h

theorem splitEscapes_label {ls : List String} (hne : ls ≠ [])
    (hb : ∀ l ∈ ls, ¬ ['\\', 'n'] <:+: l.toList) :
    splitEscapes (label ls).toList = ls.map String.toList := by
  -- By induction on the lines, where the last line has no break behind it.
  induction ls with
  | nil => exact absurd rfl hne
  | cons l ls ih =>
    have hl := hb l List.mem_cons_self
    cases ls with
    | nil => rw [toList_label_singleton, splitEscapes_of_not_infix hl, List.map_singleton]
    | cons m ls =>
      rw [toList_label_cons_cons, splitEscapes_append hl,
        ih (by simp) fun k hk => hb k (List.mem_cons_of_mem _ hk)]
      rfl

/-- Lines put together into a label are the lines of that label. -/
theorem labelLines_label {ls : List String} (h : AreLabelLines ls) :
    labelLines (label ls) = ls := by
  rw [labelLines, splitEscapes_label h.ne_nil h.unbroken, List.map_map]
  refine (List.map_congr_left fun l _ => ?_).trans (List.map_id ls)
  exact String.ofList_toList

end SequenceDiagram.Text
