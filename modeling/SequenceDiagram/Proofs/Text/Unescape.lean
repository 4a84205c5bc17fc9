import SequenceDiagram.Proofs.Text.Harmless

/-!
# Reading escaped text

Escaped text is read back from left to right: an entity stands for one character, and any other
character for itself. What escaping wrote for one character is never taken for something else,
because every ampersand of the text was written as an entity itself.

## Main definitions

* `Text.unescape`: what escaped text says

## Main results

* `Text.unescapeChars_escapeChars_append`: one escaped text after another is read back
* `Text.unescape_escape`: escaping loses nothing
* `Text.escape_at_once`: escaping replaces every character once and can be undone
-/

namespace SequenceDiagram.Text

/-- What escaped characters say, read from the left in one pass. -/
def unescapeChars : List Char → List Char
  | '&' :: 'a' :: 'm' :: 'p' :: ';' :: cs => '&' :: unescapeChars cs
  | '&' :: 'l' :: 't' :: ';' :: cs => '<' :: unescapeChars cs
  | '&' :: 'g' :: 't' :: ';' :: cs => '>' :: unescapeChars cs
  | '&' :: 'q' :: 'u' :: 'o' :: 't' :: ';' :: cs => '"' :: unescapeChars cs
  | '&' :: '#' :: '3' :: '9' :: ';' :: cs => '\'' :: unescapeChars cs
  | c :: cs => c :: unescapeChars cs
  | [] => []

/-- What escaped text says. -/
def unescape (s : String) : String := String.ofList (unescapeChars s.toList)

attribute [local simp] unescapeChars

theorem unescapeChars_cons {c : Char} (h : c ≠ '&') (cs : List Char) :
    unescapeChars (c :: cs) = c :: unescapeChars cs := by
  simp [h]

/-- A character in escaped form is read back as itself. -/
theorem unescapeChars_singleton_append (c : Char) (rest : List Char) :
    unescapeChars (escapeChars [c] ++ rest) = c :: unescapeChars rest := by
  by_cases hc : c ∈ ['&', '<', '>', '"', '\'']
  · simp only [List.mem_cons, List.not_mem_nil, or_false] at hc
    rcases hc with rfl | rfl | rfl | rfl | rfl <;> rfl
  · have hamp : c ≠ '&' := by
      rintro rfl
      simp at hc
    rw [escapeChars_of_notMem hc]
    exact unescapeChars_cons hamp rest

/-- **Escaped characters are read back**, and what follows them after them. -/
theorem unescapeChars_escapeChars_append (cs rest : List Char) :
    unescapeChars (escapeChars cs ++ rest) = cs ++ unescapeChars rest := by
  induction cs with
  | nil => rfl
  | cons c cs ih =>
    rw [← List.singleton_append, escapeChars_append, List.append_assoc,
      unescapeChars_singleton_append, ih]
    rfl

/-- **Escaping loses nothing.** -/
@[simp] theorem unescape_escape (s : String) : unescape (escape s) = s := by
  have h := unescapeChars_escapeChars_append s.toList []
  rw [List.append_nil] at h
  rw [unescape, toList_escape, h]
  simp

/-- **Escaping replaces every character of the markup once and can be undone.** What one of its
five substitutions writes stays as it is under the later ones, wherever it stands. So the five one
after another do what all of them do at once, and a text can be escaped piece by piece. Escaped
text is harmless, and it is read back as the text that it is made from, also where that text
already held entities or parts of them. -/
theorem escape_at_once (s t : String) :
    (escape s).toList = substituteEach entityRules s.toList ∧
    substituteEach entityRules s.toList = s.toList.flatMap (replacement entityRules) ∧
    (∀ r later, r :: later <:+ entityRules → ∀ before after,
      substituteEach later (before ++ r.2.toList ++ after) =
        substituteEach later before ++ r.2.toList ++ substituteEach later after) ∧
    escape (s ++ t) = escape s ++ escape t ∧
    Harmless (escape s).toList ∧
    unescape (escape s) = s := by
  refine ⟨?_, settled_entityRules.substituteEach_eq s.toList, ?_, escape_append s t,
    harmless_escape s, unescape_escape s⟩
  · rw [toList_escape, escapeChars_eq_substituteEach]
  · intro r later hr before after
    exact settled_entityRules.substituteEach_around hr before after

/-- A text that begins with an entity and ends with the first character of one, in front of the
other characters of that one. -/
theorem escape_at_once_entities :
    let s := "&lt;<&"
    let t := "amp;'"
    let later := [('>', "&gt;"), ('"', "&quot;"), ('\'', "&#39;")]
    ('<', "&lt;") :: later <:+ entityRules ∧
    substituteEach later ("'".toList ++ "&lt;".toList ++ "\"".toList) = "&#39;&lt;&quot;".toList ∧
    (escape s).toList = s.toList.flatMap (replacement entityRules) ∧
    escape s = "&amp;lt;&lt;&amp;" ∧ escape (s ++ t) = "&amp;lt;&lt;&amp;" ++ "amp;&#39;" ∧
    Harmless "&amp;lt;&lt;&amp;".toList ∧ unescape "&amp;lt;&lt;&amp;" = s := by
  intro s t later
  have hlater : ('<', "&lt;") :: later <:+ entityRules := ⟨[('&', "&amp;")], rfl⟩
  have hs : escape s = "&amp;lt;&lt;&amp;" := by decide
  have ht : escape t = "amp;&#39;" := by decide
  obtain ⟨heach, honce, haround, happend, hharmless, hread⟩ := escape_at_once s t
  have hwritten := haround _ later hlater "'".toList "\"".toList
  rw [hs] at hharmless hread
  rw [hs, ht] at happend
  exact ⟨hlater, hwritten, heach.trans honce, hs, happend, hharmless, hread⟩

end SequenceDiagram.Text
