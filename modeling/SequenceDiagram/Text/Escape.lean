/-!
# Escaped text

Text that goes into a document has the five characters of the markup replaced by entities. The
ampersand is replaced first, so that the entities written for the others are left alone.

## Main definitions

* `Text.substitute c s`: every `c` replaced by `s`
* `Text.escape`: text in escaped form

## Main results

* `Text.toList_escape`: escaping, as five substitutions one after another
* `Text.escapeChars_append`, `Text.escape_append`: escaping goes piece by piece
-/

namespace SequenceDiagram.Text

/-- Every occurrence of a character replaced by a text. -/
def substitute (c : Char) (s : String) (cs : List Char) : List Char :=
  cs.flatMap fun d => if d = c then s.toList else [d]

@[simp] theorem substitute_nil (c : Char) (s : String) : substitute c s [] = [] := rfl

@[simp] theorem substitute_append (c : Char) (s : String) (cs ds : List Char) :
    substitute c s (cs ++ ds) = substitute c s cs ++ substitute c s ds := List.flatMap_append

/-- Characters in escaped form. -/
def escapeChars (cs : List Char) : List Char :=
  substitute '\'' "&#39;" <| substitute '"' "&quot;" <| substitute '>' "&gt;" <|
    substitute '<' "&lt;" <| substitute '&' "&amp;" cs

@[simp] theorem escapeChars_nil : escapeChars [] = [] := rfl

@[simp] theorem escapeChars_append (cs ds : List Char) :
    escapeChars (cs ++ ds) = escapeChars cs ++ escapeChars ds := by
  simp [escapeChars]

/-- Text in escaped form. -/
def escape (s : String) : String := String.ofList (escapeChars s.toList)

@[simp] theorem toList_escape (s : String) : (escape s).toList = escapeChars s.toList :=
  String.toList_ofList

theorem escape_append (s t : String) : escape (s ++ t) = escape s ++ escape t := by
  rw [← String.toList_inj]
  simp

example : escape "<a> & \"b\" &lt; 'c'" = "&lt;a&gt; &amp; &quot;b&quot; &amp;lt; &#39;c&#39;" := by
  decide +kernel

end SequenceDiagram.Text
