import NginLog.Formatting.LogFmtRoundTrip
import NginLog.Formatting.PhysicalLine
import NginLog.Foundation.Quoting

/-!
# Escaped text between quotes

`AppendEscapedText` loses nothing, and what it appends cannot end the quotes
that it is put between: each of its own quotes is escaped, and it does not end
in a backslash that would escape the closing quote.
-/

namespace NginLog
namespace Formatting

open Foundation Record

theorem not_mem_of_bare {t : Bytes} (h : Bare t) {b : UInt8}
    (hb : isBare b = false) : b ∉ t :=
  fun hmem => ne_of_isBare (bare_iff.mp h b hmem) hb rfl

theorem contents_escaped (ch : UInt8) : Quoting.Contents (escaped ch) := by
  rcases escaped_cases ch with
    ⟨b, _, _, heq, _⟩ | ⟨_, heq⟩ | ⟨hslash, hquote, heq⟩
  · rw [heq]
    exact Quoting.Contents.escape b
  · -- The digits after the escaped `x` are neither backslashes nor quotes.
    have hbare := bare_appendHexByte ch
    rw [heq]
    exact (Quoting.Contents.escape 120).append
      (Quoting.Contents.plain (not_mem_of_bare hbare (by decide))
        (not_mem_of_bare hbare (by decide)))
  · rw [heq]
    apply Quoting.Contents.plain
    · exact fun hmem => hslash (List.mem_singleton.mp hmem).symm
    · exact fun hmem => hquote (List.mem_singleton.mp hmem).symm

theorem contents_appendEscapedText (text : Bytes) :
    Quoting.Contents (appendEscapedText text) :=
  Quoting.Contents.flatMap contents_escaped text

theorem quotes_append (text rest : Bytes) :
    (ascii "\"" ++ text ++ ascii "\"") ++ rest = 34 :: (text ++ 34 :: rest) := by
  rw [List.append_assoc, List.append_assoc]
  rfl

theorem readQuoted_appendAttributeValue (runtime : Runtime)
    (text rest : Bytes) :
    Quoting.readQuoted
        (appendAttributeValue runtime (AttributeValue.text text) ++ rest) =
      some (appendEscapedText text, rest) := by
  rw [appendAttributeValue, quotes_append]
  exact Quoting.readQuoted_of_contents (contents_appendEscapedText text) rest

theorem escaped_text_is_lossless_and_closed (text : Bytes) :
    unescapeFrom Pending.plain (appendEscapedText text) = some text ∧
      (forall b, b ∈ appendEscapedText text -> 32 ≤ b) ∧
      (forall before after,
        appendEscapedText text = before ++ 34 :: after ->
          Odd (Quoting.slashRun before)) ∧
      (forall (runtime : Runtime) (rest : Bytes),
        Quoting.readQuoted
            (appendAttributeValue runtime (AttributeValue.text text) ++ rest) =
          some (appendEscapedText text, rest) ∧
        Quoting.readQuoted
            (appendLogFmtAttributeValue runtime (AttributeValue.text text) ++
              rest) =
          some (appendEscapedText text, rest)) := by
  refine ⟨logFmtEscaper.unescape_text text, ?_, ?_, ?_⟩
  · exact printable_iff.mp (printable_appendEscapedText text)
  · exact (contents_appendEscapedText text).quotes
  · intro runtime rest
    constructor
    · exact readQuoted_appendAttributeValue runtime text rest
    · -- The two functions write the same for a text.
      exact readQuoted_appendAttributeValue runtime text rest

end Formatting
end NginLog
