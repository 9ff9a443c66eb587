/-
Build labels as relative references.

A label such as `@repo//pkg/sub:name` names a target.  `Label.reference` makes
it a relative URI reference: the repository is dropped, colons and slashes
part the segments, dot segments are dropped, and what may not stand in a
segment is percent-encoded.
-/
import LintFindings.Text.Hex
import LintFindings.Text.Utf8

namespace LintFindings.Label

/-- The part of a label after the repository: behind the first double slash or, where there is
none, behind the at signs. -/
def path (label : Text) : Text :=
  let label := Text.trim label
  (Text.afterFirst? "//".toList label).getD (label.dropWhile (· == '@'))

/-- The segments of a label that name something. -/
def segments (label : Text) : List Text :=
  (Text.pieces (fun c => c == ':' || c == '/') (path label)).filter
    fun s => s ≠ [] ∧ s ≠ ".".toList ∧ s ≠ "..".toList

/-- The bytes that stand for themselves in a segment: letters, digits and some signs. -/
def isPlain (b : UInt8) : Bool :=
  let c := Char.ofNat b.toNat
  b < 0x80 && (c.isAlphanum || "-._~!$&'()*+,;=@".toList.contains c)

/-- A byte inside a segment. -/
def encodeByte (b : UInt8) : Text :=
  if isPlain b then [Char.ofNat b.toNat]
  else ['%', Text.hexDigit (b.toNat / 16), Text.hexDigit (b.toNat % 16)]

/-- A segment with all but its plain bytes percent-encoded. -/
def encodeSegment (segment : Text) : Text := (Utf8.encode segment).flatMap encodeByte

/-- The relative reference of a label; a lone dot if it has no segments. -/
def reference (label : Text) : Text :=
  match segments label with
  | [] => ['.']
  | ss => ['/'].intercalate (ss.map encodeSegment)

end LintFindings.Label
