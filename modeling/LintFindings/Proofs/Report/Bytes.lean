/-
A file of any bytes is read line by line.

What a linter prints need not be a text.  Its bytes are cut at line feeds, and each line
says what its own bytes say, whatever they are and whatever stands on the lines around it
(`read_decodeLossy`): a character that is broken off at the end of a line takes nothing
of the next one with it.
-/
import LintFindings.Proofs.Report.Lines
import LintFindings.Proofs.Text.Utf8

namespace LintFindings.ReportReader

variable {r : ReportReader} {bytes line : List UInt8}

/-- The finding of a line of bytes: what the matchers make of its own text, trimmed, if there is
anything on it. -/
def byteLineFinding? (r : ReportReader) (line : List UInt8) : Option Finding :=
  (Text.trimmed? (Utf8.decodeLossy line)).bind fun t =>
    (r.matchLine? t).map (findingOf r.severities)

/-- What the lines of a file say, in their order. -/
def byteLineFindings (r : ReportReader) (bytes : List UInt8) : List Finding :=
  (bytes.splitOn 0x0A).filterMap r.byteLineFinding?

theorem recognized_decodeLossy (r : ReportReader) (bytes : List UInt8) :
    r.recognized (Utf8.decodeLossy bytes) = r.byteLineFindings bytes := by
  rw [recognized, shownLines_eq_solidLines, Text.solidLines, Utf8.pieces_decodeLossy,
    byteLineFindings, List.filterMap_map, List.filterMap_filterMap]
  rfl

/-- **The findings of a file are those of its lines**, or the file itself where no line of it
has one. -/
theorem read_decodeLossy (r : ReportReader) (bytes : List UInt8) (artifact : Text) :
    r.read (Utf8.decodeLossy bytes) artifact =
      if Text.trim (Utf8.decodeLossy bytes) ≠ [] ∧ r.byteLineFindings bytes = [] ∧
          r.fallback = true then
        [opaqueFinding artifact (Text.trim (Utf8.decodeLossy bytes))]
      else r.byteLineFindings bytes := by
  simp only [read_eq, ← recognized_eq_nil_iff, recognized_decodeLossy]

/-- A text on a line of its own is a recognized one or not, whatever its neighbours are. -/
theorem byteLineFinding?_encode (r : ReportReader) {t : Text} {m : LineMatch}
    (hne : Text.trim t ≠ []) (hm : r.matchLine? (Text.trim t) = some m) :
    r.byteLineFinding? (Utf8.encode t) = some (findingOf r.severities m) := by
  rw [byteLineFinding?, Utf8.decodeLossy_encode, Text.trimmed?_eq_some_iff.mpr ⟨rfl, hne⟩,
    Option.bind_some, hm, Option.map_some]

/-- **A line that is recognized has its finding in its place**, whatever bytes surround it. -/
theorem read_around (r : ReportReader) (artifact : Text) {front back : List (List UInt8)}
    {t : Text} {m : LineMatch} (hlines : bytes.splitOn 0x0A = front ++ Utf8.encode t :: back)
    (hne : Text.trim t ≠ []) (hm : r.matchLine? (Text.trim t) = some m) :
    r.read (Utf8.decodeLossy bytes) artifact
      = front.filterMap r.byteLineFinding? ++
        findingOf r.severities m :: back.filterMap r.byteLineFinding? := by
  have hfindings : r.byteLineFindings bytes
      = front.filterMap r.byteLineFinding? ++
        findingOf r.severities m :: back.filterMap r.byteLineFinding? := by
    rw [byteLineFindings, hlines, List.filterMap_append,
      List.filterMap_cons_some (byteLineFinding?_encode r hne hm)]
  rw [read_decodeLossy, hfindings, if_neg]
  simp

end LintFindings.ReportReader
