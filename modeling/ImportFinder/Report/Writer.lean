import ImportFinder.Failure
import ImportFinder.Report.Data
import ImportFinder.Text.Utf8

/-!
# Outputs and encoders

A report is written to an output, which may refuse it. A notation that this library
does not write by itself is written by an encoder, which writes to the output piece by
piece and may fail by itself as well.
-/

namespace ImportFinder.Report

/-- An output: why it refuses a text, if it does. -/
abbrev Writer := Text → Option Failure

/-- What came of writing. -/
structure Written where
  /-- What was handed to the output. -/
  content : Text := []
  /-- Why not all could be written. -/
  failure : Option Failure := none
  deriving Repr

/-- Writes a text at once. -/
def Writer.write (w : Writer) (t : Text) : Written := ⟨t, w t⟩

/-- How data is encoded: in JSON, where encoders differ in a single point only, and in
    another notation. -/
structure Encoder where
  /-- What JSON has in the place of a byte that belongs to no character. -/
  stray : Text := Utf8.encodeChar Utf8.replacement
  /-- Writes data. -/
  encode : Writer → Data → Written
  /-- Writes what is left when data has been written. -/
  close : Writer → Data → Written

/-- Writes data as YAML and closes the encoder. -/
def Encoder.write (e : Encoder) (w : Writer) (d : Data) : Written :=
  let encoded := e.encode w d
  match encoded.failure with
  | some f => { encoded with failure := some (.within (text "failed to encode YAML") f) }
  | none =>
    let closed := e.close w d
    { closed with content := encoded.content ++ closed.content }

end ImportFinder.Report
