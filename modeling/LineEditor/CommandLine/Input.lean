import LineEditor.Text.Lines
import LineEditor.Text.Utf8

/-!
# Reading the input

The input is decoded chunk by chunk and read line by line. When a chunk cannot be decoded, the lines
that were complete before it have been read, and the rest has not. So it is with a file and with the
standard input.

What becomes of the line endings depends on where the input comes from. They are unified in a file,
which is opened to be read as text; the standard input is open already, and may keep them.
-/

namespace LineEditor

/-- How many bytes of the input are decoded at a time. -/
def chunkSize : Nat := 8192

/-- Bytes in chunks of a size, the last one perhaps smaller. -/
def chunks (size : Nat) (bytes : List UInt8) : List (List UInt8) :=
  match bytes with
  | [] => []
  | b :: rest => (b :: rest.take (size - 1)) :: chunks size (rest.drop (size - 1))
termination_by bytes.length
decreasing_by simp only [List.length_drop, List.length_cons]; omega

/-- The lines of an input, and the error at which decoding it stops. If there is one, the lines are
those that have their endings before the chunk at fault; whether a carriage return at the end of the
chunks before that is an ending is not known by then. -/
def inputLines (endings : Text.LineEndings) (bytes : List UInt8) :
    List (List Char) × Option Text.Utf8.DecodeError :=
  match Text.Utf8.decodeChunks [] (chunks chunkSize bytes) with
  | (text, none) => (Text.splitLines (endings.read text), none)
  | (text, some error) =>
    let lines := Text.splitLines (endings.read (Text.dropLast? '\r' text))
    (lines.filter fun line => line.getLast? = some '\n', some error)

end LineEditor
