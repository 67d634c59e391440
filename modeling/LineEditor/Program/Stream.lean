import LineEditor.Program.Compile
import LineEditor.Text.Lines

/-!
# Streams of lines

A program runs on every line of a text by itself. The lines are taken without their endings, and
each result is written with a newline.
-/

namespace LineEditor

/-- What a program makes of each of some lines, which may still have their endings. -/
def Compiled.transform (compiled : Compiled) (lines : List (List Char)) : List (List Char) :=
  lines.map fun line => compiled.apply (Text.stripEnding line)

/-- Lines, each with a newline, as one text. -/
def joinLines (lines : List (List Char)) : List Char :=
  lines.flatMap fun line => line ++ ['\n']

/-- Runs a program on the lines of a text: how many they are, and the text of the results. -/
def Compiled.stream (compiled : Compiled) (input : List Char) : Nat × List Char :=
  let results := compiled.transform (Text.splitLines input)
  (results.length, joinLines results)

end LineEditor
