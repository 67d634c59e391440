import LineEditor.Main
import LineEditor.Command.Streaming
import LineEditor.Proofs.Text.Table
import LineEditor.Proofs.Text.CodeSet
import LineEditor.Proofs.Text.Case
import LineEditor.Proofs.Text.Lines
import LineEditor.Proofs.Text.Utf8
import LineEditor.Proofs.Text.Decoding
import LineEditor.Proofs.Text.Trimming
import LineEditor.Proofs.Text.Similarity
import LineEditor.Proofs.Line.Span
import LineEditor.Proofs.Line.WordBounds
import LineEditor.Proofs.Line.WordSpans
import LineEditor.Proofs.Line.WordScans
import LineEditor.Proofs.Line.CaseMapped
import LineEditor.Proofs.Line.WordEdges
import LineEditor.Proofs.Line.Transposing
import LineEditor.Proofs.Line.InBounds
import LineEditor.Proofs.Line.Searching
import LineEditor.Proofs.Line.Sides
import LineEditor.Proofs.Line.SettingCase
import LineEditor.Proofs.Line.Deleting
import LineEditor.Proofs.Line.Killing
import LineEditor.Proofs.Line.Cutting
import LineEditor.Proofs.Line.WordRow
import LineEditor.Proofs.Line.TransposeWords
import LineEditor.Proofs.Line.FullWord
import LineEditor.Proofs.Line.Local
import LineEditor.Proofs.Line.Unbroken
import LineEditor.Proofs.Line.RepeatedEdits
import LineEditor.Proofs.Line.RepeatedTranspositions
import LineEditor.Proofs.Line.WordMotions
import LineEditor.Proofs.Line.Trimming
import LineEditor.Proofs.Line.Translating
import LineEditor.Proofs.Token.IntegerWord
import LineEditor.Proofs.Token.Lexemes
import LineEditor.Proofs.Token.Position
import LineEditor.Proofs.Token.Reading
import LineEditor.Proofs.Token.Places
import LineEditor.Proofs.Token.Concatenation
import LineEditor.Proofs.Command.Shape
import LineEditor.Proofs.Command.Keyword
import LineEditor.Proofs.Command.Grammar
import LineEditor.Proofs.Command.Refusal
import LineEditor.Proofs.Command.Streaming
import LineEditor.Proofs.Command.RepeatPrefix
import LineEditor.Proofs.Command.EarliestError
import LineEditor.Proofs.Command.Suggestion
import LineEditor.Proofs.Command.Places
import LineEditor.Proofs.Command.Concatenation
import LineEditor.Proofs.Command.Pairs
import LineEditor.Proofs.Command.Written
import LineEditor.Proofs.Command.Writable
import LineEditor.Proofs.Command.RoundTrip
import LineEditor.Proofs.Program.Sequence
import LineEditor.Proofs.Program.Executed
import LineEditor.Proofs.Program.InBounds
import LineEditor.Proofs.Program.FlatRun
import LineEditor.Proofs.Program.Local
import LineEditor.Proofs.Program.Done
import LineEditor.Proofs.Program.FlatExecuted
import LineEditor.Proofs.Program.StopOnDone
import LineEditor.Proofs.Program.Repetitions
import LineEditor.Proofs.Program.Kept
import LineEditor.Proofs.Program.Compiling
import LineEditor.Proofs.Program.Clips
import LineEditor.Proofs.Program.Deleting
import LineEditor.Proofs.Program.Upcasing
import LineEditor.Proofs.Program.KillsAsCuts
import LineEditor.Proofs.Program.Sides
import LineEditor.Proofs.Program.Searches
import LineEditor.Proofs.Program.SearchLoop
import LineEditor.Proofs.Program.SettingCase
import LineEditor.Proofs.Program.RegionCase
import LineEditor.Proofs.Program.Transposing
import LineEditor.Proofs.Program.RepeatedEdits
import LineEditor.Proofs.Program.RepeatedTranspositions
import LineEditor.Proofs.Program.WordMotions
import LineEditor.Proofs.Program.Trimming
import LineEditor.Proofs.Program.Translating
import LineEditor.Proofs.Program.Interference
import LineEditor.Proofs.Program.Framing
import LineEditor.Proofs.Program.Endings
import LineEditor.Proofs.CommandLine.Path
import LineEditor.Proofs.CommandLine.FileTree
import LineEditor.Proofs.CommandLine.Spares
import LineEditor.Proofs.CommandLine.Arguments
import LineEditor.Proofs.CommandLine.Routes
import LineEditor.Proofs.CommandLine.Ends
