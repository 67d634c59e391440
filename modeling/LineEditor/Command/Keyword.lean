import LineEditor.Command.Basic
import LineEditor.Text.Similarity

/-!
# Keywords

Each command of one word has a keyword, and seven more keywords begin the commands that take
arguments. A word that is no keyword may have been meant as one: the keyword most similar to it is
suggested in its place.
-/

namespace LineEditor

/-- The commands of one word, all of them. -/
def Verb.all : List Verb :=
  [.forward, .back, .forwardWord, .backWord, .home, .lineEnd, .last, .delete, .deleteBack,
   .transposeChars, .upcaseChar, .downcaseChar, .copyLine, .killWord, .killWordBack, .killFullWord,
   .transposeWords, .upcaseWord, .downcaseWord, .capitalizeWord, .mark, .upcaseRegion,
   .downcaseRegion, .transpose, .copy, .paste, .cut, .upcaseClip, .downcaseClip, .capitalizeClip,
   .trimClipLeft, .trimClipRight, .trimClip, .kill, .killLine, .killLineBack, .trimLine,
   .trimLineLeft, .trimLineRight, .upcaseLine, .downcaseLine, .nextLine]

/-- The keyword of a command of one word. -/
def Verb.keyword : Verb → String
  | .forward => "forward"
  | .back => "back"
  | .forwardWord => "forward_word"
  | .backWord => "back_word"
  | .home => "home"
  | .lineEnd => "end"
  | .last => "last"
  | .delete => "delete"
  | .deleteBack => "rdelete"
  | .transposeChars => "transpose_char"
  | .upcaseChar => "upcase_char"
  | .downcaseChar => "downcase_char"
  | .copyLine => "copy_line"
  | .killWord => "kill_word"
  | .killWordBack => "rkill_word"
  | .killFullWord => "kill_full_word"
  | .transposeWords => "transpose_word"
  | .upcaseWord => "upcase_word"
  | .downcaseWord => "downcase_word"
  | .capitalizeWord => "sentencecase_word"
  | .mark => "mark"
  | .upcaseRegion => "upcase"
  | .downcaseRegion => "downcase"
  | .transpose => "transpose"
  | .copy => "copy"
  | .paste => "paste"
  | .cut => "cut"
  | .upcaseClip => "upcase_clipboard"
  | .downcaseClip => "downcase_clipboard"
  | .capitalizeClip => "sentencecase_clipboard"
  | .trimClipLeft => "ltrim_clipboard"
  | .trimClipRight => "rtrim_clipboard"
  | .trimClip => "trim_clipboard"
  | .kill => "kill"
  | .killLine => "kill_line"
  | .killLineBack => "rkill_line"
  | .trimLine => "trim_line"
  | .trimLineLeft => "ltrim_line"
  | .trimLineRight => "rtrim_line"
  | .upcaseLine => "upcase_line"
  | .downcaseLine => "downcase_line"
  | .nextLine => "nextline"

/-- The commands of one word by their keywords. -/
def Verb.table : List (List Char × Verb) :=
  Verb.all.map fun v => (v.keyword.toList, v)

/-- The command that a keyword stands for by itself. -/
def Verb.ofKeyword? (word : List Char) : Option Verb :=
  Verb.table.lookup word

/-- The keywords that begin commands with arguments. -/
inductive Keyword where
  /-- Insert a text. -/
  | insert
  /-- Truncate the line. -/
  | truncateBy
  /-- Go to a column. -/
  | goto
  /-- Search forward. -/
  | find
  /-- Search back. -/
  | findBack
  /-- Replace characters. -/
  | translate
  /-- Repeat a command. -/
  | times
deriving Repr, DecidableEq

/-- The keywords that begin commands with arguments, all of them. -/
def Keyword.all : List Keyword :=
  [.insert, .truncateBy, .goto, .find, .findBack, .translate, .times]

/-- How a keyword is written. -/
def Keyword.spelling : Keyword → String
  | .insert => "insert"
  | .truncateBy => "truncate_by"
  | .goto => "goto"
  | .find => "find"
  | .findBack => "rfind"
  | .translate => "translate"
  | .times => "repeat"

/-- The keywords that begin commands with arguments by how they are written. -/
def Keyword.table : List (List Char × Keyword) :=
  Keyword.all.map fun k => (k.spelling.toList, k)

/-- The keyword that a word is. -/
def Keyword.ofWord? (word : List Char) : Option Keyword :=
  Keyword.table.lookup word

/-- Every keyword as it is written. -/
def keywords : List (List Char) :=
  Verb.table.map Prod.fst ++ Keyword.table.map Prod.fst

/-- The keyword that a word was perhaps meant as. -/
def suggest? (word : List Char) : Option (List Char) :=
  Text.closest? keywords word

end LineEditor
