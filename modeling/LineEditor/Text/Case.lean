import LineEditor.Text.CaseTables

/-!
# Upper and lower case

Case mapping is full mapping: one character may become several, so a mapped text can be longer than
the text it came from. Mapping to upper case looks at one character at a time. Mapping to lower case
does so too, but for the capital sigma, which has two small forms: the final one is written where a
word ends, that is, after a cased character and before none, not counting case-ignorable characters
on either side.
-/

namespace LineEditor.Text

/-- The image of a character under one of the mappings: its expansion if it has one, else its place
on a run, else the character itself. -/
def mapCase (runs : List CaseRun) (expansions : List (Nat × List Nat)) (c : Char) : List Char :=
  match expansions.lookup c.toNat with
  | some codes => codes.map Char.ofNat
  | none =>
    match runs.find? (·.covers c.toNat) with
    | some run => [Char.ofNat (run.map c.toNat)]
    | none => [c]

/-- A character in upper case. -/
def upcaseChar (c : Char) : List Char :=
  mapCase upperRuns upperExpansions c

/-- A character in lower case, whatever stands around it. -/
def downcaseChar (c : Char) : List Char :=
  mapCase lowerRuns lowerExpansions c

/-- A text in upper case. -/
def upcase (s : List Char) : List Char :=
  s.flatMap upcaseChar

/-- Whether the first character of a text that is not case-ignorable is a cased one. -/
def meetsCased (s : List Char) : Bool :=
  match s.dropWhile (·.within caseIgnorableRanges) with
  | [] => false
  | c :: _ => c.within casedRanges

/-- A text in lower case; `before` is what precedes it, read backwards. -/
def downcaseAfter (before : List Char) : List Char → List Char
  | [] => []
  | c :: rest =>
    (if c = 'Σ' then
      [if meetsCased before && !meetsCased rest then 'ς' else 'σ']
    else
      downcaseChar c) ++ downcaseAfter (c :: before) rest

/-- A text in lower case. -/
def downcase (s : List Char) : List Char :=
  downcaseAfter [] s

/-- A text with its first character in upper case and the rest as it is. -/
def capitalize : List Char → List Char
  | [] => []
  | c :: rest => upcaseChar c ++ rest

end LineEditor.Text
