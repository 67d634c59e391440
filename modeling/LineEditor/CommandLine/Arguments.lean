import LineEditor.Text.Digit
import LineEditor.Text.Quoted

/-!
# Arguments of the command

The command takes a program, as a text or as the name of a file, and may take an input file, an
output file and some switches. An option has a long name, which may be cut short as long as it is
not taken for another one, and most have a letter. Letters may be written together, the value of an
option may follow its letter at once or its name after an equals sign, and after two dashes nothing
is an option any more. What looks like a negative number or holds a space is not taken for an option
that does not exist. Two dashes that are attached to an option as its value are dropped, and the
option is then there without one.

The two files are named in a row: what stands further on, beyond an option, is not a file name.
-/

namespace LineEditor

/-- The options. -/
inductive Flag where
  /-- Explain the command. -/
  | help
  /-- Run the program that follows. -/
  | programText
  /-- Run the program in the file that follows. -/
  | programFile
  /-- Go on when a line is done. -/
  | ignoreDone
  /-- Show all reports. -/
  | verbose
  /-- Tell the version. -/
  | version
deriving Repr, DecidableEq

namespace Flag

/-- The options, all of them. -/
def all : List Flag :=
  [.help, .programText, .programFile, .ignoreDone, .verbose, .version]

/-- The letter of an option, if it has one. -/
def letter? : Flag → Option Char
  | .help => some 'h'
  | .programText => some 'p'
  | .programFile => some 'f'
  | .ignoreDone => none
  | .verbose => some 'v'
  | .version => none

/-- The long name of an option, with its dashes. -/
def longName : Flag → String
  | .help => "--help"
  | .programText => "--programtext"
  | .programFile => "--programfile"
  | .ignoreDone => "--ignore-done"
  | .verbose => "--verbose"
  | .version => "--version"

/-- Whether an option is followed by a value. -/
def takesValue : Flag → Bool
  | .programText | .programFile => true
  | _ => false

/-- An option as messages name it. -/
def name (o : Flag) : String :=
  match o.letter? with
  | none => o.longName
  | some c =>
    let letter := String.ofList ['-', c]
    s!"{letter}/{o.longName}"

/-- The option with the given letter. -/
def ofLetter? (c : Char) : Option Flag :=
  all.find? fun o => o.letter? = some c

/-- The options whose long names begin with a text. -/
def beginning (s : List Char) : List Flag :=
  all.filter fun o => s.isPrefixOf o.longName.toList

/-- The option that is written exactly so. -/
def ofSpelling? (s : List Char) : Option Flag :=
  match s with
  | ['-', c] => ofLetter? c
  | _ => all.find? fun o => o.longName.toList = s

end Flag

/-- What is wrong with the arguments. -/
inductive UsageError where
  /-- An option cut short could be several ones. -/
  | ambiguous (argument : List Char) (candidates : List Flag)
  /-- An option lacks its value. -/
  | valueMissing (option : Flag)
  /-- A switch is given a value. -/
  | valueIgnored (option : Flag) (value : List Char)
  /-- An option cannot be given together with another one. -/
  | conflict (option other : Flag)
  /-- No program is given. -/
  | noProgram
  /-- Arguments are left over. -/
  | unrecognized (arguments : List (List Char))
deriving Repr, DecidableEq

/-- A usage error in words. -/
def UsageError.message : UsageError → String
  | .ambiguous argument candidates =>
    let written := String.ofList argument
    let names := ", ".intercalate (candidates.map Flag.longName)
    s!"ambiguous option: {written} could match {names}"
  | .valueMissing o => s!"argument {o.name}: expected one argument"
  | .valueIgnored o value =>
    let shown := Text.quoted value
    s!"argument {o.name}: ignored explicit argument {shown}"
  | .conflict o other => s!"argument {o.name}: not allowed with argument {other.name}"
  | .noProgram =>
    let names := " ".intercalate [Flag.programText.name, Flag.programFile.name]
    s!"one of the arguments {names} is required"
  | .unrecognized arguments =>
    let rest := " ".intercalate (arguments.map String.ofList)
    s!"unrecognized arguments: {rest}"

/-! ## What each argument is -/

/-- What an argument is, taken by itself. -/
inductive Argument where
  /-- A value or a file name. -/
  | plain (s : List Char)
  /-- The two dashes after which nothing is an option. -/
  | dashes
  /-- An option, by its letter or by its long name, and what is attached to it. -/
  | option (o : Flag) (long : Bool) (attached : Option (List Char))
  /-- An option that does not exist. -/
  | unknown (s : List Char)
deriving Repr, DecidableEq

/-- A text up to its first equals sign, and what follows that. -/
def splitEquals (s : List Char) : List Char × Option (List Char) :=
  match s.span (· ≠ '=') with
  | (name, '=' :: value) => (name, some value)
  | (name, _) => (name, none)

/-- Whether a text looks like a negative number: a dash, digits, and perhaps a point before the last
ones. A newline at its end does not matter. -/
def looksNegative (s : List Char) : Bool :=
  let digit (c : Char) : Bool := (Text.digitValue? c).isSome
  match (if s.getLast? = some '\n' then s.dropLast else s) with
  | '-' :: number =>
    match number.dropWhile digit with
    | [] => !number.isEmpty
    | '.' :: decimals => !decimals.isEmpty && decimals.all digit
    | _ => false
  | _ => false

/-- The option that an argument that begins with a dash is, if it is one. -/
def Argument.option? (s : List Char) : Except UsageError (Option Argument) :=
  let long := ['-', '-'].isPrefixOf s
  match Flag.ofSpelling? s, splitEquals s with
  | some o, _ => .ok (some (.option o long none))
  | none, (name, value) =>
    match value.bind fun _ => Flag.ofSpelling? name with
    | some o => .ok (some (.option o long value))
    | none =>
      if long then
        match Flag.beginning name with
        | [] => .ok none
        | [o] => .ok (some (.option o true value))
        | candidates => .error (.ambiguous s candidates)
      else
        match s with
        | _ :: c :: attached =>
          .ok ((Flag.ofLetter? c).map fun o => .option o false (some attached))
        | _ => .ok none

/-- What an argument is before any two dashes. -/
def Argument.of (s : List Char) : Except UsageError Argument :=
  match s with
  | ['-'] => .ok (.plain s)
  | '-' :: _ =>
    match Argument.option? s with
    | .error e => .error e
    | .ok (some a) => .ok a
    | .ok none =>
      if looksNegative s || s.contains ' ' then .ok (.plain s) else .ok (.unknown s)
  | _ => .ok (.plain s)

/-- What each of the arguments is. -/
def Argument.classify : List (List Char) → Except UsageError (List Argument)
  | [] => .ok []
  | s :: rest =>
    if s = ['-', '-'] then .ok (.dashes :: rest.map .plain)
    else
      match Argument.of s, Argument.classify rest with
      | .error e, _ => .error e
      | _, .error e => .error e
      | .ok a, .ok as => .ok (a :: as)

/-! ## What the arguments ask for -/

/-- The value of an option. -/
inductive Value where
  /-- A text. -/
  | given (s : List Char)
  /-- What is left of two dashes. -/
  | dropped
deriving Repr, DecidableEq

/-- The value that a text is. -/
def Value.ofText (s : List Char) : Value :=
  if s = ['-', '-'] then .dropped else .given s

/-- Where the program comes from. -/
inductive Source where
  /-- From the arguments themselves. -/
  | text (value : Value)
  /-- From the file with the given name. -/
  | file (name : Value)
deriving Repr, DecidableEq

/-- What the arguments set. -/
structure Settings where
  /-- The input file. -/
  infile : Option (List Char) := none
  /-- The output file. -/
  outfile : Option (List Char) := none
  /-- Whether to go on when a line is done. -/
  ignoreDone : Bool := false
  /-- Whether to show all reports. -/
  verbose : Bool := false
deriving Repr, DecidableEq

/-- What the arguments ask for. -/
inductive Request where
  /-- An explanation of the command. -/
  | help
  /-- The version. -/
  | version
  /-- A run of a program. -/
  | run (program : Source) (settings : Settings)
deriving Repr, DecidableEq

/-- How far the file names have been read. -/
inductive FileSlots where
  /-- None has been met. -/
  | none
  /-- The input file has. -/
  | input
  /-- Both have. -/
  | both
  /-- No more may come. -/
  | closed
deriving Repr, DecidableEq

/-- What has been made of the arguments so far. -/
structure Progress where
  /-- Where the program comes from. -/
  program : Option Source := none
  /-- What they set. -/
  settings : Settings := {}
  /-- How far the file names have been read. -/
  files : FileSlots := .none
  /-- The arguments left over, the last one first. -/
  extras : List (List Char) := []
deriving Repr, DecidableEq

namespace Progress

/-- Leaves an argument over. -/
def leave (s : List Char) (p : Progress) : Progress :=
  { p with extras := s :: p.extras }

/-- Notes that an option has come: file names that have begun are over. -/
def meetOption (p : Progress) : Progress :=
  { p with files := if p.files = .none then .none else .closed }

/-- Takes a file name. The second one is not taken if it is two dashes. -/
def takeFile (s : List Char) (p : Progress) : Progress :=
  match p.files with
  | .none => { p with settings := { p.settings with infile := some s }, files := .input }
  | .input =>
    let outfile := if s = ['-', '-'] then Option.none else some s
    { p with settings := { p.settings with outfile }, files := .both }
  | .both | .closed => { p.leave s with files := .closed }

/-- Takes two dashes, which mean nothing unless no more file names may come. -/
def takeDashes (p : Progress) : Progress :=
  if p.files = .closed then p.leave ['-', '-'] else p

/-- Applies a switch: goes on with new settings, or has found what is asked for. -/
def applySwitch (o : Flag) (p : Progress) : Progress ⊕ Request :=
  match o with
  | .help => .inr .help
  | .version => .inr .version
  | .ignoreDone => .inl { p with settings := { p.settings with ignoreDone := true } }
  | .verbose => .inl { p with settings := { p.settings with verbose := true } }
  | .programText | .programFile => .inl p

/-- Applies switches in order. -/
def applySwitches : List Flag → Progress → Progress ⊕ Request
  | [], p => .inl p
  | o :: os, p =>
    match p.applySwitch o with
    | .inl p => applySwitches os p
    | .inr request => .inr request

/-- Sets the program by one of the two options that do so. -/
def applyValue (o : Flag) (value : List Char) (p : Progress) : Except UsageError Progress :=
  match o, p.program with
  | .programText, some (.file _) => .error (.conflict .programText .programFile)
  | .programText, _ => .ok { p with program := some (.text (.ofText value)) }
  | .programFile, some (.text _) => .error (.conflict .programFile .programText)
  | .programFile, _ => .ok { p with program := some (.file (.ofText value)) }
  | _, _ => .ok p

end Progress

/-- Reads what is attached to the letter of a switch as more letters: the switches in order, and the
option at the end of the row with what is attached to that. -/
def readLetters (o : Flag) : List Char → Except UsageError (List Flag × Flag × Option (List Char))
  | [] => .ok ([], o, none)
  | c :: attached =>
    if o.takesValue then .ok ([], o, some (c :: attached))
    else
      match Flag.ofLetter? c with
      | none => .error (.valueIgnored o (c :: attached))
      | some next => (readLetters next attached).map fun (os, last) => (o :: os, last)

/-- An option with what is attached to it, as switches in a row and an option at the end with its
value. -/
def readOption (o : Flag) (long : Bool) :
    Option (List Char) → Except UsageError (List Flag × Flag × Option (List Char))
  | none => .ok ([], o, none)
  | some attached =>
    if o.takesValue then .ok ([], o, some attached)
    else if long || attached = [] then .error (.valueIgnored o attached)
    else readLetters o attached

/-- What the arguments ask for, once all of them have been read. -/
def Progress.request (p : Progress) : Except UsageError Request :=
  match p.program with
  | none => .error .noProgram
  | some program =>
    if p.extras = [] then .ok (.run program p.settings)
    else .error (.unrecognized p.extras.reverse)

/-- Reads arguments, given what each of them is. -/
def readArguments (p : Progress) : List Argument → Except UsageError Request
  | [] => p.request
  | .plain s :: rest => readArguments (p.takeFile s) rest
  | .dashes :: rest => readArguments p.takeDashes rest
  | .unknown s :: rest => readArguments (p.meetOption.leave s) rest
  | .option o long attached :: rest =>
    match readOption o long attached with
    | .error e => .error e
    | .ok (switches, last, value) =>
      if last.takesValue then
        match value, rest with
        | none, .plain value :: rest =>
          match p.meetOption.applySwitches switches with
          | .inr request => .ok request
          | .inl p =>
            match p.applyValue last value with
            | .error e => .error e
            | .ok p => readArguments p rest
        | none, _ => .error (.valueMissing last)
        | some value, rest =>
          match p.meetOption.applySwitches switches with
          | .inr request => .ok request
          | .inl p =>
            match p.applyValue last value with
            | .error e => .error e
            | .ok p => readArguments p rest
      else
        match p.meetOption.applySwitches (switches ++ [last]) with
        | .inr request => .ok request
        | .inl p => readArguments p rest

/-- What the arguments of the command ask for. -/
def Request.ofArguments (arguments : List (List Char)) : Except UsageError Request :=
  match Argument.classify arguments with
  | .error e => .error e
  | .ok arguments => readArguments {} arguments

/-! ## Explaining the command -/

/-- How the command is used. -/
def usage : String :=
  "usage: lined [-h] (-p TEXT | -f FILE) [--ignore-done] [-v] [--version]\n" ++
  "             [infile] [outfile]\n"

/-- What the command and its arguments are for. -/
def helpText : String :=
  usage ++
  "\nA simple non-interactive line editor.\n" ++
  "\npositional arguments:\n" ++
  "  infile                input file (default STDIN)\n" ++
  "  outfile               output file (default STDOUT)\n" ++
  "\noptions:\n" ++
  "  -h, --help            show this help message and exit\n" ++
  "  -p TEXT, --programtext TEXT\n" ++
  "                        the line editing program to run\n" ++
  "  -f FILE, --programfile FILE\n" ++
  "                        a file containing the line editing program to run\n" ++
  "  --ignore-done         keep running commands after find/rfind fail or\n" ++
  "                        nextline runs\n" ++
  "  -v, --verbose         log debug output to STDERR\n" ++
  "  --version             show program's version number and exit\n"

/-- The version of the command. -/
def versionText : String :=
  "lined 0.1.0\n"

end LineEditor
