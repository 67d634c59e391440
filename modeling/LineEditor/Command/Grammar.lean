import LineEditor.Command.Parser

/-!
# The grammar of programs

Which tokens spell which command, said without parsing: one rule for the commands of one word and
one for each keyword that begins a command with arguments. A program is spelled by the tokens of its
commands in order. Tokens are viable if more tokens can complete them to a program.
-/

namespace LineEditor

/-- A token is a word that reads as given. -/
def Token.IsWord (t : Token) (word : String) : Prop :=
  t.kind = .word ∧ t.text = word.toList

/-- A token is a given integer. -/
def Token.IsInt (t : Token) (n : Int) : Prop :=
  t.kind = .int ∧ t.integer = .ok n

/-- A token is a string that holds a given text. -/
def Token.IsString (t : Token) (s : List Char) : Prop :=
  t.kind = .string ∧ t.text = s

/-- Tokens spell a command. -/
inductive Spells : List Token → Command → Prop where
  /-- A keyword by itself. -/
  | plain {t : Token} {v : Verb} (ht : t.IsWord v.keyword) : Spells [t] (.edit (.plain v))
  /-- A column may be any integer. -/
  | goto {t u : Token} {column : Int} (ht : t.IsWord Keyword.goto.spelling)
      (hu : u.IsInt column) : Spells [t, u] (.edit (.goto column))
  /-- Any text can be inserted. -/
  | insert {t u : Token} {s : List Char} (ht : t.IsWord Keyword.insert.spelling)
      (hu : u.IsString s) : Spells [t, u] (.edit (.insert s))
  /-- An amount is not negative. -/
  | truncateBy {t u : Token} {amount : Nat} (ht : t.IsWord Keyword.truncateBy.spelling)
      (hu : u.IsInt amount) : Spells [t, u] (.edit (.truncateBy amount))
  /-- One character is searched for. -/
  | find {t u : Token} {c : Char} (ht : t.IsWord Keyword.find.spelling)
      (hu : u.IsString [c]) : Spells [t, u] (.edit (.find [c]))
  /-- One character is searched for. -/
  | findBack {t u : Token} {c : Char} (ht : t.IsWord Keyword.findBack.spelling)
      (hu : u.IsString [c]) : Spells [t, u] (.edit (.findBack [c]))
  /-- As many characters are given as replace them. -/
  | translate {t u w : Token} {source target : List Char}
      (ht : t.IsWord Keyword.translate.spelling) (hu : u.IsString source) (hw : w.IsString target)
      (hlength : source.length = target.length) :
      Spells [t, u, w] (.edit (.translate (pairUp source target)))
  /-- A count is not negative, and a command follows it. -/
  | times {t u : Token} {count : Nat} {tokens : List Token} {body : Command}
      (ht : t.IsWord Keyword.times.spelling) (hu : u.IsInt count) (hbody : Spells tokens body) :
      Spells (t :: u :: tokens) (.times count body)

/-- Tokens spell a program. -/
inductive SpellsProgram : List Token → Program → Prop where
  /-- No tokens spell no commands. -/
  | nil : SpellsProgram [] []
  /-- A command comes before other commands. -/
  | cons {front back : List Token} {c : Command} {program : Program} (hc : Spells front c)
      (hprogram : SpellsProgram back program) : SpellsProgram (front ++ back) (c :: program)

/-- Tokens with which a program can begin. -/
def Viable (tokens : List Token) : Prop :=
  ∃ more program, SpellsProgram (tokens ++ more) program

end LineEditor
