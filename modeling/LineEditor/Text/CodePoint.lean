/-!
# Tables over code points

Character properties are stored as ranges of code points and case mappings as runs. This module
holds the two shapes and the look-ups in them; the tables themselves stand beside what uses them.
-/

namespace LineEditor.Text

/-- A closed range of code points, first and last. -/
abbrev CodeRange := Nat × Nat

/-- A run of case mappings: every `step`-th code point from `first` to `last` maps to the code point
as far from `target` as it is from `first`. -/
structure CaseRun where
  /-- The first code point of the run. -/
  first : Nat
  /-- The last code point of the run. -/
  last : Nat
  /-- The distance between the mapped code points: one or two. -/
  step : Nat
  /-- What `first` maps to. -/
  target : Nat
deriving Repr, DecidableEq

/-- Whether a code point lies on the run. -/
def CaseRun.covers (r : CaseRun) (n : Nat) : Bool :=
  r.first ≤ n && n ≤ r.last && (n - r.first) % r.step == 0

/-- What a code point on the run maps to. -/
def CaseRun.map (r : CaseRun) (n : Nat) : Nat :=
  r.target + (n - r.first)

end LineEditor.Text

/-- Whether a character lies in one of the ranges. -/
def Char.within (c : Char) (ranges : List LineEditor.Text.CodeRange) : Bool :=
  ranges.any fun r => r.1 ≤ c.toNat && c.toNat ≤ r.2
