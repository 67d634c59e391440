/-!
# Similarity of words

Two words are as similar as the characters that they share are many. The shared characters are found
by taking the longest common block, of equals the first in the first word and then the first in the
second, and looking again on either side of it. Twice their number over the number of all characters
is the ratio of similarity, from nought to one.
-/

namespace LineEditor.Text

/-- How many characters two texts have in common at their start. -/
def commonLength : List Char → List Char → Nat
  | c :: s, d :: t => if c = d then commonLength s t + 1 else 0
  | _, _ => 0

/-- A block of characters that two words share. -/
structure Block where
  /-- Where it begins in the first word. -/
  left : Nat
  /-- Where it begins in the second. -/
  right : Nat
  /-- How long it is. -/
  size : Nat
deriving Repr, DecidableEq

/-- The longer of two blocks, the first if neither is. -/
def Block.longer (best other : Block) : Block :=
  if best.size < other.size then other else best

/-- The best of a block and the blocks of `s` with the tails of a text, the first of which begins
at `right`. -/
def longestAgainst (left : Nat) (s : List Char) (best : Block) (right : Nat) : List Char → Block
  | [] => best
  | d :: t =>
    let block : Block := ⟨left, right, commonLength s (d :: t)⟩
    longestAgainst left s (best.longer block) (right + 1) t

/-- The best of a block and the blocks of the tails of a text, the first of which begins at `left`,
with the tails of `t`. -/
def longestFrom (t : List Char) (best : Block) (left : Nat) : List Char → Block
  | [] => best
  | c :: s => longestFrom t (longestAgainst left (c :: s) best 0 t) (left + 1) s

/-- The longest block that two words share, of size nought if they share no character. -/
def longestBlock (s t : List Char) : Block :=
  longestFrom t ⟨0, 0, 0⟩ 0 s

/-- How many characters two words share: those of the longest block and those on either side. -/
def sharedCount (s t : List Char) : Nat :=
  let block := longestBlock s t
  if _h : 0 < block.size ∧ block.left < s.length then
    block.size + sharedCount (s.take block.left) (t.take block.right) +
      sharedCount (s.drop (block.left + block.size)) (t.drop (block.right + block.size))
  else
    0
termination_by s.length
decreasing_by
  all_goals
    have hsize : 0 < (longestBlock s t).size := _h.1
    have hleft : (longestBlock s t).left < s.length := _h.2
    simp only [List.length_take, List.length_drop]
    omega

/-- Whether two words are similar: their ratio of similarity is three quarters or more. Words of
very different length are not compared, since no word shares more characters than it has. -/
def similar (s t : List Char) : Bool :=
  let total := s.length + t.length
  8 * min s.length t.length ≥ 3 * total && 8 * sharedCount s t ≥ 3 * total

/-- A candidate for the word meant, with how many characters it shares with the word written. -/
structure Candidate where
  /-- The candidate. -/
  word : List Char
  /-- The number of characters that it shares. -/
  shared : Nat
deriving Repr, DecidableEq

/-- Whether a candidate is better than another one for a word of the given length: its ratio is
greater, or as great and the candidate is later in the order of texts. -/
def Candidate.better (length : Nat) (a b : Candidate) : Bool :=
  let left := a.shared * (b.word.length + length)
  let right := b.shared * (a.word.length + length)
  left > right || (left = right && b.word < a.word)

/-- The word most similar to the one written among those that are similar to it. -/
def closest? (words : List (List Char)) (written : List Char) : Option (List Char) :=
  let candidates := (words.filter (similar · written)).map fun w => ⟨w, sharedCount w written⟩
  let best := candidates.foldl (fun best c =>
    match best with
    | none => some c
    | some b => some (if c.better written.length b then c else b)) none
  best.map Candidate.word

end LineEditor.Text
