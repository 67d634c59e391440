import LineEditor.Text.Similarity
import Mathlib.Data.List.Basic
import Mathlib.Tactic.Ring

/-!
# Similar words

The characters that two words are found to share stand in both of them in the same order: a longest
common block is cut out of each, and what is found to its left and to its right is put on either
side of it. So the number of shared characters is the length of a common subsequence, no word shares
more characters than it has, and words that share all of theirs are equal. A word shares all of its
characters with itself, so among words that are compared with it, it is the closest one.
-/

namespace LineEditor.Text

variable {s t : List Char} {best block : Block} {left right : Nat}

/-! ## Common starts -/

theorem commonLength_le (s t : List Char) :
    commonLength s t ≤ s.length ∧ commonLength s t ≤ t.length := by
  fun_induction commonLength s t with
  | case1 s d t ih => simpa using ih
  | case2 | case3 => simp

theorem take_commonLength (s t : List Char) :
    s.take (commonLength s t) = t.take (commonLength s t) := by
  fun_induction commonLength s t with
  | case1 s d t ih => simpa using ih
  | case2 | case3 => simp

theorem commonLength_self (s : List Char) : commonLength s s = s.length := by
  induction s with
  | nil => rfl
  | cons c s ih => rw [commonLength, if_pos rfl, ih, List.length_cons]

/-! ## Blocks -/

/-- The characters of a block stand at its places in both words. -/
structure Block.IsIn (block : Block) (s t : List Char) : Prop where
  /-- It ends within the first word. -/
  left_le : block.left + block.size ≤ s.length
  /-- It ends within the second. -/
  right_le : block.right + block.size ≤ t.length
  /-- It reads the same in both. -/
  reads : (s.drop block.left).take block.size = (t.drop block.right).take block.size

theorem Block.isIn_of_drop (hleft : left < s.length) (hright : right < t.length) :
    (Block.mk left right (commonLength (s.drop left) (t.drop right))).IsIn s t := by
  obtain ⟨hs, ht⟩ := commonLength_le (s.drop left) (t.drop right)
  rw [List.length_drop] at hs ht
  exact ⟨by simp only; omega, by simp only; omega, take_commonLength _ _⟩

theorem Block.longer_cases (best other : Block) :
    best.longer other = best ∨ best.longer other = other := by
  unfold longer
  split
  · exact Or.inr rfl
  · exact Or.inl rfl

theorem Block.size_le_longer (best other : Block) :
    best.size ≤ (best.longer other).size ∧ other.size ≤ (best.longer other).size := by
  unfold longer
  split <;> omega

/-- What holds of the block given and of every block compared with it holds of the best of them. -/
theorem longestAgainst_of_forall {p : Block → Prop} (hbest : p best)
    (hblock : ∀ i < t.length, p ⟨left, right + i, commonLength s (t.drop i)⟩) :
    p (longestAgainst left s best right t) := by
  induction t generalizing best right with
  | nil => exact hbest
  | cons d t ih =>
    refine ih ?_ ?_
    · rcases best.longer_cases ⟨left, right, commonLength s (d :: t)⟩ with h | h
      · rwa [h]
      · rw [h]
        exact hblock 0 (Nat.succ_pos _)
    · intro i hi
      have hnext := hblock (i + 1) (Nat.succ_lt_succ hi)
      rwa [List.drop_succ_cons, Nat.add_comm i, ← Nat.add_assoc] at hnext

theorem longestFrom_of_forall {p : Block → Prop} (hbest : p best)
    (hblock : ∀ i < s.length, ∀ j < t.length,
      p ⟨left + i, j, commonLength (s.drop i) (t.drop j)⟩) :
    p (longestFrom t best left s) := by
  induction s generalizing best left with
  | nil => exact hbest
  | cons c s ih =>
    refine ih ?_ ?_
    · refine longestAgainst_of_forall hbest ?_
      intro j hj
      rw [Nat.zero_add]
      exact hblock 0 (Nat.succ_pos _) j hj
    · intro i hi j hj
      have hnext := hblock (i + 1) (Nat.succ_lt_succ hi) j hj
      rwa [List.drop_succ_cons, Nat.add_comm i, ← Nat.add_assoc] at hnext

theorem longestBlock_isIn (s t : List Char) : (longestBlock s t).IsIn s t := by
  have hnone : Block.IsIn ⟨0, 0, 0⟩ s t := ⟨Nat.zero_le _, Nat.zero_le _, rfl⟩
  apply longestFrom_of_forall (p := (·.IsIn s t)) hnone
  intro i hi j hj
  rw [Nat.zero_add]
  exact Block.isIn_of_drop hi hj

theorem size_le_longestAgainst (left : Nat) (s : List Char) (best : Block) (right : Nat)
    (t : List Char) : best.size ≤ (longestAgainst left s best right t).size := by
  induction t generalizing best right with
  | nil => exact Nat.le_refl _
  | cons d t ih => exact Nat.le_trans (best.size_le_longer _).1 (ih _ _)

theorem size_le_longestFrom (t : List Char) (best : Block) (left : Nat) (s : List Char) :
    best.size ≤ (longestFrom t best left s).size := by
  induction s generalizing best left with
  | nil => exact Nat.le_refl _
  | cons c s ih => exact Nat.le_trans (size_le_longestAgainst _ _ _ _ _) (ih _ _)

/-- The longest block that a word shares with itself is the word. -/
theorem longestBlock_self (s : List Char) : longestBlock s s = ⟨0, 0, s.length⟩ := by
  have hsize : s.length ≤ (longestBlock s s).size := by
    cases s with
    | nil => exact Nat.zero_le _
    | cons c s =>
      calc (c :: s).length = commonLength (c :: s) (c :: s) := (commonLength_self _).symm
        _ ≤ _ := (Block.size_le_longer ⟨0, 0, 0⟩ ⟨0, 0, commonLength (c :: s) (c :: s)⟩).2
        _ ≤ _ := size_le_longestAgainst 0 (c :: s) _ 1 s
        _ ≤ _ := size_le_longestFrom (c :: s) _ 1 s
  -- A block as long as the word fits into it at its start only.
  obtain ⟨hleft, hright, -⟩ := longestBlock_isIn s s
  generalize longestBlock s s = block at *
  obtain ⟨left, right, size⟩ := block
  simp only at hsize hleft hright
  obtain ⟨rfl, rfl, rfl⟩ : left = 0 ∧ right = 0 ∧ size = s.length := by omega
  rfl

/-! ## Shared characters -/

/-- A common subsequence on either side of a block makes one with it. -/
theorem Block.IsIn.sublist_append (h : block.IsIn s t) {front back : List Char}
    (hfront : front.Sublist (s.take block.left) ∧ front.Sublist (t.take block.right))
    (hback : back.Sublist (s.drop (block.left + block.size)) ∧
      back.Sublist (t.drop (block.right + block.size))) :
    let shared := front ++ ((s.drop block.left).take block.size ++ back)
    shared.Sublist s ∧ shared.Sublist t := by
  have hsplit : ∀ (text : List Char) (place size : Nat),
      text.take place ++ ((text.drop place).take size ++ text.drop (place + size)) = text := by
    intro text place size
    rw [← List.drop_drop, List.take_append_drop, List.take_append_drop]
  refine ⟨?_, ?_⟩
  · have hs := hfront.1.append ((List.Sublist.refl ((s.drop block.left).take block.size)).append
      hback.1)
    rwa [hsplit] at hs
  · have ht := hfront.2.append ((List.Sublist.refl ((t.drop block.right).take block.size)).append
      hback.2)
    rwa [hsplit, ← h.reads] at ht

/-- As many characters as two words share form a common subsequence of them. -/
theorem exists_sublist_of_sharedCount (s t : List Char) :
    ∃ shared : List Char, shared.Sublist s ∧ shared.Sublist t ∧
      shared.length = sharedCount s t := by
  fun_induction sharedCount s t with
  | case1 s t block h ihfront ihback =>
    obtain ⟨front, hfronts, hfrontt, hfront⟩ := ihfront
    obtain ⟨back, hbacks, hbackt, hback⟩ := ihback
    have hin : block.IsIn s t := longestBlock_isIn s t
    have hsize : ((s.drop block.left).take block.size).length = block.size := by
      have hle := hin.left_le
      rw [List.length_take, List.length_drop]
      omega
    obtain ⟨hs, ht⟩ := hin.sublist_append ⟨hfronts, hfrontt⟩ ⟨hbacks, hbackt⟩
    refine ⟨_, hs, ht, ?_⟩
    rw [List.length_append, List.length_append, hsize, hfront, hback]
    omega
  | case2 => exact ⟨[], List.nil_sublist _, List.nil_sublist _, rfl⟩

theorem sharedCount_le (s t : List Char) :
    sharedCount s t ≤ s.length ∧ sharedCount s t ≤ t.length := by
  obtain ⟨shared, hs, ht, hlength⟩ := exists_sublist_of_sharedCount s t
  rw [← hlength]
  exact ⟨hs.length_le, ht.length_le⟩

/-- Words that share all of their characters are equal. -/
theorem eq_of_le_sharedCount (h : s.length + t.length ≤ 2 * sharedCount s t) : s = t := by
  obtain ⟨shared, hs, ht, hlength⟩ := exists_sublist_of_sharedCount s t
  have hles := hs.length_le
  have hlet := ht.length_le
  rw [← hs.eq_of_length (by omega), ht.eq_of_length (by omega)]

theorem sharedCount_self (s : List Char) : sharedCount s s = s.length := by
  have hnil : sharedCount [] [] = 0 := Nat.le_zero.1 (sharedCount_le [] []).1
  rw [sharedCount, longestBlock_self]
  simp only [Nat.zero_add, List.take_zero, List.drop_length, hnil]
  split <;> omega

/-! ## Similar words -/

theorem similar_iff :
    similar s t = true ↔ 3 * (s.length + t.length) ≤ 8 * min s.length t.length ∧
      3 * (s.length + t.length) ≤ 8 * sharedCount s t := by
  simp [similar]

theorem similar_self (s : List Char) : similar s s = true := by
  rw [similar_iff, sharedCount_self]
  omega

/-! ## The closest word -/

variable {c : Candidate} {cs : List Candidate} {length : Nat} {words : List (List Char)}
  {word written : List Char}

/-- Of the best candidate up to now, if any, and another one, the better one. -/
def Candidate.pick (length : Nat) (best : Option Candidate) (c : Candidate) : Option Candidate :=
  match best with
  | none => some c
  | some b => some (if c.better length b then c else b)

/-- The candidates among some words. -/
def candidates (words : List (List Char)) (written : List Char) : List Candidate :=
  (words.filter (similar · written)).map fun word => ⟨word, sharedCount word written⟩

theorem closest?_eq (words : List (List Char)) (written : List Char) :
    closest? words written =
      ((candidates words written).foldl (Candidate.pick written.length) none).map
        Candidate.word :=
  rfl

theorem mem_candidates :
    c ∈ candidates words written ↔
      c.word ∈ words ∧ similar c.word written = true ∧ c.shared = sharedCount c.word written := by
  obtain ⟨word, shared⟩ := c
  simp only [candidates, List.mem_map, List.mem_filter, Candidate.mk.injEq]
  grind

theorem mem_of_foldl_pick {best : Option Candidate}
    (h : cs.foldl (Candidate.pick length) best = some c) : c ∈ cs ∨ best = some c := by
  induction cs generalizing best with
  | nil => exact Or.inr h
  | cons d cs ih =>
    rcases ih h with hmem | hpick
    · exact Or.inl (List.mem_cons_of_mem d hmem)
    · unfold Candidate.pick at hpick
      split at hpick
      · exact Or.inl (Option.some.inj hpick ▸ List.mem_cons_self)
      · split at hpick
        · exact Or.inl (Option.some.inj hpick ▸ List.mem_cons_self)
        · exact Or.inr hpick

/-- The closest word is one of those that are compared, and similar to the one written. -/
theorem mem_and_similar_of_closest? (h : closest? words written = some word) :
    word ∈ words ∧ similar word written = true := by
  rw [closest?_eq] at h
  obtain ⟨c, hc, rfl⟩ := Option.map_eq_some_iff.1 h
  rcases mem_of_foldl_pick hc with hmem | hnone
  · obtain ⟨hword, hsimilar, -⟩ := mem_candidates.1 hmem
    exact ⟨hword, hsimilar⟩
  · cases hnone

/-- A candidate leads another one: they are the same, or it is better and the other one is not. -/
def Candidate.Leads (length : Nat) (c d : Candidate) : Prop :=
  d = c ∨ c.better length d = true ∧ d.better length c = false

theorem Candidate.Leads.pick {d : Candidate} (h : c.Leads length d) :
    Candidate.pick length (some d) c = some c ∧ Candidate.pick length (some c) d = some c := by
  unfold Candidate.pick
  rcases h with rfl | ⟨hbetter, hworse⟩
  · simp only [ite_self, and_self]
  · simp only [hbetter, hworse, if_true, Bool.false_eq_true, if_false, and_self]

theorem Candidate.pick_some_cases (length : Nat) (b d : Candidate) :
    Candidate.pick length (some b) d = some b ∨ Candidate.pick length (some b) d = some d := by
  unfold Candidate.pick
  simp only
  split
  · exact Or.inr rfl
  · exact Or.inl rfl

/-- A candidate that leads all the others is the best. -/
theorem foldl_pick_of_leads {best : Option Candidate} (hmem : c ∈ cs ∨ best = some c)
    (hcs : ∀ d ∈ cs, c.Leads length d) (hbest : ∀ b, best = some b → c.Leads length b) :
    cs.foldl (Candidate.pick length) best = some c := by
  induction cs generalizing best with
  | nil => simpa using hmem
  | cons d cs ih =>
    obtain ⟨hd, hcs⟩ := List.forall_mem_cons.1 hcs
    cases best with
    | none =>
      refine ih ?_ hcs ?_
      · rcases hmem with hmem | hnone
        · rcases List.mem_cons.1 hmem with rfl | hmem
          · exact Or.inr rfl
          · exact Or.inl hmem
        · cases hnone
      · rintro _ ⟨⟩
        exact hd
    | some b =>
      have hb : c.Leads length b := hbest b rfl
      refine ih ?_ hcs ?_
      · rcases hmem with hmem | hsome
        · rcases List.mem_cons.1 hmem with rfl | hmem
          · exact Or.inr hb.pick.1
          · exact Or.inl hmem
        · cases hsome
          exact Or.inr hd.pick.2
      · intro e he
        rcases Candidate.pick_some_cases length b d with h | h
        · rw [h] at he
          cases he
          exact hb
        · rw [h] at he
          cases he
          exact hd

/-- A word leads all others in likeness to itself: they share fewer characters with it than the two
words have on the average. -/
theorem leads_of_mem_candidates (hne : written ≠ []) {d : Candidate}
    (hd : d ∈ candidates words written) :
    (⟨written, written.length⟩ : Candidate).Leads written.length d := by
  obtain ⟨word, shared⟩ := d
  obtain ⟨-, -, hshared⟩ := mem_candidates.1 hd
  dsimp only at hshared
  subst hshared
  by_cases hword : word = written
  · refine Or.inl ?_
    rw [hword, sharedCount_self]
  · have hfew : 2 * sharedCount word written < word.length + written.length :=
      Nat.lt_of_not_le fun hle => hword (eq_of_le_sharedCount hle)
    have hpos : 0 < written.length := List.length_pos_iff.2 hne
    have hlt : sharedCount word written * (written.length + written.length) <
        written.length * (word.length + written.length) := by
      calc sharedCount word written * (written.length + written.length)
          = written.length * (2 * sharedCount word written) := by ring
        _ < written.length * (word.length + written.length) := Nat.mul_lt_mul_of_pos_left hfew hpos
    refine Or.inr ⟨?_, ?_⟩
    · simp [Candidate.better, hlt]
    · simp [Candidate.better]
      omega

/-- A word that is among those compared with it is closest to itself. -/
theorem closest?_of_mem (hword : word ∈ words) (hne : word ≠ []) :
    closest? words word = some word := by
  have hmem : (⟨word, word.length⟩ : Candidate) ∈ candidates words word :=
    mem_candidates.2 ⟨hword, similar_self word, (sharedCount_self word).symm⟩
  have hleads : ∀ d ∈ candidates words word,
      (⟨word, word.length⟩ : Candidate).Leads word.length d :=
    fun d hd => leads_of_mem_candidates hne hd
  have hnone : ∀ b, none = some b → (⟨word, word.length⟩ : Candidate).Leads word.length b :=
    fun b hb => by cases hb
  rw [closest?_eq, foldl_pick_of_leads (Or.inl hmem) hleads hnone]
  rfl

end LineEditor.Text
