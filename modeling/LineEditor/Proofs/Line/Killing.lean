import LineEditor.Program.Run
import LineEditor.Proofs.Line.InBounds

/-!
# Kills and the mark

Five commands kill: each deletes one span of the line, goes to where that span began, and lets the
mark keep its text. A mark before the span stays, one behind it moves back by as many characters as
have been deleted, and one on the span comes to its start. So a mark before a character that is not
killed stands before the same character afterwards.
-/

namespace LineEditor

namespace Span

variable {s : Span} {text : List Char} {length : Nat} {p : Int}

/-- Where a place of a text is once the span has been deleted: a place on the span comes to its
start, and what is behind the span moves back. -/
def placeAfter (s : Span) (place : Int) : Int :=
  if place ≤ s.start then place
  else if place ≤ s.stop then s.start
  else place - (s.stop - s.start)

theorem Within.placeAfter_bounds (h : s.Within length) (h0 : 0 ≤ p) (hp : p ≤ length) :
    0 ≤ s.placeAfter p ∧ s.placeAfter p ≤ length - (s.stop - s.start) := by
  obtain ⟨hs0, hs1, hs2⟩ := h
  unfold placeAfter
  split
  · omega
  · split <;> omega

theorem placeAfter_of_lt (hp : p < s.start) : s.placeAfter p = p :=
  if_pos (Int.le_of_lt hp)

theorem Within.placeAfter_of_le (h : s.Within length) (hp : s.stop ≤ p) :
    s.placeAfter p = p - (s.stop - s.start) := by
  have hle := h.start_le
  unfold placeAfter
  -- Right behind the span both come to its start.
  split
  · omega
  · split <;> omega

/-- A character that is not deleted stands at the new place. -/
theorem Within.getElem?_placeAfter (h : s.Within text.length) (h0 : 0 ≤ p)
    (hp : p < s.start ∨ s.stop ≤ p) :
    (s.replace text [])[(s.placeAfter p).toNat]? = text[p.toNat]? := by
  obtain ⟨hs0, hs1, hs2⟩ := h
  have hfront : (text.take s.start.toNat).length = s.start.toNat :=
    List.length_take_of_le (by omega)
  rw [Within.replace_eq ⟨hs0, hs1, hs2⟩, List.nil_append]
  rcases hp with hlt | hle
  · rw [placeAfter_of_lt hlt, List.getElem?_append_left (by omega),
      List.getElem?_take_of_lt (by omega)]
  · rw [Within.placeAfter_of_le ⟨hs0, hs1, hs2⟩ hle, List.getElem?_append_right (by omega),
      List.getElem?_drop, hfront]
    congr 1
    omega

end Span

variable {line : Line} {s : Span} {v : Verb}

namespace Line

theorem text_kill (hs : s.Within line.length) :
    (line.kill s).text = line.text.take s.start.toNat ++ line.text.drop s.stop.toNat := by
  show s.replace line.text [] = _
  rw [hs.replace_eq, List.nil_append]

/-- Moving the mark back by what has been deleted, but not past where that began, is to keep it
before its text. -/
theorem mark_kill (hs : s.Within line.length) :
    (line.kill s).mark = line.mark.map s.placeAfter := by
  have hle := hs.start_le
  refine Option.map_congr fun m _ => ?_
  unfold Span.placeAfter
  by_cases hm : s.start < m
  · rw [if_pos hm, if_neg (Int.not_le.2 hm)]
    split <;> omega
  · rw [if_neg hm, if_pos (Int.not_lt.1 hm)]

end Line

/-- The span that a command kills: from the cursor to the end of a word, back to the start of a
word, both, or to one end of the line. Other commands do not kill, also if they delete. -/
def Verb.killed? (line : Line) : Verb → Option Span
  | .killWord => some ⟨line.cursor, line.wordEnd⟩
  | .killWordBack =>
    some ⟨if line.wordStart = line.cursor then line.previousWordStart else line.wordStart,
      line.cursor⟩
  | .killFullWord => some ⟨line.wordStart, line.wordEnd⟩
  | .killLine => some ⟨line.cursor, line.length⟩
  | .killLineBack => some ⟨0, line.cursor⟩
  | _ => none

theorem Verb.run_of_killed? (h : line.InBounds) (hs : v.killed? line = some s) :
    s.Within line.length ∧ v.run line = { line.kill s with cursor := s.start } := by
  cases v with
  | killWord =>
    obtain ⟨he0, he1⟩ := Line.wordEnd_bounds h.cursor_nonneg h.cursor_le
    obtain rfl := Option.some.inj hs
    exact ⟨h.ahead_within he0 he1, rfl⟩
  | killWordBack =>
    obtain rfl := Option.some.inj hs
    exact ⟨h.wordBehind_within, rfl⟩
  | killFullWord =>
    obtain rfl := Option.some.inj hs
    exact ⟨h.wordSpan_within, rfl⟩
  | killLine =>
    obtain rfl := Option.some.inj hs
    exact ⟨h.ahead_within h.cursor_le (Int.le_refl _), rfl⟩
  | killLineBack =>
    obtain rfl := Option.some.inj hs
    exact ⟨h.behind_within (Int.le_refl 0) h.cursor_nonneg, rfl⟩
  -- Every other command has no span.
  | _ => cases hs

/-- A command that kills deletes the characters of one span and no others, and goes to its start.
The mark keeps its text: it is on the line again, and if it stood before a character that is left,
or at the end, it stands there still. Without a mark there is none afterwards. Nothing
else changes. -/
theorem kill_keeps_mark_at_text (h0 : 0 ≤ line.cursor) (h1 : line.cursor ≤ line.length)
    (hmark : ∀ m ∈ line.mark, 0 ≤ m ∧ m ≤ line.length) (hs : v.killed? line = some s) :
    let next := v.run line
    s.Within line.length ∧
      next.text = line.text.take s.start.toNat ++ line.text.drop s.stop.toNat ∧
      next.cursor = s.start ∧
      next.mark = line.mark.map (fun m =>
        if m ≤ s.start then m else if m ≤ s.stop then s.start else m - (s.stop - s.start)) ∧
      (∀ m ∈ line.mark, ∃ m' ∈ next.mark, 0 ≤ m' ∧ m' ≤ next.length ∧
        (m < s.start ∨ s.stop ≤ m → next.text[m'.toNat]? = line.text[m.toNat]?)) ∧
      next.clips = line.clips ∧ next.done = line.done := by
  intro next
  have h : line.InBounds := ⟨h0, h1, fun m hm => (hmark m hm).1⟩
  obtain ⟨hwithin, hrun⟩ := Verb.run_of_killed? h hs
  have htext : next.text = s.replace line.text [] := congrArg Line.text hrun
  have hnextmark : next.mark = line.mark.map s.placeAfter :=
    (congrArg Line.mark hrun).trans (Line.mark_kill hwithin)
  have hclips : next.clips = line.clips := (congrArg Line.clips hrun).trans rfl
  have hdone : next.done = line.done := (congrArg Line.done hrun).trans rfl
  have hlength : (next.length : Int) = line.length - (s.stop - s.start) := by
    rw [Line.length, htext]
    simpa [Line.length] using hwithin.length_replace []
  refine ⟨hwithin, htext.trans (Line.text_kill hwithin), congrArg Line.cursor hrun, hnextmark, ?_,
    hclips, hdone⟩
  intro m hm
  obtain ⟨hm0, hm1⟩ := hmark m hm
  obtain ⟨hafter0, hafter1⟩ := hwithin.placeAfter_bounds hm0 hm1
  refine ⟨s.placeAfter m, ?_, hafter0, by omega, fun hleft => ?_⟩
  · rw [hnextmark]
    exact Option.mem_map_of_mem _ hm
  · rw [htext]
    exact hwithin.getElem?_placeAfter hm0 hleft

/-- From the start of a word the word before it is killed, with the separators between them; the
mark stays before its character. -/
theorem kill_keeps_mark_at_text_behind :
    let line : Line := { text := "ab, cd ef.".toList, cursor := 4, mark := some 7 }
    0 ≤ line.cursor ∧ line.cursor ≤ line.length ∧
      (∀ m ∈ line.mark, 0 ≤ m ∧ m ≤ line.length) ∧
      Verb.killWordBack.killed? line = some ⟨0, 4⟩ ∧
      (Verb.killWordBack.run line).text = "cd ef.".toList ∧
      (Verb.killWordBack.run line).mark = some 3 ∧
      (Verb.killWordBack.run line).text[3]? = line.text[7]? := by
  intro line
  have h0 : 0 ≤ line.cursor := by decide
  have h1 : line.cursor ≤ line.length := by decide
  have hmark : ∀ m ∈ line.mark, 0 ≤ m ∧ m ≤ line.length := by
    intro m hm
    obtain rfl := Option.some.inj hm
    decide
  have hs : Verb.killWordBack.killed? line = some ⟨0, 4⟩ := by decide
  obtain ⟨-, htext, -, hnext, hplaces, -⟩ := kill_keeps_mark_at_text h0 h1 hmark hs
  have hnext : (Verb.killWordBack.run line).mark = some 3 := hnext
  obtain ⟨m', hm', -, -, hsame⟩ := hplaces 7 rfl
  obtain rfl : 3 = m' := Option.some.inj (hnext.symm.trans hm')
  exact ⟨h0, h1, hmark, hs, htext, hnext, hsame (Or.inr (by decide))⟩

end LineEditor
