import LineEditor.Proofs.Line.Killing
import LineEditor.Proofs.Line.WordScans
import LineEditor.Proofs.Program.Done

/-!
# Kills as cuts

What a kill deletes can also be cut: set the mark, move to the other end of what is killed, and cut.
That leaves the same text and the same cursor, and keeps what was killed as the text copied last.
For the kills that look for a word this is so where the motion finds the same word.
-/

namespace LineEditor

variable {stop : Bool} {line : Line} {v motion : Verb} {s : Span} {place : Int}

/-! ## Commands of one word in a row -/

theorem run_plain (h : line.InBounds) (v : Verb) :
    Command.run stop (.edit (.plain v)) line = .ran (v.run line) :=
  run_edit h (.plain v)

/-- Commands of one word that are not done with the line run one after another, each on the line
that the one before has left. -/
theorem runAll_plain (h : line.InBounds) (hgo : ¬ (stop && line.done) = true) {verbs : List Verb}
    (hverbs : ∀ v ∈ verbs, v ≠ .nextLine) :
    Command.runAll stop (verbs.map fun v => .edit (.plain v)) line =
      .ran (verbs.foldl (fun line v => v.run line) line) := by
  have hedits : ∀ e ∈ verbs.map Edit.plain, ¬ e.Decides := by
    intro e he
    obtain ⟨v, hv, rfl⟩ := List.mem_map.1 he
    exact Edit.not_decides_plain (hverbs v hv)
  have hrun := runAll_edits_of_not_decides h stop hedits
  rw [if_neg hgo, List.map_map, List.foldl_map] at hrun
  exact hrun

/-! ## Cutting from the mark -/

/-- Setting the mark, moving, and cutting. -/
def Verb.cutting (motion : Verb) : List Command :=
  [.edit (.plain .mark), .edit (.plain motion), .edit (.plain .cut)]

/-- A command kills what is cut by setting the mark and moving: both leave the same text and the
same cursor, and the text copied last is the piece that the kill takes out where its cursor then
is. -/
def Verb.KillsAsCut (stop : Bool) (line : Line) (v motion : Verb) : Prop :=
  ∃ killed cut front piece back,
    Command.run stop (.edit (.plain v)) line = .ran killed ∧
      Command.runAll stop motion.cutting line = .ran cut ∧
      cut.text = killed.text ∧ cut.cursor = killed.cursor ∧
      line.text = front ++ (piece ++ back) ∧ killed.text = front ++ back ∧
      killed.cursor = front.length ∧ cut.clips = piece :: line.clips

def Line.spanTo (line : Line) (place : Int) : Span :=
  ⟨min line.cursor place, max line.cursor place⟩

theorem Line.InBounds.spanTo_within (h : line.InBounds) (h0 : 0 ≤ place)
    (h1 : place ≤ line.length) : (line.spanTo place).Within line.length := by
  have hcursor := h.cursor_nonneg
  have hcursor' := h.cursor_le
  refine ⟨?_, ?_, ?_⟩ <;> simp only [spanTo] <;> omega

theorem Line.InBounds.region_setMark (h : line.InBounds) (place : Int) :
    ({ line.setMark with cursor := place } : Line).region = line.spanTo place := by
  have hmark : min line.cursor line.length = line.cursor := Int.min_eq_left h.cursor_le
  show (⟨min (min line.cursor line.length) place, max (min line.cursor line.length) place⟩ : Span) =
    line.spanTo place
  rw [hmark]
  rfl

theorem runAll_cutting (h : line.InBounds) (hgo : ¬ (stop && line.done) = true)
    (hmotion : motion ≠ .nextLine)
    (hmove : motion.run line.setMark = { line.setMark with cursor := place }) :
    ∃ cut, Command.runAll stop motion.cutting line = .ran cut ∧
      cut.text = (line.spanTo place).replace line.text [] ∧
      cut.cursor = (line.spanTo place).start ∧
      cut.clips = (line.spanTo place).of line.text :: line.clips := by
  have hverbs : ∀ v ∈ [.mark, motion, .cut], v ≠ Verb.nextLine := by
    intro v hv
    simp only [List.mem_cons, List.not_mem_nil, or_false] at hv
    rcases hv with rfl | rfl | rfl
    · decide
    · exact hmotion
    · decide
  have hrun : Command.runAll stop motion.cutting line = .ran (motion.run line.setMark).cut :=
    runAll_plain h hgo hverbs
  have hregion := h.region_setMark place
  refine ⟨_, hrun, ?_, ?_, ?_⟩
  · rw [hmove, ← hregion]
    rfl
  · rw [hmove, ← hregion]
    rfl
  · rw [hmove, ← hregion]
    rfl

/-- A command that deletes what lies between the cursor and a place on the line, and goes to where
that begins, kills what is cut by moving to that place. -/
theorem Verb.killsAsCut (h : line.InBounds) (hgo : ¬ (stop && line.done) = true)
    (h0 : 0 ≤ place) (h1 : place ≤ line.length) (hspan : line.spanTo place = s)
    (hmotion : motion ≠ .nextLine)
    (hmove : motion.run line.setMark = { line.setMark with cursor := place })
    (htext : (v.run line).text = s.replace line.text []) (hcursor : (v.run line).cursor = s.start) :
    KillsAsCut stop line v motion := by
  subst hspan
  obtain ⟨cut, hcut, hcuttext, hcutcursor, hclips⟩ := runAll_cutting h hgo hmotion hmove
  obtain ⟨front, back, hpieces, hstart, -, hreplace⟩ := (h.spanTo_within h0 h1).exists_pieces
  exact ⟨v.run line, cut, front, _, back, run_plain h v, hcut, hcuttext.trans htext.symm,
    hcutcursor.trans hcursor.symm, hpieces, htext.trans (hreplace []), hcursor.trans hstart, hclips⟩

/-! ## The kills -/

theorem Line.InBounds.wordEnd_eq_forwardWordTarget (h : line.InBounds)
    (hword : (line.wordPast? line.cursor).isSome) : line.wordEnd = line.forwardWordTarget := by
  obtain ⟨s, hs⟩ := Option.isSome_iff_exists.1 hword
  rw [wordEnd_eq h.cursor_nonneg h.cursor_le, forwardWordTarget_eq h.cursor_nonneg h.cursor_le, hs]
  rfl

theorem Line.InBounds.wordEnd_of_wordPast?_eq_none (h : line.InBounds)
    (hword : line.wordPast? line.cursor = none) :
    line.wordEnd = line.length ∧ line.forwardWordTarget = line.cursor := by
  rw [wordEnd_eq h.cursor_nonneg h.cursor_le, forwardWordTarget_eq h.cursor_nonneg h.cursor_le,
    hword]
  exact ⟨rfl, rfl⟩

theorem Verb.killsAsCut_killWord (h : line.InBounds) (hgo : ¬ (stop && line.done) = true)
    (hword : (line.wordPast? line.cursor).isSome) :
    KillsAsCut stop line .killWord .forwardWord := by
  have heq := h.wordEnd_eq_forwardWordTarget hword
  have h0 := h.cursor_nonneg
  obtain ⟨hle, hbound⟩ := Line.forwardWordTarget_bounds h0 h.cursor_le
  have hspan : line.spanTo line.forwardWordTarget = ⟨line.cursor, line.wordEnd⟩ := by
    rw [Line.spanTo, Int.min_eq_left hle, Int.max_eq_right hle, heq]
  exact killsAsCut h hgo (Int.le_trans h0 hle) hbound hspan (by decide) rfl rfl rfl

/-- Without a word ahead, all that follows is killed, and what is cut is empty. -/
theorem killWord_of_wordPast?_eq_none (h : line.InBounds) (hgo : ¬ (stop && line.done) = true)
    (hword : line.wordPast? line.cursor = none) :
    ∃ killed cut, Command.run stop (.edit (.plain .killWord)) line = .ran killed ∧
      Command.runAll stop Verb.forwardWord.cutting line = .ran cut ∧
      killed.text = line.text.take line.cursor.toNat ∧ killed.cursor = line.cursor ∧
      cut.text = line.text ∧ cut.cursor = line.cursor ∧ cut.clips = [] :: line.clips := by
  have h1 := h.cursor_le
  obtain ⟨hend, htarget⟩ := h.wordEnd_of_wordPast?_eq_none hword
  have hmove : Verb.forwardWord.run line.setMark = { line.setMark with cursor := line.cursor } :=
    congrArg (fun place => { line.setMark with cursor := place }) htarget
  have hspan : line.spanTo line.cursor = ⟨line.cursor, line.cursor⟩ := by
    rw [Line.spanTo, Int.min_self, Int.max_self]
  obtain ⟨cut, hcut, htext, hcursor, hclips⟩ := runAll_cutting h hgo (by decide) hmove
  obtain ⟨hof, hreplace⟩ := (h.ahead_within (Int.le_refl _) h1).of_empty
  rw [hspan] at htext hcursor hclips
  refine ⟨line.killWord, cut, run_plain h .killWord, hcut, ?_, rfl, htext.trans hreplace, hcursor,
    ?_⟩
  · rw [Line.killWord, hend, Line.text_kill (h.ahead_within h1 (Int.le_refl _))]
    dsimp only
    rw [Int.toNat_natCast, Line.length, List.drop_length, List.append_nil]
  · rw [hclips, hof]

theorem Verb.killsAsCut_killWordBack (h : line.InBounds) (hgo : ¬ (stop && line.done) = true)
    (hs : line.wordBegun? line.cursor = some s) (hlt : s.start < line.cursor) :
    KillsAsCut stop line .killWordBack .backWord := by
  have h0 := h.cursor_nonneg
  have hstart : line.wordStart = s.start := by
    rw [Line.wordStart_eq h0, hs]
    rfl
  have htarget : line.backWordTarget = s.start := by
    rw [Line.backWordTarget_eq h0, hs]
    rfl
  obtain ⟨hle, hbound⟩ := Line.backWordTarget_bounds h0
  -- The word begins before the cursor, so the kill does not go on to the word before it.
  have hspan : line.spanTo line.backWordTarget =
      ⟨if line.wordStart = line.cursor then line.previousWordStart else line.wordStart,
        line.cursor⟩ := by
    rw [Line.spanTo, Int.min_eq_right hbound, Int.max_eq_left hbound, if_neg (by omega), htarget,
      hstart]
  exact killsAsCut h hgo hle (Int.le_trans hbound h.cursor_le) hspan (by decide) rfl rfl rfl

/-- On a line in bounds, unless the run has stopped: the kills to an end of the line agree with
cutting from the mark to that end, also the one that leaves the mark behind. Killing to the end of a
word agrees with cutting as far as a motion over that word if a character of a word is at the cursor
or after it; otherwise it kills all that follows, and what is cut is empty. Killing back to the
start of a word agrees with cutting as far as a motion back if the last word that begins at the
cursor or before it begins before it. -/
theorem kills_agree_with_cuts (h : line.InBounds) (hgo : (stop && line.done) = false) :
    Verb.KillsAsCut stop line .killLine .lineEnd ∧
      Verb.KillsAsCut stop line .kill .lineEnd ∧
      Verb.KillsAsCut stop line .killLineBack .home ∧
      ((∃ p, line.cursor ≤ p ∧ IsWordAt line.text p) →
        Verb.KillsAsCut stop line .killWord .forwardWord) ∧
      ((¬ ∃ p, line.cursor ≤ p ∧ IsWordAt line.text p) →
        ∃ killed cut, Command.run stop (.edit (.plain .killWord)) line = .ran killed ∧
          Command.runAll stop Verb.forwardWord.cutting line = .ran cut ∧
          killed.text = line.text.take line.cursor.toNat ∧ killed.cursor = line.cursor ∧
          cut.text = line.text ∧ cut.cursor = line.cursor ∧ cut.clips = [] :: line.clips) ∧
      ∀ s, line.wordBegun? line.cursor = some s → s.start < line.cursor →
        Verb.KillsAsCut stop line .killWordBack .backWord := by
  have h0 := h.cursor_nonneg
  have h1 := h.cursor_le
  have hgo : ¬ (stop && line.done) = true := Bool.eq_false_iff.1 hgo
  have hlength : (0 : Int) ≤ line.length := Int.natCast_nonneg _
  have hend : line.spanTo line.length = ⟨line.cursor, line.length⟩ := by
    rw [Line.spanTo, Int.min_eq_left h1, Int.max_eq_right h1]
  have hhome : line.spanTo 0 = ⟨0, line.cursor⟩ := by
    rw [Line.spanTo, Int.min_eq_right h0, Int.max_eq_left h0]
  refine ⟨?_, ?_, ?_, fun hword => ?_, fun hnone => ?_, fun s hs hlt => ?_⟩
  · exact Verb.killsAsCut h hgo hlength (Int.le_refl _) hend (by decide) rfl rfl rfl
  · exact Verb.killsAsCut h hgo hlength (Int.le_refl _) hend (by decide) rfl rfl rfl
  · exact Verb.killsAsCut h hgo (Int.le_refl 0) hlength hhome (by decide) rfl rfl rfl
  · exact Verb.killsAsCut_killWord h hgo (Line.isSome_wordPast?_iff.2 hword)
  · rw [← Line.isSome_wordPast?_iff, Option.not_isSome_iff_eq_none] at hnone
    exact killWord_of_wordPast?_eq_none h hgo hnone
  · exact Verb.killsAsCut_killWordBack h hgo hs hlt

/-- Inside the last word, and on the separator behind it, where no word is ahead. -/
theorem kills_agree_with_cuts_last_word :
    let line : Line := { text := "ab, cd.".toList, cursor := 5, mark := some 1 }
    let further : Line := { line with cursor := 6 }
    line.InBounds ∧ further.InBounds ∧ (true && line.done) = false ∧
      Verb.KillsAsCut true line .killWord .forwardWord ∧
      Verb.KillsAsCut true line .killWordBack .backWord ∧
      Verb.KillsAsCut true further .killWordBack .backWord ∧
      ∃ killed, Command.run true (.edit (.plain .killWord)) further = .ran killed ∧
        killed.text = "ab, cd".toList := by
  intro line further
  have h : line.InBounds := ⟨by decide, by decide, by simp [line]⟩
  have h' : further.InBounds := ⟨by decide, by decide, by simp [further, line]⟩
  have hgo : (true && line.done) = false := rfl
  have hgo' : (true && further.done) = false := rfl
  obtain ⟨-, -, -, hword, -, hback⟩ := kills_agree_with_cuts h hgo
  obtain ⟨-, -, -, -, hnone, hback'⟩ := kills_agree_with_cuts h' hgo'
  have hat : IsWordAt line.text 5 := ⟨by decide, 'd', rfl, rfl⟩
  have hbegun : line.wordBegun? line.cursor = some ⟨4, 6⟩ := by decide
  have hbegun' : further.wordBegun? further.cursor = some ⟨4, 6⟩ := by decide
  have hgap : ¬ ∃ p, further.cursor ≤ p ∧ IsWordAt further.text p := by
    rw [← Line.isSome_wordPast?_iff]
    decide
  obtain ⟨killed, -, hkilled, -, htext, -⟩ := hnone hgap
  exact ⟨h, h', hgo, hword ⟨5, Int.le_refl _, hat⟩, hback _ hbegun (by decide),
    hback' _ hbegun' (by decide), killed, hkilled, htext⟩

end LineEditor
