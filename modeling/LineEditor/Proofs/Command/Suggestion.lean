import LineEditor.Proofs.Command.EarliestError
import LineEditor.Proofs.Text.Similarity
import LineEditor.Proofs.Token.Places

/-!
# Suggested keywords

A word is only told to be perhaps another one if that is a keyword and shares enough characters with
it, and a keyword is never told to be another one. Parsing that fails at a word where a command must
begin goes on past it once the word is the one suggested.
-/

namespace LineEditor

open Text (sharedCount)

variable {ending : Lexer.Ending} {before after tokens more : List Token} {t u : Token}
  {issue : Issue} {word k : List Char}

/-! ## What is suggested -/

theorem length_of_mem_keywords : ∀ k ∈ keywords, 0 < k.length ∧ k.length ≤ 22 := by
  decide +kernel

theorem mem_and_similar_of_suggest? (h : suggest? word = some k) :
    k ∈ keywords ∧ 3 * (k.length + word.length) ≤ 8 * sharedCount k word := by
  obtain ⟨hk, hsimilar⟩ := Text.mem_and_similar_of_closest? h
  exact ⟨hk, (Text.similar_iff.1 hsimilar).2⟩

/-- A keyword shares no more characters than it has, so a word much longer than all keywords is like
none of them. -/
theorem length_le_of_suggest? (h : suggest? word = some k) : word.length ≤ 36 := by
  obtain ⟨hk, hshared⟩ := mem_and_similar_of_suggest? h
  have hshort := (length_of_mem_keywords k hk).2
  have hle := (Text.sharedCount_le k word).1
  omega

theorem suggest?_of_mem_keywords (h : word ∈ keywords) : suggest? word = some word := by
  have hpos := (length_of_mem_keywords word h).1
  exact Text.closest?_of_mem h (List.length_pos_iff.1 hpos)

/-! ## How it is offered -/

/-- A message ends by offering a word in the place of the one that is written. -/
def Offers (message : String) (word : List Char) : Prop :=
  ∃ start : String, message = start ++ " (did you mean " ++ Text.quoted word ++ "?)"

theorem Offers.getLast? {message : String} (h : Offers message word) :
    message.toList.getLast? = some ')' := by
  obtain ⟨start, rfl⟩ := h
  have hne : "?)".toList ≠ [] := by decide
  rw [String.toList_append, List.getLast?_append_of_ne_nil _ hne]
  rfl

theorem offers_of_suggest? (h : suggest? word = some k) :
    Offers (Issue.unknownCommand word).message k := by
  refine ⟨"Unknown command " ++ Text.quoted word, ?_⟩
  unfold Issue.message
  simp only [h]
  rfl

theorem not_offers_of_suggest? (h : suggest? word = none) :
    ¬ Offers (Issue.unknownCommand word).message k := by
  intro hoffers
  have hmessage : (Issue.unknownCommand word).message = "Unknown command " ++ Text.quoted word := by
    unfold Issue.message
    simp only [h]
    rfl
  have hne : (Text.quoted word).toList ≠ [] := by
    intro hnil
    have hquote := Text.getLast?_quoted word
    rw [hnil] at hquote
    cases hquote
  have hlast := hoffers.getLast?
  rw [hmessage, String.toList_append, List.getLast?_append_of_ne_nil _ hne,
    Text.getLast?_quoted] at hlast
  exact Text.quoteOf_ne word (Option.some.inj hlast)

/-! ## Where commands begin -/

/-- Tokens after which a command must begin: those of finished commands, and perhaps counts for the
command that is to come. -/
inductive AtCommand : List Token → Prop where
  /-- After finished commands. -/
  | commands {front : List Token} {program : Program} (h : SpellsProgram front program) :
      AtCommand front
  /-- After the count of a repetition. -/
  | count {before : List Token} {t u : Token} {count : Nat} (h : AtCommand before)
      (ht : t.IsWord Keyword.times.spelling) (hu : u.IsInt count) : AtCommand (before ++ [t, u])

/-- What completes a command completes the program that has come to it. -/
theorem AtCommand.completes (h : AtCommand before) (hmore : CompletesCommand tokens more) :
    Completes (before ++ tokens) more := by
  induction h generalizing tokens with
  | commands hfront => exact hmore.completes hfront
  | @count before t u count _ ht hu ih =>
    obtain ⟨hreadable, c, hc⟩ := hmore
    have hrest : CompletesCommand (t :: u :: tokens) more := ⟨hreadable, _, .times ht hu hc⟩
    have hall := ih hrest
    rwa [List.append_assoc]

/-- A token that is stuck in a command is stuck in the last command of a program, which takes in the
counts before it. -/
theorem AtCommand.stuck (h : AtCommand before) (htokens : Stuck tokens u issue) :
    ∃ front back program, before ++ tokens = front ++ back ∧ SpellsProgram front program ∧
      Stuck back u issue := by
  induction h generalizing tokens with
  | commands hfront => exact ⟨_, tokens, _, rfl, hfront, htokens⟩
  | @count before t w count _ ht hw ih =>
    obtain ⟨front, back, program, hsplit, hfront, hback⟩ := ih (.body ht hw htokens)
    exact ⟨front, back, program, by rw [← hsplit, List.append_assoc]; rfl, hfront, hback⟩

/-- Every keyword that takes arguments asks for a first one. -/
theorem Keyword.exists_asks (k : Keyword) : ∃ a, k.Asks [] a := by
  cases k with
  | insert => exact ⟨_, .insert⟩
  | truncateBy => exact ⟨_, .truncateBy⟩
  | goto => exact ⟨_, .goto⟩
  | find => exact ⟨_, .find⟩
  | findBack => exact ⟨_, .findBack⟩
  | translate => exact ⟨_, .source⟩
  | times => exact ⟨_, .times⟩

/-- An unknown command is found only where a command must begin. -/
theorem Stuck.atCommand {front : List Token} (h : Stuck before t (.unknownCommand word))
    (hfront : AtCommand front) : AtCommand (front ++ before) := by
  generalize hissue : Issue.unknownCommand word = issue at h
  induction h generalizing front with
  | noWord => cases hissue
  | unknown =>
    rw [List.append_nil]
    exact hfront
  | @operand k t u operands a issue ht ha hu =>
    cases hu with
    | kind => cases a <;> cases hissue
    | negative | notChar | length => cases hissue
  | @body t u w count before issue ht hu _ ih =>
    have hnext : AtCommand (front ++ [t, u] ++ before) := ih (hfront.count ht hu) hissue
    rwa [List.append_assoc] at hnext

/-- Whatever keyword a word is, some tokens complete it to a command. -/
theorem exists_completesCommand (hword : t.kind = .word) (ht : t.text ∈ keywords) :
    ∃ more, CompletesCommand [t] more := by
  rcases hverb : Verb.ofKeyword? t.text with _ | v
  · rcases hkeyword : Keyword.ofWord? t.text with _ | k
    · exact absurd ht (not_mem_keywords hverb hkeyword)
    · obtain ⟨a, ha⟩ := k.exists_asks
      obtain ⟨more, -, hmore⟩ := ha.completable ⟨hword, Keyword.eq_spelling_of_ofWord? hkeyword⟩
      exact ⟨more, hmore⟩
  · have hspells : Spells [t] (.edit (.plain v)) :=
      .plain ⟨hword, Verb.eq_keyword_of_ofKeyword? hverb⟩
    exact ⟨[], by simp, _, hspells⟩

/-- A keyword can stand wherever a command must begin. -/
theorem AtCommand.viable (h : AtCommand before) (hword : t.kind = .word) (ht : t.text ∈ keywords) :
    Viable (before ++ [t]) := by
  obtain ⟨more, hmore⟩ := exists_completesCommand hword ht
  obtain ⟨-, program, hprogram⟩ := h.completes hmore
  exact ⟨more, program, hprogram⟩

/-- A word that is no keyword is refused wherever a command must begin. -/
theorem AtCommand.parseTokens_of_notMem (h : AtCommand before) (hword : t.kind = .word)
    (ht : t.text ∉ keywords) :
    parseTokens ending (before ++ t :: after) = .error (t.failure (.unknownCommand t.text)) := by
  obtain ⟨front, back, program, hsplit, hfront, hback⟩ := h.stuck (.unknown hword ht)
  rw [List.append_nil] at hsplit
  rw [hsplit, List.append_assoc]
  exact parseTokens_of_refused hfront (.stuck hback)

/-! ## Where parsing fails -/

/-- If parsing fails at a token that occurs once, that token is stuck in a command that begins
before it. -/
theorem exists_stuck_of_parseTokens (hreadable : ∀ w ∈ before ++ t :: after, w.Readable)
    (hbefore : t ∉ before) (hafter : t ∉ after)
    (h : parseTokens ending (before ++ t :: after) = .error (t.failure issue)) :
    ∃ front start program, before = front ++ start ∧ SpellsProgram front program ∧
      Stuck start t issue := by
  obtain ⟨front, start, rest, program, hsplit, hfront, hstuck⟩ := stuck_of_parseTokens hreadable h
  rw [← List.append_assoc] at hsplit
  obtain ⟨hstart, -, -⟩ := (List.append_cons_inj_of_notMem hbefore hafter).1 hsplit
  exact ⟨front, start, program, hstart, hfront, hstuck⟩

/-- So parsing does not fail at a keyword that occurs once and where a command must begin. -/
theorem AtCommand.parseTokens_ne (h : AtCommand before) (hword : t.kind = .word)
    (ht : t.text ∈ keywords) (hreadable : ∀ w ∈ before ++ t :: after, w.Readable)
    (hbefore : t ∉ before) (hafter : t ∉ after) (ending : Lexer.Ending) (issue : Issue) :
    parseTokens ending (before ++ t :: after) ≠ .error (t.failure issue) := by
  intro hfail
  obtain ⟨front, start, program, rfl, hfront, hstuck⟩ :=
    exists_stuck_of_parseTokens hreadable hbefore hafter hfail
  exact not_viable_of_stuck hfront hstuck (h.viable hword ht)

/-- A word where a command must begin is refused as an unknown command, if it is refused, and a word
that is refused as one is such a word. -/
theorem atCommand_iff_unknownCommand {source : List Char}
    (hsplit : (Lexer.ofSource source).tokens = before ++ t :: after) (hword : t.kind = .word)
    (hparse : parse source = .error (t.failure issue)) :
    AtCommand before ↔ issue = .unknownCommand t.text ∧ t.text ∉ keywords := by
  have hreadable : ∀ w ∈ before ++ t :: after, w.Readable :=
    hsplit ▸ fun w hw => readable_of_mem_tokens hw
  have hfail : parseTokens (Lexer.ofSource source).ending (before ++ t :: after) =
      .error (t.failure issue) := hsplit ▸ hparse
  obtain ⟨hplaces, hplaces'⟩ := position_ne_of_tokens hsplit
  have hbefore : t ∉ before := fun hmem => hplaces t hmem rfl
  have hafter : t ∉ after := fun hmem => hplaces' t hmem rfl
  refine ⟨?_, ?_⟩
  · -- A keyword could go on there, so the word is none, and that is the only issue there can be.
    intro hplace
    have hunknown : t.text ∉ keywords := by
      intro hkeyword
      exact hplace.parseTokens_ne hword hkeyword hreadable hbefore hafter _ _ hfail
    rw [hplace.parseTokens_of_notMem hword hunknown] at hfail
    cases hfail
    exact ⟨rfl, hunknown⟩
  · rintro ⟨rfl, -⟩
    obtain ⟨front, start, program, rfl, hfront, hstuck⟩ :=
      exists_stuck_of_parseTokens hreadable hbefore hafter hfail
    exact hstuck.atCommand (.commands hfront)

/-- With a keyword in the place of a word where a command must begin, parsing does not fail there,
whatever ends the tokens. -/
theorem parseTokens_ne_of_keyword {source : List Char}
    (hsplit : (Lexer.ofSource source).tokens = before ++ t :: after) (hplace : AtCommand before)
    (hword : t.kind = .word) (hk : k ∈ keywords) (ending : Lexer.Ending) (issue : Issue) :
    let meant : Token := { t with text := k }
    parseTokens ending (before ++ meant :: after) ≠ .error (meant.failure issue) := by
  intro meant
  obtain ⟨hbefore, hafter⟩ := position_ne_of_tokens hsplit
  have hreadable : ∀ w ∈ before ++ meant :: after, w.Readable := by
    have hsource : ∀ w ∈ before ++ t :: after, w.Readable :=
      hsplit ▸ fun w hw => readable_of_mem_tokens hw
    intro w hw
    rcases List.mem_append.1 hw with hw | hw
    · exact hsource w (List.mem_append_left _ hw)
    · rcases List.mem_cons.1 hw with rfl | hw
      · intro hint
        cases hword.symm.trans hint
      · exact hsource w (List.mem_append_right _ (List.mem_cons_of_mem t hw))
  refine hplace.parseTokens_ne (t := meant) hword hk hreadable ?_ ?_ ending issue
  · exact fun hmem => hbefore meant hmem rfl
  · exact fun hmem => hafter meant hmem rfl

/-- A suggestion is a keyword with a common subsequence with the word of at least three eighths as
many characters as both have together, so the word has 36 characters at most. For a keyword the
keyword itself is suggested.

Where a text is refused at a word, a command must begin there if and only if the word is an unknown
command. Then the message offers a word if and only if one is suggested. That one is another word,
and with it in the place of the word written, whatever ends the tokens, parsing no longer fails
there: a program can begin with the tokens so far. -/
theorem suggestions_are_sound :
    (∀ word k, suggest? word = some k → k ∈ keywords ∧
      (∃ shared : List Char, shared.Sublist k ∧ shared.Sublist word ∧
        3 * (k.length + word.length) ≤ 8 * shared.length) ∧ word.length ≤ 36) ∧
    (∀ word ∈ keywords, suggest? word = some word) ∧
    ∀ source before t after issue, (Lexer.ofSource source).tokens = before ++ t :: after →
      t.kind = .word → parse source = .error (t.failure issue) →
      (AtCommand before ↔ issue = .unknownCommand t.text ∧ t.text ∉ keywords) ∧
      (AtCommand before →
        ((∃ k, Offers issue.message k) ↔ suggest? t.text ≠ none) ∧
        ∀ k, suggest? t.text = some k → Offers issue.message k ∧ k ≠ t.text ∧
          let meant : Token := { t with text := k }
          Viable (before ++ [meant]) ∧ ∀ ending issue,
            parseTokens ending (before ++ meant :: after) ≠ .error (meant.failure issue)) := by
  refine ⟨?_, fun word => suggest?_of_mem_keywords, ?_⟩
  · intro word k h
    obtain ⟨hk, hshared⟩ := mem_and_similar_of_suggest? h
    obtain ⟨shared, hsk, hsword, hlength⟩ := Text.exists_sublist_of_sharedCount k word
    exact ⟨hk, ⟨shared, hsk, hsword, hlength ▸ hshared⟩, length_le_of_suggest? h⟩
  · intro source before t after issue hsplit hword hparse
    have hiff := atCommand_iff_unknownCommand hsplit hword hparse
    refine ⟨hiff, ?_⟩
    intro hplace
    obtain ⟨rfl, hunknown⟩ := hiff.1 hplace
    refine ⟨⟨?_, ?_⟩, ?_⟩
    · rintro ⟨k, hoffers⟩ hnone
      exact not_offers_of_suggest? hnone hoffers
    · intro hsome
      obtain ⟨k, hk⟩ := Option.ne_none_iff_exists'.1 hsome
      exact ⟨k, offers_of_suggest? hk⟩
    · intro k hk
      have hkeyword := (mem_and_similar_of_suggest? hk).1
      refine ⟨offers_of_suggest? hk, ?_, hplace.viable hword hkeyword,
        parseTokens_ne_of_keyword hsplit hplace hword hkeyword⟩
      rintro rfl
      exact hunknown hkeyword

/-- In a repetition after another command; what follows the word is refused once it is mended. -/
theorem suggestions_are_sound_repeated :
    let before : List Token := [⟨.word, "home".toList, ⟨1, 5⟩⟩,
      ⟨.word, "repeat".toList, ⟨1, 12⟩⟩, ⟨.int, ['2'], ⟨1, 14⟩⟩]
    let t : Token := ⟨.word, "forwrd".toList, ⟨1, 21⟩⟩
    let after : List Token := [⟨.int, ['3'], ⟨1, 23⟩⟩]
    let meant : Token := { t with text := "forward".toList }
    suggest? "forwrd".toList = some "forward".toList ∧
      (∃ shared : List Char, shared.Sublist "forward".toList ∧ shared.Sublist "forwrd".toList ∧
        5 ≤ shared.length) ∧
      "home".toList ∈ keywords ∧ suggest? "home".toList = some "home".toList ∧
      (Lexer.ofSource "home repeat 2 forwrd 3".toList).tokens = before ++ t :: after ∧
      AtCommand before ∧ t.kind = .word ∧
      parse "home repeat 2 forwrd 3".toList =
        .error (t.failure (.unknownCommand "forwrd".toList)) ∧
      Offers (Issue.unknownCommand "forwrd".toList).message "forward".toList ∧
      ∀ issue, parseTokens (.endOfText ⟨0, 0⟩) (before ++ meant :: after) ≠
        .error (meant.failure issue) := by
  intro before t after meant
  have hsuggest : suggest? "forwrd".toList = some "forward".toList := by decide +kernel
  have hhome : "home".toList ∈ keywords := Verb.home.keyword_mem_keywords
  have hsplit : (Lexer.ofSource "home repeat 2 forwrd 3".toList).tokens = before ++ t :: after := by
    decide +kernel
  have hparse : parse "home repeat 2 forwrd 3".toList =
      .error (t.failure (.unknownCommand "forwrd".toList)) := by
    decide +kernel
  have hplace : AtCommand before := by
    have hfirst : AtCommand ([⟨.word, "home".toList, ⟨1, 5⟩⟩] ++ []) :=
      .commands (.cons (.plain (v := .home) ⟨rfl, rfl⟩) .nil)
    have htwo : Token.IsInt ⟨.int, ['2'], ⟨1, 14⟩⟩ (2 : Nat) := ⟨rfl, by decide +kernel⟩
    exact hfirst.count ⟨rfl, rfl⟩ htwo
  obtain ⟨hsound, hkeyword, hrefused⟩ := suggestions_are_sound
  obtain ⟨-, ⟨shared, hsk, hsword, hlength⟩, -⟩ := hsound _ _ hsuggest
  obtain ⟨-, hmended⟩ := hrefused _ _ _ _ _ hsplit rfl hparse
  obtain ⟨-, hgoes⟩ := hmended hplace
  obtain ⟨hoffers, -, -, hne⟩ := hgoes _ hsuggest
  refine ⟨hsuggest, ⟨shared, hsk, hsword, ?_⟩, hhome, hkeyword _ hhome, hsplit, hplace, rfl, hparse,
    hoffers, hne _⟩
  have hfew : 3 * (7 + 6) ≤ 8 * shared.length := hlength
  omega

end LineEditor
