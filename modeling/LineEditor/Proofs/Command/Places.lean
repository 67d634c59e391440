import LineEditor.Proofs.Command.Refusal
import LineEditor.Proofs.Token.Places

/-!
# Places of tokens and errors

The places that tokens claim, the place that a lexer has reached after each of them, and the place
of an error at the end of the tokens are those that are counted from the text itself.
-/

namespace LineEditor

variable {source : List Char}

/-- What is missing at the end of a text is missing at the place where it ends. -/
theorem position_of_parse {e : ParseError} (h : Readable source)
    (hparse : parse source = .error (.refused e)) (hfound : e.found = none) :
    e.position = .ofIndex source source.length := by
  unfold parse Lexer.parse at hparse
  rw [ending_of_readable h] at hparse
  have hreadable : ∀ t ∈ (Lexer.ofSource source).tokens, t.Readable :=
    fun t ht => readable_of_mem_tokens ht
  obtain ⟨_, _, _, _, _, hrefused⟩ := refused_of_parseTokens hreadable hparse
  generalize hfailure : Failure.refused e = failure at hrefused
  cases hrefused with
  | unfinished =>
    cases hfailure
    rfl
  | stuck =>
    cases hfailure
    cases hfound

/-- Each token of a text is at the place of the character that completes it, and comes after the
one before it. Once a token is completed, a lexer has reached the place just past that character,
or the end of the text. There it stays when the tokens are exhausted, and there an error is that
has found no token. -/
theorem places_of_tokens_and_errors (h : Readable source) :
    (∀ step ∈ (Lexer.ofSource source).run.1, ∃ l ∈ lexemes source,
        l.CompletedIn source ∧ step.1 = l.token source ∧
          step.2.reach =
            if l.stop < source.length then step.1.position.right else step.1.position) ∧
      (Lexer.ofSource source).tokens.Pairwise (fun t u => t.position.Before u.position) ∧
      (∃ last : Lexer,
        (∀ count > (Lexer.ofSource source).tokens.length,
            (Lexer.ofSource source).skip count = .ok last) ∧
          last.next = .finished last ∧ last.reach = .ofIndex source source.length) ∧
      ∀ e : ParseError, parse source = .error (.refused e) → e.found = none →
        e.position = .ofIndex source source.length := by
  have hahead := Lexer.ahead_ofSource source
  have hreadable := h.unreadable?_eq_none
  refine ⟨?_, ?_, ⟨_, ?_, Lexer.next_exhausted (.ofIndex source source.length), rfl⟩, ?_⟩
  · intro step hstep
    have hmem := List.mem_map_of_mem (f := fun step => (step.1, step.2.reach)) hstep
    rw [(Lexer.run_of_readable hahead hreadable).1] at hmem
    obtain ⟨l, hl, hpair⟩ := List.mem_map.1 hmem
    obtain ⟨htoken, hreach⟩ := Prod.mk.inj hpair
    refine ⟨l, hl, completedIn_of_mem_lexemes hl, htoken.symm, ?_⟩
    rw [← hreach, ← htoken]
    rfl
  · rw [tokens_of_readable h]
    exact pairwise_before_lexemes source
  · intro count hcount
    rw [tokens_of_readable h, List.length_map] at hcount
    exact Lexer.skip_of_ahead hahead hreadable hcount
  · intro e hparse hfound
    exact position_of_parse h hparse hfound

/-- A literal runs over two lines, and the newline that ends the last word is the last character. So
the body of the repetition is missing at the start of a line that has no characters. -/
theorem places_of_tokens_and_errors_multiline :
    Readable "insert \"c\n\"\nrepeat 2\n".toList ∧
      (∃ e : ParseError, parse "insert \"c\n\"\nrepeat 2\n".toList = .error (.refused e) ∧
        e.found = none ∧ e.position = ⟨4, 1⟩) ∧
      ∃ last : Lexer, (Lexer.ofSource "insert \"c\n\"\nrepeat 2\n".toList).skip 7 = .ok last ∧
        last.next = .finished last ∧ last.reach = ⟨4, 1⟩ := by
  have hreadable : Readable "insert \"c\n\"\nrepeat 2\n".toList := by decide +kernel
  have hfail : parse "insert \"c\n\"\nrepeat 2\n".toList =
      .error (.refused ⟨.bodyExpected 2, ⟨4, 1⟩, none⟩) := by
    decide +kernel
  obtain ⟨-, -, ⟨last, hskip, hnext, hreach⟩, herror⟩ := places_of_tokens_and_errors hreadable
  have hend : Position.ofIndex "insert \"c\n\"\nrepeat 2\n".toList
      "insert \"c\n\"\nrepeat 2\n".toList.length = ⟨4, 1⟩ := by
    decide +kernel
  have hcount : (Lexer.ofSource "insert \"c\n\"\nrepeat 2\n".toList).tokens.length < 7 := by
    decide +kernel
  refine ⟨hreadable, ⟨_, hfail, rfl, ?_⟩, last, hskip 7 hcount, hnext, ?_⟩
  · rw [herror _ hfail rfl, hend]
  · rw [hreach, hend]

end LineEditor
