import LineEditor.Proofs.Command.Refusal
import LineEditor.Proofs.Token.Concatenation

/-!
# Programs of two texts in one

Where a token stands does not matter to what it spells. So two texts with white space between them
are parsed one after the other: to the commands of the first and those of the second, or with the
error of the one that has an error.
-/

namespace LineEditor

/-! ## Tokens that stand elsewhere -/

/-- An error about tokens that stand elsewhere. -/
def ParseError.relocate (place : Position → Position) (e : ParseError) : ParseError :=
  ⟨e.issue, place e.position, e.found.map (.relocate place)⟩

variable {tokens back : List Token} {program : Program}

theorem Spells.relocate {c : Command} (h : Spells tokens c) (place : Position → Position) :
    Spells (tokens.map (.relocate place)) c := by
  induction h with
  | plain ht => exact .plain ht
  | goto ht hu => exact .goto ht hu
  | insert ht hu => exact .insert ht hu
  | truncateBy ht hu => exact .truncateBy ht hu
  | find ht hu => exact .find ht hu
  | findBack ht hu => exact .findBack ht hu
  | translate ht hu hw hlength => exact .translate ht hu hw hlength
  | times ht hu _ ih => exact .times ht hu ih

theorem SpellsProgram.relocate (h : SpellsProgram tokens program) (place : Position → Position) :
    SpellsProgram (tokens.map (.relocate place)) program := by
  induction h with
  | nil => exact .nil
  | cons hc _ ih =>
    rw [List.map_append]
    exact .cons (hc.relocate place) ih

theorem Keyword.Asks.relocate {k : Keyword} {a : Operand} (h : k.Asks tokens a)
    (place : Position → Position) : k.Asks (tokens.map (.relocate place)) a := by
  cases h with
  | insert => exact .insert
  | truncateBy => exact .truncateBy
  | goto => exact .goto
  | find => exact .find
  | findBack => exact .findBack
  | source => exact .source
  | target hu => exact .target hu
  | times => exact .times

theorem Operand.Wrong.relocate {k : Keyword} {a : Operand} {t : Token} {issue : Issue}
    (h : a.Wrong k t issue) (place : Position → Position) :
    a.Wrong k (t.relocate place) issue := by
  cases h with
  | kind h => exact .kind h
  | negative hint hn => exact .negative hint hn
  | notChar hstring hlength => exact .notChar hstring hlength
  | length hstring hlength => exact .length hstring hlength

theorem Stuck.relocate {t : Token} {issue : Issue} (h : Stuck tokens t issue)
    (place : Position → Position) :
    Stuck (tokens.map (.relocate place)) (t.relocate place) issue := by
  induction h with
  | noWord h => exact .noWord h
  | unknown hword h => exact .unknown hword h
  | operand ht ha hu => exact .operand ht (ha.relocate place) (hu.relocate place)
  | body ht hu _ ih => exact .body ht hu ih

theorem Unfinished.relocate {issue : Issue} (h : Unfinished tokens issue)
    (place : Position → Position) : Unfinished (tokens.map (.relocate place)) issue := by
  induction h with
  | operand ht ha => exact .operand ht (ha.relocate place)
  | noBody ht hu => exact .noBody ht hu
  | body ht hu _ ih => exact .body ht hu ih

/-- Tokens are refused for the same reason wherever they stand. -/
theorem Refused.relocate {p : Position} {failure : Failure}
    (h : Refused (.endOfText p) tokens failure) (place : Position → Position) :
    ∃ e, failure = .refused e ∧
      Refused (.endOfText (place p)) (tokens.map (.relocate place))
        (.refused (e.relocate place)) := by
  cases h with
  | unfinished h => exact ⟨_, rfl, .unfinished (h.relocate place)⟩
  | @stuck before after t issue h =>
    refine ⟨_, rfl, ?_⟩
    rw [List.map_append, List.map_cons]
    exact .stuck (h.relocate place)

/-! ## Tokens that follow a program -/

/-- The error of the tokens that follow a program is the error of all of them. -/
theorem parseTokens_error_append {p : Position} {failure : Failure}
    (htokens : SpellsProgram tokens program) (hreadable : ∀ t ∈ back, t.Readable)
    (h : parseTokens (.endOfText p) back = .error failure) (place : Position → Position) :
    ∃ e, failure = .refused e ∧
      parseTokens (.endOfText (place p)) (tokens ++ back.map (.relocate place)) =
        .error (.refused (e.relocate place)) := by
  obtain ⟨front, rest, others, rfl, hfront, hrest⟩ := refused_of_parseTokens hreadable h
  obtain ⟨e, rfl, hrefused⟩ := hrest.relocate place
  refine ⟨e, rfl, ?_⟩
  rw [parseTokens_append_of_spells htokens, List.map_append,
    parseTokens_of_refused (hfront.relocate place) hrefused]
  rfl

/-- An error at a token does not depend on the tokens after it. -/
theorem parseTokens_append_of_found {p : Position} {ending : Lexer.Ending} {e : ParseError}
    (hreadable : ∀ t ∈ tokens, t.Readable)
    (h : parseTokens (.endOfText p) tokens = .error (.refused e)) (hfound : e.found.isSome)
    (back : List Token) : parseTokens ending (tokens ++ back) = .error (.refused e) := by
  obtain ⟨front, rest, others, rfl, hfront, hrest⟩ := refused_of_parseTokens hreadable h
  generalize hfailure : Failure.refused e = failure at hrest
  cases hrest with
  | unfinished =>
    cases hfailure
    cases hfound
  | @stuck before after t issue hstuck =>
    rw [List.append_assoc, List.append_assoc, List.cons_append]
    exact parseTokens_of_refused hfront (.stuck hstuck)

/-! ## Texts -/

/-- The tokens of two texts with white space between them are those of the first where they are,
and those of the second behind it. If the first one is a program, so are both if the second one is,
and otherwise they have the error of the second one. An error at a token of the first one is the
error of both. -/
theorem tokens_and_commands_of_concatenation {front gap back : List Char}
    (hclosed : endsInLiteral front = false) (hne : gap ≠ [])
    (hgap : ∀ c ∈ gap, isSeparator c = true) (hfront : Readable front)
    (hback : Readable back) :
    (Lexer.ofSource (front ++ gap ++ back)).tokens =
        (Lexer.ofSource front).tokens ++
          (Lexer.ofSource back).tokens.map (.relocate (.behind (front ++ gap))) ∧
      (∀ first second, parse front = .ok first → parse back = .ok second →
        parse (front ++ gap ++ back) = .ok (first ++ second)) ∧
      (∀ first failure, parse front = .ok first → parse back = .error failure →
        ∃ e, failure = .refused e ∧
          parse (front ++ gap ++ back) =
            .error (.refused (e.relocate (.behind (front ++ gap))))) ∧
      ∀ e : ParseError, parse front = .error (.refused e) → e.found.isSome →
        parse (front ++ gap ++ back) = .error (.refused e) := by
  have htokens := tokens_append hclosed hne hgap hfront hback
  have hending := ending_append hclosed hne hgap hfront hback
  unfold parse Lexer.parse
  rw [hending, htokens, ending_of_readable hfront, ending_of_readable hback]
  refine ⟨rfl, fun first second hfirst hsecond => ?_, fun first failure hfirst hfail => ?_,
    fun e hfail hfound => ?_⟩
  · have hspells := (spells_of_parseTokens hsecond).relocate (.behind (front ++ gap))
    rw [parseTokens_append_of_spells (spells_of_parseTokens hfirst), parseTokens_of_spells hspells]
    rfl
  · exact parseTokens_error_append (spells_of_parseTokens hfirst)
      (fun t ht => readable_of_mem_tokens ht) hfail _
  · exact parseTokens_append_of_found (fun t ht => readable_of_mem_tokens ht) hfail hfound _

/-- The second text begins on the second line of both, two characters after its start. -/
theorem tokens_and_commands_of_concatenation_shifted :
    endsInLiteral "insert \"\n\"".toList = false ∧ Readable "insert \"\n\"".toList ∧
      Readable "goto x\nhome".toList ∧
      parse ("insert \"\n\"".toList ++ [' '] ++ "goto x\nhome".toList) =
        .error (.refused
          ⟨.integerExpected .goto, ⟨2, 9⟩, some ⟨.word, "x".toList, ⟨2, 9⟩⟩⟩) := by
  have hclosed : endsInLiteral "insert \"\n\"".toList = false := by decide +kernel
  have hfront : Readable "insert \"\n\"".toList := by decide +kernel
  have hback : Readable "goto x\nhome".toList := by decide +kernel
  have hparse : parse "insert \"\n\"".toList = .ok [.edit (.insert ['\n'])] := by decide +kernel
  have hfail : parse "goto x\nhome".toList =
      .error (.refused
        ⟨.integerExpected .goto, ⟨1, 7⟩, some ⟨.word, "x".toList, ⟨1, 7⟩⟩⟩) := by
    decide +kernel
  have hgap : ∀ c ∈ [' '], isSeparator c = true := List.forall_mem_singleton.2 rfl
  obtain ⟨-, -, herror, -⟩ := tokens_and_commands_of_concatenation hclosed (by decide) hgap hfront
    hback
  obtain ⟨e, hrefused, hboth⟩ := herror _ _ hparse hfail
  cases hrefused
  refine ⟨hclosed, hfront, hback, ?_⟩
  rw [hboth]
  decide +kernel

end LineEditor
