import LineEditor.Proofs.Token.Reading

/-!
# Where tokens are completed

A token claims the place of the character that completes it: the one that ends a word, the quote
that closes a literal, or a bracket that stands by itself; or the end of the text if that comes
first. Each token is completed further on than the one before it.
-/

namespace LineEditor

/-! ## What completes a token -/

/-- Whether a character ends the word before it. -/
def endsWord (c : Char) : Bool :=
  isSeparator c || c = '"' || isBracket c

/-- A piece of a text is completed by the character with the index at which it stops. -/
inductive Lexeme.CompletedIn (source : List Char) : Lexeme → Prop where
  /-- A bracket completes itself. -/
  | bracket {front back : List Char} {c : Char} {kind : Kind}
      (hsource : source = front ++ c :: back) (hkind : bracketKind? c = some kind) :
      CompletedIn source ⟨kind, [c], front.length⟩
  /-- A word is completed by the character after it. A bracket can begin it. -/
  | word {front word back : List Char} (hsource : source = front ++ (word ++ back))
      (hword : word ≠ []) (hinner : ∀ c ∈ word.tail, endsWord c = false)
      (hback : ∀ c ∈ back.head?, endsWord c = true) :
      CompletedIn source ⟨writtenKind word, word, front.length + word.length⟩
  /-- A string is completed by the first quote that no backslash escapes. -/
  | string {front literal back : List Char} (hsource : source = front ++ '"' :: (literal ++ back))
      (hliteral : literalLength (literal ++ back) = literal.length)
      (hback : ∀ c ∈ back.head?, c = '"') :
      CompletedIn source ⟨.string, unescape literal, front.length + 1 + literal.length⟩

variable {source front rest text run word : List Char} {index : Nat} {l : Lexeme}

theorem Lexeme.CompletedIn.stop_le (h : l.CompletedIn source) : l.stop ≤ source.length := by
  cases h with
  | bracket hsource =>
    rw [hsource, List.length_append]
    exact Nat.le_add_right _ _
  | word hsource =>
    rw [hsource, List.length_append, List.length_append]
    simp only
    omega
  | string hsource =>
    rw [hsource, List.length_append, List.length_cons, List.length_append]
    simp only
    omega

/-! ## Words of a run -/

theorem endsWord_of_runChar {c : Char} (h : isRunChar c = true) : endsWord c = isBracket c := by
  obtain ⟨hseparator, hquote⟩ := isRunChar_iff.1 h
  simp [endsWord, hseparator, hquote]

theorem endsWord_of_not_runChar {c : Char} (h : isRunChar c = false) : endsWord c = true := by
  by_cases hquote : c = '"'
  · simp [endsWord, hquote]
  · have hseparator : isSeparator c = true := by simpa [isRunChar, hquote] using h
    simp [endsWord, hseparator]

/-- The word of a run whose first characters have been read, and those after it. -/
theorem completedIn_of_mem_wordPieces (hsource : source = front ++ (word ++ (run ++ rest)))
    (hword : word ≠ []) (hinner : ∀ c ∈ word.tail, endsWord c = false)
    (hrun : ∀ c ∈ run, isRunChar c = true) (hrest : ∀ c ∈ rest.head?, isRunChar c = false)
    (h : l ∈ wordLexemes front.length (wordPieces word run)) : l.CompletedIn source := by
  -- A bracket ends the word and begins the next one; any other character is added to it.
  induction run generalizing front word with
  | nil =>
    rw [wordPieces_nil, wordLexemes, wordLexemes, List.mem_singleton] at h
    subst h
    exact .word hsource hword hinner fun c hc => endsWord_of_not_runChar (hrest c hc)
  | cons c run ih =>
    have hc : isRunChar c = true := hrun c (by simp)
    have hrun : ∀ d ∈ run, isRunChar d = true := fun d hd => hrun d (by simp [hd])
    by_cases hbracket : isBracket c = true
    · rw [wordPieces_bracket hbracket, wordLexemes, cutAtBrackets_cons, ← List.length_append] at h
      rcases List.mem_cons.1 h with rfl | h
      · rw [List.length_append]
        refine .word hsource hword hinner ?_
        intro d hd
        cases hd
        rw [endsWord_of_runChar hc, hbracket]
      · refine ih ?_ (List.cons_ne_nil c []) (by simp) hrun h
        rw [hsource]
        simp
    · have hends : endsWord c = false := by
        rw [endsWord_of_runChar hc]
        simpa using hbracket
      rw [wordPieces_cons (by simpa using hbracket)] at h
      refine ih ?_ (by simp) ?_ hrun h
      · rw [hsource]
        simp
      · intro d hd
        rw [List.tail_append_of_ne_nil hword] at hd
        rcases List.mem_append.1 hd with hd | hd
        · exact hinner d hd
        · rw [List.mem_singleton.1 hd, hends]

theorem completedIn_of_mem_runLexemes (hsource : source = front ++ (run ++ rest))
    (hrun : ∀ c ∈ run, isRunChar c = true) (hrest : ∀ c ∈ rest.head?, isRunChar c = false)
    (h : l ∈ runLexemes front.length run) : l.CompletedIn source := by
  induction run generalizing front with
  | nil => cases h
  | cons c run ih =>
    have htail : ∀ d ∈ run, isRunChar d = true := fun d hd => hrun d (by simp [hd])
    rw [runLexemes] at h
    split at h
    · rename_i kind hkind
      rcases List.mem_cons.1 h with rfl | h
      · exact .bracket hsource hkind
      · refine @ih (front ++ [c]) ?_ htail ?_
        · rw [hsource]
          simp
        · rwa [List.length_append, List.length_singleton]
    · rw [cutAtBrackets_cons] at h
      refine completedIn_of_mem_wordPieces ?_ (List.cons_ne_nil c []) (by simp) htail hrest h
      rw [hsource]
      simp

/-! ## Literals -/

theorem literalLength_le (text : List Char) : literalLength text ≤ text.length := by
  fun_induction literalLength text with
  | case1 | case2 => simp
  | case3 c rest ih =>
    simp only [List.length_cons]
    omega
  | case4 => simp
  | case5 c rest _ _ _ ih =>
    simp only [List.length_cons]
    omega

/-- A literal ends before a quote, or with the text. -/
theorem head?_drop_literalLength (text : List Char) :
    ∀ c ∈ (text.drop (literalLength text)).head?, c = '"' := by
  fun_induction literalLength text with
  | case1 | case2 => simp
  | case3 _ _ ih => exact ih
  | case4 => simp
  | case5 _ _ _ _ _ ih => exact ih

/-! ## Texts -/

theorem not_runChar_of_head?_dropWhile (text : List Char) :
    ∀ c ∈ (text.dropWhile isRunChar).head?, isRunChar c = false := by
  intro c hc
  have hhead := List.head?_dropWhile_not isRunChar text
  rw [hc] at hhead
  simpa using hhead

/-- What a literal leaves of a text stands right after its closing quote. -/
theorem append_drop_literal (front : List Char) (hclosed : literalLength text < text.length) :
    (front ++ '"' :: text.take (literalLength text + 1)).length =
        front.length + 1 + literalLength text + 1 ∧
      front ++ '"' :: text.take (literalLength text + 1) ++ text.drop (literalLength text + 1) =
        front ++ '"' :: text := by
  refine ⟨?_, by simp⟩
  rw [List.length_append, List.length_cons, List.length_take, Nat.min_eq_left hclosed]
  omega

/-- Every piece of a text is completed where it stops. -/
theorem completedIn_of_mem_lexemesFrom (hsource : source = front ++ text)
    (h : l ∈ lexemesFrom front.length text) : l.CompletedIn source := by
  generalize hindex : front.length = index at h
  fun_induction lexemesFrom index text generalizing front with
  | case1 => cases h
  | case2 index text stop =>
    rename_i ih
    rcases List.mem_cons.1 h with rfl | h
    · have hliteral : text.take (literalLength text) ++ text.drop (literalLength text) = text :=
        List.take_append_drop _ _
      have hlength : (text.take (literalLength text)).length = literalLength text := by
        rw [List.length_take, Nat.min_eq_left (literalLength_le text)]
      have hquoted : source =
          front ++ '"' :: (text.take (literalLength text) ++ text.drop (literalLength text)) := by
        rw [hliteral, hsource]
      have hcompleted := Lexeme.CompletedIn.string hquoted (by rw [hliteral, hlength])
        (head?_drop_literalLength text)
      rw [hlength, hindex] at hcompleted
      exact hcompleted
    · by_cases hclosed : literalLength text < text.length
      · obtain ⟨hlength, hsplit⟩ := append_drop_literal front hclosed
        exact ih (by rw [hsplit, hsource]) (by rw [hlength, hindex]) h
      · -- A literal that is not closed leaves nothing of the text.
        rw [List.drop_eq_nil_of_le (by omega), lexemesFrom_nil] at h
        cases h
  | case3 index c text hquote hseparator ih =>
    exact @ih (front ++ [c]) (by rw [hsource]; simp) (by simp [hindex]) h
  | case4 index c text hquote hseparator run =>
    rename_i ih
    have hc : isRunChar c = true := isRunChar_iff.2 ⟨by simpa using hseparator, hquote⟩
    have hsplit : run ++ text.dropWhile isRunChar = c :: text := by
      simp only [run, List.cons_append, List.takeWhile_append_dropWhile]
    rcases List.mem_append.1 h with h | h
    · have hrun : ∀ d ∈ run, isRunChar d = true := by
        intro d hd
        rcases List.mem_cons.1 hd with rfl | hd
        · exact hc
        · exact List.mem_takeWhile_imp hd
      rw [← hindex] at h
      refine completedIn_of_mem_runLexemes ?_ hrun (not_runChar_of_head?_dropWhile text) h
      rw [hsplit, hsource]
    · refine @ih (front ++ run) ?_ (by rw [List.length_append, hindex]) h
      rw [List.append_assoc, hsplit, hsource]

theorem completedIn_of_mem_lexemes (h : l ∈ lexemes source) : l.CompletedIn source := by
  have hsource : source = [] ++ source := rfl
  exact completedIn_of_mem_lexemesFrom hsource h

/-! ## Each token is completed further on -/

theorem lt_stop_of_mem_wordLexemes {words : List (List Char)} (hwords : [] ∉ words)
    (h : l ∈ wordLexemes index words) : index < l.stop := by
  induction words generalizing index with
  | nil => cases h
  | cons word words ih =>
    have hpos : 0 < word.length := by
      rw [List.length_pos_iff]
      rintro rfl
      exact hwords (by simp)
    rcases List.mem_cons.1 h with rfl | h
    · exact Nat.lt_add_of_pos_right hpos
    · have hlt := ih (fun hnil => hwords (by simp [hnil])) h
      omega

theorem stop_le_of_mem_wordLexemes {words : List (List Char)} (h : l ∈ wordLexemes index words) :
    l.stop ≤ index + words.flatten.length := by
  induction words generalizing index with
  | nil => cases h
  | cons word words ih =>
    rw [List.flatten_cons, List.length_append]
    rcases List.mem_cons.1 h with rfl | h
    · simp only
      omega
    · have hle := ih h
      omega

theorem pairwise_stop_wordLexemes {words : List (List Char)} (hwords : [] ∉ words) :
    (wordLexemes index words).Pairwise (·.stop < ·.stop) := by
  induction words generalizing index with
  | nil => exact .nil
  | cons word words ih =>
    have hothers : [] ∉ words := fun hnil => hwords (by simp [hnil])
    exact .cons (fun l hl => lt_stop_of_mem_wordLexemes hothers hl) (ih hothers)

theorem wordPieces_flatten (word run : List Char) :
    (wordPieces word run).flatten = word ++ run := by
  induction run generalizing word with
  | nil => simp
  | cons c run ih =>
    by_cases hc : isBracket c = true
    · rw [wordPieces_bracket hc, cutAtBrackets_cons, List.flatten_cons, ih]
      rfl
    · rw [wordPieces_cons (by simpa using hc), ih]
      simp

theorem nil_not_mem_wordPieces (hword : word ≠ []) (run : List Char) :
    [] ∉ wordPieces word run := by
  induction run generalizing word with
  | nil => simpa using hword
  | cons c run ih =>
    by_cases hc : isBracket c = true
    · rw [wordPieces_bracket hc, cutAtBrackets_cons]
      simpa using ⟨hword, ih (List.cons_ne_nil c [])⟩
    · rw [wordPieces_cons (by simpa using hc)]
      exact ih (by simp)

/-- The pieces of a run stop in it or right after it. -/
theorem stop_of_mem_runLexemes (h : l ∈ runLexemes index run) :
    index ≤ l.stop ∧ l.stop ≤ index + run.length := by
  induction run generalizing index with
  | nil => cases h
  | cons c run ih =>
    rw [runLexemes] at h
    split at h
    · rcases List.mem_cons.1 h with rfl | h
      · simp
      · have hstop := ih h
        rw [List.length_cons]
        omega
    · rw [cutAtBrackets_cons] at h
      have hlt := lt_stop_of_mem_wordLexemes (nil_not_mem_wordPieces (List.cons_ne_nil c []) run) h
      have hle := stop_le_of_mem_wordLexemes h
      rw [wordPieces_flatten] at hle
      exact ⟨Nat.le_of_lt hlt, hle⟩

theorem pairwise_stop_runLexemes : (runLexemes index run).Pairwise (·.stop < ·.stop) := by
  induction run generalizing index with
  | nil => exact .nil
  | cons c run ih =>
    rw [runLexemes]
    split
    · exact .cons (fun l hl => (stop_of_mem_runLexemes hl).1) ih
    · rw [cutAtBrackets_cons]
      exact pairwise_stop_wordLexemes (nil_not_mem_wordPieces (List.cons_ne_nil c []) run)

theorem le_stop_of_mem_lexemesFrom (h : l ∈ lexemesFrom index text) : index ≤ l.stop := by
  fun_induction lexemesFrom index text with
  | case1 => cases h
  | case2 index text stop ih =>
    rcases List.mem_cons.1 h with rfl | h
    · simp only [stop]
      omega
    · have hle := ih h
      simp only [stop] at hle
      omega
  | case3 index c text _ _ ih => exact Nat.le_of_succ_le (ih h)
  | case4 index c text _ _ run ih =>
    rcases List.mem_append.1 h with h | h
    · exact (stop_of_mem_runLexemes h).1
    · exact Nat.le_of_add_right_le (ih h)

/-- Only a bracket is completed by the first character of a text. -/
theorem lt_stop_of_mem_lexemesFrom (htext : ∀ c ∈ text.head?, isRunChar c = false)
    (h : l ∈ lexemesFrom index text) : index < l.stop := by
  cases text with
  | nil =>
    rw [lexemesFrom_nil] at h
    cases h
  | cons c text =>
    have hc : isRunChar c = false := htext c rfl
    by_cases hquote : c = '"'
    · subst hquote
      rw [lexemesFrom_quote, lexemesInLiteral] at h
      rcases List.mem_cons.1 h with rfl | h
      · simp only
        omega
      · have hle := le_stop_of_mem_lexemesFrom h
        omega
    · have hseparator : isSeparator c = true := by simpa [isRunChar, hquote] using hc
      rw [lexemesFrom_separator hseparator] at h
      exact le_stop_of_mem_lexemesFrom h

theorem pairwise_stop_lexemesFrom (index : Nat) (text : List Char) :
    (lexemesFrom index text).Pairwise (·.stop < ·.stop) := by
  fun_induction lexemesFrom index text with
  | case1 => exact .nil
  | case2 index text stop ih =>
    exact .cons (fun l hl => Nat.lt_of_succ_le (le_stop_of_mem_lexemesFrom hl)) ih
  | case3 index c text _ _ ih => exact ih
  | case4 index c text _ _ run ih =>
    refine List.pairwise_append.2 ⟨pairwise_stop_runLexemes, ih, ?_⟩
    intro l hl m hm
    have hle := (stop_of_mem_runLexemes hl).2
    have hlt := lt_stop_of_mem_lexemesFrom (not_runChar_of_head?_dropWhile text) hm
    omega

/-! ## The order of places -/

/-- A place is on an earlier line than another, or further left on the same line. -/
def Position.Before (p q : Position) : Prop :=
  p.line < q.line ∨ p.line = q.line ∧ p.column < q.column

theorem Position.Before.trans {p q r : Position} (hpq : p.Before q) (hqr : q.Before r) :
    p.Before r := by
  unfold Before at *
  omega

theorem Position.not_before_self (p : Position) : ¬ p.Before p := by
  unfold Before
  omega

theorem Position.before_after (p : Position) (c : Char) : p.Before (p.after c) := by
  unfold after right
  split
  · exact Or.inl (Int.lt_succ p.line)
  · exact Or.inr ⟨rfl, Int.lt_succ p.column⟩

/-- A character stands before those that follow it in the text. -/
theorem Position.before_ofIndex {first second : Nat} (hlt : first < second)
    (hle : second ≤ source.length) :
    (Position.ofIndex source first).Before (.ofIndex source second) := by
  have hstep : ∀ index < source.length,
      (Position.ofIndex source index).Before (.ofIndex source (index + 1)) := by
    intro index hindex
    rw [Position.ofIndex_succ (List.drop_eq_getElem_cons hindex)]
    exact before_after _ _
  induction hlt with
  | refl => exact hstep first hle
  | step _ ih => exact (ih (Nat.le_of_succ_le hle)).trans (hstep _ hle)

/-- Successive tokens of a text are completed at places that come one after another. -/
theorem pairwise_before_lexemes (source : List Char) :
    ((lexemes source).map (Lexeme.token source)).Pairwise
      (fun t u => t.position.Before u.position) := by
  rw [List.pairwise_map]
  refine (pairwise_stop_lexemesFrom 0 source).imp_of_mem ?_
  intro l m _ hm hlt
  exact Position.before_ofIndex hlt (completedIn_of_mem_lexemes hm).stop_le

/-- So are the tokens that a lexer yields, also if it stops early. -/
theorem pairwise_before_tokens (source : List Char) :
    (Lexer.ofSource source).tokens.Pairwise (fun t u => t.position.Before u.position) := by
  rw [Lexer.tokens_ofSource]
  exact (pairwise_before_lexemes source).sublist ((List.takeWhile_sublist _).map _)

/-- No other token of a text stands where one of them does. -/
theorem position_ne_of_tokens {before after : List Token} {t : Token}
    (hsplit : (Lexer.ofSource source).tokens = before ++ t :: after) :
    (∀ w ∈ before, w.position ≠ t.position) ∧ ∀ w ∈ after, w.position ≠ t.position := by
  have hpairs := pairwise_before_tokens source
  rw [hsplit, List.pairwise_append, List.pairwise_cons] at hpairs
  obtain ⟨-, ⟨hafter, -⟩, hbefore⟩ := hpairs
  refine ⟨?_, ?_⟩
  · intro w hw hsame
    have hlt := hbefore w hw t List.mem_cons_self
    rw [hsame] at hlt
    exact t.position.not_before_self hlt
  · intro w hw hsame
    have hlt := hafter w hw
    rw [hsame] at hlt
    exact t.position.not_before_self hlt

/-! ## Reading on past the end -/

/-- Reading more tokens than there are meets the end of the text, and nothing is read after that. -/
theorem Lexer.skip_of_ahead {lexer : Lexer} {ls : List Lexeme} (h : lexer.Ahead source ls)
    (hreadable : ∀ l ∈ ls, l.unreadable? = none) {count : Nat} (hcount : ls.length < count) :
    lexer.skip count = .ok (.exhausted (.ofIndex source source.length)) := by
  induction ls generalizing lexer count with
  | nil =>
    obtain ⟨count, rfl⟩ := Nat.exists_eq_add_of_lt hcount
    have hstep := next_reads h
    generalize hnext : lexer.next = step at hstep
    cases hstep with
    | finished => rw [skip, hnext]
  | cons l ls ih =>
    obtain ⟨count, rfl⟩ : ∃ rest, count = rest + 1 := ⟨count - 1, by omega⟩
    have hstep := next_reads h
    generalize hnext : lexer.next = step at hstep
    cases hstep with
    | token _ _ hahead =>
      rw [skip, hnext]
      exact ih hahead (fun m hm => hreadable m (by simp [hm])) (Nat.lt_of_succ_lt_succ hcount)
    | tooLong hdigits =>
      rw [hreadable l (by simp)] at hdigits
      cases hdigits

@[simp] theorem Lexer.next_exhausted (p : Position) :
    (Lexer.exhausted p).next = .finished (.exhausted p) := by
  rfl

end LineEditor
