import ResourceClasses.Proofs.SymbolFile.Tokens

/-!
The tokens of a text with their lines: reading a text gives its tokens by the longest match, each
with the line where it starts, and two texts with a line break between them have the tokens of both,
those of the second one so many lines later.
-/

set_option autoImplicit false

namespace ResourceClasses.SymbolFile

/-- The line behind a character. -/
def lineAfter (line : Nat) (c : Char) : Nat :=
  if c = '\n' then line + 1 else line

/-- The tokens of a text with their lines, when the text starts in a given line. -/
inductive Located : Nat → List Char → List Lexeme → Prop
  | done {line : Nat} : Located line [] []
  | blank {line : Nat} {c : Char} {text : List Char} {found : List Lexeme}
      (separates : Token.isBlank c = true) (later : Located (lineAfter line c) text found) :
      Located line (c :: text) found
  | token {line : Nat} {text rest : List Char} {token : Token} {found : List Lexeme}
      (first : LongestAt text token rest) (later : Located line rest found) :
      Located line text (⟨token, line⟩ :: found)

section

variable {text rest cs : List Char} {c : Char} {token : Token} {line : Nat} {found : List Lexeme}
  {tokens : List Token}

namespace Located

private theorem nil_iff : Located line [] found ↔ found = [] := by
  constructor
  · intro located
    cases located with
    | done => rfl
    | token first => exact absurd first.begins not_begins_nil
  · rintro rfl
    exact .done

private theorem blank_iff (blank : Token.isBlank c = true) :
    Located line (c :: cs) found ↔ Located (lineAfter line c) cs found := by
  constructor
  · intro located
    cases located with
    | blank _ later => exact later
    | token first => exact absurd first.begins (not_begins_of_isBlank blank)
  · exact .blank blank

private theorem token_iff (first : LongestAt text token rest) :
    Located line text found ↔
      ∃ later, found = ⟨token, line⟩ :: later ∧ Located line rest later := by
  constructor
  · intro located
    cases located with
    | done => exact absurd first.begins not_begins_nil
    | blank blank _ => exact absurd first.begins (not_begins_of_isBlank blank)
    | token other later =>
      obtain ⟨rfl, rfl⟩ := first.unique other
      exact ⟨_, rfl, later⟩
  · rintro ⟨later, rfl, located⟩
    exact .token first located

private theorem not_of_missing (visible : Token.isBlank c = false)
    (missing : ∀ token rest, ¬Begins (c :: cs) token rest) : ¬Located line (c :: cs) found := by
  intro located
  cases located with
  | blank blank =>
    rw [visible] at blank
    contradiction
  | token first => exact missing _ _ first.begins

theorem tokenizes (located : Located line text found) :
    Tokenizes text (found.map Lexeme.token) := by
  induction located with
  | done => exact .done
  | blank separates _ ih => exact .blank separates ih
  | token first _ ih => exact .token first ih

theorem exists_of_tokenizes (tokenized : Tokenizes text tokens) (line : Nat) :
    ∃ found, Located line text found ∧ found.map Lexeme.token = tokens := by
  induction tokenized generalizing line with
  | done => exact ⟨[], .done, rfl⟩
  | blank separates _ ih =>
    obtain ⟨found, later, same⟩ := ih (lineAfter line _)
    exact ⟨found, .blank separates later, same⟩
  | token first _ ih =>
    obtain ⟨found, later, same⟩ := ih line
    exact ⟨_, .token first later, congrArg _ same⟩

end Located

/-- Skipping blanks leaves the tokens as they are, and stops at the first character that is none. -/
private theorem skipBlanks_spec (line : Nat) (text : List Char) :
    (∀ found, Located (skipBlanks line text).1 (skipBlanks line text).2 found ↔
        Located line text found) ∧
      (skipBlanks line text).2.length ≤ text.length ∧
      ∀ c rest, (skipBlanks line text).2 = c :: rest → Token.isBlank c = false := by
  induction text generalizing line with
  | nil =>
    refine ⟨fun _ => Iff.rfl, Nat.le_refl _, ?_⟩
    intro c rest same
    contradiction
  | cons c cs ih =>
    by_cases blank : Token.isBlank c = true
    · have skipped : skipBlanks line (c :: cs) = skipBlanks (lineAfter line c) cs := by
        rw [skipBlanks, if_pos blank, lineAfter]
        split <;> rfl
      obtain ⟨same, shorter, visible⟩ := ih (lineAfter line c)
      rw [skipped]
      refine ⟨fun found => ?_, Nat.le_succ_of_le shorter, visible⟩
      rw [same, Located.blank_iff blank]
    · have kept : skipBlanks line (c :: cs) = (line, c :: cs) := by
        rw [skipBlanks, if_neg, if_neg blank]
        rintro rfl
        exact blank rfl
      rw [kept]
      refine ⟨fun _ => Iff.rfl, Nat.le_refl _, ?_⟩
      intro other rest same
      rw [← (List.cons.inj same).1]
      exact Bool.eq_false_iff.mpr blank

/-- What a step of reading tokens says about the tokens of the text that it is at. -/
private inductive Reads (state : Nat × List Char) :
    Except SymbolFileError (Step Lexeme (Nat × List Char)) → Prop
  | done {last : Nat × List Char} (only : ∀ found, Located state.1 state.2 found ↔ found = []) :
      Reads state (.ok (.done last))
  | item {lexeme : Lexeme} {rest : Nat × List Char} (shorter : rest.2.length < state.2.length)
      (only : ∀ found, Located state.1 state.2 found ↔
        ∃ later, found = lexeme :: later ∧ Located rest.1 rest.2 later) :
      Reads state (.ok (.item lexeme rest))
  | error {e : SymbolFileError} (never : ∀ found, ¬Located state.1 state.2 found) :
      Reads state (.error e)

private theorem reads_nextLexeme (state : Nat × List Char) : Reads state (nextLexeme state) := by
  obtain ⟨line, text⟩ := state
  obtain ⟨same, shorter, visible⟩ := skipBlanks_spec line text
  unfold nextLexeme
  rcases skipped : skipBlanks line text with ⟨next, _ | ⟨c, rest⟩⟩
  · rw [skipped] at same
    refine .done fun found => ?_
    rw [← same, Located.nil_iff]
  · rw [skipped] at same shorter visible
    have first := isFirst_first? (c :: rest)
    dsimp only
    cases read : Token.first? (c :: rest) with
    | none =>
      rw [read] at first
      refine .error fun found => ?_
      rw [← same]
      exact Located.not_of_missing (visible c rest rfl) first
    | some taken =>
      rw [read] at first
      refine .item (Nat.lt_of_lt_of_le first.shorter shorter) fun found => ?_
      rw [← same, Located.token_iff first]

theorem nextLexeme_shrinks (state : Nat × List Char) (lexeme : Lexeme)
    (rest : Nat × List Char) (step : nextLexeme state = .ok (.item lexeme rest)) :
    rest.2.length < state.2.length := by
  have reads := reads_nextLexeme state
  rw [step] at reads
  cases reads with
  | item shorter => exact shorter

private theorem located_of_collects {state last : Nat × List Char}
    (collects : Collects nextLexeme state found last) : Located state.1 state.2 found := by
  induction collects with
  | @done state _ ends =>
    have reads := reads_nextLexeme state
    rw [ends] at reads
    cases reads with
    | done only => exact (only _).mpr rfl
  | @item state _ _ _ _ taken _ ih =>
    have reads := reads_nextLexeme state
    rw [taken] at reads
    cases reads with
    | item _ only => exact (only _).mpr ⟨_, rfl, ih⟩

/-- Where a text has tokens, reading it ends or goes on as they do. -/
private theorem step_of_located {state : Nat × List Char}
    (located : Located state.1 state.2 found) :
    (found = [] ∧ ∃ last, nextLexeme state = .ok (.done last)) ∨
      ∃ lexeme rest later, nextLexeme state = .ok (.item lexeme rest) ∧
        found = lexeme :: later ∧ Located rest.1 rest.2 later := by
  have reads := reads_nextLexeme state
  generalize nextLexeme state = result at reads
  cases reads with
  | done only => exact .inl ⟨(only _).mp located, _, rfl⟩
  | item _ only =>
    obtain ⟨later, split, left⟩ := (only _).mp located
    exact .inr ⟨_, _, later, rfl, split, left⟩
  | error never => exact absurd located (never _)

private theorem exists_collects_of_located {state : Nat × List Char}
    (located : Located state.1 state.2 found) :
    ∃ last, Collects nextLexeme state found last := by
  induction found generalizing state with
  | nil =>
    rcases step_of_located located with ⟨-, last, step⟩ | ⟨_, _, _, -, never, -⟩
    · exact ⟨last, .done step⟩
    · contradiction
  | cons lexeme later ih =>
    rcases step_of_located located with ⟨never, -⟩ | ⟨_, rest, _, step, split, left⟩
    · contradiction
    · obtain ⟨rfl, rfl⟩ := List.cons.inj split
      obtain ⟨last, collects⟩ := ih left
      exact ⟨last, .item step collects⟩

/-- Reading a text gives its tokens with their lines. -/
theorem lexemes_eq_ok_iff {source : List Char} :
    lexemes source = .ok found ↔ Located 1 source found := by
  constructor
  · intro read
    obtain ⟨⟨_, last⟩, collected, same⟩ := bind_eq_ok_iff.mp read
    cases same
    exact located_of_collects ((collect_eq_ok_iff nextLexeme_shrinks).mp collected)
  · intro located
    obtain ⟨last, collects⟩ := @exists_collects_of_located found (1, source) located
    exact bind_eq_ok_iff.mpr ⟨_, (collect_eq_ok_iff nextLexeme_shrinks).mpr collects, rfl⟩

/-- Where reading a text ends before the text does: at a character that is no blank and that no
token starts with. -/
inductive Stuck : Nat → List Char → SymbolFileError → Prop
  | here {line : Nat} {c : Char} {text : List Char} (visible : Token.isBlank c = false)
      (missing : ∀ token rest, ¬Begins (c :: text) token rest) :
      Stuck line (c :: text) (.unexpectedChar line c)
  | blank {line : Nat} {c : Char} {text : List Char} {e : SymbolFileError}
      (separates : Token.isBlank c = true) (later : Stuck (lineAfter line c) text e) :
      Stuck line (c :: text) e
  | token {line : Nat} {text rest : List Char} {token : Token} {e : SymbolFileError}
      (first : LongestAt text token rest) (later : Stuck line rest e) : Stuck line text e

private theorem nextLexeme_blank (blank : Token.isBlank c = true) :
    nextLexeme (line, c :: cs) = nextLexeme (lineAfter line c, cs) := by
  have skipped : skipBlanks line (c :: cs) = skipBlanks (lineAfter line c) cs := by
    rw [skipBlanks, if_pos blank, lineAfter]
    split <;> rfl
  rw [nextLexeme, skipped]
  rfl

private theorem nextLexeme_visible (visible : Token.isBlank c = false) :
    nextLexeme (line, c :: cs) =
      (Token.first? (c :: cs)).elim (.error (.unexpectedChar line c)) fun found =>
        .ok (.item ⟨found.1, line⟩ (line, found.2)) := by
  have kept : skipBlanks line (c :: cs) = (line, c :: cs) := by
    have no_break : c ≠ '\n' := by
      rintro rfl
      contradiction
    rw [skipBlanks, if_neg no_break, visible, if_neg Bool.false_ne_true]
  rw [nextLexeme, kept]
  dsimp only
  cases Token.first? (c :: cs) <;> rfl

private theorem nextLexeme_token (first : LongestAt text token rest) :
    nextLexeme (line, text) = .ok (.item ⟨token, line⟩ (line, rest)) := by
  cases text with
  | nil => exact absurd first.begins not_begins_nil
  | cons c cs =>
    have visible : Token.isBlank c = false := by
      rw [Bool.eq_false_iff]
      exact fun blank => not_begins_of_isBlank blank first.begins
    have read := isFirst_first? (c :: cs)
    rw [nextLexeme_visible visible]
    generalize Token.first? (c :: cs) = taken at read ⊢
    cases taken with
    | none => exact absurd first.begins (read _ _)
    | some found =>
      obtain ⟨rfl, rfl⟩ := first.unique read
      rfl

private theorem collect_of_stuck {e : SymbolFileError} (stuck : Stuck line text e) :
    collect (fun state => state.2.length) nextLexeme (line, text) = .error e := by
  induction stuck with
  | @here line c text visible missing =>
    have read := isFirst_first? (c :: text)
    rw [collect_eq _ nextLexeme_shrinks, nextLexeme_visible visible]
    generalize Token.first? (c :: text) = taken at read ⊢
    cases taken with
    | none => rfl
    | some found => exact absurd read.begins (missing _ _)
  | blank separates _ ih =>
    rw [collect_eq _ nextLexeme_shrinks] at ih ⊢
    rw [nextLexeme_blank separates]
    exact ih
  | token first _ ih =>
    rw [collect_eq _ nextLexeme_shrinks, nextLexeme_token first]
    dsimp only
    rw [ih]
    rfl

/-- Reading a text stops where it is stuck. -/
theorem lexemes_of_stuck {source : List Char} {e : SymbolFileError} (stuck : Stuck 1 source e) :
    lexemes source = .error e := by
  rw [lexemes, collect_of_stuck stuck]
  rfl

/-- The tokens of a text that can be read are its tokens by the longest match, and a text that has
such tokens can be read. -/
theorem lexemes_iff (source : List Char) (tokens : List Token) :
    (∃ found, lexemes source = .ok found ∧ found.map Lexeme.token = tokens) ↔
      Tokenizes source tokens := by
  constructor
  · rintro ⟨found, read, rfl⟩
    exact (lexemes_eq_ok_iff.mp read).tokenizes
  · intro tokenized
    obtain ⟨found, located, same⟩ := Located.exists_of_tokenizes tokenized 1
    exact ⟨found, lexemes_eq_ok_iff.mpr located, same⟩

private theorem Token.Allowed.count_break (allowed : token.Allowed) :
    token.chars.count '\n' = 0 := by
  apply List.count_eq_zero_of_not_mem
  intro inside
  have visible := allowed.not_isBlank _ inside
  contradiction

private theorem lineAfter_add_count (line : Nat) (c : Char) (text : List Char) :
    lineAfter line c + text.count '\n' = line + (c :: text).count '\n' := by
  rw [List.count_cons, lineAfter]
  by_cases breaks : c = '\n'
  · simp [breaks]
    omega
  · simp [breaks]

/-- A lexeme so many lines later. -/
def Lexeme.later (count : Nat) (lexeme : Lexeme) : Lexeme :=
  { lexeme with line := lexeme.line + count }

namespace Located

/-- A text that starts so many lines later has its tokens so many lines later. -/
theorem later (located : Located line text found) (count : Nat) :
    Located (line + count) text (found.map (Lexeme.later count)) := by
  induction located with
  | done => exact .done
  | @blank line c _ _ separates _ ih =>
    have moved : lineAfter (line + count) c = lineAfter line c + count := by
      unfold lineAfter
      split <;> omega
    exact .blank separates (moved ▸ ih)
  | token first _ ih => exact .token first ih

/-- Two texts with a line break between them have the tokens of both. -/
theorem append_break {more : List Char} {others : List Lexeme} (located : Located line text found)
    (behind : Located (line + text.count '\n' + 1) more others) :
    Located line (text ++ '\n' :: more) (found ++ others) := by
  induction located with
  | @done line => exact .blank rfl behind
  | @blank line c text _ separates _ ih =>
    rw [← lineAfter_add_count] at behind
    exact .blank separates (ih behind)
  | @token line text rest token _ first _ ih =>
    rw [first.begins.split, List.count_append, first.begins.allowed.count_break,
      Nat.zero_add] at behind
    exact .token (first.append_break more) (ih behind)

/-- A text splits at each of its tokens: the text before it has the tokens before it, and its line
breaks tell the line. -/
theorem exists_split {front back : List Lexeme} {lexeme : Lexeme}
    (located : Located line text (front ++ lexeme :: back)) :
    ∃ before after, text = before ++ (lexeme.token.chars ++ after) ∧ Located line before front ∧
      LongestAt (lexeme.token.chars ++ after) lexeme.token after ∧
      lexeme.line = line + before.count '\n' := by
  generalize whole : front ++ lexeme :: back = found at located
  induction located generalizing front with
  | done => simp at whole
  | @blank line c text _ separates _ ih =>
    obtain ⟨before, after, rfl, earlier, longest, counted⟩ := ih whole
    refine ⟨c :: before, after, rfl, .blank separates earlier, longest, ?_⟩
    rw [counted, lineAfter_add_count]
  | @token line text rest token _ first _ ih =>
    cases front with
    | nil =>
      obtain ⟨rfl, -⟩ := List.cons.inj whole
      exact ⟨[], rest, first.begins.split, .done, first.begins.split ▸ first, rfl⟩
    | cons head front =>
      obtain ⟨rfl, later⟩ := List.cons.inj whole
      obtain ⟨before, after, rfl, earlier, longest, counted⟩ := ih later
      have split := first.begins.split
      rw [← List.append_assoc] at split
      refine ⟨token.chars ++ before, after, split, ?_, longest, ?_⟩
      · rw [split] at first
        exact .token first.of_append earlier
      · rw [counted, List.count_append, first.begins.allowed.count_break, Nat.zero_add]

end Located

end

end ResourceClasses.SymbolFile
