import ResourceClasses.Proofs.SymbolFile.Prompt

/-!
Syntax errors point at the first impossible token: those before it are the beginning of the tokens
of entries, and those up to it are not. At the end of a text they say that its tokens are only the
beginning of those of entries.

Main statement: `parse_unexpected`.
-/

set_option autoImplicit false

namespace ResourceClasses.SymbolFile

/-- Whether some tokens are those of entries, which may have the same types and names. -/
structure AreEntries (tokens : List Token) : Prop where
  proper : ∀ token ∈ tokens, token.Proper
  declared : ∃ pieces symbols, tokens = pieces.flatten ∧
    List.Forall₂ (Declares Token.Denotes none) pieces symbols

/-- Whether some tokens can be gone on with to those of entries. -/
def Viable (tokens : List Token) : Prop :=
  ∃ later, AreEntries (tokens ++ later)

/-- Where a syntax error points at in a text, with the line and what is found there: the first token
that no entries can go on with, or the end of a text whose entries are not complete. -/
inductive PointsAt (source : List Char) : Nat → Option String → Prop
  | token {before after : List Token} {token : Token} {front back : List Char}
      (tokenized : Tokenizes source (before ++ token :: after))
      (split : source = front ++ (token.chars ++ back)) (passed : Tokenizes front before)
      (longest : LongestAt (token.chars ++ back) token back) (possible : Viable before)
      (impossible : ¬Viable (before ++ [token])) :
      PointsAt source (front.count '\n' + 1) (some token.text)
  | ending {tokens : List Token} (tokenized : Tokenizes source tokens) (possible : Viable tokens)
      (incomplete : ¬AreEntries tokens) : PointsAt source (source.count '\n' + 1) none

/-- How a syntax error names what is found. -/
def foundText : Option String → String
  | some text => "`" ++ text ++ "`"
  | none => "end of input"

/-- Whether entries are taken one after another until nothing is left. -/
inductive Complete (endLine : Nat) : List Lexeme → Prop
  | done : Complete endLine []
  | entry {found rest : List Lexeme} {entry : Entry}
      (taken : takeEntry endLine found = .ok (entry, rest)) (later : Complete endLine rest) :
      Complete endLine found

section

variable {endLine : Nat} {found front rest : List Lexeme}

/-- What is longest at the front of a text is what its own text is read as. -/
theorem LongestAt.proper {text after : List Char} {token : Token}
    (first : LongestAt text token after) : token.Proper where
  allowed := first.begins.allowed
  plain := by
    rintro word rfl
    have split : text = word ++ after := first.begins.split
    unfold Token.ofWord
    split
    · rename_i same
      have int : Begins text .int after := ⟨trivial, same ▸ split⟩
      rcases first.keyword _ _ int (congrArg List.length same.symm) with same | same | same <;>
        contradiction
    · split
      · rename_i same
        have intArray : Begins text .intArray after := ⟨trivial, same ▸ split⟩
        rcases first.keyword _ _ intArray (congrArg List.length same.symm) with
          same | same | same <;> contradiction
      · rfl

theorem Located.allProper {line : Nat} {text : List Char} (located : Located line text found) :
    AllProper found := by
  induction located with
  | done => exact List.forall_mem_nil _
  | blank _ _ ih => exact ih
  | token first _ ih => exact List.forall_mem_cons.mpr ⟨first.proper, ih⟩

/-- Behind an entry, the tokens are complete exactly if those that follow are. -/
private theorem complete_append {entry : Entry}
    (consumes : Consumes (takeEntry endLine) front entry) :
    Complete endLine (front ++ rest) ↔ Complete endLine rest := by
  constructor
  · intro complete
    generalize whole : front ++ rest = found at complete
    have taken := consumes rest
    rw [whole] at taken
    cases complete with
    | done => contradiction
    | entry other later =>
      rw [taken, Except.ok.injEq, Prod.mk.injEq] at other
      exact other.2 ▸ later
  · exact .entry (consumes rest)

private theorem exists_pieces_of_complete (complete : Complete endLine found) :
    ∃ pieces symbols, found.map Lexeme.token = pieces.flatten ∧
      List.Forall₂ (Declares IsRead none) pieces symbols := by
  induction complete with
  | done => exact ⟨[], [], rfl, .nil⟩
  | entry taken _ ih =>
    obtain ⟨pieces, symbols, spelled, each⟩ := ih
    obtain ⟨front, rfl, declares, -⟩ := declares_of_takeEntry none taken
    refine ⟨_ :: pieces, _ :: symbols, ?_, .cons declares each⟩
    rw [List.map_append, spelled, List.flatten_cons]

private theorem complete_of_pieces {pieces : List (List Token)}
    {symbols : List (ResourceType × Symbol)}
    (each : List.Forall₂ (Declares IsRead none) pieces symbols)
    (spelled : found.map Lexeme.token = pieces.flatten) : Complete endLine found := by
  induction each generalizing found with
  | nil =>
    rw [List.map_eq_nil_iff.mp spelled]
    exact .done
  | cons declares _ ih =>
    rw [List.flatten_cons] at spelled
    obtain ⟨front, rest, rfl, piece, others⟩ := List.map_eq_append_iff.mp spelled
    obtain ⟨entry, taken, -⟩ := takeEntry_of_declares declares piece
    exact .entry taken (ih others)

/-- Proper tokens are those of entries exactly if they are taken as entries. -/
theorem areEntries_iff (proper : AllProper found) :
    AreEntries (found.map Lexeme.token) ↔ Complete endLine found := by
  have proper_tokens : ∀ token ∈ found.map Lexeme.token, token.Proper :=
    List.forall_mem_map.mpr proper
  constructor
  · rintro ⟨-, pieces, symbols, spelled, each⟩
    refine complete_of_pieces (forall₂_declares_imp each ?_) spelled
    intro token member value
    exact (isRead_iff (proper_tokens token (spelled ▸ member)).allowed).mpr
  · intro complete
    obtain ⟨pieces, symbols, spelled, each⟩ := exists_pieces_of_complete complete
    refine ⟨proper_tokens, pieces, symbols, spelled, forall₂_declares_imp each ?_⟩
    intro token member value
    exact (isRead_iff (proper_tokens token (spelled ▸ member)).allowed).mp

/-- Whether entries have to stop between some tokens and others: those that begin with the former
can be complete, but none that go on with the first of the latter are. -/
structure EntriesStop (endLine : Nat) (front rest : List Lexeme) : Prop where
  possible : ∃ later, AllProper later ∧ Complete endLine (front ++ later)
  impossible : ∀ other, other.head? = rest.head? → ¬Complete endLine (front ++ other)

private theorem EntriesStop.behind {passed : List Lexeme} {entry : Entry}
    (consumes : Consumes (takeEntry endLine) passed entry) (stop : EntriesStop endLine front rest) :
    EntriesStop endLine (passed ++ front) rest where
  possible := by
    obtain ⟨later, proper, complete⟩ := stop.possible
    refine ⟨later, proper, ?_⟩
    rw [List.append_assoc]
    exact (complete_append consumes).mpr complete
  impossible := by
    intro other head complete
    rw [List.append_assoc, complete_append consumes] at complete
    exact stop.impossible other head complete

/-- Where an entry stops, entries do: there are tokens that are no entry. -/
private theorem StopsBetween.entriesStop (some_token : front ++ rest ≠ [])
    (stops : StopsBetween (takeEntry endLine) front rest) : EntriesStop endLine front rest where
  possible := by
    obtain ⟨later, entry, proper, consumes⟩ := stops.possible
    refine ⟨later, proper, ?_⟩
    rw [← List.append_nil (front ++ later)]
    exact (complete_append consumes).mpr .done
  impossible := by
    intro other head complete
    generalize whole : front ++ other = found at complete
    cases complete with
    | done =>
      obtain ⟨rfl, rfl⟩ := List.append_eq_nil_iff.mp whole
      exact some_token (List.head?_eq_none_iff.mp head.symm)
    | entry taken _ =>
      rw [← whole] at taken
      exact stops.impossible other head _ taken

private theorem exists_entriesStop {dependency : Option String} {line : Nat}
    {expected : SymbolExpectation} {what : Option String}
    {state : FieldTable Symbol × List Lexeme}
    (fails : StepFails (nextEntry endLine dependency) state (.unexpected line expected what)) :
    ∃ front rest, state.2 = front ++ rest ∧ Blames endLine rest line what ∧
      EntriesStop endLine front rest := by
  generalize same : SymbolFileError.unexpected line expected what = e at fails
  induction fails with
  | @here state e failed =>
    obtain ⟨table, found⟩ := state
    cases found with
    | nil => contradiction
    | cons lexeme later =>
      rcases bind_eq_error_iff.mp failed with stopped | ⟨⟨entry, after⟩, -, known⟩
      · rw [← same] at stopped
        obtain ⟨front, rest, split, blames, stops⟩ := prompt_takeEntry.stops stopped
        have some_token : front ++ rest ≠ [] := by
          rw [← split]
          exact List.cons_ne_nil _ _
        exact ⟨front, rest, split, blames, stops.entriesStop some_token⟩
      · -- The symbol of an entry that is taken is refused for another reason.
        dsimp only at known
        rw [← same] at known
        split at known <;> cases known
  | @later state _ entry _ taken _ ih =>
    obtain ⟨table, found⟩ := state
    obtain ⟨entry_taken, -⟩ := nextEntry_eq_item_iff.mp taken
    obtain ⟨passed, rfl, consumes⟩ := prompt_takeEntry.consumes entry_taken
    obtain ⟨front, rest, split, blames, stop⟩ := ih same
    refine ⟨passed ++ front, rest, ?_, blames, stop.behind consumes⟩
    rw [split, List.append_assoc]

/-- Reading tokens fails at a character that is in none. -/
private theorem unexpectedChar_of_lexemes {source : List Char} {e : SymbolFileError}
    (failed : lexemes source = .error e) : ∃ line c, e = .unexpectedChar line c := by
  rcases bind_eq_error_iff.mp failed with stopped | ⟨_, -, never⟩
  · have fails := (collect_eq_error_iff nextLexeme_shrinks).mp stopped
    clear stopped failed
    generalize (1, source) = state at fails
    induction fails with
    | here failed =>
      unfold nextLexeme at failed
      split at failed
      · contradiction
      · split at failed
        · contradiction
        · cases failed
          exact ⟨_, _, rfl⟩
    | later _ _ ih => exact ih
  · contradiction

/-- Where entries stop in the tokens of a text, the text is pointed at. -/
private theorem EntriesStop.pointsAt {source : List Char} {line : Nat} {what : Option String}
    (located : Located 1 source (front ++ rest))
    (blames : Blames (SymbolFile.endLine source) rest line what)
    (stop : EntriesStop (SymbolFile.endLine source) front rest) : PointsAt source line what := by
  have proper := List.forall_mem_append.mp located.allProper
  have possible : Viable (front.map Lexeme.token) := by
    obtain ⟨later, proper_later, complete⟩ := stop.possible
    refine ⟨later.map Lexeme.token, ?_⟩
    rw [← List.map_append]
    exact (areEntries_iff (AllProper.append proper.1 proper_later)).mpr complete
  have tokenized := located.tokenizes
  rw [List.map_append] at tokenized
  cases blames with
  | lexeme lexeme back =>
    obtain ⟨before, after, split, passed, longest, counted⟩ := located.exists_split
    rw [counted, Nat.add_comm]
    refine .token tokenized split passed.tokenizes longest possible ?_
    rintro ⟨more, entries⟩
    -- The tokens of these entries begin with those of the text, whatever lines the others have.
    have same : (front ++ lexeme :: more.map fun token => ⟨token, 0⟩).map Lexeme.token =
        front.map Lexeme.token ++ [lexeme.token] ++ more := by
      simp [Function.comp_def]
    rw [← same] at entries
    refine stop.impossible (lexeme :: more.map fun token => ⟨token, 0⟩) rfl ?_
    exact (areEntries_iff (List.forall_mem_map.mp entries.proper)).mp entries
  | ending =>
    rw [List.append_nil] at located
    rw [List.map_nil, List.append_nil] at tokenized
    refine .ending tokenized possible ?_
    intro entries
    refine stop.impossible [] rfl ?_
    rw [List.append_nil]
    exact (areEntries_iff located.allProper).mp entries

end

/-- What is found stands at the end of the reason, with backquotes around the text of a token. -/
theorem reason_unexpected (line : Nat) (expected : SymbolExpectation) (found : Option String) :
    (SymbolFileError.unexpected line expected found).reason =
      "expected " ++ expected.text ++ ", found " ++ foundText found := by
  cases found with
  | none =>
    have reason : (SymbolFileError.unexpected line expected none).reason =
        "expected " ++ expected.text ++ (", found " ++ "end of input") := rfl
    rw [reason, ← String.append_assoc]
    rfl
  | some text =>
    have reason : (SymbolFileError.unexpected line expected (some text)).reason =
        "expected " ++ expected.text ++ (", found " ++ "`") ++ text ++ "`" := rfl
    rw [reason, foundText]
    simp only [String.append_assoc]

/-- A text that is refused for something unexpected is one that has tokens, and the error points at
the first of them that no entries can go on with, or at the end if all of them are only the
beginning of those of entries; it names the text of this token, or the end. -/
theorem parse_unexpected {source : String} {dependency : Option String} {line : Nat}
    {expected : SymbolExpectation} {found : Option String}
    (refused : parse source dependency = .error (.unexpected line expected found)) :
    PointsAt source.toList line found ∧
      (SymbolFileError.unexpected line expected found).reason =
        "expected " ++ expected.text ++ ", found " ++ foundText found := by
  refine ⟨?_, reason_unexpected line expected found⟩
  rcases bind_eq_error_iff.mp refused with unread | ⟨tokens, read, refused⟩
  · obtain ⟨_, _, never⟩ := unexpectedChar_of_lexemes unread
    contradiction
  · rcases bind_eq_error_iff.mp refused with stopped | ⟨_, -, never⟩
    · have fails := (collect_eq_error_iff (nextEntry_shrinks dependency)).mp stopped
      obtain ⟨front, rest, rfl, blames, stop⟩ := exists_entriesStop fails
      exact stop.pointsAt (lexemes_eq_ok_iff.mp read) blames
    · contradiction

/-- A source with two values and no comma between them. -/
def unseparated : String :=
  "int[] id\n  pair \x7b1 2\x7d"

theorem parse_unexpected_unseparated :
    parse unseparated none = .error (.unexpected 2 .separator (some "2")) ∧
      PointsAt unseparated.toList 2 (some "2") := by
  have failed : (parse unseparated none).map (fun _ => ()) =
      .error (.unexpected 2 .separator (some "2")) := by decide +kernel
  have refused : parse unseparated none = .error (.unexpected 2 .separator (some "2")) := by
    cases result : parse unseparated none with
    | ok table =>
      rw [result] at failed
      contradiction
    | error e =>
      rw [result] at failed
      exact congrArg Except.error (Except.error.inj failed)
  exact ⟨refused, (parse_unexpected refused).1⟩

end ResourceClasses.SymbolFile
