import ResourceClasses.Proofs.SymbolFile.Concatenation
import ResourceClasses.Proofs.SymbolFile.Spacing

/-!
Readers of tokens that stop in time: where such a reader finds something unexpected, the tokens
before it can be gone on with so that the reader takes them, and those before it together with what
is found cannot, whatever follows.

Main statement: `prompt_takeEntry`.
-/

set_option autoImplicit false

namespace ResourceClasses.SymbolFile

/-- A reader of tokens: its result, and what follows the tokens that it takes. -/
abbrev Taker (α : Type) : Type :=
  List Lexeme → Except SymbolFileError (α × List Lexeme)

/-- Whether all of some tokens are those that their texts are read as. -/
def AllProper (found : List Lexeme) : Prop :=
  ∀ lexeme ∈ found, lexeme.token.Proper

/-- What is blamed in front of some tokens: the first one, or the end, in the given line. -/
inductive Blames (endLine : Nat) : List Lexeme → Nat → Option String → Prop
  | lexeme (lexeme : Lexeme) (rest : List Lexeme) :
      Blames endLine (lexeme :: rest) lexeme.line (some lexeme.token.text)
  | ending : Blames endLine [] endLine none

section

variable {α β : Type} {endLine : Nat} {take next : Taker α} {passed front rest : List Lexeme}
  {value : α}

/-- Whether a reader takes some tokens and no more of them, whatever follows. -/
def Consumes (take : Taker α) (front : List Lexeme) (value : α) : Prop :=
  ∀ rest, take (front ++ rest) = .ok (value, rest)

/-- Whether a reader takes some tokens when the right ones follow them. -/
def Completable (take : Taker α) (front : List Lexeme) : Prop :=
  ∃ later value, AllProper later ∧ Consumes take (front ++ later) value

/-- Whether a reader has to stop between some tokens and others: it can take what begins with the
former, but nothing that goes on with the first of the latter. -/
structure StopsBetween (take : Taker α) (front rest : List Lexeme) : Prop where
  possible : Completable take front
  impossible : ∀ other, other.head? = rest.head? → ∀ result, take (front ++ other) ≠ .ok result

/-- Whether a reader has to stop somewhere in some tokens, and what is found there is blamed. -/
def StopsIn (endLine : Nat) (take : Taker α) (found : List Lexeme) (line : Nat)
    (what : Option String) : Prop :=
  ∃ front rest, found = front ++ rest ∧ Blames endLine rest line what ∧
    StopsBetween take front rest

/-- Whether a reader takes some tokens, and stops where it has to if it finds something
unexpected. -/
structure Prompt (endLine : Nat) (take : Taker α) : Prop where
  consumes : ∀ {found value rest}, take found = .ok (value, rest) →
    ∃ front, found = front ++ rest ∧ Consumes take front value
  possible : Completable take []
  stops : ∀ {found line expected what}, take found = .error (.unexpected line expected what) →
    StopsIn endLine take found line what

theorem AllProper.append {first second : List Lexeme} (one : AllProper first)
    (other : AllProper second) : AllProper (first ++ second) :=
  List.forall_mem_append.mpr ⟨one, other⟩

theorem blames_of_unexpected {found : List Lexeme} {line : Nat}
    {wanted expected : SymbolExpectation} {what : Option String}
    (failed : (unexpected endLine wanted found : Except SymbolFileError α) =
      .error (.unexpected line expected what)) : Blames endLine found line what := by
  cases found <;> cases failed <;> constructor

/-- A reader that goes on behind some tokens as another one does takes what that one takes. -/
theorem Consumes.behind (same : ∀ rest, take (passed ++ rest) = next rest)
    (consumes : Consumes next front value) : Consumes take (passed ++ front) value := by
  intro rest
  rw [List.append_assoc, same]
  exact consumes rest

theorem Completable.behind (same : ∀ rest, take (passed ++ rest) = next rest)
    (possible : Completable next front) : Completable take (passed ++ front) := by
  obtain ⟨later, value, proper, consumes⟩ := possible
  refine ⟨later, value, proper, ?_⟩
  rw [List.append_assoc]
  exact consumes.behind same

theorem StopsIn.behind {found : List Lexeme} {line : Nat} {what : Option String}
    (same : ∀ rest, take (passed ++ rest) = next rest)
    (stops : StopsIn endLine next found line what) :
    StopsIn endLine take (passed ++ found) line what := by
  obtain ⟨front, rest, rfl, blames, between⟩ := stops
  refine ⟨passed ++ front, rest, (List.append_assoc _ _ _).symm, blames,
    between.possible.behind same, ?_⟩
  intro other head
  rw [List.append_assoc, same]
  exact between.impossible other head

/-- The reader that goes on behind another one, as the result of that one asks for. -/
def takeThen (take : Taker α) (next : α → Taker β) : Taker β := fun found =>
  take found >>= fun taken => next taken.1 taken.2

theorem Consumes.andThen {next : α → Taker β} (consumes : Consumes take front value)
    (rest : List Lexeme) : takeThen take next (front ++ rest) = next value rest := by
  rw [takeThen, consumes rest]
  rfl

theorem Completable.andThen {next : α → Taker β} (possible : Completable take front)
    (goes_on : ∀ value, Completable (next value) []) : Completable (takeThen take next) front := by
  obtain ⟨later, value, proper, one⟩ := possible
  obtain ⟨last, result, proper_last, other⟩ := goes_on value
  refine ⟨later ++ last, result, proper.append proper_last, ?_⟩
  rw [← List.append_assoc]
  exact other.behind one.andThen

/-- Where a reader stops, so does what it begins, if that can be gone on with from any result. -/
theorem StopsIn.andThen {next : α → Taker β} {found : List Lexeme} {line : Nat}
    {what : Option String} (stops : StopsIn endLine take found line what)
    (goes_on : ∀ value, Completable (next value) []) :
    StopsIn endLine (takeThen take next) found line what := by
  obtain ⟨front, rest, rfl, blames, between⟩ := stops
  refine ⟨front, rest, rfl, blames, between.possible.andThen goes_on, ?_⟩
  intro other head result done
  obtain ⟨_, taken, -⟩ := bind_eq_ok_iff.mp done
  exact between.impossible other head _ taken

/-- The reader that goes on as the first token asks for, if it is one of those that are known. -/
def takeHead (endLine : Nat) (wanted : SymbolExpectation) (known : Lexeme → Option (Taker α)) :
    Taker α
  | [] => unexpected endLine wanted []
  | lexeme :: rest =>
    match known lexeme with
    | some take => take rest
    | none => unexpected endLine wanted (lexeme :: rest)

section

variable {wanted : SymbolExpectation} {known : Lexeme → Option (Taker α)} {lexeme : Lexeme}
  {found : List Lexeme}

theorem takeHead_known (goes_on : known lexeme = some take) (rest : List Lexeme) :
    takeHead endLine wanted known ([lexeme] ++ rest) = take rest := by
  rw [List.singleton_append, takeHead, goes_on]

private theorem takeHead_unknown (unknown : ∀ lexeme ∈ found.head?, known lexeme = none) :
    takeHead endLine wanted known found = unexpected endLine wanted found := by
  cases found with
  | nil => rfl
  | cons lexeme rest => rw [takeHead, unknown lexeme rfl]

private theorem takeHead_cases (known : Lexeme → Option (Taker α)) (found : List Lexeme) :
    (∃ lexeme rest take, found = [lexeme] ++ rest ∧ known lexeme = some take) ∨
      ∀ lexeme ∈ found.head?, known lexeme = none := by
  cases found with
  | nil => exact .inr nofun
  | cons lexeme rest =>
    cases goes_on : known lexeme with
    | some take => exact .inl ⟨lexeme, rest, take, rfl, goes_on⟩
    | none =>
      refine .inr ?_
      rintro _ ⟨⟩
      exact goes_on

theorem Completable.ofHead (proper : lexeme.token.Proper) (goes_on : known lexeme = some take)
    (possible : Completable take []) : Completable (takeHead endLine wanted known) [] := by
  obtain ⟨later, value, proper_later, consumes⟩ := possible
  have behind : Consumes (takeHead endLine wanted known) ([lexeme] ++ later) value :=
    Consumes.behind (takeHead_known goes_on) consumes
  exact ⟨lexeme :: later, value, List.forall_mem_cons.mpr ⟨proper, proper_later⟩, behind⟩

/-- A reader that goes by the first token stops where that reader does which the token asks for, and
in front of a token that is not known. -/
theorem StopsIn.ofHead {line : Nat} {expected : SymbolExpectation} {what : Option String}
    (possible : Completable (takeHead endLine wanted known) [])
    (stops : ∀ {lexeme rest take}, found = [lexeme] ++ rest → known lexeme = some take →
      take rest = .error (.unexpected line expected what) → StopsIn endLine take rest line what)
    (failed : takeHead endLine wanted known found = .error (.unexpected line expected what)) :
    StopsIn endLine (takeHead endLine wanted known) found line what := by
  rcases takeHead_cases known found with ⟨lexeme, rest, take, rfl, goes_on⟩ | unknown
  · rw [takeHead_known goes_on] at failed
    exact (stops rfl goes_on failed).behind (takeHead_known goes_on)
  · rw [takeHead_unknown unknown] at failed
    refine ⟨[], found, rfl, blames_of_unexpected failed, possible, ?_⟩
    intro other head result done
    rw [List.nil_append, takeHead_unknown (head ▸ unknown)] at done
    exact unexpected_ne_ok done

end

namespace Prompt

theorem pure (value : α) : Prompt endLine fun rest => .ok (value, rest) where
  consumes := by
    rintro found _ rest ⟨⟩
    exact ⟨[], rfl, fun _ => rfl⟩
  possible := ⟨[], value, List.forall_mem_nil _, fun _ => rfl⟩
  stops := by
    intro found line expected what never
    contradiction

theorem andThen {next : α → Taker β} (first : Prompt endLine take)
    (second : ∀ value, Prompt endLine (next value)) : Prompt endLine (takeThen take next) where
  consumes := by
    intro found result rest done
    obtain ⟨⟨value, middle⟩, taken, goes_on⟩ := bind_eq_ok_iff.mp done
    obtain ⟨front, rfl, one⟩ := first.consumes taken
    obtain ⟨later, rfl, other⟩ := (second value).consumes goes_on
    exact ⟨front ++ later, (List.append_assoc _ _ _).symm, other.behind one.andThen⟩
  possible := first.possible.andThen fun value => (second value).possible
  stops := by
    intro found line expected what failed
    rcases bind_eq_error_iff.mp failed with stopped | ⟨⟨value, middle⟩, taken, stopped⟩
    · exact (first.stops stopped).andThen fun value => (second value).possible
    · obtain ⟨front, rfl, one⟩ := first.consumes taken
      exact ((second value).stops stopped).behind one.andThen

/-- A reader that takes one token, and looks only at that one, is prompt. -/
theorem ofOne
    (accepts : ∀ {found value rest}, take found = .ok (value, rest) →
      ∃ lexeme, found = lexeme :: rest ∧ Consumes take [lexeme] value)
    (possible : ∃ lexeme value, lexeme.token.Proper ∧ Consumes take [lexeme] value)
    (refuses : ∀ {found line expected what},
      take found = .error (.unexpected line expected what) → Blames endLine found line what) :
    Prompt endLine take := by
  obtain ⟨lexeme, value, proper, consumes⟩ := possible
  have one : Completable take [] :=
    ⟨[lexeme], value, List.forall_mem_singleton.mpr proper, consumes⟩
  refine ⟨?_, one, ?_⟩
  · intro found value rest done
    obtain ⟨lexeme, rfl, consumes⟩ := accepts done
    exact ⟨[lexeme], rfl, consumes⟩
  · intro found line expected what failed
    refine ⟨[], found, rfl, refuses failed, one, ?_⟩
    rintro other head ⟨value, rest⟩ done
    obtain ⟨lexeme, rfl, consumes⟩ := accepts done
    obtain ⟨later, rfl⟩ := List.head?_eq_some_iff.mp head.symm
    exact nomatch failed.symm.trans (consumes later)

end Prompt

end

section

variable {endLine : Nat} {found rest : List Lexeme}

/-- A lexeme that is read as zero. -/
def zeroLexeme : Lexeme :=
  ⟨.decimal ['0'], 0⟩

/-- A lexeme that is read as the name of a resource type, or as any name. -/
def nameLexeme : Lexeme :=
  ⟨.name ResourceType.id.name.toList, 0⟩

theorem isRead_zero : IsRead zeroLexeme.token 0 :=
  rfl

theorem proper_zero : zeroLexeme.token.Proper := by
  have writes : Writes zeroLexeme.token 0 :=
    .natural (by decide) (List.all_eq_true.mp rfl) (by decide)
  exact writes.proper

theorem consumes_takeValue {lexeme : Lexeme} {value : Int32} (read : IsRead lexeme.token value) :
    Consumes (takeValue endLine) [lexeme] value :=
  fun _ => takeValue_eq_ok_iff.mpr ⟨read, rfl⟩

theorem prompt_takeValue : Prompt endLine (takeValue endLine) := by
  refine .ofOne ?_ ⟨zeroLexeme, 0, proper_zero, consumes_takeValue isRead_zero⟩ ?_
  · intro found value rest done
    cases found with
    | nil => contradiction
    | cons lexeme later =>
      obtain ⟨read, rfl⟩ := takeValue_eq_ok_iff.mp done
      exact ⟨lexeme, rfl, consumes_takeValue read⟩
  · intro found line expected what failed
    unfold takeValue at failed
    split at failed
    · exact blames_of_unexpected failed
    · split at failed
      · contradiction
      · cases failed
      · exact blames_of_unexpected failed

private theorem blames_of_takeName {wanted expected : SymbolExpectation} {line : Nat}
    {what : Option String}
    (failed : takeName endLine wanted found = .error (.unexpected line expected what)) :
    Blames endLine found line what := by
  unfold takeName at failed
  split at failed
  · contradiction
  · exact blames_of_unexpected failed

theorem prompt_takeName (expected : SymbolExpectation) :
    Prompt endLine (takeName endLine expected) := by
  refine .ofOne ?_ ⟨nameLexeme, (ResourceType.id.name, 0), proper_type .id, ?_⟩ blames_of_takeName
  · rintro found ⟨name, line⟩ rest done
    exact ⟨_, takeName_eq_ok_iff.mp done, fun _ => takeName_eq_ok_iff.mpr rfl⟩
  · exact fun _ => takeName_eq_ok_iff.mpr rfl

theorem prompt_takeType : Prompt endLine (takeType endLine) := by
  refine .ofOne ?_ ⟨nameLexeme, .id, proper_type .id, ?_⟩ ?_
  · intro found type rest done
    obtain ⟨line, rfl⟩ := takeType_eq_ok_iff.mp done
    exact ⟨_, rfl, fun _ => takeType_eq_ok_iff.mpr ⟨line, rfl⟩⟩
  · exact fun _ => takeType_eq_ok_iff.mpr ⟨0, rfl⟩
  · intro found line expected what failed
    rcases bind_eq_error_iff.mp failed with unnamed | ⟨⟨⟨name, line⟩, rest⟩, -, unknown⟩
    · exact blames_of_takeName unnamed
    · dsimp only at unknown
      split at unknown <;> cases unknown

/-- What a token behind a value between braces asks for: a comma more values, and the closing brace
the end. -/
def separated (endLine : Nat) (values : List Int32) (lexeme : Lexeme) :
    Option (Taker (List Int32)) :=
  match lexeme.token with
  | .comma => some (takeValues endLine values)
  | .closingBrace => some fun rest => .ok (values.reverse, rest)
  | _ => none

private theorem takeValues_eq (values : List Int32) :
    takeValues endLine values =
      takeThen (takeValue endLine) fun value =>
        takeHead endLine .separator (separated endLine (value :: values)) := by
  funext found
  cases found with
  | nil => rfl
  | cons lexeme rest =>
    rw [takeValues, takeThen]
    cases taken : takeValue endLine (lexeme :: rest) with
    | error e => rfl
    | ok result =>
      obtain ⟨value, after⟩ := result
      obtain ⟨-, rfl⟩ := takeValue_eq_ok_iff.mp taken
      rcases after with _ | ⟨⟨token, line⟩, after⟩
      · rfl
      · cases token <;> rfl

private theorem completable_separated (values : List Int32) :
    Completable (takeHead endLine .separator (separated endLine values)) [] := by
  have closing : Token.closingBrace.Proper := ⟨trivial, nofun⟩
  exact ⟨[⟨.closingBrace, 0⟩], _, List.forall_mem_singleton.mpr closing, fun _ => rfl⟩

/-- Values stop in time, however many of them there are. -/
private theorem stopsIn_takeValues {values : List Int32} {line : Nat}
    {expected : SymbolExpectation} {what : Option String}
    (failed : takeValues endLine values found = .error (.unexpected line expected what)) :
    StopsIn endLine (takeValues endLine values) found line what := by
  -- A comma leads back to values, with fewer tokens left.
  induction bound : found.length using Nat.strongRecOn generalizing found values with
  | _ n ih =>
    rw [takeValues_eq] at failed ⊢
    rcases bind_eq_error_iff.mp failed with stopped | ⟨⟨value, middle⟩, taken, stopped⟩
    · exact (prompt_takeValue.stops stopped).andThen fun _ => completable_separated _
    · obtain ⟨front, rfl, one⟩ := prompt_takeValue.consumes taken
      refine StopsIn.behind one.andThen (.ofHead (completable_separated _) ?_ stopped)
      rintro ⟨token, line⟩ rest take rfl goes_on stopped
      unfold separated at goes_on
      split at goes_on
      · obtain rfl := Option.some.inj goes_on
        have shorter : rest.length < n := by
          rw [← bound, List.length_append, List.length_append, List.length_singleton]
          omega
        exact ih _ shorter stopped rfl
      · obtain rfl := Option.some.inj goes_on
        contradiction
      · contradiction

/-- What follows the opening brace: the closing one, or values. -/
def takeInside (endLine : Nat) : Taker (List Int32)
  | ⟨.closingBrace, _⟩ :: rest => .ok ([], rest)
  | found => takeValues endLine [] found

/-- Values do not begin with a closing brace. -/
private theorem takeInside_of_takeValues {result : List Int32 × List Lexeme}
    (taken : takeValues endLine [] found = .ok result) : takeInside endLine found = .ok result := by
  unfold takeInside
  split
  · rw [takeValues] at taken
    obtain ⟨_, first, -⟩ := bind_eq_ok_iff.mp taken
    contradiction
  · exact taken

private theorem stopsIn_takeInside {line : Nat} {expected : SymbolExpectation}
    {what : Option String}
    (failed : takeInside endLine found = .error (.unexpected line expected what)) :
    StopsIn endLine (takeInside endLine) found line what := by
  unfold takeInside at failed
  split at failed
  · contradiction
  · rename_i no_brace
    obtain ⟨front, rest, rfl, blames, stops⟩ := stopsIn_takeValues failed
    refine ⟨front, rest, rfl, blames, ?_, ?_⟩
    · obtain ⟨later, all, proper, consumes⟩ := stops.possible
      exact ⟨later, all, proper, fun behind => takeInside_of_takeValues (consumes behind)⟩
    · intro other head result done
      -- Where nothing stands before the place, what follows it could only now be a closing brace.
      have same_head : (front ++ other).head? = (front ++ rest).head? := by
        rw [List.head?_append, List.head?_append, head]
      unfold takeInside at done
      split at done
      · rename_i brace
        rw [brace] at same_head
        obtain ⟨after, begun⟩ := List.head?_eq_some_iff.mp same_head.symm
        exact no_brace _ _ begun
      · exact stops.impossible other head _ done

/-- What the first token of an array asks for. -/
def opened (endLine : Nat) (lexeme : Lexeme) : Option (Taker (List Int32)) :=
  match lexeme.token with
  | .openingBrace => some (takeInside endLine)
  | _ => none

private theorem takeArray_eq :
    takeArray endLine = takeHead endLine .openingBrace (opened endLine) := by
  funext found
  rcases found with _ | ⟨⟨token, line⟩, rest⟩
  · rfl
  · cases token with
    | openingBrace =>
      rcases rest with _ | ⟨⟨token, line⟩, rest⟩
      · rfl
      · cases token <;> rfl
    | _ => rfl

theorem prompt_takeArray : Prompt endLine (takeArray endLine) := by
  have opening : Token.openingBrace.Proper := ⟨trivial, nofun⟩
  have closing : Token.closingBrace.Proper := ⟨trivial, nofun⟩
  have empty : Completable (takeArray endLine) [] := by
    refine ⟨[⟨.openingBrace, 0⟩, ⟨.closingBrace, 0⟩], [], ?_, fun _ => rfl⟩
    exact List.forall_mem_cons.mpr ⟨opening, List.forall_mem_singleton.mpr closing⟩
  refine ⟨?_, empty, ?_⟩
  · intro found values rest done
    obtain ⟨front, rfl, bracketed⟩ := bracketed_of_takeArray done
    exact ⟨front, rfl, fun _ => takeArray_of_bracketed bracketed rfl⟩
  · rw [takeArray_eq] at empty ⊢
    intro found line expected what failed
    refine .ofHead empty ?_ failed
    intro lexeme rest take _ goes_on stopped
    unfold opened at goes_on
    split at goes_on
    · obtain rfl := Option.some.inj goes_on
      exact stopsIn_takeInside stopped
    · contradiction

private theorem prompt_takeSymbol (line : Nat) {take : Taker SymbolValue}
    (value : Prompt endLine take) : Prompt endLine (takeSymbol endLine line take) := by
  have chain : takeSymbol endLine line take =
      takeThen (takeType endLine) fun type =>
        takeThen (takeName endLine .symbolName) fun named =>
          takeThen take fun value rest => .ok (⟨line, type, named.1, value⟩, rest) := rfl
  rw [chain]
  exact prompt_takeType.andThen fun _ => (prompt_takeName _).andThen fun _ =>
    value.andThen fun _ => .pure _

/-- What the first token of an entry asks for: the type, the name and the value of a symbol of its
kind. -/
def begun (endLine : Nat) (lexeme : Lexeme) : Option (Taker Entry) :=
  match lexeme.token with
  | .int => some (takeSymbol endLine lexeme.line
      (takeThen (takeValue endLine) fun value rest => .ok (.int value, rest)))
  | .intArray => some (takeSymbol endLine lexeme.line
      (takeThen (takeArray endLine) fun values rest => .ok (.array values, rest)))
  | _ => none

private theorem takeEntry_eq :
    takeEntry endLine = takeHead endLine .symbolKind (begun endLine) := by
  funext found
  rcases found with _ | ⟨⟨token, line⟩, rest⟩
  · rfl
  · cases token <;> rfl

private theorem prompt_begun {lexeme : Lexeme} {take : Taker Entry}
    (goes_on : begun endLine lexeme = some take) : Prompt endLine take := by
  unfold begun at goes_on
  split at goes_on
  · obtain rfl := Option.some.inj goes_on
    exact prompt_takeSymbol _ (prompt_takeValue.andThen fun _ => .pure _)
  · obtain rfl := Option.some.inj goes_on
    exact prompt_takeSymbol _ (prompt_takeArray.andThen fun _ => .pure _)
  · contradiction

/-- Reading an entry is prompt. -/
theorem prompt_takeEntry : Prompt endLine (takeEntry endLine) := by
  have int : Token.int.Proper := ⟨trivial, nofun⟩
  have goes_on : begun endLine ⟨.int, 0⟩ = some _ := rfl
  have possible : Completable (takeEntry endLine) [] := by
    rw [takeEntry_eq]
    exact .ofHead int goes_on (prompt_begun goes_on).possible
  refine ⟨?_, possible, ?_⟩
  · intro found entry rest taken
    obtain ⟨front, rfl, spelled⟩ := takeEntry_eq_ok_iff.mp taken
    exact ⟨front, rfl, fun _ => takeEntry_eq_ok_iff.mpr ⟨front, rfl, spelled⟩⟩
  · rw [takeEntry_eq] at possible ⊢
    intro found line expected what failed
    exact .ofHead possible (fun _ goes_on => (prompt_begun goes_on).stops) failed

end

end ResourceClasses.SymbolFile
