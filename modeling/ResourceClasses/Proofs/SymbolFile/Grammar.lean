import Mathlib.Data.List.Forall2
import ResourceClasses.Proofs.Field.Merging
import ResourceClasses.Proofs.SymbolFile.Entries
import ResourceClasses.Proofs.SymbolFile.Lines
import ResourceClasses.Proofs.Text.Numeral

/-!
The grammar of symbol files: a text is accepted exactly if its tokens are those of entries whose
values are in range and no two of which have the same type and name; the symbols are then those of
the entries, type by type.
-/

set_option autoImplicit false

namespace ResourceClasses.SymbolFile

/-- The tokens of one or more values with commas between them, when it is known which values tokens
denote. -/
inductive Listed (Denotes : Token → Int32 → Prop) :
    List Token → List Int32 → Prop
  | one {item : Token} {value : Int32} (denotes : Denotes item value) :
      Listed Denotes [item] [value]
  | more {item : Token} {value : Int32} {items : List Token} {values : List Int32}
      (denotes : Denotes item value) (later : Listed Denotes items values) :
      Listed Denotes (item :: .comma :: items) (value :: values)

/-- The tokens of an array: any number of values in braces. -/
inductive Bracketed (Denotes : Token → Int32 → Prop) : List Token → List Int32 → Prop
  | empty : Bracketed Denotes [.openingBrace, .closingBrace] []
  | listed {items : List Token} {values : List Int32}
      (listed : Listed Denotes items values) :
      Bracketed Denotes (.openingBrace :: (items ++ [.closingBrace])) values

/-- The tokens of an entry and the symbol that it declares for a type. -/
inductive Declares (Denotes : Token → Int32 → Prop) (dependency : Option String) :
    List Token → ResourceType × Symbol → Prop
  | int {type : ResourceType} {name : String} {item : Token} {value : Int32}
      (denotes : Denotes item value) :
      Declares Denotes dependency [.int, .name type.name.toList, .name name.toList, item]
        (type, ⟨name, .int value, dependency⟩)
  | array {type : ResourceType} {name : String} {items : List Token} {values : List Int32}
      (bracketed : Bracketed Denotes items values) :
      Declares Denotes dependency
        (.intArray :: .name type.name.toList :: .name name.toList :: items)
        (type, ⟨name, .array values, dependency⟩)

section

variable {endLine : Nat} {lexeme : Lexeme} {found rest : List Lexeme} {value : Int32}

/-- Whatever is found, something unexpected is no result. -/
theorem unexpected_ne_ok {α : Type} {expected : SymbolExpectation} {result : α} :
    unexpected endLine expected found ≠ .ok result := by
  unfold unexpected
  split <;> exact nofun

/-- Whether a token is read as a value. -/
def IsRead (token : Token) (value : Int32) : Prop :=
  token.number? = some (some value)

theorem takeValue_eq_ok_iff {after : List Lexeme} :
    takeValue endLine (lexeme :: rest) = .ok (value, after) ↔
      IsRead lexeme.token value ∧ after = rest := by
  rw [takeValue, IsRead]
  cases lexeme.token.number? with
  | none => simp [unexpected]
  | some number => cases number <;> simp [eq_comm]

private theorem exists_lexeme {token : Token} {later : List Token}
    (spelled : found.map Lexeme.token = token :: later) :
    ∃ line behind, found = ⟨token, line⟩ :: behind ∧ behind.map Lexeme.token = later := by
  obtain ⟨⟨_, line⟩, behind, rfl, rfl, same⟩ := List.map_eq_cons_iff.mp spelled
  exact ⟨line, behind, rfl, same⟩

theorem listed_of_takeValues {values all : List Int32}
    (taken : takeValues endLine values found = .ok (all, rest)) :
    ∃ front items more, found = front ++ rest ∧
      front.map Lexeme.token = items ++ [.closingBrace] ∧
      Listed IsRead items more ∧ all = values.reverse ++ more := by
  induction bound : found.length using Nat.strongRecOn generalizing found values with
  | _ n ih =>
    cases found with
    | nil => contradiction
    | cons lexeme found =>
      rw [takeValues] at taken
      obtain ⟨⟨value, _⟩, first, taken⟩ := bind_eq_ok_iff.mp taken
      obtain ⟨denotes, -⟩ := takeValue_eq_ok_iff.mp first
      dsimp only at taken
      split at taken
      · rename_i line later _
        have shorter : later.length < n := by
          rw [← bound, List.length_cons, List.length_cons]
          omega
        obtain ⟨front, items, more, rfl, spelled, listed, rfl⟩ :=
          ih _ shorter taken rfl
        refine ⟨lexeme :: ⟨.comma, line⟩ :: front, _, _, rfl, ?_, .more denotes listed, ?_⟩
        · rw [List.map_cons, List.map_cons, spelled]
          rfl
        · rw [List.reverse_cons, List.append_assoc]
          rfl
      · rename_i line later _
        obtain ⟨rfl, rfl⟩ := Prod.mk.inj (Except.ok.inj taken)
        exact ⟨[lexeme, ⟨.closingBrace, line⟩], _, _, rfl, rfl, .one denotes, List.reverse_cons⟩
      · exact absurd taken unexpected_ne_ok

theorem takeValues_of_listed {items : List Token} {values more : List Int32}
    {front : List Lexeme} (listed : Listed IsRead items more)
    (spelled : front.map Lexeme.token = items ++ [.closingBrace]) :
    takeValues endLine values (front ++ rest) = .ok (values.reverse ++ more, rest) := by
  induction listed generalizing values front with
  | one denotes =>
    obtain ⟨_, behind, rfl, closing⟩ := exists_lexeme spelled
    obtain ⟨line, none, rfl, no_more⟩ := exists_lexeme closing
    rw [List.map_eq_nil_iff.mp no_more]
    rw [List.cons_append, takeValues, bind_eq_ok_iff]
    exact ⟨_, takeValue_eq_ok_iff.mpr ⟨denotes, rfl⟩, by rw [← List.reverse_cons]; rfl⟩
  | @more _ value _ _ denotes _ ih =>
    obtain ⟨_, behind, rfl, comma⟩ := exists_lexeme spelled
    obtain ⟨_, behind, rfl, last⟩ := exists_lexeme comma
    have taken : takeValues endLine (value :: values) (behind ++ rest) = _ := ih last
    rw [List.reverse_cons, List.append_assoc] at taken
    rw [List.cons_append, takeValues, bind_eq_ok_iff]
    exact ⟨_, takeValue_eq_ok_iff.mpr ⟨denotes, rfl⟩, taken⟩

theorem bracketed_of_takeArray {values : List Int32}
    (taken : takeArray endLine found = .ok (values, rest)) :
    ∃ front, found = front ++ rest ∧ Bracketed IsRead (front.map Lexeme.token) values := by
  unfold takeArray at taken
  split at taken
  · rename_i opening closing after
    obtain ⟨rfl, rfl⟩ := Prod.mk.inj (Except.ok.inj taken)
    exact ⟨[⟨.openingBrace, opening⟩, ⟨.closingBrace, closing⟩], rfl, .empty⟩
  · rename_i opening after _
    obtain ⟨front, items, more, rfl, spelled, listed, rfl⟩ :=
      listed_of_takeValues taken
    refine ⟨⟨.openingBrace, opening⟩ :: front, rfl, ?_⟩
    rw [List.map_cons, spelled]
    exact .listed listed
  · exact absurd taken unexpected_ne_ok

/-- What is read as a value is no closing brace. -/
private theorem Listed.head {items : List Token} {values : List Int32}
    (listed : Listed IsRead items values) :
    ∃ item later, items = item :: later ∧ item ≠ .closingBrace := by
  cases listed with
  | one denotes | more denotes =>
    refine ⟨_, _, rfl, ?_⟩
    rintro rfl
    contradiction

theorem takeArray_of_bracketed {items : List Token} {values : List Int32}
    {front : List Lexeme} (bracketed : Bracketed IsRead items values)
    (spelled : front.map Lexeme.token = items) :
    takeArray endLine (front ++ rest) = .ok (values, rest) := by
  cases bracketed with
  | empty =>
    obtain ⟨_, behind, rfl, closing⟩ := exists_lexeme spelled
    obtain ⟨_, none, rfl, no_more⟩ := exists_lexeme closing
    rw [List.map_eq_nil_iff.mp no_more]
    rfl
  | listed listed =>
    obtain ⟨_, behind, rfl, later⟩ := exists_lexeme spelled
    rw [List.cons_append, takeArray]
    · exact takeValues_of_listed listed later
    · rintro line after same
      obtain ⟨item, more, rfl, no_brace⟩ := listed.head
      obtain ⟨_, _, rfl, -⟩ := exists_lexeme later
      exact no_brace (congrArg Lexeme.token (List.cons.inj same).1)

theorem takeName_eq_ok_iff {expected : SymbolExpectation} {name : String} {line : Nat} :
    takeName endLine expected found = .ok ((name, line), rest) ↔
      found = ⟨.name name.toList, line⟩ :: rest := by
  unfold takeName
  split
  · rename_i text _ _
    have same_text : String.ofList text = name ↔ text = name.toList :=
      ⟨fun same => by rw [← same, String.toList_ofList], fun same => by
        rw [same, String.ofList_toList]⟩
    simp [same_text, and_assoc]
  · rename_i no_name
    constructor
    · intro taken
      exact absurd taken unexpected_ne_ok
    · exact fun same => absurd same (no_name _ _ _)

private theorem ofName?_eq_some_iff {name : String} {type : ResourceType} :
    ResourceType.ofName? name = some type ↔ name = type.name := by
  constructor
  · intro known
    rw [ResourceType.ofName?] at known
    have named := List.find?_some known
    exact (beq_iff_eq.mp named).symm
  · rintro rfl
    exact ResourceType.ofName?_name type

theorem takeType_eq_ok_iff {type : ResourceType} :
    takeType endLine found = .ok (type, rest) ↔
      ∃ line, found = ⟨.name type.name.toList, line⟩ :: rest := by
  rw [takeType, bind_eq_ok_iff]
  constructor
  · rintro ⟨⟨⟨name, line⟩, after⟩, named, taken⟩
    dsimp only at taken
    split at taken
    · rename_i known
      obtain ⟨rfl, rfl⟩ := Prod.mk.inj (Except.ok.inj taken)
      rw [ofName?_eq_some_iff] at known
      exact ⟨line, known ▸ takeName_eq_ok_iff.mp named⟩
    · contradiction
  · rintro ⟨line, same⟩
    refine ⟨((type.name, line), rest), takeName_eq_ok_iff.mpr same, ?_⟩
    dsimp only
    rw [ofName?_eq_some_iff.mpr rfl]

private theorem takeSymbol_eq_ok_iff {line : Nat} {entry : Entry}
    {take : List Lexeme → Except SymbolFileError (SymbolValue × List Lexeme)} :
    takeSymbol endLine line take found = .ok (entry, rest) ↔
      ∃ type name value first second later,
        found = ⟨.name type.name.toList, first⟩ :: ⟨.name name.toList, second⟩ :: later ∧
        take later = .ok (value, rest) ∧ entry = ⟨line, type, name, value⟩ := by
  simp only [takeSymbol, bind_eq_ok_iff]
  constructor
  · rintro ⟨⟨type, after⟩, typed, ⟨⟨name, second⟩, later⟩, named, ⟨value, last⟩, taken, same⟩
    obtain ⟨first, rfl⟩ := takeType_eq_ok_iff.mp typed
    obtain rfl := takeName_eq_ok_iff.mp named
    obtain ⟨rfl, rfl⟩ := Prod.mk.inj (Except.ok.inj same)
    exact ⟨type, name, value, first, second, later, rfl, taken, rfl⟩
  · rintro ⟨type, name, value, first, second, later, rfl, taken, rfl⟩
    exact ⟨_, takeType_eq_ok_iff.mpr ⟨first, rfl⟩, _, takeName_eq_ok_iff.mpr rfl, _, taken, rfl⟩

/-- The tokens of an entry that is taken declare its symbol, and start in its line. -/
theorem declares_of_takeEntry {entry : Entry} (dependency : Option String)
    (taken : takeEntry endLine found = .ok (entry, rest)) :
    ∃ front, found = front ++ rest ∧
      Declares IsRead dependency (front.map Lexeme.token)
        (entry.type, entry.symbol dependency) ∧
      front.head?.map Lexeme.line = some entry.line := by
  unfold takeEntry at taken
  split at taken
  · rename_i line _
    obtain ⟨type, name, value, first, second, later, rfl, read, rfl⟩ :=
      takeSymbol_eq_ok_iff.mp taken
    obtain ⟨⟨number, after⟩, valued, same⟩ := bind_eq_ok_iff.mp read
    obtain ⟨rfl, rfl⟩ := Prod.mk.inj (Except.ok.inj same)
    cases later with
    | nil => contradiction
    | cons item later =>
      obtain ⟨denotes, rfl⟩ :=
        takeValue_eq_ok_iff.mp valued
      exact ⟨[⟨.int, line⟩, ⟨.name type.name.toList, first⟩, ⟨.name name.toList, second⟩, item],
        rfl, .int denotes, rfl⟩
  · rename_i line _
    obtain ⟨type, name, value, first, second, later, rfl, read, rfl⟩ :=
      takeSymbol_eq_ok_iff.mp taken
    obtain ⟨⟨values, after⟩, valued, same⟩ := bind_eq_ok_iff.mp read
    obtain ⟨rfl, rfl⟩ := Prod.mk.inj (Except.ok.inj same)
    obtain ⟨front, rfl, bracketed⟩ := bracketed_of_takeArray valued
    exact ⟨⟨.intArray, line⟩ :: ⟨.name type.name.toList, first⟩ :: ⟨.name name.toList, second⟩ ::
      front, rfl, .array bracketed, rfl⟩
  · exact absurd taken unexpected_ne_ok

/-- The tokens that declare a symbol can be taken as its entry. -/
theorem takeEntry_of_declares {dependency : Option String} {tokens : List Token}
    {declared : ResourceType × Symbol} {front : List Lexeme}
    (declares : Declares IsRead dependency tokens declared)
    (spelled : front.map Lexeme.token = tokens) :
    ∃ entry, takeEntry endLine (front ++ rest) = .ok (entry, rest) ∧
      (entry.type, entry.symbol dependency) = declared ∧
      front.head?.map Lexeme.line = some entry.line := by
  cases declares with
  | @int type name item value denotes =>
    obtain ⟨line, _, rfl, types⟩ := exists_lexeme spelled
    obtain ⟨first, _, rfl, names⟩ := exists_lexeme types
    obtain ⟨second, _, rfl, values⟩ := exists_lexeme names
    obtain ⟨third, _, rfl, no_more⟩ := exists_lexeme values
    rw [List.map_eq_nil_iff.mp no_more]
    refine ⟨⟨line, type, name, .int value⟩, ?_, rfl, rfl⟩
    rw [List.cons_append, takeEntry, takeSymbol_eq_ok_iff]
    refine ⟨type, name, .int value, first, second, ⟨item, third⟩ :: rest, rfl, ?_, rfl⟩
    exact bind_eq_ok_iff.mpr
      ⟨(value, rest), takeValue_eq_ok_iff.mpr ⟨denotes, rfl⟩, rfl⟩
  | @array type name items values bracketed =>
    obtain ⟨line, _, rfl, types⟩ := exists_lexeme spelled
    obtain ⟨first, _, rfl, names⟩ := exists_lexeme types
    obtain ⟨second, behind, rfl, array⟩ := exists_lexeme names
    refine ⟨⟨line, type, name, .array values⟩, ?_, rfl, rfl⟩
    rw [List.cons_append, takeEntry, takeSymbol_eq_ok_iff]
    refine ⟨type, name, .array values, first, second, behind ++ rest, rfl, ?_, rfl⟩
    exact bind_eq_ok_iff.mpr
      ⟨(values, rest), takeArray_of_bracketed bracketed array, rfl⟩

theorem takeEntry_shrinks {entry : Entry}
    (taken : takeEntry endLine found = .ok (entry, rest)) : rest.length < found.length := by
  obtain ⟨front, split, -, line⟩ := declares_of_takeEntry none taken
  have some_token : front ≠ [] := by
    rintro rfl
    contradiction
  have positive := List.length_pos_iff.mpr some_token
  rw [split, List.length_append]
  omega

theorem nextEntry_eq_item_iff {dependency : Option String} {entry : Entry}
    {table after : FieldTable Symbol} :
    nextEntry endLine dependency (table, found) = .ok (.item entry (after, rest)) ↔
      takeEntry endLine found = .ok (entry, rest) ∧
        table.contains entry.type entry.name = false ∧
        after = table.push entry.type (entry.symbol dependency) := by
  cases found with
  | nil => simp [nextEntry, takeEntry, unexpected]
  | cons lexeme later =>
    simp only [nextEntry, bind_eq_ok_iff]
    constructor
    · rintro ⟨⟨other, left⟩, taken, same⟩
      dsimp only at same
      split at same
      · contradiction
      · rename_i absent
        simp only [Except.ok.injEq, Step.item.injEq, Prod.mk.injEq] at same
        obtain ⟨rfl, rfl, rfl⟩ := same
        exact ⟨taken, Bool.eq_false_iff.mpr absent, rfl⟩
    · rintro ⟨taken, absent, rfl⟩
      refine ⟨_, taken, ?_⟩
      dsimp only
      rw [absent]
      rfl

theorem nextEntry_eq_done_iff {dependency : Option String}
    {table : FieldTable Symbol} {last : FieldTable Symbol × List Lexeme} :
    nextEntry endLine dependency (table, found) = .ok (.done last) ↔
      found = [] ∧ last = (table, []) := by
  cases found with
  | nil => simp [nextEntry, eq_comm]
  | cons lexeme later =>
    simp only [nextEntry, bind_eq_ok_iff]
    constructor
    · rintro ⟨_, _, same⟩
      split at same <;> cases same
    · rintro ⟨⟨⟩, _⟩

theorem nextEntry_shrinks (dependency : Option String)
    (state : FieldTable Symbol × List Lexeme) (entry : Entry)
    (after : FieldTable Symbol × List Lexeme)
    (step : nextEntry endLine dependency state = .ok (.item entry after)) :
    after.2.length < state.2.length :=
  takeEntry_shrinks (nextEntry_eq_item_iff.mp step).1

/-- Entries that are collected declare fresh symbols. -/
private theorem declares_of_collects {dependency : Option String}
    {state last : FieldTable Symbol × List Lexeme} {entries : List Entry}
    (collects : Collects (nextEntry endLine dependency) state entries last) :
    ∃ pieces symbols, state.2.map Lexeme.token = pieces.flatten ∧
      List.Forall₂ (Declares IsRead dependency) pieces symbols ∧ state.1.Fresh symbols ∧
      last.1 = state.1.pushAll symbols := by
  induction collects with
  | done ends =>
    obtain ⟨none_left, rfl⟩ := nextEntry_eq_done_iff.mp ends
    refine ⟨[], [], by rw [none_left]; rfl, .nil, ⟨List.nodup_nil, ?_⟩, rfl⟩
    exact fun _ member => absurd member List.not_mem_nil
  | @item state _ _ entry _ step _ ih =>
    obtain ⟨taken, absent, added⟩ := nextEntry_eq_item_iff.mp step
    obtain ⟨front, split, declares, -⟩ := declares_of_takeEntry dependency taken
    obtain ⟨pieces, symbols, spelled, each, fresh, pushed⟩ := ih
    rw [added] at fresh pushed
    refine ⟨_ :: pieces, _ :: symbols, ?_, .cons declares each, ?_, pushed⟩
    · rw [split, List.map_append, spelled, List.flatten_cons]
    · exact FieldTable.fresh_cons.mpr ⟨absent, fresh⟩

/-- Tokens that declare fresh symbols are collected as their entries. -/
private theorem collects_of_declares {dependency : Option String} {pieces : List (List Token)}
    {symbols : List (ResourceType × Symbol)} {table : FieldTable Symbol}
    (each : List.Forall₂ (Declares IsRead dependency) pieces symbols)
    (spelled : found.map Lexeme.token = pieces.flatten) (fresh : table.Fresh symbols) :
    ∃ entries, Collects (nextEntry endLine dependency) (table, found) entries
      (table.pushAll symbols, []) := by
  induction each generalizing found table with
  | nil =>
    rw [List.map_eq_nil_iff.mp spelled]
    exact ⟨[], .done (nextEntry_eq_done_iff.mpr ⟨rfl, rfl⟩)⟩
  | cons declares _ ih =>
    rw [List.flatten_cons] at spelled
    obtain ⟨front, rest, rfl, piece, others⟩ := List.map_eq_append_iff.mp spelled
    obtain ⟨entry, taken, rfl, -⟩ := takeEntry_of_declares declares piece
    obtain ⟨absent, fresh⟩ := FieldTable.fresh_cons.mp fresh
    obtain ⟨entries, collects⟩ := ih others fresh
    exact ⟨entry :: entries, .item (nextEntry_eq_item_iff.mpr ⟨taken, absent, rfl⟩) collects⟩

end

/-- Whether a token is a numeral in range, and which value it has. -/
def Token.Denotes : Token → Int32 → Prop
  | decimal text, value =>
    (-0x80000000 ≤ Text.decimalNumber text ∧ Text.decimalNumber text < 0x80000000) ∧
      value = Int32.ofInt (Text.decimalNumber text)
  | hexadecimal text, value =>
    Text.numberOf 16 (text.drop 2) < 0x100000000 ∧
      value = Int32.ofNat (Text.numberOf 16 (text.drop 2))
  | _, _ => False

private theorem toOption_eq_some_iff {ε α : Type} {outcome : Except ε α} {a : α} :
    outcome.toOption = some a ↔ outcome = .ok a := by
  cases outcome <;> simp [Except.toOption]

theorem isRead_iff {token : Token} {value : Int32} (allowed : token.Allowed) :
    IsRead token value ↔ token.Denotes value := by
  rw [IsRead]
  cases token with
  | int | intArray | openingBrace | closingBrace | comma | name _ =>
    simp [Token.number?, Token.Denotes]
  | decimal text =>
    rw [Token.number?, Text.narrow?_decimal64, Option.some.injEq, toOption_eq_some_iff]
    obtain ⟨digits, rfl | rfl, some_digit, each⟩ := allowed
    · exact Text.decimal32_natural_iff some_digit each
    · exact Text.decimal32_negative_iff some_digit each
  | hexadecimal text =>
    rw [Token.number?, Option.some.injEq, toOption_eq_some_iff]
    obtain ⟨marker, digits, rfl, -, some_digit, each⟩ := allowed
    exact Text.hexadecimal32_iff some_digit each

section

variable {P Q : Token → Int32 → Prop} {tokens : List Token}

private theorem Listed.imp {values : List Int32} (listed : Listed P tokens values)
    (each : ∀ token ∈ tokens, ∀ value, P token value → Q token value) :
    Listed Q tokens values := by
  induction listed with
  | one denotes => exact .one (each _ List.mem_cons_self _ denotes)
  | more denotes _ ih =>
    rw [List.forall_mem_cons, List.forall_mem_cons] at each
    exact .more (each.1 _ denotes) (ih each.2.2)

theorem Declares.imp {dependency : Option String} {declared : ResourceType × Symbol}
    (declares : Declares P dependency tokens declared)
    (each : ∀ token ∈ tokens, ∀ value, P token value → Q token value) :
    Declares Q dependency tokens declared := by
  cases declares with
  | int denotes => exact .int (each _ (by simp) _ denotes)
  | array bracketed =>
    refine .array ?_
    cases bracketed with
    | empty => exact .empty
    | listed listed =>
      exact .listed (listed.imp fun token member => each token (by simp [member]))

theorem forall₂_declares_imp {dependency : Option String} {pieces : List (List Token)}
    {symbols : List (ResourceType × Symbol)}
    (declares : List.Forall₂ (Declares P dependency) pieces symbols)
    (each : ∀ token ∈ pieces.flatten, ∀ value, P token value → Q token value) :
    List.Forall₂ (Declares Q dependency) pieces symbols := by
  induction declares with
  | nil => exact .nil
  | cons first _ ih =>
    rw [List.flatten_cons] at each
    exact .cons (first.imp fun token member => each token (List.mem_append_left _ member))
      (ih fun token member => each token (List.mem_append_right _ member))

end

/-- Whether a text is a symbol file that declares some symbols: its tokens are those of entries that
declare them, and no two of them have the same type and name. -/
structure IsSymbolFile (source : String) (dependency : Option String)
    (symbols : List (ResourceType × Symbol)) : Prop where
  entries : ∃ pieces, Tokenizes source.toList pieces.flatten ∧
    List.Forall₂ (Declares Token.Denotes dependency) pieces symbols
  distinct : (symbols.map fun symbol => (symbol.1, symbol.2.name)).Nodup

/-- Symbols type by type: the types in the order in which they come first, and the symbols of each
in their order. -/
def byType (symbols : List (ResourceType × Symbol)) : List (ResourceType × List Symbol) :=
  (symbols.map Prod.fst).eraseDups.map fun type => (type, fieldsOf type symbols)

/-- A symbol file is accepted and gives the symbols that it declares. -/
theorem IsSymbolFile.parse {source : String} {dependency : Option String}
    {symbols : List (ResourceType × Symbol)} (file : IsSymbolFile source dependency symbols) :
    ∃ table, SymbolFile.parse source dependency = .ok table ∧ table.toList = byType symbols := by
  obtain ⟨⟨pieces, tokenized, each⟩, distinct⟩ := file
  obtain ⟨found, read, spelled⟩ := (lexemes_iff _ _).mpr tokenized
  have each_read := forall₂_declares_imp each fun token member value =>
    (isRead_iff (tokenized.allowed token member)).mpr
  have fresh : FieldTable.empty.Fresh symbols := ⟨distinct, fun _ _ => rfl⟩
  obtain ⟨entries, collects⟩ := collects_of_declares each_read spelled fresh
  refine ⟨_, ?_, FieldTable.toList_pushAll_empty symbols⟩
  have collected := (collect_eq_ok_iff (nextEntry_shrinks dependency)).mpr collects
  exact bind_eq_ok_iff.mpr ⟨found, read, bind_eq_ok_iff.mpr ⟨_, collected, rfl⟩⟩

/-- A text is accepted exactly if it is a symbol file, and then gives the symbols that it
declares. -/
theorem accepted_iff_declared (source : String) (dependency : Option String)
    (rows : List (ResourceType × List Symbol)) :
    (∃ table, parse source dependency = .ok table ∧ table.toList = rows) ↔
      ∃ symbols, IsSymbolFile source dependency symbols ∧ rows = byType symbols := by
  constructor
  · rintro ⟨table, parsed, rfl⟩
    obtain ⟨found, read, parsed⟩ := bind_eq_ok_iff.mp parsed
    obtain ⟨⟨entries, last⟩, collected, same⟩ := bind_eq_ok_iff.mp parsed
    rw [← Except.ok.inj same]
    obtain ⟨pieces, symbols, spelled, each, fresh, pushed⟩ :=
      declares_of_collects ((collect_eq_ok_iff (nextEntry_shrinks dependency)).mp collected)
    have tokenized := (lexemes_iff _ _).mp ⟨found, read, spelled⟩
    refine ⟨symbols, ⟨⟨pieces, tokenized, ?_⟩, fresh.nodup⟩, ?_⟩
    · exact forall₂_declares_imp each fun token member value =>
        (isRead_iff (tokenized.allowed token member)).mp
    · rw [pushed]
      exact FieldTable.toList_pushAll_empty symbols
  · rintro ⟨symbols, file, rfl⟩
    exact file.parse

end ResourceClasses.SymbolFile
