import ResourceClasses.Proofs.Field.Table
import ResourceClasses.Proofs.Outcome
import ResourceClasses.SymbolFile.Parse

/-!
The entries of symbol files: a file that is accepted gives each type the symbols of its entries, in
the order of the file, and of several files the first entry of a name decides the value.
-/

set_option autoImplicit false

namespace ResourceClasses.SymbolFile

/-- One step of reading the entries of a file as they stand, without collecting their symbols. -/
def nextPlain (endLine : Nat) (found : List Lexeme) :
    Except SymbolFileError (Step Entry (List Lexeme)) :=
  match found with
  | [] => .ok (.done [])
  | lexeme :: rest => do
    let (entry, rest) ← takeEntry endLine (lexeme :: rest)
    .ok (.item entry rest)

/-- The entries of a symbol file as they stand. -/
def entries (source : String) : Except SymbolFileError (List Entry) := do
  let chars := source.toList
  let found ← lexemes chars
  let (entries, _) ← collect List.length (nextPlain (endLine chars)) found
  .ok entries

/-- The symbol of an entry, with the label of the file's dependency. -/
def Entry.symbol (entry : Entry) (dependency : Option String) : Symbol :=
  ⟨entry.name, entry.value, dependency⟩

/-- The symbols of some entries with their types. -/
def typedSymbols (dependency : Option String) (entries : List Entry) :
    List (ResourceType × Symbol) :=
  entries.map fun entry => (entry.type, entry.symbol dependency)

/-- Collecting symbols goes through the same entries, and adds the symbol of each to its type. -/
private theorem collectUpTo_entries {line n : Nat} {dependency : Option String}
    {items entries : List Entry} {found : List Lexeme}
    {table : FieldTable Symbol} {last : FieldTable Symbol × List Lexeme}
    (done : collectUpTo (nextEntry line dependency) n items (table, found) = .ok (entries, last)) :
    ∃ later, entries = items.reverse ++ later ∧
      collectUpTo (nextPlain line) n items found = .ok (entries, last.2) ∧
      ∀ type, last.1.ofType type =
        table.ofType type ++ fieldsOf type (typedSymbols dependency later) := by
  induction n generalizing items table found with
  | zero =>
    simp only [collectUpTo, Except.ok.injEq, Prod.mk.injEq] at done
    obtain ⟨rfl, rfl⟩ := done
    refine ⟨[], (List.append_nil _).symm, rfl, ?_⟩
    exact fun type => (List.append_nil _).symm
  | succ n ih =>
    cases found with
    | nil =>
      simp only [collectUpTo, nextEntry, Except.ok.injEq, Prod.mk.injEq] at done
      obtain ⟨rfl, rfl⟩ := done
      refine ⟨[], (List.append_nil _).symm, rfl, ?_⟩
      exact fun type => (List.append_nil _).symm
    | cons lexeme rest =>
      cases taken : takeEntry line (lexeme :: rest) with
      | error e => simp [collectUpTo, nextEntry, taken, bind, Except.bind] at done
      | ok result =>
        obtain ⟨entry, after⟩ := result
        by_cases duplicate : table.contains entry.type entry.name = true
        · simp [collectUpTo, nextEntry, taken, bind, Except.bind, duplicate] at done
        · simp only [collectUpTo, nextEntry, nextPlain, taken, bind, Except.bind,
            if_neg duplicate] at done ⊢
          obtain ⟨later, rfl, plain, added⟩ := ih done
          refine ⟨entry :: later, by simp, plain, ?_⟩
          intro type
          have listed : typedSymbols dependency (entry :: later) =
              (entry.type, entry.symbol dependency) :: typedSymbols dependency later := rfl
          rw [added, FieldTable.ofType_push, listed, fieldsOf_cons]
          by_cases same : entry.type = type
          · rw [if_pos same, if_pos same.symm, same, List.append_assoc]
            rfl
          · rw [if_neg same, if_neg (Ne.symm same)]

/-- A file that is accepted gives each type the symbols of its entries, in their order. -/
theorem parse_entries {source : String} {dependency : Option String} {table : FieldTable Symbol}
    (parsed : parse source dependency = .ok table) :
    ∃ found, entries source = .ok found ∧
      ∀ type, table.ofType type = fieldsOf type (typedSymbols dependency found) := by
  obtain ⟨tokens, lexed, parsed⟩ := bind_eq_ok_iff.mp parsed
  obtain ⟨⟨found, last⟩, collected, parsed⟩ := bind_eq_ok_iff.mp parsed
  obtain ⟨later, same, plain, added⟩ := collectUpTo_entries collected
  rw [List.reverse_nil, List.nil_append] at same
  refine ⟨found, ?_, ?_⟩
  · exact bind_eq_ok_iff.mpr ⟨tokens, lexed, bind_eq_ok_iff.mpr ⟨(found, last.2), plain, rfl⟩⟩
  · intro type
    rw [← Except.ok.inj parsed, added, same]
    rfl

/-- The first of some entries that declares a name for a type. -/
def firstNamed? (entries : List Entry) (type : ResourceType) (name : String) : Option Entry :=
  entries.find? fun entry => entry.type == type && entry.name == name

private theorem map_value_find? (dependency : Option String) (found : List Entry)
    (type : ResourceType) (name : String) :
    ((fieldsOf type (typedSymbols dependency found)).find? fun symbol =>
        ResourceField.name symbol == name).map Symbol.value =
      (firstNamed? found type name).map Entry.value := by
  induction found with
  | nil => rfl
  | cons entry later ih =>
    have listed : typedSymbols dependency (entry :: later) =
        (entry.type, entry.symbol dependency) :: typedSymbols dependency later := rfl
    have named : ResourceField.name (entry.symbol dependency) = entry.name := rfl
    rw [listed, fieldsOf_cons, firstNamed?, List.find?_cons]
    by_cases typed : entry.type = type
    · rw [if_pos typed, List.find?_cons, named, typed, beq_self_eq_true, Bool.true_and]
      by_cases same : entry.name = name
      · rw [same, beq_self_eq_true]
        rfl
      · rw [beq_eq_false_iff_ne.mpr same]
        exact ih
    · rw [if_neg typed, beq_eq_false_iff_ne.mpr typed, Bool.false_and]
      exact ih

/-- When all files are accepted, the first symbol of a name in all tables has the value of the first
entry of that name in all files. -/
theorem exists_entries_of_mapM {sources : List (String × Option String)}
    {tables : List (FieldTable Symbol)}
    (parsed : sources.mapM (fun source => parse source.1 source.2) = .ok tables) :
    ∃ declared, List.Forall₂ (fun source found => entries source.1 = .ok found) sources declared ∧
      ∀ type name, ((tables.flatMap fun table => table.ofType type).find? fun symbol =>
          ResourceField.name symbol == name).map Symbol.value =
        (firstNamed? declared.flatten type name).map Entry.value := by
  have each := forall₂_of_mapM parsed
  clear parsed
  induction each with
  | nil => exact ⟨[], .nil, fun _ _ => rfl⟩
  | cons head _ ih =>
    obtain ⟨found, read, listed⟩ := parse_entries head
    obtain ⟨declared, read_later, same⟩ := ih
    refine ⟨found :: declared, .cons read read_later, ?_⟩
    intro type name
    rw [List.flatMap_cons, List.find?_append, Option.map_or, listed, map_value_find?, same,
      List.flatten_cons, firstNamed?, firstNamed?, firstNamed?, List.find?_append, Option.map_or]

end ResourceClasses.SymbolFile
