import ResourceClasses.Proofs.SymbolFile.Grammar

/-!
Symbol files one behind the other: a text that two accepted texts make with a line break between
them gives what merging the tables of both gives, unless both declare a symbol.
-/

set_option autoImplicit false

namespace ResourceClasses.SymbolFile

/-- Whether some tokens are those of an entry, which starts in the line of the first one. -/
structure Spelled (Denotes : Token → Int32 → Prop) (front : List Lexeme) (entry : Entry) :
    Prop where
  declares : Declares Denotes none (front.map Lexeme.token) (entry.type, entry.symbol none)
  line : front.head?.map Lexeme.line = some entry.line

/-- Whether a text consists of some entries, each with the line where it starts. -/
def Holds (source : String) (entries : List Entry) : Prop :=
  ∃ pieces, Located 1 source.toList pieces.flatten ∧
    List.Forall₂ (Spelled Token.Denotes) pieces entries

/-- Adds the symbols of entries to a table one after another, up to the first one that is there. -/
def addEntries (dependency : Option String) :
    FieldTable Symbol → List Entry → Except SymbolFileError (FieldTable Symbol)
  | table, [] => .ok table
  | table, entry :: rest =>
    if table.contains entry.type entry.name then
      .error (.duplicate entry.line entry.type entry.name)
    else addEntries dependency (table.push entry.type (entry.symbol dependency)) rest

section

variable {endLine : Nat} {dependency : Option String} {table last : FieldTable Symbol}
  {entry : Entry} {entries : List Entry} {found rest : List Lexeme} {pieces : List (List Lexeme)}

private theorem Entry.eq_of_symbol {other : Entry} (line : other.line = entry.line)
    (same : (other.type, other.symbol none) = (entry.type, entry.symbol none)) :
    other = entry := by
  obtain ⟨_, _, _, _⟩ := other
  obtain ⟨_, _, _, _⟩ := entry
  simp_all [Entry.symbol]

private theorem takeEntry_of_spelled {front : List Lexeme} (spelled : Spelled IsRead front entry) :
    takeEntry endLine (front ++ rest) = .ok (entry, rest) := by
  obtain ⟨other, taken, same, line⟩ := takeEntry_of_declares spelled.declares rfl
  rw [spelled.line, Option.some.injEq] at line
  rw [taken, Entry.eq_of_symbol line.symm same]

/-- An entry is taken if its tokens stand in front. -/
theorem takeEntry_eq_ok_iff :
    takeEntry endLine found = .ok (entry, rest) ↔
      ∃ front, found = front ++ rest ∧ Spelled IsRead front entry := by
  constructor
  · intro taken
    obtain ⟨front, split, declares, line⟩ := declares_of_takeEntry none taken
    exact ⟨front, split, declares, line⟩
  · rintro ⟨front, rfl, spelled⟩
    exact takeEntry_of_spelled spelled

/-- An entry that is taken becomes a symbol of the table, unless the table has it. -/
private theorem nextEntry_of_takeEntry (taken : takeEntry endLine found = .ok (entry, rest)) :
    nextEntry endLine dependency (table, found) =
      if table.contains entry.type entry.name then
        .error (.duplicate entry.line entry.type entry.name)
      else .ok (.item entry (table.push entry.type (entry.symbol dependency), rest)) := by
  cases found with
  | nil => contradiction
  | cons lexeme later =>
    rw [nextEntry, taken]
    rfl

/-- Reading the tokens of entries adds the symbols of the entries. -/
private theorem collect_of_spelled (each : List.Forall₂ (Spelled IsRead) pieces entries)
    (table : FieldTable Symbol) :
    collect (fun state => state.2.length) (nextEntry endLine dependency) (table, pieces.flatten) =
      (addEntries dependency table entries).map fun last => (entries, last, []) := by
  induction each generalizing table with
  | nil =>
    rw [collect_eq _ (nextEntry_shrinks dependency)]
    rfl
  | @cons front entry pieces entries spelled _ ih =>
    rw [List.flatten_cons, collect_eq _ (nextEntry_shrinks dependency),
      nextEntry_of_takeEntry (takeEntry_of_spelled spelled), addEntries]
    by_cases known : table.contains entry.type entry.name = true
    · rw [if_pos known, if_pos known]
      rfl
    · rw [if_neg known, if_neg known]
      dsimp only
      rw [ih]
      cases addEntries dependency _ entries <;> rfl

private theorem nextPlain_eq_item_iff :
    nextPlain endLine found = .ok (.item entry rest) ↔
      takeEntry endLine found = .ok (entry, rest) := by
  cases found with
  | nil => simp [nextPlain, takeEntry, unexpected]
  | cons lexeme later =>
    simp only [nextPlain, bind_eq_ok_iff, Except.ok.injEq, Step.item.injEq, Prod.exists]
    constructor
    · rintro ⟨_, _, taken, rfl, rfl⟩
      exact taken
    · exact fun taken => ⟨_, _, taken, rfl, rfl⟩

private theorem nextPlain_eq_done_iff {final : List Lexeme} :
    nextPlain endLine found = .ok (.done final) ↔ found = [] ∧ final = [] := by
  cases found with
  | nil => simp [nextPlain, eq_comm]
  | cons lexeme later => simp [nextPlain, bind_eq_ok_iff]

private theorem nextPlain_shrinks (found : List Lexeme) (entry : Entry) (rest : List Lexeme)
    (step : nextPlain endLine found = .ok (.item entry rest)) : rest.length < found.length :=
  takeEntry_shrinks (nextPlain_eq_item_iff.mp step)

/-- The entries that are read are those whose tokens stand one behind the other. -/
private theorem collects_iff_spelled {final : List Lexeme} :
    Collects (nextPlain endLine) found entries final ↔
      final = [] ∧ ∃ pieces, found = pieces.flatten ∧
        List.Forall₂ (Spelled IsRead) pieces entries := by
  constructor
  · intro collects
    induction collects with
    | done ends =>
      obtain ⟨rfl, rfl⟩ := nextPlain_eq_done_iff.mp ends
      exact ⟨rfl, [], rfl, .nil⟩
    | item step _ ih =>
      obtain ⟨rfl, pieces, rfl, each⟩ := ih
      obtain ⟨front, rfl, spelled⟩ := takeEntry_eq_ok_iff.mp (nextPlain_eq_item_iff.mp step)
      exact ⟨rfl, front :: pieces, rfl, .cons spelled each⟩
  · rintro ⟨rfl, pieces, rfl, each⟩
    induction each with
    | nil => exact .done (nextPlain_eq_done_iff.mpr ⟨rfl, rfl⟩)
    | cons spelled _ ih =>
      exact .item (nextPlain_eq_item_iff.mpr (takeEntry_of_spelled spelled)) ih

/-- Entries are spelled alike as tokens that are read and as tokens that denote values. -/
private theorem forall₂_spelled_imp {P Q : Token → Int32 → Prop}
    (each : List.Forall₂ (Spelled P) pieces entries)
    (same : ∀ lexeme ∈ pieces.flatten, ∀ value, P lexeme.token value → Q lexeme.token value) :
    List.Forall₂ (Spelled Q) pieces entries := by
  induction each with
  | nil => exact .nil
  | cons spelled _ ih =>
    rw [List.flatten_cons, List.forall_mem_append] at same
    refine .cons ⟨spelled.declares.imp ?_, spelled.line⟩ (ih same.2)
    exact List.forall_mem_map.mpr same.1

private theorem isRead_iff_of_located {line : Nat} {text : List Char}
    (located : Located line text found) {lexeme : Lexeme} (member : lexeme ∈ found)
    (value : Int32) : IsRead lexeme.token value ↔ lexeme.token.Denotes value :=
  isRead_iff (located.tokenizes.allowed _ (List.mem_map_of_mem member))

/-- A text that consists of entries gives what adding their symbols gives. -/
theorem parse_of_holds {source : String} (holds : Holds source entries)
    (dependency : Option String) :
    parse source dependency = addEntries dependency .empty entries := by
  obtain ⟨pieces, located, each⟩ := holds
  have each_read := forall₂_spelled_imp each fun lexeme member value =>
    (isRead_iff_of_located located member value).mpr
  have read := lexemes_eq_ok_iff.mpr located
  simp only [parse, read, bind, Except.bind, collect_of_spelled each_read]
  cases addEntries dependency .empty entries <;> rfl

/-- The entries that are read of a text are those that it consists of. -/
theorem entries_eq_ok_iff {source : String} :
    SymbolFile.entries source = .ok entries ↔ Holds source entries := by
  simp only [SymbolFile.entries, bind_eq_ok_iff, collect_eq_ok_iff nextPlain_shrinks,
    collects_iff_spelled, lexemes_eq_ok_iff]
  constructor
  · rintro ⟨_, located, ⟨_, _⟩, ⟨-, pieces, rfl, each⟩, ⟨⟩⟩
    refine ⟨pieces, located, forall₂_spelled_imp each ?_⟩
    exact fun lexeme member value => (isRead_iff_of_located located member value).mp
  · rintro ⟨pieces, located, each⟩
    have each_read := forall₂_spelled_imp each fun lexeme member value =>
      (isRead_iff_of_located located member value).mpr
    exact ⟨_, located, (entries, []), ⟨rfl, pieces, rfl, each_read⟩, rfl⟩

/-- A text that is accepted consists of entries. -/
theorem exists_holds_of_parse {source : String} (parsed : parse source dependency = .ok table) :
    ∃ entries, Holds source entries := by
  obtain ⟨entries, read, -⟩ := parse_entries parsed
  exact ⟨entries, entries_eq_ok_iff.mp read⟩

/-- An entry so many lines later. -/
def Entry.later (count : Nat) (entry : Entry) : Entry :=
  { entry with line := entry.line + count }

private theorem Spelled.later {front : List Lexeme} {Denotes : Token → Int32 → Prop}
    (spelled : Spelled Denotes front entry) (count : Nat) :
    Spelled Denotes (front.map (Lexeme.later count)) (entry.later count) where
  declares := by
    rw [List.map_map]
    exact spelled.declares
  line := by
    have moved := congrArg (Option.map (· + count)) spelled.line
    rw [Option.map_map] at moved
    rw [List.head?_map, Option.map_map]
    exact moved

theorem Holds.append_break {first second : String} {others : List Entry}
    (holds : Holds first entries) (behind : Holds second others) :
    Holds (first ++ "\n" ++ second)
      (entries ++ others.map (Entry.later (first.toList.count '\n' + 1))) := by
  obtain ⟨pieces, located, each⟩ := holds
  obtain ⟨pieces', located', each'⟩ := behind
  refine ⟨pieces ++ pieces'.map (List.map (Lexeme.later (first.toList.count '\n' + 1))), ?_, ?_⟩
  · have moved := located'.later (first.toList.count '\n' + 1)
    rw [List.flatten_append, ← List.map_flatten, String.toList_append, String.toList_append,
      List.append_assoc]
    exact located.append_break (Nat.add_assoc _ _ _ ▸ moved)
  · refine List.rel_append each (List.forall₂_map_left_iff.mpr (List.forall₂_map_right_iff.mpr ?_))
    exact each'.imp fun _ _ spelled => spelled.later _

theorem addEntries_append (table : FieldTable Symbol) (first second : List Entry) :
    addEntries dependency table (first ++ second) =
      addEntries dependency table first >>= fun last => addEntries dependency last second := by
  induction first generalizing table with
  | nil => rfl
  | cons entry rest ih =>
    rw [List.cons_append, addEntries, addEntries]
    split
    · rfl
    · exact ih _

/-- Entries are added to a table if their symbols are fresh. -/
theorem addEntries_eq_ok_iff :
    addEntries dependency table entries = .ok last ↔
      table.Fresh (typedSymbols dependency entries) ∧
        last = table.pushAll (typedSymbols dependency entries) := by
  induction entries generalizing table with
  | nil =>
    have nothing : table.Fresh (typedSymbols dependency []) :=
      ⟨List.nodup_nil, fun _ never => absurd never List.not_mem_nil⟩
    simp only [addEntries, Except.ok.injEq, nothing, true_and, eq_comm]
    rfl
  | cons entry rest ih =>
    have listed : typedSymbols dependency (entry :: rest) =
        (entry.type, entry.symbol dependency) :: typedSymbols dependency rest := rfl
    rw [listed, FieldTable.fresh_cons, FieldTable.pushAll_cons, addEntries, and_assoc, ← ih]
    change _ ↔ table.contains entry.type entry.name = false ∧ _
    by_cases known : table.contains entry.type entry.name = true
    · simp [known]
    · simp [known]

/-- Which symbols are added does not depend on the lines of their entries. -/
private theorem addEntries_later_eq_ok_iff {count : Nat} :
    addEntries dependency table (entries.map (Entry.later count)) = .ok last ↔
      addEntries dependency table entries = .ok last := by
  have same : typedSymbols dependency (entries.map (Entry.later count)) =
      typedSymbols dependency entries := by
    rw [typedSymbols, List.map_map]
    rfl
  rw [addEntries_eq_ok_iff, addEntries_eq_ok_iff, same]

private theorem contains_of_added {type : ResourceType} {name : String}
    (added : addEntries dependency table entries = .ok last) :
    last.contains type name = true ↔
      (∃ entry ∈ entries, entry.type = type ∧ entry.name = name) ∨
        table.contains type name = true := by
  obtain ⟨-, rfl⟩ := addEntries_eq_ok_iff.mp added
  rw [FieldTable.contains_pushAll, typedSymbols, List.map_map]
  simp [Entry.symbol, ResourceField.name]

/-- Entries none of which a table has are added to it as merging adds their symbols. -/
private theorem addEntries_of_apart {other : FieldTable Symbol}
    (accepted : addEntries dependency .empty entries = .ok other)
    (apart : ∀ entry ∈ entries, table.contains entry.type entry.name = false) :
    addEntries dependency table entries = .ok (table.merge other) := by
  obtain ⟨fresh, rfl⟩ := addEntries_eq_ok_iff.mp accepted
  have behind : table.Fresh (typedSymbols dependency entries) :=
    ⟨fresh.nodup, List.forall_mem_map.mpr apart⟩
  rw [FieldTable.merge_pushAll_empty, behind.foldl_addNew]
  exact addEntries_eq_ok_iff.mpr ⟨behind, rfl⟩

/-- Of accepted entries that are added to a table, the first one that it has is the duplicate. -/
private theorem addEntries_duplicate {before after : List Entry} {other : FieldTable Symbol}
    (accepted : addEntries dependency .empty (before ++ entry :: after) = .ok other)
    (unknown : ∀ earlier ∈ before, table.contains earlier.type earlier.name = false)
    (known : table.contains entry.type entry.name = true) :
    addEntries dependency table (before ++ entry :: after) =
      .error (.duplicate entry.line entry.type entry.name) := by
  rw [addEntries_append] at accepted ⊢
  obtain ⟨middle, accepted, -⟩ := bind_eq_ok_iff.mp accepted
  have added := addEntries_of_apart accepted unknown
  have still := (contains_of_added added).mpr (.inr known)
  rw [added]
  change addEntries dependency _ (entry :: after) = _
  rw [addEntries, if_pos still]

/-- Of accepted entries that share a symbol with a table, there is a first one that it has. -/
private theorem exists_first_known {other : FieldTable Symbol}
    (accepted : addEntries dependency .empty entries = .ok other)
    (shared : ∃ type name, table.contains type name = true ∧ other.contains type name = true) :
    ∃ before entry after, entries = before ++ entry :: after ∧
      (∀ earlier ∈ before, table.contains earlier.type earlier.name = false) ∧
      table.contains entry.type entry.name = true := by
  obtain ⟨type, name, known, added⟩ := shared
  obtain ⟨found, member, rfl, rfl⟩ := ((contains_of_added accepted).mp added).resolve_right
    Bool.false_ne_true
  have some_known : (entries.find? fun entry => table.contains entry.type entry.name).isSome :=
    List.find?_isSome.mpr ⟨found, member, known⟩
  obtain ⟨entry, first⟩ := Option.isSome_iff_exists.mp some_known
  obtain ⟨entry_known, before, after, split, unknown⟩ := List.find?_eq_some_iff_append.mp first
  refine ⟨before, entry, after, split, ?_, entry_known⟩
  intro earlier inside
  have absent := unknown earlier inside
  rwa [Bool.not_eq_true'] at absent

/-- Two accepted texts with a line break between them give what merging their tables gives, if no
symbol is declared in both. Otherwise they are refused because of the first entry of the second text
that the first one declares, in the line that it has behind the first text. -/
theorem parse_append_break {first second : String} {other : FieldTable Symbol}
    (accepted : parse first dependency = .ok table)
    (accepted' : parse second dependency = .ok other) :
    ((∀ type name, table.contains type name = true → other.contains type name = false) →
      parse (first ++ "\n" ++ second) dependency = .ok (table.merge other)) ∧
    ((∃ type name, table.contains type name = true ∧ other.contains type name = true) →
      ∃ before entry after, Holds second (before ++ entry :: after) ∧
        (∀ earlier ∈ before, table.contains earlier.type earlier.name = false) ∧
        table.contains entry.type entry.name = true ∧
        parse (first ++ "\n" ++ second) dependency =
          .error (.duplicate (entry.line + (first.toList.count '\n' + 1)) entry.type
            entry.name)) := by
  obtain ⟨entries, holds⟩ := exists_holds_of_parse accepted
  obtain ⟨others, holds'⟩ := exists_holds_of_parse accepted'
  rw [parse_of_holds holds] at accepted
  rw [parse_of_holds holds'] at accepted'
  -- Behind the first text, the entries of the second one are added to the table of the first.
  have whole : parse (first ++ "\n" ++ second) dependency =
      addEntries dependency table (others.map (Entry.later (first.toList.count '\n' + 1))) := by
    rw [parse_of_holds (holds.append_break holds'), addEntries_append, accepted]
    rfl
  have moved : addEntries dependency .empty
      (others.map (Entry.later (first.toList.count '\n' + 1))) = .ok other :=
    addEntries_later_eq_ok_iff.mpr accepted'
  rw [whole]
  constructor
  · intro apart
    refine addEntries_of_apart moved (List.forall_mem_map.mpr fun entry member => ?_)
    have there := (contains_of_added accepted').mpr (.inl ⟨entry, member, rfl, rfl⟩)
    rw [Bool.eq_false_iff]
    intro known
    rw [apart entry.type entry.name known] at there
    contradiction
  · intro shared
    obtain ⟨before, entry, after, rfl, unknown, known⟩ := exists_first_known accepted' shared
    refine ⟨before, entry, after, holds', unknown, known, ?_⟩
    rw [List.map_append, List.map_cons] at moved ⊢
    exact addEntries_duplicate moved (List.forall_mem_map.mpr unknown) known

/-- Behind the text of `id/one`, an array of another type is merged, and a text that declares
`id/one` again in its second line is refused in the fourth line. -/
theorem parse_append_break_one :
    (∃ table other,
      parse "int id one 1\n" none = .ok table ∧
        parse "int[] color two \x7b 0x1, -2 \x7d" none = .ok other ∧
        parse ("int id one 1\n" ++ "\n" ++ "int[] color two \x7b 0x1, -2 \x7d") none =
          .ok (table.merge other)) ∧
      parse ("int id one 1\n" ++ "\n" ++ "int string two 2\nint id one 7") none =
        .error (.duplicate 4 .id "one") := by
  let one : FieldTable Symbol := FieldTable.empty.push .id ⟨"one", .int 1, none⟩
  let two : FieldTable Symbol := FieldTable.empty.push .color ⟨"two", .array [1, -2], none⟩
  let both : List Entry := [⟨1, .string, "two", .int 2⟩, ⟨2, .id, "one", .int 7⟩]
  have accepted : parse "int id one 1\n" none = .ok one := by rfl
  have read : SymbolFile.entries "int[] color two \x7b 0x1, -2 \x7d" =
      .ok [⟨1, .color, "two", .array [1, -2]⟩] := by decide +kernel
  have array : parse "int[] color two \x7b 0x1, -2 \x7d" none = .ok two :=
    parse_of_holds (entries_eq_ok_iff.mp read) none
  have listed : SymbolFile.entries "int string two 2\nint id one 7" = .ok both := by decide +kernel
  have again : parse "int string two 2\nint id one 7" none =
      .ok ((FieldTable.empty.push .string ⟨"two", .int 2, none⟩).push .id ⟨"one", .int 7, none⟩) :=
    parse_of_holds (entries_eq_ok_iff.mp listed) none
  constructor
  · refine ⟨one, two, accepted, array, (parse_append_break accepted array).1 ?_⟩
    intro type name known
    have only := ((FieldTable.contains_push _ _ _ _ _).mp known).resolve_right Bool.false_ne_true
    obtain ⟨rfl, rfl⟩ := Prod.mk.inj only
    rfl
  · have known : one.contains .id "one" = true :=
      (FieldTable.contains_push _ _ _ _ _).mpr (.inl rfl)
    obtain ⟨before, entry, after, holds, unknown, found, refused⟩ :=
      (parse_append_break accepted again).2
        ⟨.id, "one", known, (FieldTable.contains_push _ _ _ _ _).mpr (.inl rfl)⟩
    have split := Except.ok.inj ((entries_eq_ok_iff.mpr holds).symm.trans listed)
    match before, split with
    | [], split =>
      obtain ⟨rfl, -⟩ := List.cons.inj split
      exact absurd found Bool.false_ne_true
    | [_], split =>
      obtain ⟨rfl, -⟩ := List.cons.inj (List.cons.inj split).2
      exact refused
    | _ :: _ :: _, split =>
      have nothing := (List.cons.inj (List.cons.inj split).2).2
      simp at nothing

end

end ResourceClasses.SymbolFile
