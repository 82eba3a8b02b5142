import Mathlib.Data.Bool.AllAny
import Mathlib.Data.List.Chain
import ResourceClasses.Proofs.SymbolFile.Grammar

/-!
Ways to write symbol files: however the values are written and wherever blanks stand between the
tokens, the longest match cuts the text where the tokens end.

Main statement:
* `parse_spaced`: every way to write down some symbols is accepted and gives these symbols.
-/

set_option autoImplicit false

namespace ResourceClasses.SymbolFile

open Text (isDigit numberOf)

namespace Token

/-- Whether a token is a brace or a comma, which needs no blanks around it. -/
def isMark : Token → Bool
  | openingBrace | closingBrace | comma => true
  | _ => false

/-- Whether a token is the one that its text is read as. -/
structure Proper (token : Token) : Prop where
  allowed : token.Allowed
  plain : ∀ word, token = name word → ofWord word = token

end Token

/-- The tokens that write an int: its decimal digits, behind a minus sign if it is negative, or the
digits of its bits in base sixteen behind their marker, in either case with any zeros in front. -/
inductive Writes : Token → Int32 → Prop
  | natural {digits : List Char} {value : Int32} (some_digit : digits ≠ [])
      (each : ∀ c ∈ digits, isDigit 10 c = true) (number : numberOf 10 digits = value.toInt) :
      Writes (.decimal digits) value
  | negative {digits : List Char} {value : Int32} (some_digit : digits ≠ [])
      (each : ∀ c ∈ digits, isDigit 10 c = true)
      (number : -(numberOf 10 digits : Int) = value.toInt) :
      Writes (.decimal ('-' :: digits)) value
  | hexadecimal {marker : Char} {digits : List Char} {value : Int32}
      (base : marker = 'x' ∨ marker = 'X') (some_digit : digits ≠ [])
      (each : ∀ c ∈ digits, isDigit 16 c = true)
      (number : numberOf 16 digits = value.toUInt32.toNat) :
      Writes (.hexadecimal ('0' :: marker :: digits)) value

/-- Whether a name can be written in a symbol file. -/
structure IsSymbolName (name : String) : Prop where
  start : ∃ first others, name.toList = first :: others ∧
    (first.isAlpha = true ∨ first = '_' ∨ first = '$')
  plain : ∀ c ∈ name.toList, c ∉ [' ', '\t', '\r', '\n', '\x7b', '\x7d', ',']
  no_keyword : name ≠ "int" ∧ name ≠ "int[]"

/-- The text of tokens, each with the blanks that follow it. -/
def spaced (row : List (Token × List Char)) : List Char :=
  row.flatMap fun (token, blanks) => token.chars ++ blanks

/-- Whether only blanks stand behind tokens, and at least one between two of them neither of which
is a brace or a comma. -/
structure Apart (row : List (Token × List Char)) : Prop where
  blank : ∀ piece ∈ row, ∀ c ∈ piece.2, Token.isBlank c = true
  enough : row.IsChain fun piece next => piece.2 = [] → piece.1.isMark ∨ next.1.isMark

section

variable {token : Token} {text : List Char}

private theorem takeWhile_append {p : Char → Bool} {part : List Char}
    (each : ∀ c ∈ part, p c = true) (ended : ∀ c ∈ text.head?, p c = false) :
    (part ++ text).takeWhile p = part ∧ (part ++ text).dropWhile p = text := by
  rw [List.takeWhile_append_of_pos each, List.dropWhile_append_of_pos each]
  cases text with
  | nil => exact ⟨List.append_nil _, rfl⟩
  | cons c rest =>
    have last : ¬p c = true := by
      rw [ended c rfl]
      exact Bool.false_ne_true
    rw [List.takeWhile_cons_of_neg last, List.dropWhile_cons_of_neg last, List.append_nil]
    exact ⟨rfl, rfl⟩

/-- A word goes on as long as its characters do. -/
theorem longestAt_ofWord {word : List Char} (allowed : (Token.name word).Allowed)
    (ended : ∀ c ∈ text.head?, Token.isWordPart c = false) :
    LongestAt (word ++ text) (Token.ofWord word) text := by
  obtain ⟨c, part, rfl, start, each⟩ := allowed
  obtain ⟨taken, left⟩ := takeWhile_append each ended
  have longest : LongestAt (c :: (part ++ text)) _ _ := longestAt_word start
  rwa [taken, left] at longest

private theorem isWordPart_of_isDigit {base : Nat} {c : Char} (digit : isDigit base c = true) :
    Token.isWordPart c = true := by
  have no_mark : c ≠ '\x7b' ∧ c ≠ '\x7d' ∧ c ≠ ',' := by
    refine ⟨?_, ?_, ?_⟩ <;>
    · rintro rfl
      contradiction
  simp [Token.isWordPart, not_isBlank_of_isDigit digit, no_mark]

private theorem not_isDigit_of_ended (base : Nat)
    (ended : ∀ c ∈ text.head?, Token.isWordPart c = false) :
    ∀ c ∈ text.head?, isDigit base c = false := by
  intro c member
  rw [Bool.eq_false_iff]
  intro digit
  have part := isWordPart_of_isDigit digit
  rw [ended c member] at part
  contradiction

private theorem afterMarker?_eq_none {c : Char} {digits : List Char}
    (each : ∀ c ∈ digits, isDigit 10 c = true)
    (ended : ∀ c ∈ text.head?, Token.isWordPart c = false) :
    Token.afterMarker? (c :: (digits ++ text)) = none := by
  rw [Option.eq_none_iff_forall_ne_some]
  intro found marked
  obtain ⟨marker, tail, -, split, base⟩ := exists_marker_of_afterMarker? marked
  cases digits with
  | nil =>
    have last := ended marker (by rw [show text = marker :: tail from split]; rfl)
    rcases base with rfl | rfl <;> exact absurd last (by decide)
  | cons digit digits =>
    have first := each digit List.mem_cons_self
    rw [(List.cons.inj split).1] at first
    rcases base with rfl | rfl <;> contradiction

/-- A token is the longest one there if it is a brace or a comma, or if no part of a word follows. -/
theorem Token.Proper.longestAt (proper : token.Proper)
    (ended : token.isMark = true ∨ ∀ c ∈ text.head?, Token.isWordPart c = false) :
    LongestAt (token.chars ++ text) token text := by
  obtain ⟨allowed, plain⟩ := proper
  cases token with
  | openingBrace => exact isFirst_first? ('\x7b' :: text)
  | closingBrace => exact isFirst_first? ('\x7d' :: text)
  | comma => exact isFirst_first? (',' :: text)
  | int =>
    have word : (Token.name Token.int.chars).Allowed :=
      ⟨'i', ['n', 't'], rfl, rfl, List.all_eq_true.mp rfl⟩
    exact longestAt_ofWord word (ended.resolve_left Bool.false_ne_true)
  | intArray =>
    have word : (Token.name Token.intArray.chars).Allowed :=
      ⟨'i', ['n', 't', '[', ']'], rfl, rfl, List.all_eq_true.mp rfl⟩
    exact longestAt_ofWord word (ended.resolve_left Bool.false_ne_true)
  | name word =>
    have longest := longestAt_ofWord allowed (ended.resolve_left Bool.false_ne_true)
    rwa [plain word rfl] at longest
  | decimal numeral =>
    replace ended := ended.resolve_left Bool.false_ne_true
    obtain ⟨digits, rfl | rfl, some_digit, each⟩ := allowed
    · cases numeral with
      | nil => contradiction
      | cons c digits =>
        rw [List.forall_mem_cons] at each
        obtain ⟨taken, left⟩ := takeWhile_append each.2 (not_isDigit_of_ended 10 ended)
        have longest := longestAt_natural (afterMarker?_eq_none each.2 ended) each.1
        rwa [taken, left] at longest
    · obtain ⟨taken, left⟩ := takeWhile_append each (not_isDigit_of_ended 10 ended)
      have some_taken : (digits ++ text).takeWhile (isDigit 10) ≠ [] := by rwa [taken]
      have longest := longestAt_negative some_taken
      rwa [taken, left] at longest
  | hexadecimal numeral =>
    replace ended := ended.resolve_left Bool.false_ne_true
    obtain ⟨marker, digits, rfl, base, some_digit, each⟩ := allowed
    obtain ⟨taken, left⟩ := takeWhile_append each (not_isDigit_of_ended 16 ended)
    have marked : Token.afterMarker? ('0' :: marker :: (digits ++ text)) =
        some ('0' :: marker :: digits, text) := by
      rw [afterMarker?_zero base, taken, if_neg some_digit, left]
    exact longestAt_hexadecimal marked

private theorem Tokenizes.blanks {blanks : List Char} {tokens : List Token}
    (each : ∀ c ∈ blanks, Token.isBlank c = true) (later : Tokenizes text tokens) :
    Tokenizes (blanks ++ text) tokens := by
  induction blanks with
  | nil => exact later
  | cons c rest ih =>
    rw [List.forall_mem_cons] at each
    exact .blank each.1 (ih each.2)

/-- Tokens that are apart are found in the text that they make. -/
theorem tokenizes_spaced {row : List (Token × List Char)} (apart : Apart row)
    (proper : ∀ piece ∈ row, piece.1.Proper) : Tokenizes (spaced row) (row.map Prod.fst) := by
  induction row with
  | nil => exact .done
  | cons piece rest ih =>
    obtain ⟨token, blanks⟩ := piece
    obtain ⟨blank, enough⟩ := apart
    rw [List.forall_mem_cons] at proper blank
    have later := ih ⟨blank.2, enough.tail⟩ proper.2
    have text_eq : spaced ((token, blanks) :: rest) = token.chars ++ (blanks ++ spaced rest) :=
      List.append_assoc _ _ _
    rw [text_eq]
    refine .token (proper.1.longestAt ?_) (.blanks blank.1 later)
    cases blanks with
    | cons c others =>
      refine .inr ?_
      rintro _ ⟨⟩
      simp [Token.isWordPart, blank.1 c List.mem_cons_self]
    | nil =>
      cases rest with
      | nil => exact .inr fun _ none => by contradiction
      | cons next others =>
        rcases (List.isChain_cons_cons.mp enough).1 rfl with mark | mark
        · exact .inl mark
        · obtain ⟨following, gap⟩ := next
          refine .inr ?_
          cases following <;> first | contradiction | (rintro _ ⟨⟩; rfl)

end

theorem Writes.allowed {token : Token} {value : Int32} (writes : Writes token value) :
    token.Allowed := by
  cases writes with
  | natural some_digit each => exact ⟨_, .inl rfl, some_digit, each⟩
  | negative some_digit each => exact ⟨_, .inr rfl, some_digit, each⟩
  | hexadecimal base some_digit each => exact ⟨_, _, rfl, base, some_digit, each⟩

theorem Writes.proper {token : Token} {value : Int32} (writes : Writes token value) :
    token.Proper where
  allowed := writes.allowed
  plain := by
    rintro word rfl
    contradiction

/-- However an int is written, that int is read. -/
theorem Writes.denotes {token : Token} {value : Int32} (writes : Writes token value) :
    token.Denotes value := by
  have range : -0x80000000 ≤ value.toInt ∧ value.toInt < 0x80000000 :=
    ⟨value.le_toInt, value.toInt_lt⟩
  cases writes with
  | natural _ each number =>
    rw [Token.Denotes, Text.decimalNumber_of_isDigit each, number]
    exact ⟨range, (Int32.ofInt_toInt value).symm⟩
  | negative _ _ number =>
    rw [Token.Denotes, Text.decimalNumber, number]
    exact ⟨range, (Int32.ofInt_toInt value).symm⟩
  | hexadecimal _ _ _ number =>
    have small : numberOf 16 _ < 0x100000000 := number ▸ value.toUInt32.toNat_lt
    have bits : (UInt32.ofNat value.toUInt32.toNat).toInt32 = value :=
      congrArg UInt32.toInt32 UInt32.ofNat_toNat
    refine ⟨small, ?_⟩
    rw [List.drop_succ_cons, List.drop_succ_cons, List.drop_zero, number]
    exact bits.symm

private theorem isWordStart_of_isAlpha {c : Char}
    (start : c.isAlpha = true ∨ c = '_' ∨ c = '$') : Token.isWordStart c = true := by
  rcases start with letter | rfl | rfl
  · have range : ('A' ≤ c ∧ c ≤ 'Z') ∨ ('a' ≤ c ∧ c ≤ 'z') := by
      rcases Bool.or_eq_true_iff.mp letter with upper | lower
      · exact .inl (of_decide_eq_true upper)
      · obtain ⟨least, greatest⟩ := Bool.and_eq_true_iff.mp lower
        exact .inr ⟨of_decide_eq_true least, of_decide_eq_true greatest⟩
    simp [Token.isWordStart, range]
  · rfl
  · rfl

theorem IsSymbolName.proper {name : String} (named : IsSymbolName name) :
    (Token.name name.toList).Proper where
  allowed := by
    obtain ⟨first, others, chars, start⟩ := named.start
    refine ⟨first, others, chars, isWordStart_of_isAlpha start, ?_⟩
    intro c member
    have plain := named.plain c (chars ▸ List.mem_cons_of_mem _ member)
    simp only [List.mem_cons, List.not_mem_nil, or_false, not_or] at plain
    simp [Token.isWordPart, Token.isBlank, plain]
  plain := by
    rintro _ ⟨⟩
    have no_int : name.toList ≠ Token.int.chars :=
      fun same => named.no_keyword.1 (String.toList_injective same)
    have no_array : name.toList ≠ Token.intArray.chars :=
      fun same => named.no_keyword.2 (String.toList_injective same)
    rw [Token.ofWord, if_neg no_int, if_neg no_array]

/-- The name of a resource type is a word, and no keyword. -/
theorem proper_type (type : ResourceType) : (Token.name type.name.toList).Proper := by
  apply IsSymbolName.proper
  constructor
  · refine ⟨type.name.toList.headD ' ', type.name.toList.tail, ?_, .inl ?_⟩ <;>
      cases type <;> decide
  · refine List.all_iff_forall_prop.mp ?_
    cases type <;> decide
  · cases type <;> decide

section

variable {dependency : Option String} {tokens : List Token}

private theorem Listed.proper {values : List Int32} (listed : Listed Writes tokens values) :
    ∀ token ∈ tokens, token.Proper := by
  have comma : Token.comma.Proper := ⟨trivial, nofun⟩
  induction listed with
  | one writes => exact List.forall_mem_singleton.mpr writes.proper
  | more writes _ ih =>
    exact List.forall_mem_cons.mpr ⟨writes.proper, List.forall_mem_cons.mpr ⟨comma, ih⟩⟩

private theorem Bracketed.proper {values : List Int32}
    (bracketed : Bracketed Writes tokens values) : ∀ token ∈ tokens, token.Proper := by
  have opening : Token.openingBrace.Proper := ⟨trivial, nofun⟩
  have closing : Token.closingBrace.Proper := ⟨trivial, nofun⟩
  cases bracketed with
  | empty =>
    exact List.forall_mem_cons.mpr ⟨opening, List.forall_mem_singleton.mpr closing⟩
  | listed listed =>
    refine List.forall_mem_cons.mpr ⟨opening, List.forall_mem_append.mpr ⟨listed.proper, ?_⟩⟩
    exact List.forall_mem_singleton.mpr closing

/-- The tokens that declare a symbol of a proper name are proper. -/
theorem Declares.proper {declared : ResourceType × Symbol}
    (declares : Declares Writes dependency tokens declared)
    (named : IsSymbolName declared.2.name) : ∀ token ∈ tokens, token.Proper := by
  have int : Token.int.Proper := ⟨trivial, nofun⟩
  have intArray : Token.intArray.Proper := ⟨trivial, nofun⟩
  cases declares with
  | int writes =>
    simp only [List.forall_mem_cons]
    exact ⟨int, proper_type _, named.proper, writes.proper, List.forall_mem_nil _⟩
  | array bracketed =>
    simp only [List.forall_mem_cons]
    exact ⟨intArray, proper_type _, named.proper, bracketed.proper⟩

private theorem proper_of_forall₂ {pieces : List (List Token)}
    {symbols : List (ResourceType × Symbol)}
    (declares : List.Forall₂ (Declares Writes dependency) pieces symbols)
    (named : ∀ symbol ∈ symbols, IsSymbolName symbol.2.name) :
    ∀ token ∈ pieces.flatten, token.Proper := by
  induction declares with
  | nil => exact fun _ none => absurd none List.not_mem_nil
  | cons first _ ih =>
    rw [List.forall_mem_cons] at named
    rw [List.flatten_cons]
    exact List.forall_mem_append.mpr ⟨first.proper named.1, ih named.2⟩

end

/-- However symbols of different types or names are written down, with values in decimal or in base
sixteen, and with blanks in front and wherever they are wanted, the text is accepted, and gives
these symbols: the types in the order in which they come first, and the symbols of each in order. -/
theorem parse_spaced {source : String} {dependency : Option String}
    {symbols : List (ResourceType × Symbol)}
    (named : ∀ symbol ∈ symbols, IsSymbolName symbol.2.name)
    (distinct : (symbols.map fun symbol => (symbol.1, symbol.2.name)).Nodup)
    {pieces : List (List Token)}
    (declares : List.Forall₂ (Declares Writes dependency) pieces symbols)
    {before : List Char} (blank : ∀ c ∈ before, Token.isBlank c = true)
    {row : List (Token × List Char)} (apart : Apart row)
    (tokens : row.map Prod.fst = pieces.flatten) (text : source.toList = before ++ spaced row) :
    ∃ table, parse source dependency = .ok table ∧ table.toList = byType symbols := by
  have proper : ∀ piece ∈ row, piece.1.Proper := by
    have each := proper_of_forall₂ declares named
    rwa [← tokens, List.forall_mem_map] at each
  have tokenized := Tokenizes.blanks blank (tokenizes_spaced apart proper)
  rw [tokens, ← text] at tokenized
  refine IsSymbolFile.parse ⟨⟨pieces, tokenized, ?_⟩, distinct⟩
  exact declares.imp fun _ _ declares => declares.imp fun _ _ _ writes => writes.denotes

/-- A file with names that look like keywords, in which few blanks stand and values have zeros in
front. -/
def oddSource : String :=
  "\nint[] id int[\x7b0X00fF,-01\x7dint\tstring\r$1 0x80000000"

theorem parse_spaced_odd :
    ∃ table, parse oddSource (some "lib") = .ok table ∧
      table.toList =
        [(.id, [⟨"int[", .array [255, -1], some "lib"⟩]),
          (.string, [⟨"$1", .int (-2147483648), some "lib"⟩])] := by
  let first : List (Token × List Char) :=
    [(.intArray, [' ']), (.name ResourceType.id.name.toList, [' ']), (.name "int[".toList, []),
      (.openingBrace, []), (.hexadecimal ['0', 'X', '0', '0', 'f', 'F'], []), (.comma, []),
      (.decimal ['-', '0', '1'], []), (.closingBrace, [])]
  let second : List (Token × List Char) :=
    [(.int, ['\t']), (.name ResourceType.string.name.toList, ['\r']), (.name "$1".toList, [' ']),
      (.hexadecimal ['0', 'x', '8', '0', '0', '0', '0', '0', '0', '0'], [])]
  have named : ∀ symbol ∈ [(ResourceType.id, (⟨"int[", .array [255, -1], some "lib"⟩ : Symbol)),
      (.string, ⟨"$1", .int (-2147483648), some "lib"⟩)], IsSymbolName symbol.2.name := by
    simp only [List.forall_mem_cons]
    refine ⟨⟨⟨'i', ['n', 't', '['], by decide, by decide⟩, ?_, by decide⟩,
      ⟨⟨'$', ['1'], by decide, by decide⟩, ?_, by decide⟩, List.forall_mem_nil _⟩ <;>
    exact List.all_iff_forall_prop.mp (by decide)
  have color : Writes (.hexadecimal ['0', 'X', '0', '0', 'f', 'F']) 255 :=
    .hexadecimal (.inr rfl) (by decide) (List.all_eq_true.mp rfl) (by decide)
  have minus : Writes (.decimal ['-', '0', '1']) (-1) :=
    .negative (by decide) (List.all_eq_true.mp rfl) (by decide)
  have least : Writes (.hexadecimal ['0', 'x', '8', '0', '0', '0', '0', '0', '0', '0'])
      (-2147483648) :=
    .hexadecimal (.inl rfl) (by decide) (List.all_eq_true.mp rfl) (by decide)
  have array : Declares Writes (some "lib") (first.map Prod.fst)
      (.id, ⟨"int[", .array [255, -1], some "lib"⟩) :=
    .array (.listed (.more color (.one minus)))
  have int : Declares Writes (some "lib") (second.map Prod.fst)
      (.string, ⟨"$1", .int (-2147483648), some "lib"⟩) :=
    .int least
  have blank : ∀ c ∈ ['\n'], Token.isBlank c = true := List.all_eq_true.mp rfl
  have gaps : ∀ piece ∈ first ++ second, piece.2.all Token.isBlank = true :=
    List.all_eq_true.mp rfl
  have apart : Apart (first ++ second) :=
    ⟨fun piece member => List.all_eq_true.mp (gaps piece member), by decide⟩
  exact parse_spaced named (by decide) (.cons array (.cons int .nil)) blank apart rfl (by decide)

end ResourceClasses.SymbolFile
