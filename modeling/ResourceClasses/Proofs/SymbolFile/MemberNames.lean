import ResourceClasses.Name.Member
import ResourceClasses.Proofs.SymbolFile.Concatenation
import ResourceClasses.Proofs.SymbolFile.Spacing
import ResourceClasses.Proofs.Text.Decimal

/-!
Names of members in symbol files: which names that a field can have can be written in a symbol file.
Those that start with an ASCII letter, an underscore or a dollar sign can; a name that starts with
any other letter is not read, since no token starts with it.

Main statement:
* `parse_symbolLine`: what an entry of a name that a field can have is read as.
-/

set_option autoImplicit false

namespace ResourceClasses

namespace Text

/-- No letter comes before the capital A. -/
theorem le_of_isAlphabetic {c : Char} (letter : isAlphabetic c = true) : 0x41 ≤ c.toNat := by
  rw [isAlphabetic, alphabeticRanges, inRanges] at letter
  split at letter
  · contradiction
  · omega

end Text

namespace SymbolFile

open ClassFile (decimal)

/-- The text of the entry that declares an int. -/
def symbolLine (type : ResourceType) (name : String) (value : Int32) : String :=
  "int " ++ type.name ++ " " ++ name ++ " " ++ decimal value

section

variable {c : Char} {part more : List Char}

private theorem isWordPart_of_isMemberPart (allowed : Name.isMemberPart c = true) :
    Token.isWordPart c = true := by
  have never : [' ', '\t', '\r', '\n', '\x7b', '\x7d', ','].any Name.isMemberPart = false := by
    decide
  have others : ∀ other ∈ [' ', '\t', '\r', '\n', '\x7b', '\x7d', ','], c ≠ other := by
    rintro _ member rfl
    exact List.any_eq_false.mp never _ member allowed
  simp only [List.forall_mem_cons] at others
  simp [Token.isWordPart, Token.isBlank, others]

/-- A word goes up to the next blank. -/
private theorem longestAt_allowed {word : List Char} (allowed : (Token.name word).Allowed) :
    LongestAt (word ++ ' ' :: more) (Token.ofWord word) (' ' :: more) := by
  apply longestAt_ofWord allowed
  rintro _ ⟨⟩
  rfl

/-- The decimal text of an int is a token, if nothing follows it. -/
private theorem located_decimal (value : Int32) (line : Nat) :
    Located line (decimal value).toList [⟨.decimal (decimal value).toList, line⟩] := by
  have proper : (Token.decimal (decimal value).toList).Proper :=
    ⟨ClassFile.exists_digits_decimal value, nofun⟩
  have longest : LongestAt ((decimal value).toList ++ []) _ [] := proper.longestAt (.inr nofun)
  rw [List.append_nil] at longest
  exact .token longest .done

/-- What a name that a field can have consists of. -/
theorem exists_chars_of_checkMember {name : String} (accepted : Name.checkMember name = .ok ()) :
    ∃ first others, name.toList = first :: others ∧ Name.isMemberStart first = true ∧
      (∀ c ∈ others, Name.isMemberPart c = true) ∧ Name.reservedWords.contains name = false := by
  unfold Name.checkMember at accepted
  split at accepted
  · contradiction
  rename_i first others chars
  split at accepted
  · contradiction
  rename_i start
  split at accepted
  · contradiction
  rename_i legal
  split at accepted
  · contradiction
  rename_i free
  refine ⟨first, others, chars, by simpa using start, ?_, eq_false_of_ne_true free⟩
  intro c member
  rw [← List.zipIdx_map_fst 1 others] at member
  obtain ⟨⟨_, index⟩, inside, rfl⟩ := List.mem_map.mp member
  simpa using List.find?_eq_none.mp legal _ inside

/-- A name that a field can have is no keyword of symbol files. -/
private theorem ofWord_of_checkMember {name : String} (accepted : Name.checkMember name = .ok ()) :
    Token.ofWord name.toList = .name name.toList := by
  obtain ⟨first, others, chars, start, each, free⟩ := exists_chars_of_checkMember accepted
  have no_int : name.toList ≠ Token.int.chars := by
    intro same
    rw [String.toList_injective same] at free
    contradiction
  have no_array : name.toList ≠ Token.intArray.chars := by
    intro same
    rw [chars] at same
    rw [(List.cons.inj same).2] at each
    exact absurd (each '[' (by decide)) (by decide)
  rw [Token.ofWord, if_neg no_int, if_neg no_array]

/-- A name that starts with a letter that no word starts with begins with no token. -/
private theorem not_begins_of_isMemberStart (start : Name.isMemberStart c = true)
    (foreign : Token.isWordStart c = false) (token : Token) (rest : List Char) :
    ¬Begins (c :: more) token rest := by
  have first := isFirst_first? (c :: more)
  have others : c ≠ '\x7b' ∧ c ≠ '\x7d' ∧ c ≠ ',' := by
    refine ⟨?_, ?_, ?_⟩ <;>
    · rintro rfl
      contradiction
  have letter : 0x41 ≤ c.toNat := by
    apply Text.le_of_isAlphabetic
    simp only [Token.isWordStart, Bool.or_eq_false_iff] at foreign
    simpa [Name.isMemberStart, foreign] using start
  have no_sign : c ≠ '-' := by
    rintro rfl
    contradiction
  have no_digit : Text.isDigit 10 c = false := by
    unfold Text.isDigit Text.digitValue?
    grind
  have unmarked : Token.afterMarker? (c :: more) = none := by
    rw [Option.eq_none_iff_forall_ne_some]
    intro found marked
    obtain ⟨_, _, rfl, -⟩ := exists_marker_of_afterMarker? marked
    contradiction
  rw [Token.first?, if_neg others.1, if_neg others.2.1, if_neg others.2.2, foreign,
    if_neg Bool.false_ne_true, if_neg no_sign, unmarked, List.span_eq_takeWhile_dropWhile,
    List.takeWhile_cons_of_neg (by simp [no_digit])] at first
  exact first token rest

private theorem toList_symbolLine (type : ResourceType) (name : String) (value : Int32) :
    (symbolLine type name value).toList =
      Token.int.chars ++ ' ' :: (type.name.toList ++ ' ' ::
        (name.toList ++ ' ' :: (decimal value).toList)) := by
  have blank : " ".toList = [' '] := by decide
  have keyword : "int ".toList = Token.int.chars ++ [' '] := by decide
  simp only [symbolLine, String.toList_append, blank, keyword, List.append_assoc,
    List.cons_append, List.nil_append]

private theorem allowed_int : (Token.name Token.int.chars).Allowed :=
  ⟨'i', ['n', 't'], rfl, rfl, List.all_eq_true.mp rfl⟩

private theorem denotes_decimal (value : Int32) :
    (Token.decimal (decimal value).toList).Denotes value := by
  have range : -0x80000000 ≤ value.toInt ∧ value.toInt < 0x80000000 :=
    ⟨value.le_toInt, value.toInt_lt⟩
  rw [Token.Denotes, ClassFile.decimalNumber_decimal]
  exact ⟨range, (Int32.ofInt_toInt value).symm⟩

variable {name : String} {others : List Char}

private theorem parse_of_isWordStart (accepted : Name.checkMember name = .ok ())
    (chars : name.toList = c :: others) (ascii : Token.isWordStart c = true) (type : ResourceType)
    (value : Int32) (dependency : Option String) :
    ∃ table, parse (symbolLine type name value) dependency = .ok table ∧
      table.toList = [(type, [⟨name, .int value, dependency⟩])] := by
  obtain ⟨first, behind, split, -, each, -⟩ := exists_chars_of_checkMember accepted
  rw [chars, List.cons.injEq] at split
  obtain ⟨rfl, rfl⟩ := split
  obtain ⟨type_allowed, type_word⟩ := proper_type type
  have name_allowed : (Token.name name.toList).Allowed :=
    ⟨c, others, chars, ascii, fun c member => isWordPart_of_isMemberPart (each c member)⟩
  have holds : Holds (symbolLine type name value) [⟨1, type, name, .int value⟩] := by
    refine ⟨[[⟨.int, 1⟩, ⟨.name type.name.toList, 1⟩, ⟨.name name.toList, 1⟩,
      ⟨.decimal (decimal value).toList, 1⟩]], ?_, .cons ⟨.int (denotes_decimal value), rfl⟩ .nil⟩
    rw [toList_symbolLine, ← type_word _ rfl, ← ofWord_of_checkMember accepted]
    refine .token (longestAt_allowed allowed_int) (.blank rfl ?_)
    refine .token (longestAt_allowed type_allowed) (.blank rfl ?_)
    exact .token (longestAt_allowed name_allowed) (.blank rfl (located_decimal value 1))
  rw [parse_of_holds holds]
  exact ⟨_, rfl, rfl⟩

private theorem parse_of_foreign (accepted : Name.checkMember name = .ok ())
    (chars : name.toList = c :: others) (foreign : Token.isWordStart c = false)
    (type : ResourceType) (value : Int32) (dependency : Option String) :
    parse (symbolLine type name value) dependency = .error (.unexpectedChar 1 c) := by
  obtain ⟨first, behind, split, start, -, -⟩ := exists_chars_of_checkMember accepted
  rw [chars, List.cons.injEq] at split
  obtain ⟨rfl, rfl⟩ := split
  have visible : Token.isBlank c = false := by
    have part : Token.isWordPart c = true :=
      isWordPart_of_isMemberPart (by rw [Name.isMemberPart, start, Bool.true_or])
    simp only [Token.isWordPart, Bool.and_eq_true, Bool.not_eq_true'] at part
    exact part.1.1.1
  have stuck : Stuck 1 (symbolLine type name value).toList (.unexpectedChar 1 c) := by
    rw [toList_symbolLine, chars]
    refine .token (longestAt_allowed allowed_int) (.blank rfl ?_)
    refine .token (longestAt_allowed (proper_type type).allowed) (.blank rfl ?_)
    exact .here visible (not_begins_of_isMemberStart start foreign)
  rw [parse, lexemes_of_stuck stuck]
  rfl

end

/-- An entry of a name that a field can have is read as that symbol if the name starts with an ASCII
letter, an underscore or a dollar sign, and otherwise its first character is not read. -/
theorem parse_symbolLine {name : String} (accepted : Name.checkMember name = .ok ())
    (type : ResourceType) (value : Int32) (dependency : Option String) :
    ∃ first others, name.toList = first :: others ∧
      if Token.isWordStart first then
        ∃ table, parse (symbolLine type name value) dependency = .ok table ∧
          table.toList = [(type, [⟨name, .int value, dependency⟩])]
      else
        parse (symbolLine type name value) dependency = .error (.unexpectedChar 1 first) := by
  obtain ⟨first, others, chars, -⟩ := exists_chars_of_checkMember accepted
  refine ⟨first, others, chars, ?_⟩
  split
  · rename_i ascii
    exact parse_of_isWordStart accepted chars ascii type value dependency
  · rename_i foreign
    exact parse_of_foreign accepted chars (eq_false_of_ne_true foreign) type value dependency

theorem parse_symbolLine_app_name :
    Name.checkMember "app_name" = .ok () ∧
      ∃ table, parse (symbolLine .string "app_name" (-1)) none = .ok table ∧
        table.toList = [(.string, [⟨"app_name", .int (-1), none⟩])] := by
  have accepted : Name.checkMember "app_name" = .ok () := by decide
  obtain ⟨first, others, chars, read⟩ := parse_symbolLine accepted .string (-1) none
  have start : first = 'a' := (List.cons.inj chars).1.symm
  rw [start, if_pos (by decide)] at read
  exact ⟨accepted, read⟩

/-- A field can be called by a letter with an accent, but a symbol file with that name is not
read. -/
theorem not_parse_symbolLine_accent :
    Name.checkMember "é" = .ok () ∧
      parse (symbolLine .id "é" 1) none = .error (.unexpectedChar 1 'é') := by
  have accepted : Name.checkMember "é" = .ok () := by decide
  exact ⟨accepted, parse_of_foreign accepted rfl (by decide) .id 1 none⟩

end SymbolFile

end ResourceClasses
