import Mathlib.Data.List.TakeDrop
import Mathlib.Data.List.TakeWhile
import ResourceClasses.Proofs.Outcome
import ResourceClasses.SymbolFile.Token

/-!
Tokens by the longest match: the texts that each kind of token has are given one by one, and the
tokens of a text are found by taking the longest one again and again. A word that is a keyword is
that keyword, though it could be a name. No token has a blank in it, so a line break ends each.
-/

set_option autoImplicit false

namespace ResourceClasses.SymbolFile

namespace Token

/-- Whether the text of a token is one that its kind has: a numeral has at least one digit, and a
name starts like a word and goes on like one. -/
def Allowed : Token → Prop
  | hexadecimal text => ∃ marker digits, text = '0' :: marker :: digits ∧
      (marker = 'x' ∨ marker = 'X') ∧ digits ≠ [] ∧ ∀ c ∈ digits, Text.isDigit 16 c = true
  | decimal text => ∃ digits, (text = digits ∨ text = '-' :: digits) ∧ digits ≠ [] ∧
      ∀ c ∈ digits, Text.isDigit 10 c = true
  | name text => ∃ start part, text = start :: part ∧ isWordStart start = true ∧
      ∀ c ∈ part, isWordPart c = true
  | int | intArray | openingBrace | closingBrace | comma => True

end Token

/-- Whether a text is a token and then a rest. -/
structure Begins (text : List Char) (token : Token) (rest : List Char) : Prop where
  allowed : token.Allowed
  split : text = token.chars ++ rest

/-- Whether a token is the longest one that a text begins with, where a keyword comes before a name
of the same length. -/
structure LongestAt (text : List Char) (token : Token) (rest : List Char) : Prop where
  begins : Begins text token rest
  longest : ∀ other after, Begins text other after → other.chars.length ≤ token.chars.length
  keyword : ∀ other after, Begins text other after → other.chars.length = token.chars.length →
    other = token ∨ token = .int ∨ token = .intArray

/-- The tokens of a text, with blanks before, between and behind them. -/
inductive Tokenizes : List Char → List Token → Prop
  | done : Tokenizes [] []
  | blank {c : Char} {text : List Char} {tokens : List Token} (separates : Token.isBlank c = true)
      (later : Tokenizes text tokens) : Tokenizes (c :: text) tokens
  | token {text rest : List Char} {token : Token} {tokens : List Token}
      (first : LongestAt text token rest) (later : Tokenizes rest tokens) :
      Tokenizes text (token :: tokens)

section

variable {text rest cs : List Char} {c : Char} {token : Token}

/-- What stands at the front and has a property throughout is no longer than the longest such
stretch. -/
private theorem length_le_takeWhile {p : Char → Bool} {part after : List Char}
    (split : cs = part ++ after) (each : ∀ c ∈ part, p c = true) :
    part.length ≤ (cs.takeWhile p).length := by
  rw [split, List.takeWhile_append_of_pos each, List.length_append]
  exact Nat.le_add_right _ _

/-- Two tokens of one length at the front of a text have the same characters. -/
private theorem Begins.chars_eq {other : Token} {after : List Char} (one : Begins text token rest)
    (another : Begins text other after) (same : other.chars.length = token.chars.length) :
    other.chars = token.chars := by
  have split := another.split
  rw [one.split] at split
  exact (List.append_inj split same.symm).1.symm

private theorem longestAt_of_begins (begins : Begins text token rest)
    (longest : ∀ other after, Begins text other after →
      other.chars.length ≤ token.chars.length ∧
        (other.chars = token.chars → other = token ∨ token = .int ∨ token = .intArray)) :
    LongestAt text token rest where
  begins := begins
  longest := fun other after found => (longest other after found).1
  keyword := fun other after found same =>
    (longest other after found).2 (begins.chars_eq found same)

theorem LongestAt.unique {other : Token} {after : List Char} (one : LongestAt text token rest)
    (another : LongestAt text other after) : token = other ∧ rest = after := by
  have same : token.chars.length = other.chars.length :=
    Nat.le_antisymm (another.longest _ _ one.begins) (one.longest _ _ another.begins)
  have tokens : token = other := by
    rcases one.keyword _ _ another.begins same.symm with equal | first
    · exact equal.symm
    · rcases another.keyword _ _ one.begins same with equal | second
      · exact equal
      · -- The two keywords are not of the same length.
        rcases first with rfl | rfl <;> rcases second with rfl | rfl <;>
          first | rfl | (revert same; decide)
  refine ⟨tokens, ?_⟩
  have split := one.begins.split
  rw [another.begins.split, tokens] at split
  exact (List.append_cancel_left split).symm

private theorem isWordStart_of_isDigit (digit : Text.isDigit 10 c = true) :
    Token.isWordStart c = false := by
  have range : 0x30 ≤ c.toNat ∧ c.toNat ≤ 0x39 := by
    unfold Text.isDigit Text.digitValue? at digit
    grind
  have letters : ¬('A' ≤ c) ∧ ¬('a' ≤ c) := by
    simp only [Char.le_def, UInt32.le_iff_toNat_le]
    change ¬(65 ≤ c.toNat) ∧ ¬(97 ≤ c.toNat)
    omega
  have others : c ≠ '_' ∧ c ≠ '$' := by
    constructor <;> rintro rfl <;> revert range <;> decide
  simp [Token.isWordStart, letters, others]

/-- The ways in which a text that starts with a given character can begin with a token. -/
private inductive Lead (c : Char) (cs rest : List Char) : Token → Prop
  | openingBrace (is : c = '\x7b') (split : cs = rest) : Lead c cs rest .openingBrace
  | closingBrace (is : c = '\x7d') (split : cs = rest) : Lead c cs rest .closingBrace
  | comma (is : c = ',') (split : cs = rest) : Lead c cs rest .comma
  | word {token : Token} {part : List Char} (start : Token.isWordStart c = true)
      (each : ∀ c ∈ part, Token.isWordPart c = true) (split : cs = part ++ rest)
      (chars : token.chars = c :: part)
      (kind : token = .int ∨ token = .intArray ∨ token = .name (c :: part)) : Lead c cs rest token
  | negative {digits : List Char} (is : c = '-') (some_digit : digits ≠ [])
      (each : ∀ c ∈ digits, Text.isDigit 10 c = true) (split : cs = digits ++ rest) :
      Lead c cs rest (.decimal ('-' :: digits))
  | natural {digits : List Char} (first : Text.isDigit 10 c = true)
      (each : ∀ c ∈ digits, Text.isDigit 10 c = true) (split : cs = digits ++ rest) :
      Lead c cs rest (.decimal (c :: digits))
  | hexadecimal {marker : Char} {digits : List Char} (is : c = '0')
      (base : marker = 'x' ∨ marker = 'X') (some_digit : digits ≠ [])
      (each : ∀ c ∈ digits, Text.isDigit 16 c = true) (split : cs = marker :: (digits ++ rest)) :
      Lead c cs rest (.hexadecimal ('0' :: marker :: digits))

private theorem Begins.lead (begins : Begins (c :: cs) token rest) : Lead c cs rest token := by
  obtain ⟨allowed, split⟩ := begins
  cases token with
  | openingBrace =>
    obtain ⟨is, later⟩ := List.cons.inj split
    exact .openingBrace is later
  | closingBrace =>
    obtain ⟨is, later⟩ := List.cons.inj split
    exact .closingBrace is later
  | comma =>
    obtain ⟨is, later⟩ := List.cons.inj split
    exact .comma is later
  | int =>
    have split : c :: cs = 'i' :: (['n', 't'] ++ rest) := split
    obtain ⟨rfl, later⟩ := List.cons.inj split
    exact .word rfl (List.all_eq_true.mp rfl) later rfl (.inl rfl)
  | intArray =>
    have split : c :: cs = 'i' :: (['n', 't', '[', ']'] ++ rest) := split
    obtain ⟨rfl, later⟩ := List.cons.inj split
    exact .word rfl (List.all_eq_true.mp rfl) later rfl (.inr (.inl rfl))
  | name text =>
    obtain ⟨start, part, rfl, word, each⟩ := allowed
    have split : c :: cs = start :: (part ++ rest) := split
    obtain ⟨rfl, later⟩ := List.cons.inj split
    exact .word word each later rfl (.inr (.inr rfl))
  | decimal text =>
    obtain ⟨digits, rfl | rfl, some_digit, each⟩ := allowed
    · cases text with
      | nil => contradiction
      | cons first digits =>
        have split : c :: cs = first :: (digits ++ rest) := split
        obtain ⟨rfl, later⟩ := List.cons.inj split
        rw [List.forall_mem_cons] at each
        exact .natural each.1 each.2 later
    · obtain ⟨is, later⟩ := List.cons.inj split
      exact .negative is some_digit each later
  | hexadecimal text =>
    obtain ⟨marker, digits, rfl, base, some_digit, each⟩ := allowed
    obtain ⟨is, later⟩ := List.cons.inj split
    exact .hexadecimal is base some_digit each later

/-- A token that is a character of its own is the only one that starts with it. -/
private theorem longestAt_single (chars : token.chars = [c]) (allowed : token.Allowed)
    (only : ∀ other after, Lead c cs after other → other = token) :
    LongestAt (c :: cs) token cs := by
  refine longestAt_of_begins ⟨allowed, by rw [chars]; rfl⟩ ?_
  intro other after begins
  rw [only other after begins.lead]
  exact ⟨Nat.le_refl _, fun _ => .inl rfl⟩

private theorem ofWord_cases (word : List Char) :
    (word = Token.int.chars ∧ Token.ofWord word = .int) ∨
    (word = Token.intArray.chars ∧ Token.ofWord word = .intArray) ∨
    (word ≠ Token.int.chars ∧ word ≠ Token.intArray.chars ∧ Token.ofWord word = .name word) := by
  unfold Token.ofWord
  split
  · exact .inl ⟨‹_›, rfl⟩
  · split
    · exact .inr (.inl ⟨‹_›, rfl⟩)
    · exact .inr (.inr ⟨‹_›, ‹_›, rfl⟩)

private theorem chars_ofWord (word : List Char) : (Token.ofWord word).chars = word := by
  rcases ofWord_cases word with ⟨same, is⟩ | ⟨same, is⟩ | ⟨-, -, is⟩ <;> rw [is]
  · exact same.symm
  · exact same.symm
  · rfl

/-- A word is taken as far as it goes. -/
theorem longestAt_word (start : Token.isWordStart c = true) :
    LongestAt (c :: cs) (Token.ofWord (c :: cs.takeWhile Token.isWordPart))
      (cs.dropWhile Token.isWordPart) := by
  refine longestAt_of_begins ⟨?_, ?_⟩ ?_
  · rcases ofWord_cases (c :: cs.takeWhile Token.isWordPart) with ⟨-, is⟩ | ⟨-, is⟩ | ⟨-, -, is⟩ <;>
      rw [is]
    · trivial
    · trivial
    · exact ⟨c, _, rfl, start, fun _ => List.mem_takeWhile_imp⟩
  · rw [chars_ofWord, List.cons_append, List.takeWhile_append_dropWhile]
  · intro other after begins
    rw [chars_ofWord]
    cases begins.lead with
    | openingBrace is | closingBrace is | comma is | negative is | hexadecimal is =>
      subst is
      contradiction
    | natural first =>
      rw [isWordStart_of_isDigit first] at start
      contradiction
    | word _ each split chars kind =>
      refine ⟨?_, ?_⟩
      · rw [chars]
        exact Nat.succ_le_succ (length_le_takeWhile split each)
      · intro same
        rw [← same]
        rcases ofWord_cases other.chars with ⟨-, is⟩ | ⟨-, is⟩ | ⟨plain, plain', is⟩
        · exact .inr (.inl is)
        · exact .inr (.inr is)
        · rcases kind with rfl | rfl | rfl
          · exact absurd rfl plain
          · exact absurd rfl plain'
          · exact .inl is.symm

/-- The digits behind a minus sign are taken as far as they go. -/
theorem longestAt_negative (some_digit : cs.takeWhile (Text.isDigit 10) ≠ []) :
    LongestAt ('-' :: cs) (.decimal ('-' :: cs.takeWhile (Text.isDigit 10)))
      (cs.dropWhile (Text.isDigit 10)) := by
  refine longestAt_of_begins ⟨?_, ?_⟩ ?_
  · exact ⟨_, .inr rfl, some_digit, fun _ => List.mem_takeWhile_imp⟩
  · exact congrArg _ List.takeWhile_append_dropWhile.symm
  · intro other after begins
    cases begins.lead with
    | openingBrace is | closingBrace is | comma is | hexadecimal is => contradiction
    | word start | natural start => contradiction
    | negative _ _ each split =>
      exact ⟨Nat.succ_le_succ (length_le_takeWhile split each), fun same => .inl (congrArg _ same)⟩

/-- What starts with digits goes on with the longest stretch of them. -/
private theorem takeWhile_ne_nil {p : Char → Bool} {part after : List Char}
    (split : cs = part ++ after) (each : ∀ c ∈ part, p c = true) (some_part : part ≠ []) :
    cs.takeWhile p ≠ [] := by
  intro none_taken
  have short := length_le_takeWhile split each
  rw [none_taken, List.length_nil, Nat.le_zero, List.length_eq_zero_iff] at short
  exact some_part short

theorem afterMarker?_zero {marker : Char} {tail : List Char}
    (base : marker = 'x' ∨ marker = 'X') :
    Token.afterMarker? ('0' :: marker :: tail) =
      if tail.takeWhile (Text.isDigit 16) = [] then none
      else some ('0' :: marker :: tail.takeWhile (Text.isDigit 16),
        tail.dropWhile (Text.isDigit 16)) := by
  rw [Token.afterMarker?, if_pos base, List.span_eq_takeWhile_dropWhile]
  split
  · rename_i taken
    rw [if_pos (Prod.mk.inj taken).1]
  · rename_i digits rest some_digit taken
    obtain ⟨rfl, rfl⟩ := Prod.mk.inj taken
    rw [if_neg]
    exact some_digit

theorem exists_marker_of_afterMarker? {found : List Char × List Char}
    (marked : Token.afterMarker? (c :: cs) = some found) :
    ∃ marker tail, c = '0' ∧ cs = marker :: tail ∧ (marker = 'x' ∨ marker = 'X') := by
  unfold Token.afterMarker? at marked
  split at marked
  · rename_i marker tail same
    obtain ⟨is, rest⟩ := List.cons.inj same
    split at marked
    · exact ⟨marker, tail, is, rest, ‹_›⟩
    · contradiction
  · contradiction

/-- The digits behind a marker of base sixteen are taken as far as they go, and go on behind the
zero of the marker. -/
theorem longestAt_hexadecimal {numeral : List Char}
    (marked : Token.afterMarker? (c :: cs) = some (numeral, rest)) :
    LongestAt (c :: cs) (.hexadecimal numeral) rest := by
  obtain ⟨marker, tail, rfl, rfl, base⟩ := exists_marker_of_afterMarker? marked
  rw [afterMarker?_zero base] at marked
  split at marked
  · contradiction
  rename_i some_digit
  obtain ⟨rfl, rfl⟩ := Prod.mk.inj (Option.some.inj marked)
  refine longestAt_of_begins ⟨?_, ?_⟩ ?_
  · exact ⟨marker, _, rfl, base, some_digit, fun _ => List.mem_takeWhile_imp⟩
  · exact congrArg (fun later => '0' :: marker :: later) List.takeWhile_append_dropWhile.symm
  · intro other after begins
    cases begins.lead with
    | openingBrace is | closingBrace is | comma is | negative is => contradiction
    | word start => contradiction
    | hexadecimal _ _ _ each split =>
      obtain ⟨rfl, later⟩ := List.cons.inj split
      refine ⟨?_, fun same => .inl (congrArg _ same)⟩
      exact Nat.succ_le_succ (Nat.succ_le_succ (length_le_takeWhile later each))
    | @natural digits _ each split =>
      -- The marker is no decimal digit.
      cases digits with
      | nil =>
        refine ⟨?_, ?_⟩
        · exact Nat.succ_le_succ (Nat.zero_le _)
        · intro same
          have shorter : ['0'] = '0' :: marker :: tail.takeWhile (Text.isDigit 16) := same
          simp at shorter
      | cons first digits =>
        obtain ⟨rfl, -⟩ := List.cons.inj split
        have digit := each marker List.mem_cons_self
        rcases base with rfl | rfl <;> contradiction

/-- Decimal digits are taken as far as they go, unless a numeral of base sixteen starts there. -/
theorem longestAt_natural (unmarked : Token.afterMarker? (c :: cs) = none)
    (first : Text.isDigit 10 c = true) :
    LongestAt (c :: cs) (.decimal (c :: cs.takeWhile (Text.isDigit 10)))
      (cs.dropWhile (Text.isDigit 10)) := by
  refine longestAt_of_begins ⟨?_, ?_⟩ ?_
  · refine ⟨_, .inl rfl, List.cons_ne_nil _ _, List.forall_mem_cons.mpr ⟨first, ?_⟩⟩
    exact fun _ => List.mem_takeWhile_imp
  · exact congrArg _ List.takeWhile_append_dropWhile.symm
  · intro other after begins
    cases begins.lead with
    | openingBrace is | closingBrace is | comma is | negative is =>
      subst is
      contradiction
    | word start =>
      rw [isWordStart_of_isDigit first] at start
      contradiction
    | natural _ each split =>
      exact ⟨Nat.succ_le_succ (length_le_takeWhile split each), fun same => .inl (congrArg _ same)⟩
    | hexadecimal is base some_digit each split =>
      subst is split
      rw [afterMarker?_zero base, if_neg (takeWhile_ne_nil rfl each some_digit)] at unmarked
      contradiction

theorem not_begins_nil : ¬Begins [] token rest := by
  rintro ⟨allowed, split⟩
  obtain ⟨none_left, -⟩ := List.append_eq_nil_iff.mp split.symm
  cases token with
  | int | intArray | openingBrace | closingBrace | comma => contradiction
  | name text | hexadecimal text =>
    obtain ⟨_, _, rfl, -⟩ := allowed
    contradiction
  | decimal text =>
    obtain ⟨_, rfl | rfl, some_digit, -⟩ := allowed
    · exact some_digit none_left
    · contradiction

/-- Whether something is the longest token at the front of a text with what follows it, or nothing
since no token is there. -/
def IsFirst (text : List Char) : Option (Token × List Char) → Prop
  | some (token, rest) => LongestAt text token rest
  | none => ∀ token rest, ¬Begins text token rest

private theorem isFirst_span {p : Char → Bool} {make : List Char → Token}
    (found : cs.takeWhile p ≠ [] → LongestAt text (make (cs.takeWhile p)) (cs.dropWhile p))
    (missing : cs.takeWhile p = [] → ∀ token rest, ¬Begins text token rest) :
    IsFirst text (match cs.span p with
      | ([], _) => none
      | (digits, rest) => some (make digits, rest)) := by
  rw [List.span_eq_takeWhile_dropWhile]
  split
  · rename_i taken
    exact missing (Prod.mk.inj taken).1
  · rename_i digits rest some_digit taken
    obtain ⟨rfl, rfl⟩ := Prod.mk.inj taken
    exact found some_digit

private theorem isFirst_word (start : Token.isWordStart c = true) :
    IsFirst (c :: cs) (let (part, rest) := cs.span Token.isWordPart
      some (Token.ofWord (c :: part), rest)) := by
  rw [List.span_eq_takeWhile_dropWhile]
  exact longestAt_word start

private theorem isFirst_negative :
    IsFirst ('-' :: cs) (match cs.span (Text.isDigit 10) with
      | ([], _) => none
      | (digits, rest) => some (.decimal ('-' :: digits), rest)) := by
  apply isFirst_span longestAt_negative
  intro no_digit token rest begins
  cases begins.lead with
  | openingBrace is | closingBrace is | comma is | hexadecimal is => contradiction
  | word start | natural start => contradiction
  | negative _ some_digit each split => exact takeWhile_ne_nil split each some_digit no_digit

/-- What starts like no word, sign or punctuation is a numeral, of base sixteen if it has a marker
of that base. -/
private theorem isFirst_numeral (braces : c ≠ '\x7b' ∧ c ≠ '\x7d' ∧ c ≠ ',')
    (no_word : Token.isWordStart c ≠ true) (no_sign : c ≠ '-') :
    IsFirst (c :: cs) (match Token.afterMarker? (c :: cs) with
      | some (numeral, rest) => some (.hexadecimal numeral, rest)
      | none =>
        match (c :: cs).span (Text.isDigit 10) with
        | ([], _) => none
        | (digits, rest) => some (.decimal digits, rest)) := by
  split
  · rename_i marked
    exact longestAt_hexadecimal marked
  rename_i unmarked
  have taken : ∀ digit : Text.isDigit 10 c = true,
      (c :: cs).takeWhile (Text.isDigit 10) = c :: cs.takeWhile (Text.isDigit 10) ∧
      (c :: cs).dropWhile (Text.isDigit 10) = cs.dropWhile (Text.isDigit 10) :=
    fun digit => ⟨List.takeWhile_cons_of_pos digit, List.dropWhile_cons_of_pos digit⟩
  apply isFirst_span
  · intro some_digit
    by_cases digit : Text.isDigit 10 c = true
    · rw [(taken digit).1, (taken digit).2]
      exact longestAt_natural unmarked digit
    · exact absurd (List.takeWhile_cons_of_neg digit) some_digit
  · intro no_digit token rest begins
    cases begins.lead with
    | openingBrace is => exact braces.1 is
    | closingBrace is => exact braces.2.1 is
    | comma is => exact braces.2.2 is
    | word start => exact no_word start
    | negative is => exact no_sign is
    | natural digit =>
      rw [(taken digit).1] at no_digit
      contradiction
    | hexadecimal is base some_digit each split =>
      subst is split
      rw [afterMarker?_zero base, if_neg (takeWhile_ne_nil rfl each some_digit)] at unmarked
      contradiction

/-- The token that is read at the front of a text is the longest one there. -/
theorem isFirst_first? (text : List Char) : IsFirst text (Token.first? text) := by
  cases text with
  | nil => exact fun _ _ => not_begins_nil
  | cons c cs =>
    rw [Token.first?]
    split
    · subst c
      exact longestAt_single rfl trivial fun _ _ lead => by
        cases lead <;> first | rfl | contradiction
    split
    · subst c
      exact longestAt_single rfl trivial fun _ _ lead => by
        cases lead <;> first | rfl | contradiction
    split
    · subst c
      exact longestAt_single rfl trivial fun _ _ lead => by
        cases lead <;> first | rfl | contradiction
    split
    · exact isFirst_word ‹_›
    split
    · subst c
      exact isFirst_negative
    · exact isFirst_numeral ⟨‹_›, ‹_›, ‹_›⟩ ‹_› ‹_›

/-- No token starts with a blank. -/
theorem not_begins_of_isBlank (blank : Token.isBlank c = true) :
    ¬Begins (c :: cs) token rest := by
  have missing := isFirst_first? (c :: cs)
  simp only [Token.isBlank, Bool.or_eq_true, beq_iff_eq] at blank
  rcases blank with ((rfl | rfl) | rfl) | rfl <;> exact missing token rest

theorem LongestAt.shorter (first : LongestAt text token rest) : rest.length < text.length := by
  rw [first.begins.split, List.length_append]
  have some_char : token.chars.length ≠ 0 := by
    intro no_char
    rw [List.length_eq_zero_iff] at no_char
    exact not_begins_nil ⟨first.begins.allowed, by rw [no_char]; rfl⟩
  omega

theorem Tokenizes.allowed {tokens : List Token} (tokenized : Tokenizes text tokens) :
    ∀ token ∈ tokens, token.Allowed := by
  induction tokenized with
  | done => exact fun _ member => absurd member List.not_mem_nil
  | blank _ _ ih => exact ih
  | token first _ ih => exact List.forall_mem_cons.mpr ⟨first.begins.allowed, ih⟩

theorem not_isBlank_of_isDigit {base : Nat} (digit : Text.isDigit base c = true) :
    Token.isBlank c = false := by
  rw [Bool.eq_false_iff]
  intro blank
  simp only [Token.isBlank, Bool.or_eq_true, beq_iff_eq] at blank
  rcases blank with ((rfl | rfl) | rfl) | rfl <;> contradiction

private theorem not_isBlank_of_isWordStart (start : Token.isWordStart c = true) :
    Token.isBlank c = false := by
  rw [Bool.eq_false_iff]
  intro blank
  simp only [Token.isBlank, Bool.or_eq_true, beq_iff_eq] at blank
  rcases blank with ((rfl | rfl) | rfl) | rfl <;> contradiction

private theorem not_isBlank_of_isWordPart (part : Token.isWordPart c = true) :
    Token.isBlank c = false := by
  simp only [Token.isWordPart, Bool.and_eq_true, Bool.not_eq_true'] at part
  exact part.1.1.1

/-- No token has a blank in it. -/
theorem Token.Allowed.not_isBlank (allowed : token.Allowed) :
    ∀ c ∈ token.chars, Token.isBlank c = false := by
  cases token with
  | int | intArray | openingBrace | closingBrace | comma =>
    intro c member
    have visible := (List.all_eq_true (p := fun c => !Token.isBlank c)).mp rfl c member
    rwa [Bool.not_eq_true'] at visible
  | hexadecimal text =>
    obtain ⟨marker, digits, rfl, base, -, each⟩ := allowed
    refine List.forall_mem_cons.mpr ⟨rfl, List.forall_mem_cons.mpr ⟨?_, ?_⟩⟩
    · rcases base with rfl | rfl <;> rfl
    · exact fun c member => not_isBlank_of_isDigit (each c member)
  | decimal text =>
    obtain ⟨digits, rfl | rfl, -, each⟩ := allowed
    · exact fun c member => not_isBlank_of_isDigit (each c member)
    · exact List.forall_mem_cons.mpr ⟨rfl, fun c member => not_isBlank_of_isDigit (each c member)⟩
  | name text =>
    obtain ⟨first, part, rfl, start, each⟩ := allowed
    exact List.forall_mem_cons.mpr ⟨not_isBlank_of_isWordStart start,
      fun c member => not_isBlank_of_isWordPart (each c member)⟩

/-- A token at the front of a text with a line break behind it ends before the line break. -/
private theorem begins_of_append_break {more after : List Char}
    (begins : Begins (text ++ '\n' :: more) token after) : ∃ rest, Begins text token rest := by
  rcases List.append_eq_append_iff.mp begins.split with ⟨beyond, chars, split⟩ | ⟨rest, split, -⟩
  · cases beyond with
    | nil => exact ⟨[], begins.allowed, by rw [chars, List.append_nil, List.append_nil]⟩
    | cons c beyond =>
      -- A token that goes on behind the text would have the line break in it.
      have inside : '\n' ∈ token.chars := by
        rw [chars, ← (List.cons.inj split).1]
        exact List.mem_append_right _ List.mem_cons_self
      have visible := begins.allowed.not_isBlank _ inside
      contradiction
  · exact ⟨rest, begins.allowed, split⟩

/-- The longest token at the front of a text is still the longest one when a line break follows the
text. -/
theorem LongestAt.append_break (first : LongestAt text token rest) (more : List Char) :
    LongestAt (text ++ '\n' :: more) token (rest ++ '\n' :: more) where
  begins := ⟨first.begins.allowed, by rw [first.begins.split, List.append_assoc]⟩
  longest := by
    intro other after begins
    obtain ⟨_, inside⟩ := begins_of_append_break begins
    exact first.longest other _ inside
  keyword := by
    intro other after begins same
    obtain ⟨_, inside⟩ := begins_of_append_break begins
    exact first.keyword other _ inside same

/-- The longest token at the front of a text is the longest one, too, if less of the text follows
it. -/
theorem LongestAt.of_append {more : List Char}
    (first : LongestAt (text ++ more) token (rest ++ more)) : LongestAt text token rest := by
  have begins_more : ∀ other after, Begins text other after →
      Begins (text ++ more) other (after ++ more) := by
    intro other after begins
    exact ⟨begins.allowed, by rw [begins.split, List.append_assoc]⟩
  have split := first.begins.split
  rw [← List.append_assoc, List.append_cancel_right_eq] at split
  refine ⟨⟨first.begins.allowed, split⟩, ?_, ?_⟩
  · intro other after begins
    exact first.longest other _ (begins_more other after begins)
  · intro other after begins
    exact first.keyword other _ (begins_more other after begins)

end

end ResourceClasses.SymbolFile
