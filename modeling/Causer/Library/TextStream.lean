import Mathlib.Data.Int.Notation
import Mathlib.Data.List.Basic
import Mathlib.Data.List.TakeWhile
import Mathlib.Tactic.Ring.RingNF
import Mathlib.Tactic.SplitIfs

/-!
# Formatted text streams

Words and decimal numbers as formatted output writes them and formatted input
reads them.  A reader skips spaces, takes the longest start of the text that it
accepts, and returns what is left; it fails where there is nothing to accept or
a number is out of range, and a stream that has failed is not read again.  The
rules say that what a token reader does is decided by the text before the next
space, and how many words it can use up.
-/

namespace TextStream

abbrev Text := List Char

/-- A reader of a value, with the text that it leaves. -/
abbrev Reader (α : Type*) := Text → Option (α × Text)

/-- The characters between words. -/
def isSpace (c : Char) : Bool :=
  c == ' ' || decide (9 ≤ c.toNat ∧ c.toNat ≤ 13)

/-- The characters of words. -/
def isSolid (c : Char) : Bool := !isSpace c

def skipSpaces (text : Text) : Text := text.dropWhile isSpace

/-- Read a word. -/
def readWord : Reader Text := fun text =>
  match skipSpaces text with
  | [] => none
  | first :: rest =>
      some ((first :: rest).takeWhile isSolid,
        (first :: rest).dropWhile isSolid)

/-- The first word of a text. -/
def firstWord (text : Text) : Text :=
  match readWord text with
  | some (word, _) => word
  | none => []

/-- A sign, and whether it is a minus. -/
def readSign : Text → Bool × Text
  | [] => (false, [])
  | first :: rest =>
      if first = '-' then (true, rest)
      else if first = '+' then (false, rest)
      else (false, first :: rest)

/-- Read a number of any size. -/
def readNumber : Reader Int := fun text =>
  let (negative, unsigned) := readSign (skipSpaces text)
  let digits := unsigned.takeWhile Char.isDigit
  if digits = [] then none
  else
    let magnitude : Int := Nat.ofDigitChars 10 digits 0
    some (if negative then -magnitude else magnitude,
      unsigned.dropWhile Char.isDigit)

/-- Read a value that has to be accepted. -/
def accepting {α β : Type*} (reader : Reader α) (accept : α → Option β) :
    Reader β := fun text =>
  (reader text).bind fun (value, rest) =>
    (accept value).map fun accepted => (accepted, rest)

/-- Read a signed number of a machine's width. -/
def readSigned (width : Nat) : Reader Int :=
  accepting readNumber fun value =>
    if -2 ^ (width - 1) ≤ value ∧ value < 2 ^ (width - 1) then some value
    else none

/-- Read an unsigned number of a machine's width.  A minus negates it. -/
def readUnsigned (width : Nat) : Reader (BitVec width) :=
  accepting readNumber fun value =>
    if value.natAbs < 2 ^ width then some (BitVec.ofInt width value) else none

def writeSigned (value : Int) : Text :=
  if value < 0 then '-' :: Nat.toDigits 10 value.natAbs
  else Nat.toDigits 10 value.natAbs

def writeUnsigned {width : Nat} (value : BitVec width) : Text :=
  Nat.toDigits 10 value.toNat

/-- How many words begin in a text, which is entered within a word or not. -/
def wordStarts : Bool → Text → Nat
  | _, [] => 0
  | inside, c :: text =>
      if isSpace c then wordStarts false text
      else (if inside then 0 else 1) + wordStarts true text

/-- How many words a text has. -/
abbrev wordCount : Text → Nat := wordStarts false

/-- Spaces separate what is counted. -/
@[simp] theorem wordStarts_append_cons
    (inside : Bool) (text : Text) {c : Char}
    (space : isSpace c = true)
    (rest : Text) :
    wordStarts inside (text ++ c :: rest) =
      wordStarts inside text + wordCount rest := by
  induction text generalizing inside with
  | nil => simp [wordStarts, space]
  | cons first text inductionHypothesis =>
      rw [List.cons_append, wordStarts, wordStarts, inductionHypothesis,
        inductionHypothesis]
      split_ifs <;> omega

@[simp] theorem wordCount_append_cons
    (text : Text) {c : Char}
    (space : isSpace c = true)
    (rest : Text) :
    wordCount (text ++ c :: rest) = wordCount text + wordCount rest :=
  wordStarts_append_cons false text space rest

/-- A text that is entered within a word has no more words. -/
theorem wordStarts_true_le (text : Text) :
    wordStarts true text ≤ wordCount text := by
  cases text with
  | nil => exact Nat.le_refl 0
  | cons first text =>
      cases space : isSpace first <;> simp [wordStarts, wordCount, space]

/-- Characters that are not spaces stay within a word. -/
theorem wordStarts_true_append
    {word : Text}
    (solid : ∀ c ∈ word, isSpace c = false)
    (rest : Text) :
    wordStarts true (word ++ rest) = wordStarts true rest := by
  induction word with
  | nil => rfl
  | cons first word inductionHypothesis =>
      rw [List.forall_mem_cons] at solid
      rw [List.cons_append, wordStarts, solid.1,
        inductionHypothesis solid.2]
      simp

/-- A text without words is made of spaces. -/
theorem wordCount_eq_zero_iff (text : Text) :
    wordCount text = 0 ↔ ∀ c ∈ text, isSpace c = true := by
  induction text with
  | nil => simp [wordCount, wordStarts]
  | cons first text inductionHypothesis =>
      rw [List.forall_mem_cons, ← inductionHypothesis]
      cases space : isSpace first <;> simp [wordStarts, wordCount, space]

theorem skipSpaces_cons
    {c : Char}
    (space : isSpace c = true)
    (text : Text) :
    skipSpaces (c :: text) = skipSpaces text :=
  List.dropWhile_cons_of_pos space

/-- Skipping spaces loses no word. -/
theorem wordCount_skipSpaces (text : Text) :
    wordCount (skipSpaces text) = wordCount text := by
  induction text with
  | nil => rfl
  | cons first text inductionHypothesis =>
      cases space : isSpace first with
      | true =>
          rw [skipSpaces_cons space, inductionHypothesis]
          simp [wordCount, wordStarts, space]
      | false => rw [skipSpaces, List.dropWhile_cons_of_neg (by simp [space])]

/-- Skipping spaces stops at a character that is none. -/
theorem skipSpaces_eq_cons
    {text : Text} {first : Char} {rest : Text}
    (skipped : skipSpaces text = first :: rest) :
    isSpace first = false := by
  have head := List.head?_dropWhile_not isSpace text
  rw [← skipSpaces, skipped] at head
  simpa using head

/-- A text with a word keeps a character when spaces are skipped. -/
theorem skipSpaces_ne_nil
    {text : Text}
    (word : 0 < wordCount text) :
    skipSpaces text ≠ [] := by
  intro empty
  rw [← wordCount_skipSpaces, empty] at word
  exact absurd word (by decide)

/-- What follows a stop does not change where dropping ends. -/
theorem dropWhile_append_stop
    (p : Char → Bool) (text : Text) {c : Char}
    (stops : p c = false)
    (rest : Text) :
    (text ++ c :: rest).dropWhile p = text.dropWhile p ++ c :: rest := by
  induction text with
  | nil => simp [stops]
  | cons first text inductionHypothesis =>
      rw [List.cons_append, List.dropWhile_cons, List.dropWhile_cons,
        inductionHypothesis]
      split_ifs <;> simp

theorem takeWhile_append_stop
    (p : Char → Bool) (text : Text) {c : Char}
    (stops : p c = false)
    (rest : Text) :
    (text ++ c :: rest).takeWhile p = text.takeWhile p := by
  induction text with
  | nil => simp [stops]
  | cons first text inductionHypothesis =>
      rw [List.cons_append, List.takeWhile_cons, List.takeWhile_cons,
        inductionHypothesis]

theorem skipSpaces_append
    {text : Text}
    (word : 0 < wordCount text)
    (rest : Text) :
    skipSpaces (text ++ rest) = skipSpaces text ++ rest := by
  have kept : ¬(text.dropWhile isSpace).isEmpty = true := by
    rw [List.isEmpty_iff]
    exact skipSpaces_ne_nil word
  rw [skipSpaces, List.dropWhile_append, if_neg kept, skipSpaces]

/-- The words after the one in which a text is entered. -/
theorem wordCount_dropWhile (text : Text) :
    wordCount (text.dropWhile isSolid) = wordStarts true text := by
  induction text with
  | nil => rfl
  | cons first text inductionHypothesis =>
      cases space : isSpace first with
      | true =>
          rw [List.dropWhile_cons_of_neg (by simp [isSolid, space])]
          simp [wordCount, wordStarts, space]
      | false =>
          rw [List.dropWhile_cons_of_pos (by simp [isSolid, space]),
            inductionHypothesis]
          simp [wordStarts, space]

/-- What is taken from a word uses up at most one. -/
theorem wordCount_append_le
    {word : Text}
    (solid : ∀ c ∈ word, isSpace c = false)
    (rest : Text) :
    wordCount (word ++ rest) ≤ wordCount rest + 1 := by
  cases word with
  | nil => exact Nat.le_succ _
  | cons first word =>
      rw [List.forall_mem_cons] at solid
      have begun : wordCount (first :: word ++ rest) =
          1 + wordStarts true rest := by
        rw [← wordStarts_true_append solid.2 rest]
        simp [wordCount, wordStarts, solid.1]
      have later := wordStarts_true_le rest
      omega

/-- What every reader of one token satisfies. -/
structure IsToken {α : Type*} (reader : Reader α) : Prop where
  /-- Nothing is read from nothing. -/
  empty : reader [] = none
  /-- Spaces are skipped. -/
  skips : ∀ {c}, isSpace c = true → ∀ text, reader (c :: text) = reader text
  /-- What comes after a space that follows a word does not matter. -/
  apart : ∀ {text c}, 0 < wordCount text → isSpace c = true → ∀ rest,
    reader (text ++ c :: rest) =
      (reader text).map fun (value, left) => (value, left ++ c :: rest)
  /-- At most one word is used up. -/
  words : ∀ {text value rest}, reader text = some (value, rest) →
    wordCount text ≤ wordCount rest + 1
  /-- Something is used up. -/
  shorter : ∀ {text value rest}, reader text = some (value, rest) →
    rest.length < text.length

/-- Skipping spaces makes no text longer. -/
theorem length_skipSpaces_le (text : Text) :
    (skipSpaces text).length ≤ text.length :=
  (List.dropWhile_suffix isSpace).length_le

theorem isToken_readWord : IsToken readWord where
  empty := rfl
  skips := by
    intro c space text
    rw [readWord, readWord, skipSpaces_cons space]
  apart := by
    intro text c word space rest
    rw [readWord, readWord, skipSpaces_append word]
    cases skipped : skipSpaces text with
    | nil => exact absurd skipped (skipSpaces_ne_nil word)
    | cons first left =>
        have stops : isSolid c = false := by simp [isSolid, space]
        simp only [List.cons_append, Option.map_some]
        rw [← List.cons_append, takeWhile_append_stop isSolid _ stops,
          dropWhile_append_stop isSolid _ stops]
  words := by
    intro text value rest read
    rw [readWord] at read
    cases skipped : skipSpaces text with
    | nil => simp [skipped] at read
    | cons first left =>
        simp only [skipped, Option.some.injEq, Prod.mk.injEq] at read
        obtain ⟨rfl, rfl⟩ := read
        rw [← wordCount_skipSpaces, skipped]
        calc wordCount (first :: left)
            = wordCount ((first :: left).takeWhile isSolid ++
                (first :: left).dropWhile isSolid) := by
              rw [List.takeWhile_append_dropWhile]
          _ ≤ wordCount ((first :: left).dropWhile isSolid) + 1 :=
              wordCount_append_le (fun c member => by
                simpa [isSolid] using List.mem_takeWhile_imp member) _
  shorter := by
    intro text value rest read
    rw [readWord] at read
    cases skipped : skipSpaces text with
    | nil => simp [skipped] at read
    | cons first left =>
        simp only [skipped, Option.some.injEq, Prod.mk.injEq] at read
        obtain ⟨rfl, rfl⟩ := read
        have kept := length_skipSpaces_le text
        rw [skipped, List.length_cons] at kept
        have taken : isSolid first = true := by
          simp [isSolid, skipSpaces_eq_cons skipped]
        have dropped : (left.dropWhile isSolid).length ≤ left.length :=
          (List.dropWhile_suffix isSolid).length_le
        rw [List.dropWhile_cons_of_pos taken]
        omega

/-- A digit is part of a word. -/
theorem isSpace_of_isDigit
    {c : Char}
    (digit : c.isDigit = true) :
    isSpace c = false := by
  have bounds : 48 ≤ c.toNat ∧ c.toNat ≤ 57 := by
    simpa [Char.isDigit, UInt32.le_iff_toNat_le] using digit
  have other : c ≠ ' ' := by
    rintro rfl
    exact absurd bounds.1 (by decide)
  simp only [isSpace, Bool.or_eq_false_iff, beq_eq_false_iff_ne,
    decide_eq_false_iff_not]
  exact ⟨other, by omega⟩

/-- A sign is part of a word. -/
theorem readSign_split (text : Text) :
    ∃ sign : Text, (∀ c ∈ sign, isSpace c = false) ∧
      text = sign ++ (readSign text).2 := by
  cases text with
  | nil => exact ⟨[], by simp, rfl⟩
  | cons first text =>
      rw [readSign]
      split_ifs with minus plus
      · exact ⟨[first], by simp [minus, isSpace], rfl⟩
      · exact ⟨[first], by simp [plus, isSpace], rfl⟩
      · exact ⟨[], by simp, rfl⟩

theorem readSign_append
    {text : Text}
    (nonempty : text ≠ [])
    (rest : Text) :
    readSign (text ++ rest) =
      ((readSign text).1, (readSign text).2 ++ rest) := by
  cases text with
  | nil => exact absurd rfl nonempty
  | cons first text =>
      rw [List.cons_append, readSign, readSign]
      split_ifs <;> rfl

/-- What is read before the rest of a number. -/
theorem readNumber_split
    {text : Text} {value : Int} {rest : Text}
    (read : readNumber text = some (value, rest)) :
    ∃ used : Text, (∀ c ∈ used, isSpace c = false) ∧ used ≠ [] ∧
      skipSpaces text = used ++ rest := by
  obtain ⟨sign, solid, parts⟩ := readSign_split (skipSpaces text)
  simp only [readNumber] at read
  by_cases none_read :
    (readSign (skipSpaces text)).2.takeWhile Char.isDigit = []
  · rw [if_pos none_read] at read
    exact absurd read (by simp)
  rw [if_neg none_read, Option.some.injEq, Prod.mk.injEq] at read
  refine ⟨sign ++ (readSign (skipSpaces text)).2.takeWhile Char.isDigit,
    ?_, ?_, ?_⟩
  · intro c member
    rcases List.mem_append.mp member with inSign | inDigits
    · exact solid c inSign
    · exact isSpace_of_isDigit (List.mem_takeWhile_imp inDigits)
  · exact List.append_ne_nil_of_right_ne_nil sign none_read
  · rw [List.append_assoc, ← read.2, List.takeWhile_append_dropWhile]
    exact parts

theorem isToken_readNumber : IsToken readNumber where
  empty := rfl
  skips := by
    intro c space text
    rw [readNumber, readNumber, skipSpaces_cons space]
  apart := by
    intro text c word space rest
    have stops : Char.isDigit c = false := by
      cases digit : c.isDigit with
      | false => rfl
      | true =>
          rw [isSpace_of_isDigit digit] at space
          exact absurd space (by decide)
    simp only [readNumber, skipSpaces_append word,
      readSign_append (skipSpaces_ne_nil word),
      takeWhile_append_stop Char.isDigit _ stops,
      dropWhile_append_stop Char.isDigit _ stops]
    split_ifs <;> rfl
  words := by
    intro text value rest read
    obtain ⟨used, solid, _, parts⟩ := readNumber_split read
    rw [← wordCount_skipSpaces, parts]
    exact wordCount_append_le solid rest
  shorter := by
    intro text value rest read
    obtain ⟨used, _, nonempty, parts⟩ := readNumber_split read
    have kept := length_skipSpaces_le text
    have positive := List.length_pos_of_ne_nil nonempty
    rw [parts, List.length_append] at kept
    omega

section Accepting

variable {α β : Type*} {reader : Reader α}

theorem accepting_eq_some
    {accept : α → Option β} {text : Text} {accepted : β} {rest : Text}
    (read : accepting reader accept text = some (accepted, rest)) :
    ∃ value, reader text = some (value, rest) ∧
      accept value = some accepted := by
  rw [accepting, Option.bind_eq_some_iff] at read
  obtain ⟨⟨value, left⟩, found, accepts⟩ := read
  obtain ⟨other, taken, same⟩ := Option.map_eq_some_iff.mp accepts
  rw [Prod.mk.injEq] at same
  obtain ⟨rfl, rfl⟩ := same
  exact ⟨value, found, taken⟩

theorem accepting_of_eq
    {accept : α → Option β} {text : Text} {value : α} {rest : Text}
    {accepted : β}
    (found : reader text = some (value, rest))
    (accepts : accept value = some accepted) :
    accepting reader accept text = some (accepted, rest) := by
  simp only [accepting, found, Option.bind_some, accepts, Option.map_some]

/-- A check leaves a token reader one. -/
theorem IsToken.accepting
    (token : IsToken reader)
    (accept : α → Option β) :
    IsToken (accepting reader accept) where
  empty := by rw [TextStream.accepting, token.empty, Option.bind_none]
  skips := by
    intro c space text
    rw [TextStream.accepting, TextStream.accepting, token.skips space]
  apart := by
    intro text c word space rest
    rw [TextStream.accepting, TextStream.accepting, token.apart word space]
    cases reader text with
    | none => rfl
    | some found => cases taken : accept found.1 <;> simp [taken]
  words := by
    intro text value rest read
    obtain ⟨_, found, _⟩ := accepting_eq_some read
    exact token.words found
  shorter := by
    intro text value rest read
    obtain ⟨_, found, _⟩ := accepting_eq_some read
    exact token.shorter found

end Accepting

theorem isToken_readSigned (width : Nat) : IsToken (readSigned width) :=
  isToken_readNumber.accepting _

theorem isToken_readUnsigned (width : Nat) : IsToken (readUnsigned width) :=
  isToken_readNumber.accepting _

section Tokens

variable {α : Type*} {reader : Reader α} (token : IsToken reader)
include token

/-- Spaces before a token are skipped. -/
theorem IsToken.skips_append
    {spaces : Text}
    (blank : wordCount spaces = 0)
    (text : Text) :
    reader (spaces ++ text) = reader text := by
  rw [wordCount_eq_zero_iff] at blank
  induction spaces with
  | nil => rfl
  | cons first spaces inductionHypothesis =>
      rw [List.forall_mem_cons] at blank
      rw [List.cons_append, token.skips blank.1, inductionHypothesis blank.2]

/-- Where there is no word there is no token. -/
theorem IsToken.eq_none
    {text : Text}
    (blank : wordCount text = 0) :
    reader text = none := by
  rw [← List.append_nil text, token.skips_append blank, token.empty]

/-- What is read has a word. -/
theorem IsToken.wordCount_pos
    {text : Text} {value : α} {left : Text}
    (read : reader text = some (value, left)) :
    0 < wordCount text := by
  by_contra none_there
  rw [token.eq_none (by omega)] at read
  exact absurd read (by simp)

/-- A token with a space after it. -/
theorem IsToken.read_before
    {text : Text} {value : α} {left : Text}
    (read : reader text = some (value, left))
    {after : Char}
    (space : isSpace after = true)
    (rest : Text) :
    reader (text ++ after :: rest) = some (value, left ++ after :: rest) := by
  rw [token.apart (token.wordCount_pos read) space, read, Option.map_some]

/-- A token with spaces on both sides. -/
theorem IsToken.read_spaced
    {text : Text} {value : α} {left : Text}
    (read : reader text = some (value, left))
    {before after : Char}
    (spaceBefore : isSpace before = true)
    (spaceAfter : isSpace after = true)
    (rest : Text) :
    reader (before :: (text ++ after :: rest)) =
      some (value, left ++ after :: rest) := by
  rw [token.skips spaceBefore, token.read_before read spaceAfter]

end Tokens

/-- A text that begins with a character of a word is not skipped. -/
theorem skipSpaces_of_solid
    {text : Text}
    (solid : ∀ c ∈ text, isSpace c = false) :
    skipSpaces text = text := by
  cases text with
  | nil => rfl
  | cons first text =>
      rw [List.forall_mem_cons] at solid
      rw [skipSpaces, List.dropWhile_cons_of_neg (by simp [solid.1])]

section Digits

variable (number : Nat)

theorem isDigit_toDigits : ∀ c ∈ Nat.toDigits 10 number, c.isDigit = true :=
  fun _ member =>
    Nat.isDigit_of_mem_toDigits (by decide) (by decide) member

theorem takeWhile_toDigits :
    (Nat.toDigits 10 number).takeWhile Char.isDigit =
      Nat.toDigits 10 number :=
  List.takeWhile_eq_self_iff.mpr (isDigit_toDigits number)

theorem dropWhile_toDigits :
    (Nat.toDigits 10 number).dropWhile Char.isDigit = [] :=
  List.dropWhile_eq_nil_iff.mpr (isDigit_toDigits number)

/-- Digits do not begin with a sign. -/
theorem readSign_toDigits :
    readSign (Nat.toDigits 10 number) =
      (false, Nat.toDigits 10 number) := by
  have digits := isDigit_toDigits number
  cases written : Nat.toDigits 10 number with
  | nil => rfl
  | cons first rest =>
      rw [written, List.forall_mem_cons] at digits
      have notMinus : first ≠ '-' := by
        rintro rfl
        exact absurd digits.1 (by decide)
      have notPlus : first ≠ '+' := by
        rintro rfl
        exact absurd digits.1 (by decide)
      rw [readSign, if_neg notMinus, if_neg notPlus]

theorem readNumber_toDigits :
    readNumber (Nat.toDigits 10 number) = some ((number : Int), []) := by
  have solid : ∀ c ∈ Nat.toDigits 10 number, isSpace c = false :=
    fun c member => isSpace_of_isDigit (isDigit_toDigits number c member)
  simp only [readNumber, skipSpaces_of_solid solid, readSign_toDigits,
    takeWhile_toDigits, dropWhile_toDigits, Nat.ofDigitChars_ten_toDigits]
  rw [if_neg Nat.toDigits_ne_nil]
  simp

theorem readNumber_minus_toDigits :
    readNumber ('-' :: Nat.toDigits 10 number) =
      some (-(number : Int), []) := by
  have skipped : skipSpaces ('-' :: Nat.toDigits 10 number) =
      '-' :: Nat.toDigits 10 number :=
    List.dropWhile_cons_of_neg (by decide)
  have sign : readSign ('-' :: Nat.toDigits 10 number) =
      (true, Nat.toDigits 10 number) := rfl
  simp only [readNumber, skipped, sign, takeWhile_toDigits,
    dropWhile_toDigits, Nat.ofDigitChars_ten_toDigits]
  rw [if_neg Nat.toDigits_ne_nil]
  simp

end Digits

theorem readNumber_writeSigned (value : Int) :
    readNumber (writeSigned value) = some (value, []) := by
  rw [writeSigned]
  split_ifs with negative
  · rw [readNumber_minus_toDigits]
    congr 2
    omega
  · rw [readNumber_toDigits]
    congr 2
    omega

/-- A signed number in range is read back. -/
theorem readSigned_writeSigned
    {width : Nat} {value : Int}
    (fits : -2 ^ (width - 1) ≤ value ∧ value < 2 ^ (width - 1)) :
    readSigned width (writeSigned value) = some (value, []) :=
  accepting_of_eq (readNumber_writeSigned value) (if_pos fits)

/-- An unsigned number is read back. -/
theorem readUnsigned_writeUnsigned
    {width : Nat} (value : BitVec width) :
    readUnsigned width (writeUnsigned value) = some (value, []) := by
  have fits : (value.toNat : Int).natAbs < 2 ^ width := by
    rw [Int.natAbs_natCast]
    exact value.isLt
  refine accepting_of_eq (readNumber_toDigits value.toNat) ?_
  rw [if_pos fits, BitVec.ofInt_natCast, BitVec.ofNat_toNat,
    BitVec.setWidth_eq]

/-- A word is read back. -/
theorem readWord_of_solid
    {word : Text}
    (nonempty : word ≠ [])
    (solid : ∀ c ∈ word, isSpace c = false) :
    readWord word = some (word, []) := by
  have all : ∀ c ∈ word, isSolid c = true := by
    intro c member
    simp [isSolid, solid c member]
  rw [readWord, skipSpaces_of_solid solid]
  cases word with
  | nil => exact absurd rfl nonempty
  | cons first rest =>
      simp only [List.takeWhile_eq_self_iff.mpr all,
        List.dropWhile_eq_nil_iff.mpr all]

/-- The digits of a number are a word. -/
theorem readWord_writeUnsigned
    {width : Nat} (value : BitVec width) :
    readWord (writeUnsigned value) = some (writeUnsigned value, []) :=
  readWord_of_solid Nat.toDigits_ne_nil fun c member =>
    isSpace_of_isDigit (isDigit_toDigits value.toNat c member)

/-- Reading a word uses up exactly one. -/
theorem readWord_eq_some
    {text : Text}
    (word : 0 < wordCount text) :
    ∃ value rest, readWord text = some (value, rest) ∧
      wordCount text = wordCount rest + 1 := by
  cases skipped : skipSpaces text with
  | nil => exact absurd skipped (skipSpaces_ne_nil word)
  | cons first left =>
      have begun : wordCount (first :: left) = 1 + wordStarts true left := by
        simp [wordCount, wordStarts, skipSpaces_eq_cons skipped]
      have taken : isSolid first = true := by
        simp [isSolid, skipSpaces_eq_cons skipped]
      refine ⟨_, _, by rw [readWord, skipped], ?_⟩
      rw [← wordCount_skipSpaces, skipped, begun,
        List.dropWhile_cons_of_pos taken, wordCount_dropWhile, Nat.add_comm]

/-- A word is one word. -/
theorem wordCount_of_solid
    {word : Text}
    (nonempty : word ≠ [])
    (solid : ∀ c ∈ word, isSpace c = false) :
    wordCount word = 1 := by
  have read := readWord_of_solid nonempty solid
  obtain ⟨value, rest, again, counted⟩ :=
    readWord_eq_some (isToken_readWord.wordCount_pos read)
  rw [read, Option.some.injEq, Prod.mk.injEq] at again
  rw [counted, ← again.2]
  rfl

end TextStream
