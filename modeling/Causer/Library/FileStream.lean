import Causer.Library.TextStream

/-!
# Streams of characters

An input stream with its two state bits, and the extractions that work on it:
numbers in a base, single characters, blocks of characters and lines.  Each of
them starts with a sentry, which makes a stream that is not good fail.
Extracting a number skips spaces first, the others do not.
-/

namespace TextStream

/-- A file that is read: what is left of it, and the bits `eofbit` and
`failbit`. -/
structure FileStream where
  text : Text
  eof : Bool
  failed : Bool
  deriving DecidableEq

/-- The base of a number. -/
inductive Radix
  | dec
  | hex
  deriving DecidableEq

namespace Radix

def base : Radix → Nat
  | dec => 10
  | hex => 16

def isDigit : Radix → Char → Bool
  | dec => Char.isDigit
  | hex => Char.isHexDigit

/-- A hexadecimal number may begin with a prefix. -/
def skipPrefix : Radix → Text → Text
  | hex, '0' :: 'x' :: text => text
  | hex, '0' :: 'X' :: text => text
  | _, text => text

end Radix

/-- The value of a digit. -/
def digitValue (c : Char) : Nat :=
  if c.isDigit then c.toNat - '0'.toNat
  else if 'a' ≤ c then c.toNat - 'a'.toNat + 10
  else c.toNat - 'A'.toNat + 10

/-- The value of some digits. -/
def digitsValue (base : Nat) (digits : Text) : Nat :=
  digits.foldl (fun value c => base * value + digitValue c) 0

namespace FileStream

variable {Value : Type}

/-- A file that has just been opened. -/
def ofText (text : Text) : FileStream := ⟨text, false, false⟩

def good (stream : FileStream) : Bool := !stream.eof && !stream.failed

/-- The sentry, and whether it lets an extraction go on. -/
def sentry (skips : Bool) (stream : FileStream) : Bool × FileStream :=
  if stream.good then
    if skips then
      if skipSpaces stream.text = [] then (false, ⟨[], true, true⟩)
      else (true, { stream with text := skipSpaces stream.text })
    else (true, stream)
  else (false, { stream with failed := true })

/-- `get` of one character. -/
def get (stream : FileStream) : Option Char × FileStream :=
  match stream.sentry false with
  | (false, stream) => (none, stream)
  | (true, stream) =>
      match stream.text with
      | [] => (none, ⟨[], true, true⟩)
      | first :: rest => (some first, { stream with text := rest })

/-- `peek`. -/
def peek (stream : FileStream) : Option Char × FileStream :=
  match stream.sentry false with
  | (false, stream) => (none, stream)
  | (true, stream) =>
      match stream.text with
      | [] => (none, { stream with eof := true })
      | first :: _ => (some first, stream)

/-- `ignore` of one character. -/
def ignore (stream : FileStream) : FileStream :=
  match stream.sentry false with
  | (false, stream) => stream
  | (true, stream) =>
      match stream.text with
      | [] => { stream with eof := true }
      | _ :: rest => { stream with text := rest }

/-- `get` of a block of characters, which leaves room for a null character and
stops in front of the end of the line. -/
def getBlock (size : Nat) (stream : FileStream) : Text × FileStream :=
  match stream.sentry false with
  | (false, stream) => ([], stream)
  | (true, stream) =>
      let block := (stream.text.take (size - 1)).takeWhile (· ≠ '\n')
      let rest := stream.text.drop block.length
      (block, ⟨rest, rest.isEmpty && block.length < size - 1, block.isEmpty⟩)

/-- `getline`, over an old string. -/
def getline (old : Text) (stream : FileStream) : Text × FileStream :=
  match stream.sentry false with
  | (false, stream) => (old, stream)
  | (true, stream) =>
      match stream.text.dropWhile (· ≠ '\n') with
      | [] => (stream.text, ⟨[], true, stream.text.isEmpty⟩)
      | _ :: rest =>
          (stream.text.takeWhile (· ≠ '\n'), { stream with text := rest })

/-- Scan a number that has to be converted. -/
def scan (radix : Radix) (convert : Bool → Nat → Value × Bool) (zero : Value)
    (stream : FileStream) : Value × FileStream :=
  let (negative, unsigned) := readSign stream.text
  let body := radix.skipPrefix unsigned
  let digits := body.takeWhile radix.isDigit
  let rest := body.dropWhile radix.isDigit
  if digits = [] then (zero, ⟨rest, rest.isEmpty, true⟩)
  else
    let (value, fits) := convert negative (digitsValue radix.base digits)
    (value, ⟨rest, rest.isEmpty, !fits⟩)

/-- Extract a number over an old value. -/
def extractNumber (radix : Radix) (convert : Bool → Nat → Value × Bool)
    (zero old : Value) (stream : FileStream) : Value × FileStream :=
  match stream.sentry true with
  | (false, stream) => (old, stream)
  | (true, stream) => stream.scan radix convert zero

/-- Extract an unsigned number: the greatest one stands for a greater one. -/
def extractUnsigned (radix : Radix) (width : Nat) (old : BitVec width) :
    FileStream → BitVec width × FileStream :=
  extractNumber radix
    (fun negative magnitude =>
      if magnitude < 2 ^ width then
        (if negative then -BitVec.ofNat width magnitude
          else BitVec.ofNat width magnitude, true)
      else (BitVec.allOnes width, false))
    0 old

/-- Extract a signed number: the nearest one stands for one out of range. -/
def extractSigned (radix : Radix) (width : Nat) (old : Int) :
    FileStream → Int × FileStream :=
  extractNumber radix
    (fun negative magnitude =>
      let value : Int := if negative then -magnitude else magnitude
      if -2 ^ (width - 1) ≤ value ∧ value < 2 ^ (width - 1) then (value, true)
      else (if negative then -2 ^ (width - 1) else 2 ^ (width - 1) - 1, false))
    0 old

end FileStream

/-- A number with leading zeros. -/
structure Numeral where
  zeros : Nat
  value : Nat

/-- The digits of a numeral. -/
def Numeral.text (radix : Radix) (numeral : Numeral) : Text :=
  List.replicate numeral.zeros '0' ++ Nat.toDigits radix.base numeral.value

theorem digitValue_digitChar
    {digit : Nat}
    (small : digit < 16) :
    digitValue digit.digitChar = digit := by
  have all : ∀ digit < 16, digitValue (Nat.digitChar digit) = digit := by
    decide
  exact all digit small

theorem isDigit_digitChar
    {radix : Radix} {digit : Nat}
    (small : digit < radix.base) :
    radix.isDigit digit.digitChar = true := by
  cases radix with
  | dec =>
      have all : ∀ digit < 10,
          Radix.dec.isDigit (Nat.digitChar digit) = true := by decide
      exact all digit small
  | hex =>
      have all : ∀ digit < 16,
          Radix.hex.isDigit (Nat.digitChar digit) = true := by decide
      exact all digit small

theorem Radix.one_lt_base (radix : Radix) : 1 < radix.base := by
  cases radix <;> decide

theorem Radix.base_le (radix : Radix) : radix.base ≤ 16 := by
  cases radix <;> decide

section Digits

variable (radix : Radix)

/-- The digits of a number, by the base's powers. -/
theorem digits_induction
    {motive : Nat → Text → Prop}
    (single : ∀ digit < radix.base, motive digit [digit.digitChar])
    (more : ∀ value digits, ∀ digit < radix.base, motive value digits →
      motive (radix.base * value + digit) (digits ++ [digit.digitChar]))
    (value : Nat) :
    motive value (Nat.toDigits radix.base value) := by
  have base := radix.one_lt_base
  induction value using Nat.strong_induction_on with
  | _ value inductionHypothesis =>
      rw [Nat.toDigits_eq_if base]
      split_ifs with small
      · exact single value small
      · have smaller : value / radix.base < value :=
          Nat.div_lt_self (by omega) base
        have split := more _ _ (value % radix.base)
          (Nat.mod_lt _ (by omega)) (inductionHypothesis _ smaller)
        rw [Nat.div_add_mod] at split
        exact split

theorem isDigit_of_mem_toDigits (value : Nat) :
    ∀ c ∈ Nat.toDigits radix.base value, radix.isDigit c = true := by
  apply digits_induction radix
    (motive := fun _ digits => ∀ c ∈ digits, radix.isDigit c = true)
  · intro digit small
    exact List.forall_mem_singleton.mpr (isDigit_digitChar small)
  · intro value digits digit small all
    rw [List.forall_mem_append]
    exact ⟨all, List.forall_mem_singleton.mpr (isDigit_digitChar small)⟩

theorem digitsValue_toDigits (value : Nat) :
    digitsValue radix.base (Nat.toDigits radix.base value) = value := by
  apply digits_induction radix
    (motive := fun value digits => digitsValue radix.base digits = value)
  · intro digit small
    rw [digitsValue, List.foldl_cons, List.foldl_nil,
      digitValue_digitChar (small.trans_le radix.base_le)]
    omega
  · intro value digits digit small same
    rw [digitsValue, List.foldl_append, List.foldl_cons, List.foldl_nil,
      ← digitsValue, same,
      digitValue_digitChar (small.trans_le radix.base_le)]

namespace Numeral

variable (numeral : Numeral)

theorem isDigit_of_mem :
    ∀ c ∈ numeral.text radix, radix.isDigit c = true := by
  rw [text, List.forall_mem_append]
  refine ⟨fun c member => ?_, isDigit_of_mem_toDigits radix numeral.value⟩
  rw [List.eq_of_mem_replicate member]
  cases radix <;> rfl

theorem text_ne_nil : numeral.text radix ≠ [] :=
  List.append_ne_nil_of_right_ne_nil _ Nat.toDigits_ne_nil

theorem digitsValue_text :
    digitsValue radix.base (numeral.text radix) = numeral.value := by
  have zeros : ∀ count : Nat,
      (List.replicate count '0').foldl
        (fun value c => radix.base * value + digitValue c) 0 = 0 := by
    intro count
    induction count with
    | zero => rfl
    | succ count inductionHypothesis =>
        rw [List.replicate_succ, List.foldl_cons]
        exact inductionHypothesis
  rw [digitsValue, text, List.foldl_append, zeros]
  exact digitsValue_toDigits radix numeral.value

end Numeral

end Digits

/-- A digit is neither a space, nor a sign, nor the second character of a
prefix. -/
theorem Radix.isDigit_apart
    {radix : Radix} {c : Char}
    (digit : radix.isDigit c = true) :
    isSpace c = false ∧ c ≠ '-' ∧ c ≠ '+' ∧ c ≠ 'x' ∧ c ≠ 'X' := by
  have hexadecimal : c.isHexDigit = true := by
    cases radix with
    | dec =>
        have decimal : c.isDigit = true := digit
        simp [Char.isHexDigit, decimal]
    | hex => exact digit
  have bounds : (48 ≤ c.toNat ∧ c.toNat ≤ 57) ∨
      (97 ≤ c.toNat ∧ c.toNat ≤ 102) ∨ (65 ≤ c.toNat ∧ c.toNat ≤ 70) := by
    simpa [Char.isHexDigit, Char.isDigit, UInt32.le_iff_toNat_le, or_assoc]
      using hexadecimal
  have apart : ∀ other : Char, other.toNat < 48 ∨ other.toNat = 120 ∨
      other.toNat = 88 → c ≠ other := by
    rintro other code rfl
    omega
  refine ⟨?_, apart _ (by decide), apart _ (by decide), apart _ (by decide),
    apart _ (by decide)⟩
  have notBlank := apart ' ' (by decide)
  simp only [isSpace, Bool.or_eq_false_iff, beq_eq_false_iff_ne,
    decide_eq_false_iff_not]
  exact ⟨notBlank, by omega⟩

/-- Digits do not begin with a sign. -/
theorem readSign_of_digit
    {radix : Radix} {first : Char}
    (digit : radix.isDigit first = true)
    (text : Text) :
    readSign (first :: text) = (false, first :: text) := by
  obtain ⟨-, notMinus, notPlus, -⟩ := Radix.isDigit_apart digit
  rw [readSign, if_neg notMinus, if_neg notPlus]

/-- A prefix has a letter for its second character. -/
theorem Radix.skipPrefix_of_ne
    (radix : Radix) {first second : Char} (text : Text)
    (notSmall : second ≠ 'x')
    (notLarge : second ≠ 'X') :
    radix.skipPrefix (first :: second :: text) = first :: second :: text := by
  unfold skipPrefix
  split
  · simp_all
  · simp_all
  · rfl

namespace FileStream

variable {Value : Type}

/-- A numeral is scanned up to what cannot be part of it. -/
theorem scan_numeral
    {radix : Radix} {c : Char}
    (stops : radix.isDigit c = false)
    (notSmall : c ≠ 'x')
    (notLarge : c ≠ 'X')
    (convert : Bool → Nat → Value × Bool) (zero : Value)
    (numeral : Numeral) (rest : Text) :
    (ofText (numeral.text radix ++ c :: rest)).scan radix convert zero =
      ((convert false numeral.value).1,
        ⟨c :: rest, false, !(convert false numeral.value).2⟩) := by
  have digits := numeral.isDigit_of_mem radix
  have value := numeral.digitsValue_text radix
  obtain ⟨first, others, split⟩ :=
    List.exists_cons_of_ne_nil (numeral.text_ne_nil radix)
  have taken : (numeral.text radix ++ c :: rest).takeWhile radix.isDigit =
      numeral.text radix := by
    rw [List.takeWhile_append_of_pos digits, List.takeWhile_cons_of_neg,
      List.append_nil]
    rw [stops]
    exact Bool.false_ne_true
  have dropped : (numeral.text radix ++ c :: rest).dropWhile radix.isDigit =
      c :: rest := by
    rw [List.dropWhile_append_of_pos digits, List.dropWhile_cons_of_neg]
    rw [stops]
    exact Bool.false_ne_true
  have noSign : readSign (numeral.text radix ++ c :: rest) =
      (false, numeral.text radix ++ c :: rest) := by
    rw [split]
    exact readSign_of_digit (digits first (split ▸ List.mem_cons_self)) _
  have noPrefix : radix.skipPrefix (numeral.text radix ++ c :: rest) =
      numeral.text radix ++ c :: rest := by
    rw [split]
    cases others with
    | nil => exact radix.skipPrefix_of_ne _ notSmall notLarge
    | cons second others =>
        have second_digit := digits second (by simp [split])
        obtain ⟨-, -, -, small, large⟩ := Radix.isDigit_apart second_digit
        exact radix.skipPrefix_of_ne _ small large
  rw [scan]
  simp only [ofText, noSign, noPrefix, taken, dropped, value,
    if_neg (numeral.text_ne_nil radix), List.isEmpty_cons]

/-- The sentry that skips nothing lets a good stream go on. -/
@[simp] theorem sentry_false (text : Text) :
    (ofText text).sentry false = (true, ofText text) := rfl

/-- The sentry skips the spaces before something else. -/
theorem sentry_spaces
    {spaces : Text} {first : Char}
    (blank : ∀ c ∈ spaces, isSpace c = true)
    (solid : isSpace first = false)
    (rest : Text) :
    (ofText (spaces ++ first :: rest)).sentry true =
      (true, ofText (first :: rest)) := by
  have skipped : skipSpaces (spaces ++ first :: rest) = first :: rest := by
    rw [skipSpaces, List.dropWhile_append_of_pos blank,
      List.dropWhile_cons_of_neg]
    rw [solid]
    exact Bool.false_ne_true
  simp [sentry, good, ofText, skipped]

/-- A numeral is extracted from behind spaces. -/
theorem extractNumber_numeral
    {radix : Radix} {spaces : Text} {c : Char}
    (blank : ∀ c ∈ spaces, isSpace c = true)
    (stops : radix.isDigit c = false)
    (notSmall : c ≠ 'x')
    (notLarge : c ≠ 'X')
    (convert : Bool → Nat → Value × Bool) (zero old : Value)
    (numeral : Numeral) (rest : Text) :
    extractNumber radix convert zero old
        (ofText (spaces ++ (numeral.text radix ++ c :: rest))) =
      ((convert false numeral.value).1,
        ⟨c :: rest, false, !(convert false numeral.value).2⟩) := by
  obtain ⟨first, others, split⟩ :=
    List.exists_cons_of_ne_nil (numeral.text_ne_nil radix)
  have digit := numeral.isDigit_of_mem radix first
    (split ▸ List.mem_cons_self)
  have scanned :=
    scan_numeral stops notSmall notLarge convert zero numeral rest
  rw [split] at scanned ⊢
  rw [extractNumber, List.cons_append,
    sentry_spaces blank (Radix.isDigit_apart digit).1]
  exact scanned

/-- An unsigned number that fits. -/
theorem extractUnsigned_numeral
    {radix : Radix} {width : Nat} {spaces : Text} {c : Char}
    {numeral : Numeral}
    (blank : ∀ c ∈ spaces, isSpace c = true)
    (stops : radix.isDigit c = false)
    (notSmall : c ≠ 'x')
    (notLarge : c ≠ 'X')
    (fits : numeral.value < 2 ^ width)
    (old : BitVec width) (rest : Text) :
    extractUnsigned radix width old
        (ofText (spaces ++ (numeral.text radix ++ c :: rest))) =
      (BitVec.ofNat width numeral.value, ofText (c :: rest)) := by
  rw [extractUnsigned, extractNumber_numeral blank stops notSmall notLarge,
    if_pos fits]
  rfl

/-- A signed number fits exactly if it is small enough, and else the stream
fails. -/
theorem extractSigned_numeral
    {radix : Radix} {width : Nat} {spaces : Text} {c : Char}
    (blank : ∀ c ∈ spaces, isSpace c = true)
    (stops : radix.isDigit c = false)
    (notSmall : c ≠ 'x')
    (notLarge : c ≠ 'X')
    (old : Int) (numeral : Numeral) (rest : Text) :
    (extractSigned radix width old
        (ofText (spaces ++ (numeral.text radix ++ c :: rest)))).2 =
      ⟨c :: rest, false, decide (2 ^ (width - 1) ≤ numeral.value)⟩ := by
  have nonnegative : -2 ^ (width - 1) ≤ (numeral.value : Int) := by
    have power : (0 : Int) ≤ 2 ^ (width - 1) := by
      exact_mod_cast Nat.zero_le (2 ^ (width - 1))
    omega
  rw [extractSigned, extractNumber_numeral blank stops notSmall notLarge]
  by_cases small : numeral.value < 2 ^ (width - 1)
  · have less : (numeral.value : Int) < 2 ^ (width - 1) := by
      exact_mod_cast small
    simp [nonnegative, less, small]
  · have notLess : ¬(numeral.value : Int) < 2 ^ (width - 1) := by
      exact_mod_cast small
    simp [notLess, Nat.le_of_not_lt small]

/-- A block of as many characters as there is room for. -/
theorem getBlock_append
    {block : Text} {size : Nat}
    (length : block.length + 1 = size)
    (nonempty : block ≠ [])
    (oneLine : '\n' ∉ block)
    (rest : Text) :
    (ofText (block ++ rest)).getBlock size = (block, ofText rest) := by
  have room : size - 1 = block.length := by omega
  have whole : block.takeWhile (· ≠ '\n') = block := by
    rw [List.takeWhile_eq_self_iff]
    intro c member
    exact decide_eq_true fun same => oneLine (same ▸ member)
  have taken : ((block ++ rest).take block.length).takeWhile (· ≠ '\n') =
      block := by
    rw [List.take_left, whole]
  have some_block : block.isEmpty = false :=
    List.isEmpty_eq_false_iff.mpr nonempty
  rw [getBlock, sentry_false]
  simp only [ofText, room, taken, List.drop_left, Nat.lt_irrefl, decide_false,
    Bool.and_false, some_block]

/-- A line. -/
theorem getline_append
    {line : Text}
    (oneLine : '\n' ∉ line)
    (old rest : Text) :
    (ofText (line ++ '\n' :: rest)).getline old = (line, ofText rest) := by
  have inLine : ∀ c ∈ line, decide (c ≠ '\n') = true := by
    intro c member
    exact decide_eq_true fun same => oneLine (same ▸ member)
  have dropped : (line ++ '\n' :: rest).dropWhile (· ≠ '\n') =
      '\n' :: rest := by
    rw [List.dropWhile_append_of_pos inLine]
    rfl
  have taken : (line ++ '\n' :: rest).takeWhile (· ≠ '\n') = line := by
    rw [List.takeWhile_append_of_pos inLine]
    simp
  rw [getline, sentry_false]
  simp only [ofText, dropped, taken]

@[simp] theorem good_ofText (text : Text) : (ofText text).good = true := rfl

@[simp] theorem eof_ofText (text : Text) : (ofText text).eof = false := rfl

@[simp] theorem failed_ofText (text : Text) :
    (ofText text).failed = false := rfl

@[simp] theorem get_cons (first : Char) (rest : Text) :
    (ofText (first :: rest)).get = (some first, ofText rest) := rfl

@[simp] theorem peek_cons (first : Char) (rest : Text) :
    (ofText (first :: rest)).peek = (some first, ofText (first :: rest)) := rfl

@[simp] theorem ignore_cons (first : Char) (rest : Text) :
    (ofText (first :: rest)).ignore = ofText rest := rfl

/-- A stream that has failed is not read. -/
@[simp] theorem peek_failed (text : Text) (eof : Bool) :
    (peek ⟨text, eof, true⟩) = (none, ⟨text, eof, true⟩) := by
  cases eof <;> rfl

@[simp] theorem getline_failed (old text : Text) (eof : Bool) :
    (getline old ⟨text, eof, true⟩) = (old, ⟨text, eof, true⟩) := by
  cases eof <;> rfl

end FileStream

end TextStream
