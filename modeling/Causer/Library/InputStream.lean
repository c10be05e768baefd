import Causer.Library.TextStream

/-!
# Streams that fail

A stream remembers that an extraction has failed, and then nothing is extracted
any more.  An extraction writes over an old value: it leaves that value when the
stream has failed before or has only spaces left, and stores zero or the nearest
representable number when there is text that is not read.
-/

namespace TextStream

/-- What is left of a text, and whether an extraction has failed. -/
structure Input where
  text : Text
  failed : Bool

variable {α : Type*}

/-- Extract a value over an old one. -/
def extract (reader : Reader α) (wrong : Text → α) (old : α)
    (input : Input) : α × Input :=
  if input.failed then (old, input)
  else if skipSpaces input.text = [] then (old, { input with failed := true })
  else
    match reader input.text with
    | some (value, rest) => (value, { input with text := rest })
    | none => (wrong input.text, { input with failed := true })

/-- Extract a word.  There is one unless only spaces are left. -/
def extractWord (old : Text) (input : Input) : Text × Input :=
  extract readWord (fun _ => []) old input

/-- Extract a signed number, which is cut to its width. -/
def extractSigned (width : Nat) (old : Int) (input : Input) : Int × Input :=
  extract (readSigned width)
    (fun text =>
      match readNumber text with
      | some (value, _) =>
          if value < 0 then -2 ^ (width - 1) else 2 ^ (width - 1) - 1
      | none => 0)
    old input

/-- Extract an unsigned number, for which the greatest stands when it does not
fit. -/
def extractUnsigned (width : Nat) (old : BitVec width) (input : Input) :
    BitVec width × Input :=
  extract (readUnsigned width)
    (fun text =>
      match readNumber text with
      | some _ => BitVec.allOnes width
      | none => 0)
    old input

variable {reader : Reader α} {wrong : Text → α} {old : α} {input : Input}

/-- Nothing is extracted from a stream that has failed. -/
theorem extract_of_failed
    (failed : input.failed = true) :
    extract reader wrong old input = (old, input) :=
  if_pos failed

/-- A token reader that reads something does not find only spaces. -/
theorem IsToken.skipSpaces_ne_nil
    (token : IsToken reader)
    {text : Text}
    {value : α}
    {rest : Text}
    (read : reader text = some (value, rest)) :
    skipSpaces text ≠ [] := by
  intro spaces
  have skipped : reader text = reader (skipSpaces text) := by
    clear read spaces
    induction text with
    | nil => rfl
    | cons first text inductionHypothesis =>
        cases space : isSpace first with
        | true =>
            rw [token.skips space, inductionHypothesis, skipSpaces_cons space]
        | false =>
            rw [skipSpaces, List.dropWhile_cons_of_neg (by simp [space])]
  rw [skipped, spaces, token.empty] at read
  cases read

/-- What is extracted where the reader reads. -/
theorem IsToken.extract_of_some
    (token : IsToken reader)
    {text : Text}
    {value : α}
    {rest : Text}
    (read : reader text = some (value, rest)) :
    extract reader wrong old ⟨text, false⟩ = (value, ⟨rest, false⟩) := by
  rw [extract, if_neg Bool.false_ne_true,
    if_neg (token.skipSpaces_ne_nil read)]
  simp only [read]

/-- An extraction that does not fail is one where the reader reads. -/
theorem extract_succeeded
    (succeeded : (extract reader wrong old input).2.failed = false) :
    input.failed = false ∧
      ∃ value rest, reader input.text = some (value, rest) ∧
        extract reader wrong old input = (value, ⟨rest, false⟩) := by
  obtain ⟨text, failed⟩ := input
  cases failed with
  | true =>
      rw [extract_of_failed rfl] at succeeded
      cases succeeded
  | false =>
      rw [extract, if_neg Bool.false_ne_true] at succeeded ⊢
      split_ifs at succeeded ⊢ with spaces
      cases read : reader text with
      | none =>
          simp only [read] at succeeded
          cases succeeded
      | some found => exact ⟨rfl, found.1, found.2, rfl, rfl⟩

section Tokens

variable {text rest : Text}

theorem extractWord_of_some
    {word : Text}
    (read : readWord text = some (word, rest))
    (old : Text) :
    extractWord old ⟨text, false⟩ = (word, ⟨rest, false⟩) :=
  isToken_readWord.extract_of_some read

theorem extractSigned_of_some
    {width : Nat}
    {value : Int}
    (read : readSigned width text = some (value, rest))
    (old : Int) :
    extractSigned width old ⟨text, false⟩ = (value, ⟨rest, false⟩) :=
  (isToken_readSigned width).extract_of_some read

theorem extractUnsigned_of_some
    {width : Nat}
    {value : BitVec width}
    (read : readUnsigned width text = some (value, rest))
    (old : BitVec width) :
    extractUnsigned width old ⟨text, false⟩ = (value, ⟨rest, false⟩) :=
  (isToken_readUnsigned width).extract_of_some read

theorem extractWord_succeeded
    {old : Text}
    (succeeded : (extractWord old input).2.failed = false) :
    input.failed = false ∧
      ∃ word rest, readWord input.text = some (word, rest) ∧
        extractWord old input = (word, ⟨rest, false⟩) :=
  extract_succeeded succeeded

theorem extractSigned_succeeded
    {width : Nat}
    {old : Int}
    (succeeded : (extractSigned width old input).2.failed = false) :
    input.failed = false ∧
      ∃ value rest, readSigned width input.text = some (value, rest) ∧
        extractSigned width old input = (value, ⟨rest, false⟩) :=
  extract_succeeded succeeded

theorem extractUnsigned_succeeded
    {width : Nat}
    {old : BitVec width}
    (succeeded : (extractUnsigned width old input).2.failed = false) :
    input.failed = false ∧
      ∃ value rest, readUnsigned width input.text = some (value, rest) ∧
        extractUnsigned width old input = (value, ⟨rest, false⟩) :=
  extract_succeeded succeeded

end Tokens

end TextStream
