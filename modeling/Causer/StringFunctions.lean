import Causer.Library.CString
import Mathlib.Data.List.GetD
import Mathlib.Data.List.Lex

/-!
# The string functions of the library

`libcauser.cpp` replaces the C library's string functions, so that their
accesses go past the watchpoints of an application that calls them.  Each is
followed byte by byte.  A loop that reads on until it finds a zero is given an
amount of fuel; it has a result for all amounts above the length of its string.
-/

namespace Causer

open ByteMemory CString

variable (access : Access) (memory : Memory)

/-- `for (s = str; *s; ++s);` -/
def strlenLoop : Nat → Nat → Option Nat
  | 0, _ => none
  | fuel + 1, s =>
      (access.load memory s).bind fun byte =>
        if byte ≠ 0 then strlenLoop fuel (s + 1) else some s

def strlen (fuel str : Nat) : Option Nat :=
  (strlenLoop access memory fuel str).map (· - str)

/-- `for (; (*to = *from) != '\0'; ++from, ++to);` -/
def strcpyLoop : Nat → Memory → Nat → Nat → Option Memory
  | 0, _, _, _ => none
  | fuel + 1, memory, target, source =>
      (access.load memory source).bind fun byte =>
        (access.store memory target byte).bind fun memory =>
          if byte ≠ 0 then strcpyLoop fuel memory (target + 1) (source + 1)
          else some memory

def strcpy (fuel target source : Nat) : Option (Nat × Memory) :=
  (strcpyLoop access fuel memory target source).map fun memory => (target, memory)

/-- The bytes are compared as `unsigned char` once they differ. -/
def strcmp : Nat → Nat → Nat → Option Int
  | 0, _, _ => none
  | fuel + 1, s1, s2 =>
      (access.load memory s1).bind fun first =>
        (access.load memory s2).bind fun second =>
          if first = second then
            if first = 0 then some 0 else strcmp fuel (s1 + 1) (s2 + 1)
          else some ((first.toNat : Int) - second.toNat)

/-- `while (--n != 0) *d++ = 0;`, from the first decrement on. -/
def strncpyPad : Nat → Memory → Nat → Option Memory
  | 0, memory, _ => some memory
  | n + 1, memory, d =>
      (access.store memory d 0).bind fun memory =>
        strncpyPad n memory (d + 1)

/-- The rounds of `do … while (--n != 0)`, with `n` of them left. -/
def strncpyLoop : Nat → Memory → Nat → Nat → Option Memory
  | 0, memory, _, _ => some memory
  | n + 1, memory, d, s =>
      (access.load memory s).bind fun byte =>
        (access.store memory d byte).bind fun memory =>
          if byte = 0 then strncpyPad access n memory (d + 1)
          else strncpyLoop n memory (d + 1) (s + 1)

def strncpy (dst src n : Nat) : Option (Nat × Memory) :=
  if n ≠ 0 then
    (strncpyLoop access n memory dst src).map fun memory => (dst, memory)
  else some (dst, memory)

/-- `for (spanp = s2; (sc = *spanp++) != 0;) if (sc == c) goto cont;` -/
def strspnSearch (c : UInt8) : Nat → Nat → Option Bool
  | 0, _ => none
  | fuel + 1, spanp =>
      (access.load memory spanp).bind fun sc =>
        if sc ≠ 0 then
          if sc = c then some true else strspnSearch c fuel (spanp + 1)
        else some false

/-- `do { if ((sc = *spanp++) == c) return …; } while (sc != 0);` -/
def strcspnSearch (c : UInt8) : Nat → Nat → Option Bool
  | 0, _ => none
  | fuel + 1, spanp =>
      (access.load memory spanp).bind fun sc =>
        if sc = c then some true
        else if sc ≠ 0 then strcspnSearch c fuel (spanp + 1)
        else some false

/-- Go on while the byte read is skipped, and leave `p - 1` at the first one
that is not. -/
def spanLoop (skips : UInt8 → Option Bool) : Nat → Nat → Option Nat
  | 0, _ => none
  | fuel + 1, p =>
      (access.load memory p).bind fun c =>
        (skips c).bind fun skipped =>
          if skipped then spanLoop skips fuel (p + 1) else some p

def strspn (fuel s1 s2 : Nat) : Option Nat :=
  (spanLoop access memory
    (fun c => strspnSearch access memory c fuel s2) fuel s1).map (· - s1)

def strcspn (fuel s1 s2 : Nat) : Option Nat :=
  (spanLoop access memory
    (fun c => (strcspnSearch access memory c fuel s2).map not) fuel
    s1).map (· - s1)

variable {access} {memory}

section

variable {fuel : Nat} {text : List UInt8}

theorem strlenLoop_eq
    {s : Nat}
    (isString : IsString memory s text)
    (readable : Covers access.readable (stringAt s text))
    (enough : text.length < fuel) :
    strlenLoop access memory fuel s = some (s + text.length) := by
  induction text generalizing fuel s with
  | nil =>
      have ended : memory s = 0 := isString
      cases fuel with
      | zero => exact absurd enough (Nat.not_lt_zero _)
      | succ fuel =>
          rw [strlenLoop, Access.load_of_permits readable.head, ended]
          rfl
  | cons byte rest inductionHypothesis =>
      obtain ⟨nonzero, here, following⟩ := isString
      cases fuel with
      | zero => exact absurd enough (Nat.not_lt_zero _)
      | succ fuel =>
          rw [strlenLoop, Access.load_of_permits readable.head, here,
            Option.bind_some, if_pos nonzero,
            inductionHypothesis following readable.tail
              (Nat.lt_of_succ_lt_succ enough),
            List.length_cons]
          congr 1
          omega

/-- The length of a string, read without going past its zero. -/
theorem strlen_eq
    {str : Nat}
    (isString : IsString memory str text)
    (readable : Covers access.readable (stringAt str text))
    (enough : text.length < fuel) :
    strlen access memory fuel str = some text.length := by
  rw [strlen, strlenLoop_eq isString readable enough, Option.map_some,
    Nat.add_sub_cancel_left]

end

section

variable {fuel : Nat} {text : List UInt8}

theorem strcpyLoop_eq
    {target source : Nat}
    (isString : IsString memory source text)
    (readable : Covers access.readable (stringAt source text))
    (writable : Covers access.writable (stringAt target text))
    (apart : (stringAt target text).Apart (stringAt source text))
    (enough : text.length < fuel) :
    strcpyLoop access fuel memory target source =
      some (blit memory (stringAt target text)
        fun offset => text.getD offset 0) := by
  induction text generalizing fuel memory target source with
  | nil =>
      have ended : memory source = 0 := isString
      cases fuel with
      | zero => exact absurd enough (Nat.not_lt_zero _)
      | succ fuel =>
          rw [strcpyLoop, Access.load_of_permits readable.head, ended,
            Option.bind_some, Access.store_of_permits writable.head,
            Option.bind_some, if_neg (by simp), ← blit_cons, List.length_nil,
            blit_empty]
          rfl
  | cons byte rest inductionHypothesis =>
      obtain ⟨nonzero, here, following⟩ := isString
      cases fuel with
      | zero => exact absurd enough (Nat.not_lt_zero _)
      | succ fuel =>
          have restApart : (stringAt (target + 1) rest).Apart
              (stringAt (source + 1) rest) := by
            apply apart.of_within <;>
              simp only [Region.Within, List.length_cons] <;> omega
          -- the byte just stored lies before the rest of the source
          have kept : IsString (Function.update memory target byte) (source + 1)
              rest := by
            apply following.of_agreesOn
            apply agreesOn_update
            simp only [Region.Contains, Region.Apart, List.length_cons]
              at apart ⊢
            omega
          rw [strcpyLoop, Access.load_of_permits readable.head, here,
            Option.bind_some, Access.store_of_permits writable.head,
            Option.bind_some, if_pos nonzero,
            inductionHypothesis kept readable.tail writable.tail restApart
              (Nat.lt_of_succ_lt_succ enough)]
          exact congrArg some
            (blit_cons memory target (rest.length + 1)
              fun offset => (byte :: rest).getD offset 0)

/-- strcpy does what copying the string with its zero does. -/
theorem strcpy_eq
    {target source : Nat}
    (isString : IsString memory source text)
    (readable : Covers access.readable (stringAt source text))
    (writable : Covers access.writable (stringAt target text))
    (apart : (stringAt target text).Apart (stringAt source text))
    (enough : text.length < fuel) :
    strcpy access memory fuel target source =
      some (target, copy memory target source (text.length + 1)) := by
  rw [strcpy, strcpyLoop_eq isString readable writable apart enough,
    Option.map_some, isString.copy_eq]

theorem strncpyPad_eq
    {n d : Nat}
    (writable : Covers access.writable ⟨d, n⟩) :
    strncpyPad access n memory d = some (fill memory ⟨d, n⟩ 0) := by
  induction n generalizing memory d with
  | zero => rw [strncpyPad, fill, blit_empty]
  | succ n inductionHypothesis =>
      rw [strncpyPad, Access.store_of_permits writable.head, Option.bind_some,
        inductionHypothesis writable.tail]
      exact congrArg some (blit_cons memory d n fun _ => 0)

theorem strncpyLoop_eq
    {n d s : Nat}
    (readable : Covers access.readable (textRegion memory n s))
    (writable : Covers access.writable ⟨d, n⟩)
    (apart : Region.Apart ⟨d, n⟩ (textRegion memory n s)) :
    strncpyLoop access n memory d s =
      some (blit memory ⟨d, n⟩
        fun offset => (textWithin memory n s).getD offset 0) := by
  induction n generalizing memory d s with
  | zero => rw [strncpyLoop, blit_empty]
  | succ n inductionHypothesis =>
      have permits : Permits access.readable s := by
        apply readable
        simp [Region.Contains]
      rw [strncpyLoop, Access.load_of_permits permits, Option.bind_some,
        Access.store_of_permits writable.head, Option.bind_some]
      by_cases ended : memory s = 0
      · rw [if_pos ended, strncpyPad_eq writable.tail, textWithin,
          if_pos ended, ended]
        exact congrArg some (blit_cons memory d n fun _ => 0)
      · have within : (textRegion memory n (s + 1)).Within
            (textRegion memory (n + 1) s) := by
          simp only [Region.Within, textWithin, if_neg ended, List.length_cons]
          omega
        have restApart : Region.Apart ⟨d + 1, n⟩
            (textRegion memory n (s + 1)) := by
          apply apart.of_within _ within
          simp only [Region.Within]
          omega
        have agrees : AgreesOn (textRegion memory n (s + 1)) memory
            (Function.update memory d (memory s)) := by
          apply agreesOn_update
          simp only [Region.Within] at within
          simp only [Region.Contains, Region.Apart] at apart ⊢
          omega
        have sameText : textWithin (Function.update memory d (memory s)) n
            (s + 1) = textWithin memory n (s + 1) :=
          textWithin_congr agrees
        have sameRegion : textRegion (Function.update memory d (memory s)) n
            (s + 1) = textRegion memory n (s + 1) := by
          rw [textRegion, sameText]
        rw [if_neg ended, inductionHypothesis
            (by rw [sameRegion]; exact readable.of_within within)
            writable.tail (by rw [sameRegion]; exact restApart),
          sameText, textWithin, if_neg ended]
        exact congrArg some
          (blit_cons memory d n fun offset =>
            (memory s :: textWithin memory n (s + 1)).getD offset 0)

/-- strncpy writes exactly `n` bytes, the source's text and zeros after it, and
reads no further than the first zero or the `n`-th byte. -/
theorem strncpy_eq
    {dst src n : Nat}
    (readable : Covers access.readable (textRegion memory n src))
    (writable : Covers access.writable ⟨dst, n⟩)
    (apart : Region.Apart ⟨dst, n⟩ (textRegion memory n src)) :
    strncpy access memory dst src n =
      some (dst, blit memory ⟨dst, n⟩
        fun offset => (textWithin memory n src).getD offset 0) := by
  rw [strncpy]
  split
  · rw [strncpyLoop_eq readable writable apart, Option.map_some]
  · rename_i isZero
    obtain rfl : n = 0 := not_not.mp isZero
    rw [blit_empty]

end

/-- strncpy of a string, of any length: exactly `n` bytes are written, the
string's and then zeros, and no byte after the string's zero or after its first
`n` is read.  The destination is a string exactly when the source is shorter
than `n`. -/
theorem strncpy_string
    {access : Access}
    {memory : Memory}
    {text : List UInt8}
    {dst src n : Nat}
    (isString : IsString memory src text)
    (readable : Covers access.readable ⟨src, min n (text.length + 1)⟩)
    (writable : Covers access.writable ⟨dst, n⟩)
    (apart : Region.Apart ⟨dst, n⟩ ⟨src, min n (text.length + 1)⟩) :
    ∃ after, strncpy access memory dst src n = some (dst, after) ∧
      (∀ offset < n, after (dst + offset) = text.getD offset 0) ∧
      (∀ region, Region.Apart ⟨dst, n⟩ region →
        AgreesOn region memory after) ∧
      ((∃ copied, IsString after dst copied ∧ copied.length < n) ↔
        text.length < n) := by
  have sameRegion : textRegion memory n src =
      ⟨src, min n (text.length + 1)⟩ := by
    rw [textRegion, isString.textWithin_eq, List.length_take]
    congr 1
    omega
  have returned := strncpy_eq (by rwa [sameRegion]) writable
    (by rwa [sameRegion] : Region.Apart ⟨dst, n⟩ (textRegion memory n src))
  rw [isString.textWithin_eq] at returned
  have bytes : ∀ offset < n,
      blit memory ⟨dst, n⟩ (fun offset => (text.take n).getD offset 0)
        (dst + offset) = text.getD offset 0 := by
    intro offset offsetLt
    have here := blit_of_lt memory
      (fun offset => (text.take n).getD offset 0)
      (show offset < (Region.mk dst n).length from offsetLt)
    rw [here, List.getD_eq_getElem?_getD, List.getD_eq_getElem?_getD,
      List.getElem?_take_of_lt offsetLt]
  refine ⟨_, returned, bytes, fun region apart =>
    agreesOn_blit memory _ apart, ?_⟩
  generalize blit memory ⟨dst, n⟩ _ = after at bytes
  constructor
  · rintro ⟨copied, copiedString, shorter⟩
    by_contra long
    -- the zero that ends the copy would be a byte of the source
    have inside : copied.length < text.length := by omega
    have ended := (copiedString.byte le_rfl).symm.trans
      (bytes copied.length shorter)
    rw [List.getD_eq_default _ _ le_rfl, List.getD_eq_getElem _ _ inside]
      at ended
    exact isString.nonzero (ended ▸ List.getElem_mem inside)
  · intro short
    exact ⟨text, isString_of_bytes isString.nonzero fun offset offsetLe =>
      bytes offset (by omega), short⟩

section

variable {fuel : Nat} {first second : List UInt8}

/-- The result of strcmp is the order of the two strings. -/
def Compares (first second : List UInt8) (result : Int) : Prop :=
  (result < 0 ↔ first < second) ∧ (result = 0 ↔ first = second) ∧
    (0 < result ↔ second < first)

instance (first second : List UInt8) (result : Int) :
    Decidable (Compares first second result) :=
  inferInstanceAs (Decidable (_ ∧ _ ∧ _))

@[simp] theorem compares_nil : Compares [] [] 0 := by
  simp [Compares]

/-- A string comes after those that it begins with. -/
theorem compares_nil_cons
    {byte : UInt8}
    {rest : List UInt8}
    (nonzero : byte ≠ 0) :
    Compares [] (byte :: rest) ((0 : UInt8).toNat - byte.toNat) ∧
      Compares (byte :: rest) [] (byte.toNat - (0 : UInt8).toNat) := by
  have positive : 0 < byte.toNat := by
    rw [Nat.pos_iff_ne_zero]
    exact fun isZero => nonzero (UInt8.toNat_inj.mp isZero)
  have zero : (0 : UInt8).toNat = 0 := rfl
  simp only [Compares, zero, List.nil_lt_cons, List.not_lt_nil, reduceCtorEq,
    iff_true, iff_false]
  omega

/-- The first difference decides. -/
theorem compares_of_ne
    {firstByte secondByte : UInt8}
    {firstRest secondRest : List UInt8}
    (different : firstByte ≠ secondByte) :
    Compares (firstByte :: firstRest) (secondByte :: secondRest)
      (firstByte.toNat - secondByte.toNat) := by
  have unequal : firstByte.toNat ≠ secondByte.toNat :=
    fun same => different (UInt8.toNat_inj.mp same)
  simp only [Compares, List.cons_lt_cons_iff, UInt8.lt_iff_toNat_lt,
    List.cons.injEq, different, Ne.symm different, false_and, or_false,
    iff_false]
  omega

theorem Compares.cons
    {byte : UInt8}
    {result : Int}
    (compares : Compares first second result) :
    Compares (byte :: first) (byte :: second) result := by
  obtain ⟨below, same, above⟩ := compares
  refine ⟨below.trans ?_, same.trans ?_, above.trans ?_⟩
  · rw [List.cons_lt_cons_iff]
    simp
  · rw [List.cons.injEq]
    simp
  · rw [List.cons_lt_cons_iff]
    simp

/-- strcmp orders strings by their bytes as unsigned numbers, and reads neither
of them past its zero. -/
theorem strcmp_compares
    {s1 s2 : Nat}
    (firstString : IsString memory s1 first)
    (secondString : IsString memory s2 second)
    (firstReadable : Covers access.readable (stringAt s1 first))
    (secondReadable : Covers access.readable (stringAt s2 second))
    (enough : min first.length second.length < fuel) :
    ∃ result, strcmp access memory fuel s1 s2 = some result ∧
      Compares first second result := by
  induction fuel generalizing first second s1 s2 with
  | zero => exact absurd enough (Nat.not_lt_zero _)
  | succ fuel inductionHypothesis =>
      rw [strcmp, Access.load_of_permits firstReadable.head, Option.bind_some,
        Access.load_of_permits secondReadable.head, Option.bind_some]
      cases first with
      | nil =>
          have firstEnds : memory s1 = 0 := firstString
          cases second with
          | nil =>
              have secondEnds : memory s2 = 0 := secondString
              rw [firstEnds, secondEnds, if_pos rfl, if_pos rfl]
              exact ⟨0, rfl, compares_nil⟩
          | cons byte rest =>
              obtain ⟨nonzero, here, _⟩ := secondString
              rw [firstEnds, here, if_neg (Ne.symm nonzero)]
              exact ⟨_, rfl, (compares_nil_cons nonzero).1⟩
      | cons firstByte firstRest =>
          obtain ⟨firstNonzero, firstHere, firstFollowing⟩ := firstString
          cases second with
          | nil =>
              have secondEnds : memory s2 = 0 := secondString
              rw [firstHere, secondEnds, if_neg firstNonzero]
              exact ⟨_, rfl, (compares_nil_cons firstNonzero).2⟩
          | cons secondByte secondRest =>
              obtain ⟨secondNonzero, secondHere, secondFollowing⟩ :=
                secondString
              rw [firstHere, secondHere]
              by_cases same : firstByte = secondByte
              · subst same
                rw [if_pos rfl, if_neg firstNonzero]
                obtain ⟨result, returned, compares⟩ :=
                  inductionHypothesis firstFollowing secondFollowing
                    firstReadable.tail secondReadable.tail
                    (by simp only [List.length_cons] at enough; omega)
                exact ⟨result, returned, compares.cons⟩
              · rw [if_neg same]
                exact ⟨_, rfl, compares_of_ne same⟩

end

section

variable {fuel : Nat} {text set : List UInt8}

theorem strspnSearch_eq
    {spanp : Nat}
    (isString : IsString memory spanp set)
    (readable : Covers access.readable (stringAt spanp set))
    (enough : set.length < fuel)
    (c : UInt8) :
    strspnSearch access memory c fuel spanp = some (decide (c ∈ set)) := by
  induction set generalizing fuel spanp with
  | nil =>
      have ended : memory spanp = 0 := isString
      cases fuel with
      | zero => exact absurd enough (Nat.not_lt_zero _)
      | succ fuel =>
          rw [strspnSearch, Access.load_of_permits readable.head, ended]
          rfl
  | cons byte rest inductionHypothesis =>
      obtain ⟨nonzero, here, following⟩ := isString
      cases fuel with
      | zero => exact absurd enough (Nat.not_lt_zero _)
      | succ fuel =>
          rw [strspnSearch, Access.load_of_permits readable.head, here,
            Option.bind_some, if_pos nonzero,
            inductionHypothesis following readable.tail
              (Nat.lt_of_succ_lt_succ enough)]
          by_cases found : byte = c
          · simp [found]
          · simp [found, Ne.symm found]

/-- The zero at the end of the set is compared as well. -/
theorem strcspnSearch_eq
    {spanp : Nat}
    (isString : IsString memory spanp set)
    (readable : Covers access.readable (stringAt spanp set))
    (enough : set.length < fuel)
    (c : UInt8) :
    strcspnSearch access memory c fuel spanp =
      some (decide (c ∈ set ∨ c = 0)) := by
  induction set generalizing fuel spanp with
  | nil =>
      have ended : memory spanp = 0 := isString
      cases fuel with
      | zero => exact absurd enough (Nat.not_lt_zero _)
      | succ fuel =>
          rw [strcspnSearch, Access.load_of_permits readable.head, ended,
            Option.bind_some]
          by_cases isZero : c = 0
          · simp [isZero]
          · simp [isZero, Ne.symm isZero]
  | cons byte rest inductionHypothesis =>
      obtain ⟨nonzero, here, following⟩ := isString
      cases fuel with
      | zero => exact absurd enough (Nat.not_lt_zero _)
      | succ fuel =>
          rw [strcspnSearch, Access.load_of_permits readable.head, here,
            Option.bind_some, if_pos nonzero,
            inductionHypothesis following readable.tail
              (Nat.lt_of_succ_lt_succ enough)]
          by_cases found : byte = c
          · simp [found]
          · simp [found, Ne.symm found]

/-- What the loop skips is read, and one more byte. -/
theorem spanLoop_eq
    {p : Nat}
    {skips : UInt8 → Option Bool}
    {keep : UInt8 → Bool}
    (decided : ∀ c, skips c = some (keep c))
    (stops : keep 0 = false)
    (isString : IsString memory p text)
    (readable : Covers access.readable
      ⟨p, (text.takeWhile keep).length + 1⟩)
    (enough : (text.takeWhile keep).length < fuel) :
    spanLoop access memory skips fuel p =
      some (p + (text.takeWhile keep).length) := by
  induction text generalizing fuel p with
  | nil =>
      have ended : memory p = 0 := isString
      cases fuel with
      | zero => exact absurd enough (Nat.not_lt_zero _)
      | succ fuel =>
          rw [spanLoop, Access.load_of_permits readable.head, ended,
            Option.bind_some, decided, Option.bind_some, stops]
          rfl
  | cons byte rest inductionHypothesis =>
      obtain ⟨_, here, following⟩ := isString
      cases fuel with
      | zero => exact absurd enough (Nat.not_lt_zero _)
      | succ fuel =>
          rw [spanLoop, Access.load_of_permits readable.head, here,
            Option.bind_some, decided, Option.bind_some]
          cases kept : keep byte with
          | false => simp [kept]
          | true =>
              rw [List.takeWhile_cons_of_pos kept, List.length_cons]
                at readable enough ⊢
              rw [if_pos rfl, inductionHypothesis following readable.tail
                (Nat.lt_of_succ_lt_succ enough)]
              congr 1
              omega

/-- Only the bytes of the text count. -/
theorem takeWhile_eq_of_mem
    {first second : UInt8 → Bool}
    (same : ∀ c ∈ text, first c = second c) :
    text.takeWhile first = text.takeWhile second := by
  induction text with
  | nil => rfl
  | cons byte rest inductionHypothesis =>
      rw [List.takeWhile_cons, List.takeWhile_cons,
        same byte List.mem_cons_self,
        inductionHypothesis fun c member =>
          same c (List.mem_cons_of_mem byte member)]

/-- strspn counts the bytes before the first one that is not in the set, and
strcspn those before the first one that is.  Each reads the bytes that it
counts and one more, and the set with its zero. -/
theorem spans_eq
    {s1 s2 : Nat}
    (isString : IsString memory s1 text)
    (setString : IsString memory s2 set)
    (setReadable : Covers access.readable (stringAt s2 set))
    (setEnough : set.length < fuel)
    (enough : text.length < fuel) :
    (Covers access.readable
        ⟨s1, (text.takeWhile (· ∈ set)).length + 1⟩ →
      strspn access memory fuel s1 s2 =
        some (text.takeWhile (· ∈ set)).length) ∧
    (Covers access.readable
        ⟨s1, (text.takeWhile (· ∉ set)).length + 1⟩ →
      strcspn access memory fuel s1 s2 =
        some (text.takeWhile (· ∉ set)).length) := by
  have shorter : ∀ keep : UInt8 → Bool,
      (text.takeWhile keep).length < fuel := fun keep =>
    (text.takeWhile_prefix keep).length_le.trans_lt enough
  constructor
  · intro readable
    rw [strspn, spanLoop_eq
        (strspnSearch_eq setString setReadable setEnough)
        (by simpa using setString.nonzero) isString readable (shorter _),
      Option.map_some, Nat.add_sub_cancel_left]
  · intro readable
    -- no byte of a string is zero, so the zero of the set stops nothing
    have sameSpan : text.takeWhile (fun c => !decide (c ∈ set ∨ c = 0)) =
        text.takeWhile (· ∉ set) := by
      apply takeWhile_eq_of_mem
      intro c member
      have nonzero : c ≠ 0 := by
        rintro rfl
        exact isString.nonzero member
      simp [nonzero]
    rw [← sameSpan] at readable ⊢
    rw [strcspn, spanLoop_eq
        (fun c => by
          rw [strcspnSearch_eq setString setReadable setEnough c,
            Option.map_some])
        (by simp) isString readable (shorter _),
      Option.map_some, Nat.add_sub_cancel_left]

end

/-- Two strings, each with its zero. -/
def sampleStrings : Memory :=
  ByteMemory.store (ByteMemory.store (fun _ => 1) 16 [97, 200, 0]) 32
    [97, 98, 97, 0]

/-- A byte above 127 comes after every letter. -/
theorem strcmp_compares_sampleStrings :
    ∃ result,
      strcmp ⟨[stringAt 16 [97, 200], stringAt 32 [97, 98, 97]], []⟩
          sampleStrings 3 16 32 = some result ∧
        Compares [97, 200] [97, 98, 97] result :=
  strcmp_compares (by decide) (by decide)
    (covers_of_mem List.mem_cons_self) (covers_of_mem (by decide)) (by decide)

/-- Two bytes of three leave no zero; the bytes after them stay. -/
theorem strncpy_string_sampleStrings :
    ∃ after,
      strncpy ⟨[⟨32, 2⟩], [⟨64, 2⟩]⟩ sampleStrings 64 32 2 =
          some (64, after) ∧
        after 65 = 98 ∧ AgreesOn ⟨66, 100⟩ sampleStrings after := by
  obtain ⟨after, returned, bytes, frame, _⟩ :=
    strncpy_string (show IsString sampleStrings 32 [97, 98, 97] by decide)
      (covers_of_mem List.mem_cons_self :
        Covers (Access.mk [⟨32, 2⟩] [⟨64, 2⟩]).readable ⟨32, 2⟩)
      (covers_of_mem List.mem_cons_self :
        Covers (Access.mk [⟨32, 2⟩] [⟨64, 2⟩]).writable ⟨64, 2⟩)
      (by decide)
  exact ⟨after, returned, bytes 1 (by decide), frame _ (by decide)⟩

/-- The first byte is in the set and the second one is not. -/
theorem spans_eq_sampleStrings :
    strspn ⟨[⟨32, 2⟩, stringAt 16 [97, 200]], []⟩ sampleStrings 4 32 16 =
        some 1 ∧
      strcspn ⟨[⟨32, 2⟩, stringAt 16 [97, 200]], []⟩ sampleStrings 4 32 16 =
        some 0 := by
  have spans := @spans_eq ⟨[⟨32, 2⟩, stringAt 16 [97, 200]], []⟩
    sampleStrings 4 [97, 98, 97] [97, 200] 32 16 (by decide) (by decide)
    (covers_of_mem (by decide)) (by decide) (by decide)
  refine ⟨spans.1 ?_, spans.2 ?_⟩
  · exact covers_of_mem (by decide)
  · exact (covers_of_mem List.mem_cons_self).of_within (by decide)

end Causer
