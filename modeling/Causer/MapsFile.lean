import Causer.Library.FileStream
import Causer.SelfMap

/-!
# The file of mappings

`operator>>` reads one line of `/proc/self/maps` by a row of extractions, and
the constructor of `selfmap` repeats it until the stream fails.  The number of
the inode is extracted into an `int`, while the kernel prints 64 bits.  So an
inode from 2^31 on makes the stream fail, and its line and all that follow are
lost.
-/

namespace Causer

open TextStream

/-- `mapping`, with all that its constructor stores. -/
structure ReadMapping extends Mapping where
  valid : Bool
  copyOnWrite : Bool
  offset : Word
  deriving DecidableEq

/-- The constructor of `mapping`. -/
def ReadMapping.ofFields (base limit : Word) (perms : Text) (offset : Word)
    (file : Text) : ReadMapping where
  base := base
  limit := limit
  readable := perms[0]? = some 'r'
  writable := perms[1]? = some 'w'
  executable := perms[2]? = some 'x'
  file := file
  valid := true
  copyOnWrite := perms[3]? = some 'p'
  offset := offset

/-- What the variables of `operator>>` hold at its start. -/
structure MappingLocals where
  base : Word
  limit : Word
  perms : Text
  offset : Word
  devMajor : Word
  devMinor : Word
  inode : Int

/-- The loop that skips spaces and tabs, each of whose tests peeks. -/
def skipBlanks : Nat → FileStream → FileStream
  | 0, stream => stream
  | fuel + 1, stream =>
      let (first, stream) := stream.peek
      if first = some ' ' then skipBlanks fuel stream.ignore
      else
        let (second, stream) := stream.peek
        if second = some '\t' then skipBlanks fuel stream.ignore else stream

/-- `operator>>`. -/
def extractMapping (locals : MappingLocals) (m : ReadMapping)
    (stream : FileStream) : ReadMapping × FileStream :=
  if stream.good && !stream.eof then
    let (base, stream) := stream.extractUnsigned .hex 64 locals.base
    let (dash, stream) := stream.get
    if dash ≠ some '-' then (m, stream)
    else
      let (limit, stream) := stream.extractUnsigned .hex 64 locals.limit
      let (space, stream) := stream.get
      if space ≠ some ' ' then (m, stream)
      else
        let (block, stream) := stream.getBlock 5
        let perms := block ++ '\x00' :: locals.perms.drop (block.length + 1)
        let (offset, stream) := stream.extractUnsigned .hex 64 locals.offset
        let (_, stream) := stream.extractUnsigned .hex 64 locals.devMajor
        let (colon, stream) := stream.get
        if colon ≠ some ':' then (m, stream)
        else
          let (_, stream) := stream.extractUnsigned .hex 64 locals.devMinor
          let (_, stream) := stream.extractSigned .dec 32 locals.inode
          let stream := skipBlanks (stream.text.length + 1) stream
          let (path, stream) := stream.getline []
          (.ofFields base limit perms offset path, stream)
  else (m, stream)

/-- The loop of the constructor, with the mappings that it reads. -/
def readMaps (locals : MappingLocals) :
    Nat → ReadMapping → FileStream → Option (List ReadMapping)
  | 0, _, _ => none
  | fuel + 1, m, stream =>
      let (m, stream) := extractMapping locals m stream
      if stream.failed then some []
      else (readMaps locals fuel m stream).map (m :: ·)

/-- A hexadecimal number of 64 bits, with leading zeros. -/
structure HexWord where
  zeros : Nat
  value : Word

def HexWord.text (word : HexWord) : Text :=
  Numeral.text .hex ⟨word.zeros, word.value.toNat⟩

/-- A line of the file. -/
structure MapsLine where
  base : HexWord
  limit : HexWord
  readable : Bool
  writable : Bool
  executable : Bool
  copyOnWrite : Bool
  offset : HexWord
  devMajor : HexWord
  devMinor : HexWord
  inode : Word
  blanks : Text
  path : Text
  blanks_blank : ∀ c ∈ blanks, c = ' ' ∨ c = '\t'
  /-- A path is separated from the inode. -/
  separated : path ≠ [] → blanks ≠ []
  /-- The path does not begin with a blank. -/
  path_head : ∀ c ∈ path.head?, c ≠ ' ' ∧ c ≠ '\t'
  path_line : '\n' ∉ path

namespace MapsLine

variable (line : MapsLine)

def perms : Text :=
  [if line.readable then 'r' else '-', if line.writable then 'w' else '-',
    if line.executable then 'x' else '-', if line.copyOnWrite then 'p' else 's']

/-- The line in front of other lines. -/
def print (rest : Text) : Text :=
  line.base.text ++ '-' :: (line.limit.text ++ ' ' :: (line.perms ++ ' ' ::
    (line.offset.text ++ ' ' :: (line.devMajor.text ++ ':' ::
      (line.devMinor.text ++ ' ' ::
        (Numeral.text .dec ⟨0, line.inode.toNat⟩ ++
          (line.blanks ++ (line.path ++ '\n' :: rest))))))))

/-- The mapping that the line describes. -/
def mapping : ReadMapping where
  base := line.base.value
  limit := line.limit.value
  readable := line.readable
  writable := line.writable
  executable := line.executable
  file := line.path
  valid := true
  copyOnWrite := line.copyOnWrite
  offset := line.offset.value

end MapsLine

/-- The file. -/
def printMaps (lines : List MapsLine) : Text :=
  lines.foldr MapsLine.print []

/-- A character that cannot be part of a hexadecimal number. -/
def EndsHex (c : Char) : Prop :=
  Radix.hex.isDigit c = false ∧ c ≠ 'x' ∧ c ≠ 'X'

instance (c : Char) : Decidable (EndsHex c) :=
  inferInstanceAs (Decidable (_ ∧ _))

namespace HexWord

variable (word : HexWord) {c : Char} (ends : EndsHex c)
  (old : Word) (rest : Text)

include ends

theorem extract_spaces
    {spaces : Text}
    (blank : ∀ c ∈ spaces, isSpace c = true) :
    FileStream.extractUnsigned .hex 64 old
        (.ofText (spaces ++ (word.text ++ c :: rest))) =
      (word.value, .ofText (c :: rest)) := by
  have fits : (⟨word.zeros, word.value.toNat⟩ : Numeral).value < 2 ^ 64 :=
    word.value.isLt
  rw [text, FileStream.extractUnsigned_numeral blank ends.1 ends.2.1 ends.2.2
    fits, BitVec.ofNat_toNat, BitVec.setWidth_eq]

/-- The number is extracted where it begins. -/
theorem extract :
    FileStream.extractUnsigned .hex 64 old
        (.ofText (word.text ++ c :: rest)) =
      (word.value, .ofText (c :: rest)) :=
  word.extract_spaces ends old rest (List.forall_mem_nil _)

/-- The number is extracted from behind a space. -/
theorem extract_behind :
    FileStream.extractUnsigned .hex 64 old
        (.ofText (' ' :: (word.text ++ c :: rest))) =
      (word.value, .ofText (c :: rest)) :=
  word.extract_spaces ends old rest (List.forall_mem_singleton.mpr rfl)

end HexWord

/-- Blanks are skipped up to something else. -/
theorem skipBlanks_append
    {blanks : Text} {first : Char} {fuel : Nat}
    (blank : ∀ c ∈ blanks, c = ' ' ∨ c = '\t')
    (notSpace : first ≠ ' ')
    (notTab : first ≠ '\t')
    (rest : Text)
    (enough : blanks.length < fuel) :
    skipBlanks fuel (.ofText (blanks ++ first :: rest)) =
      .ofText (first :: rest) := by
  induction blanks generalizing fuel with
  | nil =>
      cases fuel with
      | zero => omega
      | succ fuel => simp [skipBlanks, notSpace, notTab]
  | cons c blanks inductionHypothesis =>
      rw [List.forall_mem_cons] at blank
      cases fuel with
      | zero => omega
      | succ fuel =>
          have later :=
            inductionHypothesis blank.2 (Nat.lt_of_succ_lt_succ enough)
          rcases blank.1 with rfl | rfl
          · simp [skipBlanks, later]
          · simp [skipBlanks, later]

/-- On a stream that has failed there are no blanks. -/
theorem skipBlanks_failed (fuel : Nat) (text : Text) (eof : Bool) :
    skipBlanks fuel ⟨text, eof, true⟩ = ⟨text, eof, true⟩ := by
  cases fuel with
  | zero => rfl
  | succ fuel => simp [skipBlanks]

namespace MapsLine

variable (line : MapsLine) (rest : Text)

/-- What stands behind the inode. -/
def printPath : Text :=
  line.blanks ++ (line.path ++ '\n' :: rest)

/-- What stands behind the device. -/
def printInode : Text :=
  ' ' :: (Numeral.text .dec ⟨0, line.inode.toNat⟩ ++ line.printPath rest)

theorem length_perms : line.perms.length = 4 := rfl

theorem perms_line : '\n' ∉ line.perms := by
  intro member
  simp only [perms, List.mem_cons, List.not_mem_nil, or_false] at member
  rcases member with same | same | same | same <;> split at same <;>
    simp at same

theorem getBlock_perms :
    (FileStream.ofText (line.perms ++ rest)).getBlock 5 =
      (line.perms, .ofText rest) :=
  FileStream.getBlock_append rfl (List.cons_ne_nil _ _) line.perms_line rest

/-- The permissions are read back. -/
theorem ofFields_perms (old : Text) :
    ReadMapping.ofFields line.base.value line.limit.value
        (line.perms ++ '\x00' :: old) line.offset.value line.path =
      line.mapping := by
  rcases line with ⟨_, _, readable, writable, executable, copyOnWrite, _⟩
  cases readable <;> cases writable <;> cases executable <;>
    cases copyOnWrite <;> rfl

/-- No digit stands behind the inode. -/
theorem exists_printPath_eq_cons :
    ∃ c tail, line.printPath rest = c :: tail ∧
      Radix.dec.isDigit c = false ∧ c ≠ 'x' ∧ c ≠ 'X' := by
  rcases blanks_eq : line.blanks with _ | ⟨blank, blanks⟩
  · have path_nil : line.path = [] := by
      by_contra some_path
      exact line.separated some_path blanks_eq
    refine ⟨'\n', rest, ?_, rfl, by decide, by decide⟩
    rw [printPath, blanks_eq, path_nil]
    rfl
  · have member : blank ∈ line.blanks := blanks_eq ▸ List.mem_cons_self
    refine ⟨blank, blanks ++ (line.path ++ '\n' :: rest), ?_, ?_⟩
    · rw [printPath, blanks_eq, List.cons_append]
    · rcases line.blanks_blank blank member with rfl | rfl <;> decide

/-- The blanks are skipped, and the rest of the line is the path. -/
theorem getline_skipBlanks
    {fuel : Nat}
    (enough : (line.printPath rest).length < fuel) :
    (skipBlanks fuel (.ofText (line.printPath rest))).getline [] =
      (line.path, .ofText rest) := by
  have skipped : skipBlanks fuel (.ofText (line.printPath rest)) =
      .ofText (line.path ++ '\n' :: rest) := by
    have less : line.blanks.length < fuel := by
      rw [printPath, List.length_append] at enough
      omega
    rw [printPath]
    rcases path_eq : line.path with _ | ⟨first, path⟩
    · exact skipBlanks_append line.blanks_blank (by decide) (by decide) rest
        less
    · obtain ⟨notSpace, notTab⟩ := line.path_head first (by rw [path_eq]; rfl)
      exact skipBlanks_append line.blanks_blank notSpace notTab _ less
  rw [skipped]
  exact FileStream.getline_append line.path_line [] rest

/-- The extractions up to the inode read back the line. -/
theorem extractMapping_print
    (locals : MappingLocals) (m : ReadMapping) :
    extractMapping locals m (.ofText (line.print rest)) =
      let (_, stream) := FileStream.extractSigned .dec 32 locals.inode
        (.ofText (line.printInode rest))
      let stream := skipBlanks (stream.text.length + 1) stream
      let (path, stream) := stream.getline []
      (.ofFields line.base.value line.limit.value
        (line.perms ++ '\x00' :: locals.perms.drop 5) line.offset.value path,
        stream) := by
  have dash : EndsHex '-' := by decide
  have space : EndsHex ' ' := by decide
  have colon : EndsHex ':' := by decide
  have good : ∀ text, ((FileStream.ofText text).good &&
      !(FileStream.ofText text).eof) = true := by simp
  rw [extractMapping, print, if_pos (good _)]
  -- One extraction at a time: the next one works on the stream it leaves.
  rw [HexWord.extract _ dash]
  dsimp only
  rw [FileStream.get_cons]
  dsimp only
  rw [if_neg (not_not_intro rfl), HexWord.extract _ space]
  dsimp only
  rw [FileStream.get_cons]
  dsimp only
  rw [if_neg (not_not_intro rfl), getBlock_perms]
  dsimp only
  rw [HexWord.extract_behind _ space]
  dsimp only
  rw [HexWord.extract_behind _ colon]
  dsimp only
  rw [FileStream.get_cons]
  dsimp only
  rw [if_neg (not_not_intro rfl), HexWord.extract _ space, printInode,
    printPath, length_perms]

/-- The stream behind the inode fails if that is too great. -/
theorem extractSigned_inode (old : Int) :
    (FileStream.extractSigned .dec 32 old
        (.ofText (line.printInode rest))).2 =
      ⟨line.printPath rest, false, decide (2 ^ 31 ≤ line.inode.toNat)⟩ := by
  obtain ⟨c, tail, split, stops, notSmall, notLarge⟩ :=
    line.exists_printPath_eq_cons rest
  have blank : ∀ c ∈ [' '], isSpace c = true :=
    List.forall_mem_singleton.mpr rfl
  rw [printInode, split]
  exact FileStream.extractSigned_numeral blank stops notSmall notLarge old
    ⟨0, line.inode.toNat⟩ tail

/-- The number of the inode fits into an `int`. -/
def InodeFits : Prop := line.inode.toNat < 2 ^ 31

instance : Decidable line.InodeFits := inferInstanceAs (Decidable (_ < _))

/-- A line is read back if its inode fits. -/
theorem extractMapping_print_of_inodeFits
    (fits : line.InodeFits)
    (locals : MappingLocals) (m : ReadMapping) :
    extractMapping locals m (.ofText (line.print rest)) =
      (line.mapping, .ofText rest) := by
  have stream := line.extractSigned_inode rest locals.inode
  rw [decide_eq_false (Nat.not_le.mpr fits)] at stream
  rw [extractMapping_print]
  dsimp only
  rw [stream, ← line.ofFields_perms (locals.perms.drop 5)]
  have path := line.getline_skipBlanks rest (Nat.lt_succ_self _)
  dsimp only [FileStream.ofText] at path ⊢
  rw [path]

/-- The stream fails at a line whose inode does not fit. -/
theorem failed_extractMapping_print
    (large : ¬line.InodeFits)
    (locals : MappingLocals) (m : ReadMapping) :
    (extractMapping locals m (.ofText (line.print rest))).2.failed = true := by
  have stream := line.extractSigned_inode rest locals.inode
  rw [decide_eq_true (Nat.not_lt.mp large)] at stream
  rw [extractMapping_print]
  dsimp only
  rw [stream, skipBlanks_failed, FileStream.getline_failed]

end MapsLine

/-- Nothing is read from the end of the file. -/
theorem failed_extractMapping_nil (locals : MappingLocals) (m : ReadMapping) :
    (extractMapping locals m (.ofText [])).2.failed = true := by
  rfl

section Loop

variable {locals : MappingLocals} {m next : ReadMapping}
  {stream rest : FileStream} (fuel : Nat)

/-- The loop ends when the stream has failed. -/
theorem readMaps_of_failed
    (failed : (extractMapping locals m stream).2.failed = true) :
    readMaps locals (fuel + 1) m stream = some [] := by
  rw [readMaps]
  exact if_pos failed

/-- The loop goes on behind a mapping. -/
theorem readMaps_of_read
    (read : extractMapping locals m stream = (next, rest))
    (good : rest.failed = false) :
    readMaps locals (fuel + 1) m stream =
      (readMaps locals fuel next rest).map (next :: ·) := by
  rw [readMaps, read]
  dsimp only
  rw [if_neg (Bool.eq_false_iff.mp good)]

end Loop

/-- The lines that are read: those before the first whose inode does not
fit. -/
def readLines (lines : List MapsLine) : List MapsLine :=
  lines.takeWhile fun line => decide line.InodeFits

/-- The lines that are read are read back. -/
theorem readMaps_printMaps
    (locals : MappingLocals) (fuel : Nat) (m : ReadMapping)
    {lines : List MapsLine}
    (enough : (readLines lines).length < fuel) :
    readMaps locals fuel m (.ofText (printMaps lines)) =
      some ((readLines lines).map MapsLine.mapping) := by
  induction lines generalizing fuel m with
  | nil =>
      cases fuel with
      | zero => contradiction
      | succ fuel =>
          exact readMaps_of_failed fuel (failed_extractMapping_nil locals m)
  | cons line lines inductionHypothesis =>
      cases fuel with
      | zero => contradiction
      | succ fuel =>
          by_cases fits : line.InodeFits
          · have split : readLines (line :: lines) = line :: readLines lines :=
              List.takeWhile_cons_of_pos (decide_eq_true fits)
            rw [split] at enough ⊢
            have later := inductionHypothesis fuel line.mapping
              (Nat.lt_of_succ_lt_succ enough)
            have first := line.extractMapping_print_of_inodeFits
              (printMaps lines) fits locals m
            have both := readMaps_of_read fuel first
              (FileStream.failed_ofText _)
            rw [later] at both
            exact both
          · have split : readLines (line :: lines) = [] :=
              List.takeWhile_cons_of_neg (by simpa using fits)
            have first := line.failed_extractMapping_print
              (printMaps lines) fits locals m
            rw [split]
            exact readMaps_of_failed fuel first

/-- More fuel does not change what is read. -/
theorem readMaps_add
    {locals : MappingLocals} {fuel : Nat} {m : ReadMapping}
    {stream : FileStream} {read : List ReadMapping}
    (done : readMaps locals fuel m stream = some read)
    (more : Nat) :
    readMaps locals (fuel + more) m stream = some read := by
  induction fuel generalizing m stream read with
  | zero => contradiction
  | succ fuel inductionHypothesis =>
      rw [Nat.add_right_comm]
      cases failed : (extractMapping locals m stream).2.failed with
      | true =>
          rw [readMaps_of_failed _ failed] at done ⊢
          exact done
      | false =>
          have next : extractMapping locals m stream = (_, _) := rfl
          rw [readMaps_of_read _ next failed, Option.map_eq_some_iff] at done
          obtain ⟨others, later, rfl⟩ := done
          rw [readMaps_of_read _ next failed, inductionHypothesis later]
          rfl

/-- Reading the file gives the mappings of its lines. -/
def ReadsMaps (locals : MappingLocals) (m : ReadMapping)
    (lines : List MapsLine) : Prop :=
  ∃ fuel, readMaps locals fuel m (.ofText (printMaps lines)) =
    some (lines.map MapsLine.mapping)

/-- No line is lost from a file that is read back. -/
theorem ReadsMaps.readLines_eq
    {locals : MappingLocals} {m : ReadMapping} {lines : List MapsLine}
    (reads : ReadsMaps locals m lines) :
    readLines lines = lines := by
  obtain ⟨fuel, read⟩ := reads
  have enough : (readLines lines).length <
      fuel + ((readLines lines).length + 1) := by omega
  have readAgain := readMaps_printMaps locals _ m enough
  rw [readMaps_add read] at readAgain
  have lengths := congrArg List.length (Option.some.inj readAgain)
  rw [List.length_map, List.length_map] at lengths
  exact (List.takeWhile_prefix _).eq_of_length lengths.symm

/-- The file is read back exactly if every inode fits into an `int`. -/
theorem readsMaps_iff
    (locals : MappingLocals) (m : ReadMapping) (lines : List MapsLine) :
    ReadsMaps locals m lines ↔ ∀ line ∈ lines, line.InodeFits := by
  constructor
  · intro reads line member
    have whole := List.takeWhile_eq_self_iff.mp reads.readLines_eq line member
    exact of_decide_eq_true whole
  · intro fits
    have whole : readLines lines = lines := by
      rw [readLines, List.takeWhile_eq_self_iff]
      exact fun line member => decide_eq_true (fits line member)
    refine ⟨lines.length + 1, ?_⟩
    rw [readMaps_printMaps locals _ m (by rw [whole]; omega), whole]

section Sample

def libraryPath : Text := ['/', 'a', '.', 's', 'o']

theorem libraryPath_head : ∀ c ∈ libraryPath.head?, c ≠ ' ' ∧ c ≠ '\t' := by
  rintro c ⟨⟩
  decide

theorem libraryPath_line : '\n' ∉ libraryPath := by
  decide

/-- A library's line. -/
def libraryLine (base inode : Word) : MapsLine where
  base := ⟨0, base⟩
  limit := ⟨0, base + 0x1000⟩
  readable := true
  writable := false
  executable := true
  copyOnWrite := true
  offset := ⟨7, 0⟩
  devMajor := ⟨1, 8⟩
  devMinor := ⟨1, 1⟩
  inode := inode
  blanks := [' ']
  path := libraryPath
  blanks_blank := List.forall_mem_singleton.mpr (.inl rfl)
  separated := fun _ => List.cons_ne_nil _ _
  path_head := libraryPath_head
  path_line := libraryPath_line

/-- The second inode has 32 bits. -/
def libraryLines : List MapsLine :=
  [libraryLine 0x1000 5, libraryLine 0x3000 0x80000000, libraryLine 0x5000 6]

example : printMaps [libraryLine 0x1000 0x80000000] =
    "1000-2000 r-xp 00000000 08:01 2147483648 /a.so\n".toList := by
  decide +kernel

def zeroLocals : MappingLocals where
  base := 0
  limit := 0
  perms := List.replicate 5 '\x00'
  offset := 0
  devMajor := 0
  devMinor := 0
  inode := 0

/-- The default constructor of `mapping`. -/
def invalidMapping : ReadMapping where
  base := 0
  limit := 0
  readable := false
  writable := false
  executable := false
  file := []
  valid := false
  copyOnWrite := false
  offset := 0

/-- Only the first of the three mappings is read. -/
theorem not_readsMaps_libraryLines :
    readMaps zeroLocals 4 invalidMapping (.ofText (printMaps libraryLines)) =
        some [(libraryLine 0x1000 5).mapping] ∧
      ¬ReadsMaps zeroLocals invalidMapping libraryLines := by
  have first : readLines libraryLines = [libraryLine 0x1000 5] := rfl
  constructor
  · rw [readMaps_printMaps _ _ _ (by rw [first]; decide), first]
    rfl
  · intro reads
    have lengths := congrArg List.length reads.readLines_eq
    rw [first] at lengths
    contradiction

end Sample

/-- The constructor of `selfmap`, for the file that it opens. -/
def SelfMap.ofFile (locals : MappingLocals) (fuel : Nat) (m : ReadMapping)
    (stream : FileStream) : Option (SelfMap × Text) :=
  (readMaps locals fuel m stream).map fun read =>
    (.ofMaps (read.map ReadMapping.toMapping),
      (read.head?.map fun m => m.file).getD [])

/-- The mappings of lines. -/
def mapsOf (lines : List MapsLine) : List Mapping :=
  lines.map fun line => line.mapping.toMapping

/-- The tables hold the lines that are read. -/
theorem SelfMap.ofFile_printMaps
    (locals : MappingLocals) (fuel : Nat) (m : ReadMapping)
    {lines : List MapsLine}
    (enough : (readLines lines).length < fuel) :
    SelfMap.ofFile locals fuel m (.ofText (printMaps lines)) =
      some (.ofMaps (mapsOf (readLines lines)),
        ((readLines lines).head?.map MapsLine.path).getD []) := by
  rw [ofFile, readMaps_printMaps locals fuel m enough, Option.map_some,
    List.map_map, List.head?_map, Option.map_map]
  rfl

/-- The mappings of some lines, which begin those of the file. -/
theorem textMappings_readLines_sublist (lines : List MapsLine) :
    (textMappings (mapsOf (readLines lines))).Sublist
      (textMappings (mapsOf lines)) :=
  ((List.takeWhile_sublist _).map _).filter _

/-- An address of program text is found exactly if its line is read. -/
theorem getMappingByAddress_ofFile
    {locals : MappingLocals} {fuel : Nat} {m : ReadMapping}
    {lines : List MapsLine} {selfmap : SelfMap} {mainExe : Text}
    (read : SelfMap.ofFile locals fuel m (.ofText (printMaps lines)) =
      some (selfmap, mainExe))
    (enough : (readLines lines).length < fuel)
    (apart : (textMappings (mapsOf lines)).Pairwise fun first second =>
      first.limit ≤ second.base ∨ second.limit ≤ first.base)
    (mapping : Mapping) (address : Word) :
    selfmap.getMappingByAddress address = some mapping ↔
      mapping ∈ textMappings (mapsOf (readLines lines)) ∧
        mapping.Inside address := by
  rw [SelfMap.ofFile_printMaps locals fuel m enough, Option.some.injEq,
    Prod.mk.injEq] at read
  rw [← read.1]
  exact SelfMap.getMappingByAddress_eq_some_iff
    (apart.sublist (textMappings_readLines_sublist lines)) mapping address

end Causer
