import Causer.HistoryInfo
import Causer.HistoryWords

/-!
# Call sites from one run to the next

Call sites that are saved under one address layout and loaded under another, in
which the same files are mapped at other bases, are found again: the key that
`startWatch` makes of the relocated first frame leads to the entry that was
saved, with all frames relocated.
-/

namespace Causer

open TextStream

/-- The files that are mapped before are mapped after, with the same sizes. -/
structure Moved (before after : List Mapping) : Prop where
  separateBefore : Separate before
  separateAfter : Separate after
  /-- The names are words. -/
  names : ∀ mapping ∈ textMappings before,
    mapping.file ≠ [] ∧ ∀ c ∈ mapping.file, isSpace c = false
  files : ∀ mapping ∈ textMappings before, ∃ moved ∈ textMappings after,
    moved.file = mapping.file ∧
      moved.limit - moved.base = mapping.limit - mapping.base

/-- The new address of the code at an old one: new base + old address - old
base. -/
def Relocates (before after : List Mapping) (old new : Word) : Prop :=
  ∃ mapping ∈ textMappings before, ∃ moved ∈ textMappings after,
    mapping.Inside old ∧ moved.file = mapping.file ∧
      new = moved.base + (old - mapping.base)

/-- The address is strictly inside a mapping of program text. -/
def InText (maps : List Mapping) (address : Word) : Prop :=
  ∃ mapping ∈ textMappings maps, mapping.Inside address

instance (before after : List Mapping) : Decidable (Moved before after) :=
  decidable_of_iff
    (Separate before ∧ Separate after ∧
      (∀ mapping ∈ textMappings before,
        mapping.file ≠ [] ∧ mapping.file.all fun c => !isSpace c) ∧
      ∀ mapping ∈ textMappings before, ∃ moved ∈ textMappings after,
        moved.file = mapping.file ∧
          moved.limit - moved.base = mapping.limit - mapping.base)
    ⟨fun ⟨separateBefore, separateAfter, names, files⟩ =>
        ⟨separateBefore, separateAfter, by simpa using names, files⟩,
      fun ⟨separateBefore, separateAfter, names, files⟩ =>
        ⟨separateBefore, separateAfter, by simpa using names, files⟩⟩

instance (maps : List Mapping) (address : Word) :
    Decidable (InText maps address) :=
  inferInstanceAs (Decidable (∃ mapping ∈ textMappings maps, _))

instance (before after : List Mapping) (old new : Word) :
    Decidable (Relocates before after old new) :=
  inferInstanceAs (Decidable (∃ mapping ∈ textMappings before, _))

section Layouts

variable {before after : List Mapping} (moved : Moved before after)
include moved

/-- A relocated address is inside the mapping of its file. -/
theorem Moved.inside
    {mapping target : Mapping} {address : Word}
    (member : mapping ∈ textMappings before)
    (targetMember : target ∈ textMappings after)
    (sameFile : target.file = mapping.file)
    (inside : mapping.Inside address) :
    target.Inside (target.base + (address - mapping.base)) := by
  obtain ⟨other, otherMember, otherFile, sameSize⟩ :=
    moved.files mapping member
  have only : other = target := moved.separateAfter.file_unique otherMember
    targetMember (otherFile.trans sameFile.symm)
  subst only
  have ordered := moved.separateAfter.ordered other otherMember
  have above := inside.1
  have below := inside.2
  constructor <;> bv_omega

/-- No two addresses are relocated to one. -/
theorem Moved.relocates_injective
    {first second new : Word}
    (firstMoves : Relocates before after first new)
    (secondMoves : Relocates before after second new) :
    first = second := by
  obtain ⟨one, oneMember, oneTarget, oneTargetMember, oneInside, oneFile,
    rfl⟩ := firstMoves
  obtain ⟨two, twoMember, twoTarget, twoTargetMember, twoInside, twoFile,
    same⟩ := secondMoves
  have inOne := moved.inside oneMember oneTargetMember oneFile oneInside
  have inTwo := moved.inside twoMember twoTargetMember twoFile twoInside
  rw [← same] at inTwo
  have sameTarget := inOne.unique moved.separateAfter.apart inTwo
    oneTargetMember twoTargetMember
  subst sameTarget
  have sameMapping := moved.separateBefore.file_unique oneMember twoMember
    (oneFile.symm.trans twoFile)
  subst sameMapping
  bv_omega

/-- An address is relocated to only one. -/
theorem Moved.relocates_unique
    {old first second : Word}
    (firstMoves : Relocates before after old first)
    (secondMoves : Relocates before after old second) :
    first = second := by
  obtain ⟨one, oneMember, oneTarget, oneTargetMember, oneInside, oneFile,
    rfl⟩ := firstMoves
  obtain ⟨two, twoMember, twoTarget, twoTargetMember, twoInside, twoFile,
    rfl⟩ := secondMoves
  have sameMapping := oneInside.unique moved.separateBefore.apart twoInside
    oneMember twoMember
  subst sameMapping
  rw [moved.separateAfter.file_unique oneTargetMember twoTargetMember
    (oneFile.trans twoFile.symm)]

/-- The name that is written for a frame in program text is one word. -/
theorem Moved.oneWord
    {address : Word}
    (inText : InText before address) :
    OneWord (SelfMap.ofMaps before) address := by
  obtain ⟨mapping, member, inside⟩ := inText
  obtain ⟨nonempty, solid⟩ := moved.names mapping member
  rw [OneWord, frameName,
    SelfMap.getMappingByAddress_eq moved.separateBefore member inside]
  exact wordCount_of_solid nonempty solid

/-- A frame in program text is read back relocated. -/
theorem Moved.rereadFrame
    (based : ∀ mapping ∈ textMappings after, mapping.base ≠ 0)
    {address : Word}
    (inText : InText before address) :
    Relocates before after address
      (rereadFrame (SelfMap.ofMaps before) (SelfMap.ofMaps after)
        address) := by
  obtain ⟨mapping, member, inside⟩ := inText
  obtain ⟨nonempty, solid⟩ := moved.names mapping member
  obtain ⟨target, targetMember, sameFile, -⟩ := moved.files mapping member
  refine ⟨mapping, member, target, targetMember, inside, sameFile, ?_⟩
  have word : firstWord mapping.file = target.file := by
    rw [firstWord, readWord_of_solid nonempty solid, sameFile]
  have named : frameName (SelfMap.ofMaps before) address =
      (mapping.file, address - mapping.base) := by
    rw [frameName, SelfMap.getMappingByAddress_eq moved.separateBefore member inside]
  rw [Causer.rereadFrame, named, word, frameAddress,
    SelfMap.getMappingByFileName_eq moved.separateAfter targetMember]
  exact if_pos (based target targetMember)

end Layouts

/-- A record that has been loaded for one that was saved. -/
structure Restored (before after : List Mapping) (boostratio : Int)
    (saved read : Callstack) : Prop where
  depth : read.depth = saved.depth
  calledCounter : read.calledCounter = saved.calledCounter
  watchedCounter : read.watchedCounter = saved.watchedCounter
  watchedRatio : read.watchedRatio = saved.writtenRatio boostratio
  offset : read.offset = saved.offset
  frames : ∀ place : Fin maxCallstackDepth, (place : Int) < saved.depth →
    Relocates before after (saved.stack place) (read.stack place)

section Records

variable {before after : List Mapping} {boostratio : Int}

/-- The hash value of a record does not matter. -/
theorem Restored.stored
    {saved read : Callstack}
    (restored : Restored before after boostratio saved read)
    (hashcode : Word) :
    Restored before after boostratio saved
      { read with hashcode := hashcode } :=
  ⟨restored.depth, restored.calledCounter, restored.watchedCounter,
    restored.watchedRatio, restored.offset, restored.frames⟩

/-- What the reader makes of a record whose frames are all in program text. -/
theorem restored_reread
    (moved : Moved before after)
    (based : ∀ mapping ∈ textMappings after, mapping.base ≠ 0)
    {saved : Callstack}
    (positive : 1 ≤ saved.depth)
    (inText : FramesIn (InText before) saved)
    (old : Callstack) :
    Restored before after boostratio saved
      (reread (SelfMap.ofMaps before) (SelfMap.ofMaps after) boostratio old
        saved) := by
  refine Restored.stored ?_ _
  refine ⟨rfl, rfl, rfl, rfl, rfl, fun place below => ?_⟩
  have within : 0 ≤ (place : Nat) ∧
      (place : Nat) < 0 + saved.depth.toNat := by omega
  have frame := moved.rereadFrame based (inText place below)
  change Relocates before after (saved.stack place)
    (rereadFrames (SelfMap.ofMaps before) (SelfMap.ofMaps after) saved.stack
      old.stack saved.depth.toNat 0 place)
  rw [rereadFrames, if_pos within]
  exact frame

theorem restored_rereadAll
    (moved : Moved before after)
    (based : ∀ mapping ∈ textMappings after, mapping.base ≠ 0)
    {callstacks : List Callstack}
    (positive : ∀ callstack ∈ callstacks, 1 ≤ callstack.depth)
    (inText : ∀ callstack ∈ callstacks, FramesIn (InText before) callstack)
    (old : Callstack) :
    List.Forall₂ (Restored before after boostratio) callstacks
      (rereadAll (SelfMap.ofMaps before) (SelfMap.ofMaps after) boostratio old
        callstacks) := by
  induction callstacks generalizing old with
  | nil => exact List.Forall₂.nil
  | cons callstack callstacks inductionHypothesis =>
      rw [List.forall_mem_cons] at positive inText
      exact List.Forall₂.cons
        (restored_reread moved based positive.1 inText.1 old)
        (inductionHypothesis positive.2 inText.2 _)

end Records

/-- Every record that is read comes from one that was written. -/
theorem exists_of_mem_right
    {α β : Type*} {relation : α → β → Prop}
    {firsts : List α} {seconds : List β}
    (related : List.Forall₂ relation firsts seconds)
    {second : β}
    (member : second ∈ seconds) :
    ∃ first ∈ firsts, relation first second := by
  induction related with
  | nil => exact absurd member List.not_mem_nil
  | cons here _ inductionHypothesis =>
      rcases List.mem_cons.mp member with rfl | later
      · exact ⟨_, List.mem_cons_self, here⟩
      · obtain ⟨first, found, holds⟩ := inductionHypothesis later
        exact ⟨first, List.mem_cons_of_mem _ found, holds⟩

/-- Every record that was written is read. -/
theorem exists_of_mem_left
    {α β : Type*} {relation : α → β → Prop}
    {firsts : List α} {seconds : List β}
    (related : List.Forall₂ relation firsts seconds)
    {first : α}
    (member : first ∈ firsts) :
    ∃ second ∈ seconds, relation first second := by
  obtain ⟨second, found, holds⟩ := exists_of_mem_right related.flip member
  exact ⟨second, found, holds⟩

/-- A file with one word for each name fills an empty map with its records. -/
theorem loadHistoryInfo_eq
    {writer : SelfMap} (reader : SelfMap)
    {boostratio : Int}
    (isBoost : IsBoost boostratio)
    {callstacks : List Callstack}
    (recordable : ∀ callstack ∈ callstacks, Recordable callstack)
    (oneWord : ∀ callstack ∈ callstacks, FramesIn (OneWord writer) callstack)
    (number : Word) (old : Callstack) (memory : CallstackMap)
    {exponent : Nat} (word : exponent < 64) :
    ∃ loaded,
      loadHistoryInfo reader old
          (some (writeUnsigned number ++
            '\n' :: writeCallstacks writer boostratio callstacks))
          (HashMap.initializeMap memory (2 ^ exponent)) = some loaded ∧
        HashMap.Filled (2 ^ exponent) loaded
          (HashMap.recordBindings (2 ^ exponent)
            (rereadAll writer reader boostratio old callstacks) []) := by
  have numberRead := (isToken_readUnsigned 64).read_before
    (readUnsigned_writeUnsigned number) (show isSpace '\n' = true by decide)
    (writeCallstacks writer boostratio callstacks)
  have read := readCallstacks_writeCallstacks reader isBoost recordable oneWord
    (show wordCount ['\n'] = 0 by decide) old
  have recorded : ∀ callstack ∈ rereadAll writer reader boostratio old
      callstacks, 1 ≤ callstack.depth := by
    intro callstack member
    obtain ⟨written, found, same⟩ := exists_of_mem_right
      (forall₂_rereadAll writer reader boostratio old callstacks) member
    rw [same.depth]
    exact (recordable written found).depth_pos
  obtain ⟨loaded, inserted, filled⟩ :=
    (HashMap.filled_initializeMap memory word).insertCallstacks recorded
  have empty : (HashMap.initializeMap memory (2 ^ exponent)).getEntryNumber =
      0 := rfl
  rw [List.singleton_append] at read
  refine ⟨loaded, ?_, filled⟩
  rw [loadHistoryInfo, numberRead]
  simp only [List.nil_append]
  rw [if_pos empty, read]
  exact inserted

section Search

variable {before after : List Mapping} {boostratio : Int}

/-- The key of a relocated first frame leads to the record that was saved. -/
theorem lookup_restored
    (moved : Moved before after)
    {saved read : List Callstack}
    (restored : List.Forall₂ (Restored before after boostratio) saved read)
    (positive : ∀ callstack ∈ saved, 1 ≤ callstack.depth)
    (distinct : (saved.map fun callstack =>
      (callstack.stack 0, callstack.offset)).Nodup)
    (size : Nat)
    {original : Callstack}
    (member : original ∈ saved)
    {callstack : Callstack}
    (relocated : Relocates before after (original.stack 0)
      (callstack.stack 0))
    (sameOffset : callstack.offset = original.offset) :
    ∃ binding,
      FiniteMap.lookup (HashMap.policy callstackFunctions size)
          (HashMap.recordBindings size read [])
          (callstack.hashed, callstackLength) = some binding ∧
        Restored before after boostratio original binding.value := by
  have atFirst : ∀ callstack : Callstack, 1 ≤ callstack.depth →
      ((0 : Fin maxCallstackDepth) : Int) < callstack.depth := by
    intro callstack deep
    rw [Fin.val_zero]
    omega
  -- the record of the original has the key
  obtain ⟨record, recordMember, recordRestored⟩ :=
    exists_of_mem_left restored member
  obtain ⟨bound, boundMember, boundKey, -⟩ :=
    (HashMap.exists_recordBindings_iff size read _ record).mpr
      ⟨recordMember, rfl⟩
  have isSame : (HashMap.policy callstackFunctions size).same bound.key
      (callstack.hashed, callstackLength) = true := by
    rw [boundKey, same_hashed_iff]
    have frame := recordRestored.frames 0
      (atFirst original (positive original member))
    exact ⟨moved.relocates_unique frame relocated,
      recordRestored.offset.trans sameOffset.symm⟩
  have isFound := FiniteMap.lookup_isSome.mpr ⟨bound, boundMember, isSame⟩
  obtain ⟨binding, found⟩ := Option.isSome_iff_exists.mp isFound
  refine ⟨binding, found, ?_⟩
  -- whatever record is found first comes from the original
  obtain ⟨bindingMember, bindingSame⟩ := FiniteMap.lookup_eq_some found
  obtain ⟨valueMember, valueKey⟩ :=
    (HashMap.exists_recordBindings_iff size read binding.key
      binding.value).mp ⟨binding, bindingMember, rfl, rfl⟩
  obtain ⟨other, otherMember, otherRestored⟩ :=
    exists_of_mem_right restored valueMember
  rw [valueKey, same_hashed_iff] at bindingSame
  have otherFrame := otherRestored.frames 0
    (atFirst other (positive other otherMember))
  rw [bindingSame.1] at otherFrame
  have sameFrame := moved.relocates_injective otherFrame relocated
  have sameSite : (other.stack 0, other.offset) =
      (original.stack 0, original.offset) := by
    rw [sameFrame, ← otherRestored.offset, bindingSame.2, sameOffset]
  rw [← List.inj_on_of_nodup_map distinct otherMember member sameSite]
  exact otherRestored

end Search

/-- Entries with the keys of their values, all different, and values with frames
that are all in program text. -/
structure Savable (maps : List Mapping)
    (bindings : List (HashMap.MapBinding HashedCallstack Callstack)) :
    Prop where
  keys : ∀ binding ∈ bindings,
    (binding.key.1.val.stack 0, binding.key.1.val.offset) =
      (binding.value.stack 0, binding.value.offset)
  distinct : (bindings.map fun binding =>
    (binding.key.1.val.stack 0, binding.key.1.val.offset)).Nodup
  recordable : ∀ binding ∈ bindings, Recordable binding.value
  inText : ∀ binding ∈ bindings, FramesIn (InText maps) binding.value

/-- The call sites that one process has are saved, and the next process, with its
map and any record to read into, loads them: it has one entry for each, and finds
the entry by the key of the relocated first frame, unless the bucket of the key
has too many entries to be searched. -/
def RoundTrips (before after : List Mapping) (boostratio : Int)
    (map : CallstackMap)
    (bindings : List (HashMap.MapBinding HashedCallstack Callstack))
    (file : Option Text) (old : Callstack) (fresh : CallstackMap) : Prop :=
  ∃ newBoost saved loaded,
    saveHistoryInfo (SelfMap.ofMaps before) boostratio map file =
        some (newBoost, saved) ∧
      loadHistoryInfo (SelfMap.ofMaps after) old saved fresh = some loaded ∧
      (∃ order entries, order.Perm bindings ∧
        HashMap.Represents callstackFunctions loaded entries ∧
        List.Forall₂ (fun saved read : HashMap.MapBinding _ _ =>
          Restored before after newBoost saved.value read.value)
            order entries) ∧
      ∀ binding ∈ bindings, ∀ callstack : Callstack,
        Relocates before after (binding.value.stack 0) (callstack.stack 0) →
        callstack.offset = binding.value.offset →
        HashMap.Searchable callstackFunctions loaded
          (callstack.hashed, callstackLength) →
        ∀ newval, ∃ address,
          HashMap.findOrAdd callstackFunctions callstack.hashed
              callstackLength newval loaded = some (address, loaded) ∧
            Restored before after newBoost binding.value
              (loaded.entries address).value

/-- Looking for an overflowed call site leaves `boostratio` or clears it. -/
theorem isBoost_savedBoostratio
    {boostratio : Int}
    (isBoost : IsBoost boostratio)
    (callstacks : List Callstack) :
    IsBoost (Callstack.savedBoostratio boostratio callstacks) := by
  unfold Callstack.savedBoostratio
  split_ifs
  · exact Or.inl rfl
  · exact isBoost

/-- A map without entries leaves the file, and without a file nothing is
loaded. -/
theorem roundTrips_nil
    {before after : List Mapping} {boostratio : Int}
    {map : CallstackMap}
    (represents : HashMap.Represents callstackFunctions map [])
    (old : Callstack) (memory : CallstackMap)
    {exponent : Nat} (word : exponent < 64) :
    RoundTrips before after boostratio map [] none old
      (HashMap.initializeMap memory (2 ^ exponent)) := by
  have empty : ¬map.getEntryNumber > 0 := by
    rw [HashMap.getEntryNumber, represents.total]
    decide
  refine ⟨boostratio, none, _, if_neg empty, rfl, ?_, by simp⟩
  exact ⟨[], [], List.Perm.refl [],
    HashMap.represents_initializeMap callstackFunctions memory word,
    List.Forall₂.nil⟩

/-- Call sites that are saved under one layout and loaded under another are found
again, if the next process maps no program text at address zero, and no older
file is read in place of one that a map without entries has not written. -/
theorem roundTrips
    {before after : List Mapping}
    (moved : Moved before after)
    (based : ∀ mapping ∈ textMappings after, mapping.base ≠ 0)
    {boostratio : Int}
    (isBoost : IsBoost boostratio)
    {map : CallstackMap}
    {bindings : List (HashMap.MapBinding HashedCallstack Callstack)}
    (represents : HashMap.Represents callstackFunctions map bindings)
    (fits : bindings.length < 2 ^ 64)
    (savable : Savable before bindings)
    {file : Option Text}
    (written : bindings ≠ [] ∨ file = none)
    (old : Callstack) (memory : CallstackMap)
    {exponent : Nat} (word : exponent < 64) :
    RoundTrips before after boostratio map bindings file old
      (HashMap.initializeMap memory (2 ^ exponent)) := by
  by_cases nonempty : bindings = []
  · subst nonempty
    rcases written with different | rfl
    · exact absurd rfl different
    · exact roundTrips_nil represents old memory word
  obtain ⟨order, newBoost, perm, boost, saved⟩ := saveHistoryInfo_eq
    (SelfMap.ofMaps before) boostratio represents fits nonempty file
  have isNewBoost : IsBoost newBoost := by
    rw [boost]
    exact isBoost_savedBoostratio isBoost _
  have recordable : ∀ callstack ∈ order.map FiniteMap.Binding.value,
      Recordable callstack := by
    intro callstack member
    obtain ⟨binding, inside, rfl⟩ := List.mem_map.mp member
    exact savable.recordable binding (perm.mem_iff.mp inside)
  have inText : ∀ callstack ∈ order.map FiniteMap.Binding.value,
      FramesIn (InText before) callstack := by
    intro callstack member
    obtain ⟨binding, inside, rfl⟩ := List.mem_map.mp member
    exact savable.inText binding (perm.mem_iff.mp inside)
  have positive : ∀ callstack ∈ order.map FiniteMap.Binding.value,
      1 ≤ callstack.depth :=
    fun callstack member => (recordable callstack member).depth_pos
  have distinct : ((order.map FiniteMap.Binding.value).map fun callstack =>
      (callstack.stack 0, callstack.offset)).Nodup := by
    have sites : (order.map FiniteMap.Binding.value).map
        (fun callstack => (callstack.stack 0, callstack.offset)) =
          order.map fun binding =>
            (binding.key.1.val.stack 0, binding.key.1.val.offset) := by
      rw [List.map_map]
      apply List.map_congr_left
      intro binding inside
      exact (savable.keys binding (perm.mem_iff.mp inside)).symm
    rw [sites]
    exact (perm.map _).nodup_iff.mpr savable.distinct
  obtain ⟨loaded, loads, filled⟩ := loadHistoryInfo_eq
    (SelfMap.ofMaps after) isNewBoost recordable
    (fun callstack member place below =>
      moved.oneWord (inText callstack member place below))
    (BitVec.ofNat 64 map.getEntryNumber) old memory word
  have restored : List.Forall₂ (Restored before after newBoost)
      (order.map FiniteMap.Binding.value) _ :=
    restored_rereadAll moved based positive inText old
  have loadedFits : (HashMap.recordBindings (2 ^ exponent)
      (rereadAll (SelfMap.ofMaps before) (SelfMap.ofMaps after) newBoost old
        (order.map FiniteMap.Binding.value)) []).length < 2 ^ 64 := by
    rw [← List.length_map (f := FiniteMap.Binding.value),
      HashMap.map_value_recordBindings, ← restored.length_eq, List.length_map,
      perm.length_eq]
    exact fits
  refine ⟨newBoost, _, loaded, saved, loads,
    ⟨order, _, perm, filled.represents, ?_⟩, ?_⟩
  · rw [← HashMap.map_value_recordBindings (2 ^ exponent)
      (rereadAll _ _ _ _ _), List.forall₂_map_left_iff,
      List.forall₂_map_right_iff] at restored
    exact restored
  · intro binding member callstack relocated sameOffset searchable newval
    obtain ⟨found, lookup, isRestored⟩ := lookup_restored moved restored
      positive distinct (2 ^ exponent)
      (List.mem_map_of_mem (perm.mem_iff.mpr member)) relocated sameOffset
    obtain ⟨searched, value⟩ := filled.findOrAdd loadedFits searchable lookup
      newval
    refine ⟨found.address, searched, ?_⟩
    rw [value]
    exact isRestored

/-- A file whose text is mapped at a base. -/
def textAt (base : Word) : List Mapping :=
  [⟨base, base + 0x1000, true, false, true, ['a']⟩]

/-- The map of a new process, which has `CALLSTACK_MAP_SIZE` buckets. -/
def freshMap : CallstackMap :=
  HashMap.initializeMap
    { buckets := 0
      count := fun _ => 0
      links := ⟨id, id⟩
      entries := fun _ => ⟨sampleRecord.hashed, 0, sampleRecord⟩
      allentries := 0
      entryindex := 0
      totalEntry := 0 }
    (2 ^ 19)

/-- The only entry of a map. -/
def sampleBindings : List (HashMap.MapBinding HashedCallstack Callstack) :=
  HashMap.recordBindings (2 ^ 19) [sampleRecord] []

/-- A map with the entry. -/
theorem filled_sample :
    ∃ map, insertCallstacks [sampleRecord] freshMap = some map ∧
      HashMap.Filled (2 ^ 19) map sampleBindings :=
  (HashMap.filled_initializeMap _ (by decide)).insertCallstacks (by decide)

theorem savable_sample : Savable (textAt 0x1000) sampleBindings := by
  have only : ∀ binding ∈ sampleBindings,
      binding.key.1 = sampleRecord.hashed ∧ binding.value = sampleRecord := by
    intro binding member
    rw [List.mem_singleton.mp member]
    exact ⟨rfl, rfl⟩
  refine ⟨fun binding member => ?_, ?_, fun binding member => ?_,
    fun binding member => ?_⟩
  · obtain ⟨key, value⟩ := only binding member
    rw [key, value, Callstack.hashed_stack, Callstack.hashed_offset]
  · exact List.nodup_singleton _
  · rw [(only binding member).2]
    exact recordable_frameRecord 0x1010 (by decide) (by decide)
  · rw [(only binding member).2]
    exact fun _ _ => (by decide : InText (textAt 0x1000) 0x1010)

theorem roundTrips_sample :
    ∃ map, insertCallstacks [sampleRecord] freshMap = some map ∧
      RoundTrips (textAt 0x1000) (textAt 0x5000) 1 map sampleBindings none
        sampleRecord freshMap := by
  obtain ⟨map, inserted, filled⟩ := filled_sample
  refine ⟨map, inserted, ?_⟩
  exact roundTrips (by decide) (by decide) (Or.inr rfl)
    filled.represents (by decide) savable_sample
    (Or.inr rfl) sampleRecord _ (by decide)

/-- The file of a process that has saved the call site. -/
def olderFile (number : Word) : Text :=
  writeUnsigned number ++ '\n' ::
    writeCallstacks (SelfMap.ofMaps (textAt 0x1000)) 1 [sampleRecord]

theorem load_olderFile (after : List Mapping) (number : Word) :
    ∃ loaded,
      loadHistoryInfo (SelfMap.ofMaps after) sampleRecord
          (some (olderFile number)) freshMap = some loaded ∧
        HashMap.Filled (2 ^ 19) loaded
          (HashMap.recordBindings (2 ^ 19)
            [reread (SelfMap.ofMaps (textAt 0x1000)) (SelfMap.ofMaps after) 1
              sampleRecord sampleRecord] []) := by
  have recordable : ∀ callstack ∈ [sampleRecord], Recordable callstack := by
    rw [List.forall_mem_singleton]
    exact recordable_frameRecord 0x1010 (by decide) (by decide)
  have oneWord : ∀ callstack ∈ [sampleRecord],
      FramesIn (OneWord (SelfMap.ofMaps (textAt 0x1000))) callstack := by
    rw [List.forall_mem_singleton]
    exact fun _ _ => (by decide :
      wordCount (frameName (SelfMap.ofMaps (textAt 0x1000)) 0x1010).1 = 1)
  exact loadHistoryInfo_eq _ (Or.inr rfl) recordable oneWord number
    sampleRecord _ (by decide)

/-- What is saved for the entry. -/
theorem save_sample
    {map : CallstackMap}
    (represents : HashMap.Represents callstackFunctions map sampleBindings) :
    ∃ number, saveHistoryInfo (SelfMap.ofMaps (textAt 0x1000)) 1 map none =
      some (1, some (olderFile number)) := by
  obtain ⟨order, newBoost, perm, boost, saved⟩ := saveHistoryInfo_eq
    (SelfMap.ofMaps (textAt 0x1000)) 1 represents (by decide)
    (List.cons_ne_nil _ _) none
  have same : order = sampleBindings := List.perm_singleton.mp perm
  subst same
  have unchanged : newBoost = 1 := by
    rw [boost]
    rfl
  rw [unchanged] at saved
  exact ⟨_, saved⟩

/-- The frame keeps its old address when its file is mapped at zero. -/
theorem lookup_zero :
    FiniteMap.lookup (HashMap.policy callstackFunctions (2 ^ 19))
        (HashMap.recordBindings (2 ^ 19)
          [reread (SelfMap.ofMaps (textAt 0x1000)) (SelfMap.ofMaps (textAt 0))
            1 sampleRecord sampleRecord] [])
        ((frameRecord 0x10 1).hashed, callstackLength) = none := by
  rw [FiniteMap.lookup_eq_none]
  intro binding member
  obtain ⟨valueMember, key⟩ := (HashMap.exists_recordBindings_iff (2 ^ 19) _
    binding.key binding.value).mp ⟨binding, member, rfl, rfl⟩
  rw [List.mem_singleton] at valueMember
  have frames : binding.value.stack = rereadFrames
      (SelfMap.ofMaps (textAt 0x1000)) (SelfMap.ofMaps (textAt 0))
      sampleRecord.stack sampleRecord.stack 1 0 := by
    rw [valueMember]
    exact Callstack.stack_stored _ _
  have kept : rereadFrames (SelfMap.ofMaps (textAt 0x1000))
      (SelfMap.ofMaps (textAt 0)) sampleRecord.stack sampleRecord.stack 1 0 0 =
        0x1010 := by decide +kernel
  rw [key, Bool.eq_false_iff, Ne, same_hashed_iff, frames, kept]
  rintro ⟨different, -⟩
  exact absurd different (by decide : (0x1010 : Word) ≠ 0x10)

/-- A frame is not relocated to a mapping at address zero, so that its call site
is added anew; and a map without entries leaves a file that the next process
loads. -/
theorem roundTrips_fails :
    (∃ map, HashMap.Represents callstackFunctions map sampleBindings ∧
      Savable (textAt 0x1000) sampleBindings ∧
      Moved (textAt 0x1000) (textAt 0) ∧
      ¬RoundTrips (textAt 0x1000) (textAt 0) 1 map sampleBindings none
        sampleRecord freshMap) ∧
      ¬RoundTrips (textAt 0x1000) (textAt 0x5000) 1 freshMap []
        (some (olderFile 1)) sampleRecord freshMap := by
  constructor
  · obtain ⟨map, -, filled⟩ := filled_sample
    refine ⟨map, filled.represents, savable_sample, by decide, ?_⟩
    rintro ⟨newBoost, saved, loaded, saves, loads, -, finds⟩
    obtain ⟨number, savesOlder⟩ := save_sample filled.represents
    rw [savesOlder, Option.some.injEq, Prod.mk.injEq] at saves
    obtain ⟨rfl, rfl⟩ := saves
    obtain ⟨other, loadsOther, otherFilled⟩ := load_olderFile (textAt 0) number
    rw [loads, Option.some.injEq] at loadsOther
    subst loadsOther
    have total : loaded.totalEntry = 1 := otherFilled.represents.total
    have searchable : HashMap.Searchable callstackFunctions loaded
        ((frameRecord 0x10 1).hashed, callstackLength) :=
      HashMap.searchable_of_length otherFilled.represents (by decide)
    obtain ⟨address, finds, -⟩ := finds _ (List.mem_singleton_self _)
      (frameRecord 0x10 1) (by decide : Relocates _ _ 0x1010 0x10) rfl
      searchable sampleRecord
    obtain ⟨place, next, adds, more⟩ := otherFilled.findOrAdd_absent
      (by decide) searchable lookup_zero sampleRecord
    rw [finds, Option.some.injEq, Prod.mk.injEq] at adds
    rw [← adds.2, total] at more
    exact absurd more (by decide)
  · rintro ⟨newBoost, saved, loaded, saves, loads, ⟨order, entries, perm,
      represents, related⟩, -⟩
    have empty : order = [] := List.perm_nil.mp perm
    subst empty
    cases related
    have kept : saveHistoryInfo (SelfMap.ofMaps (textAt 0x1000)) 1 freshMap
        (some (olderFile 1)) = some (1, some (olderFile 1)) :=
      if_neg (Nat.lt_irrefl 0)
    rw [kept, Option.some.injEq, Prod.mk.injEq] at saves
    obtain ⟨-, rfl⟩ := saves
    obtain ⟨other, loadsOther, otherFilled⟩ :=
      load_olderFile (textAt 0x5000) 1
    rw [loads, Option.some.injEq] at loadsOther
    subst loadsOther
    have total := otherFilled.represents.total
    rw [represents.total] at total
    exact absurd total (by decide)

end Causer
