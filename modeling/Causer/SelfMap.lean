import Causer.Library.TextStream
import Causer.Xdefines
import Mathlib.Data.List.Pairwise

/-!
# The memory mappings of a process

`selfmap` reads `/proc/self/maps` once and keeps the mappings of program text
twice: by address range, in a map whose order takes overlapping ranges for equal
ones, and by file name.  A mapping is found at an address strictly between its
base and its limit.
-/

namespace Causer

open TextStream (Text)

/-- `mapping`, for a line of the file. -/
structure Mapping where
  base : Word
  limit : Word
  readable : Bool
  writable : Bool
  executable : Bool
  file : Text
  deriving DecidableEq

/-- `isText`. -/
def Mapping.isText (mapping : Mapping) : Bool :=
  mapping.readable && !mapping.writable && mapping.executable

/-- `interval`. -/
structure Interval where
  base : Word
  limit : Word
  deriving DecidableEq

/-- `operator<`. -/
def Interval.less (first second : Interval) : Bool :=
  decide (first.limit ≤ second.base)

/-- Neither is less, so they are one key. -/
def Interval.same (first second : Interval) : Bool :=
  !first.less second && !second.less first

/-- The data of a `selfmap`: the entries of the two maps. -/
structure SelfMap where
  mappings : List (Interval × Mapping)
  textmappings : List (Text × Mapping)

/-- Assign to the entry of a key, which is added if there is none. -/
def assignKey {Key Value : Type} (same : Key → Key → Bool)
    (key : Key) (value : Value) : List (Key × Value) → List (Key × Value)
  | [] => [(key, value)]
  | (other, old) :: entries =>
      if same other key then (other, value) :: entries
      else (other, old) :: assignKey same key value entries

/-- The value of a key. -/
def findKey {Key Value : Type} (same : Key → Key → Bool)
    (key : Key) (entries : List (Key × Value)) : Option Value :=
  (entries.find? fun entry => same entry.1 key).map Prod.snd

namespace SelfMap

/-- One step of the constructor. -/
def add (selfmap : SelfMap) (mapping : Mapping) : SelfMap :=
  if mapping.isText then
    { mappings := assignKey Interval.same ⟨mapping.base, mapping.limit⟩ mapping
        selfmap.mappings
      textmappings := assignKey (· == ·) mapping.file mapping
        selfmap.textmappings }
  else selfmap

/-- The constructor, for the lines of the file. -/
def ofMaps (maps : List Mapping) : SelfMap :=
  maps.foldl add ⟨[], []⟩

/-- `getMappingByAddress`. -/
def getMappingByAddress (selfmap : SelfMap) (address : Word) :
    Option Mapping :=
  findKey Interval.same ⟨address, address⟩ selfmap.mappings

/-- `getMappingByFileName`. -/
def getMappingByFileName (selfmap : SelfMap) (name : Text) :
    Option Mapping :=
  findKey (· == ·) name selfmap.textmappings

end SelfMap

/-- The address is strictly inside the mapping. -/
def Mapping.Inside (mapping : Mapping) (address : Word) : Prop :=
  mapping.base < address ∧ address < mapping.limit

instance (mapping : Mapping) (address : Word) :
    Decidable (mapping.Inside address) :=
  inferInstanceAs (Decidable (_ ∧ _))

/-- The mappings of program text among the lines. -/
abbrev textMappings (maps : List Mapping) : List Mapping :=
  maps.filter Mapping.isText

/-- Mappings of program text have room, do not overlap, and are of different
files. -/
structure Separate (maps : List Mapping) : Prop where
  ordered : ∀ mapping ∈ textMappings maps, mapping.base < mapping.limit
  apart : (textMappings maps).Pairwise fun first second =>
    first.limit ≤ second.base ∨ second.limit ≤ first.base
  files : ((textMappings maps).map Mapping.file).Nodup

instance (maps : List Mapping) : Decidable (Separate maps) :=
  decidable_of_iff
    ((∀ mapping ∈ textMappings maps, mapping.base < mapping.limit) ∧
      ((textMappings maps).Pairwise fun first second =>
        first.limit ≤ second.base ∨ second.limit ≤ first.base) ∧
      ((textMappings maps).map Mapping.file).Nodup)
    ⟨fun ⟨ordered, apart, files⟩ => ⟨ordered, apart, files⟩,
      fun ⟨ordered, apart, files⟩ => ⟨ordered, apart, files⟩⟩

/-- No address is strictly inside two mappings that do not overlap. -/
theorem Mapping.Inside.unique
    {texts : List Mapping}
    (apart : texts.Pairwise fun first second =>
      first.limit ≤ second.base ∨ second.limit ≤ first.base)
    {first second : Mapping} {address : Word}
    (inFirst : first.Inside address)
    (inSecond : second.Inside address)
    (firstMember : first ∈ texts)
    (secondMember : second ∈ texts) :
    first = second := by
  by_contra different
  have symmetric : Std.Symm fun first second : Mapping =>
      first.limit ≤ second.base ∨ second.limit ≤ first.base :=
    ⟨fun _ _ => Or.symm⟩
  rcases apart.forall firstMember secondMember different with below | above
  · have past := inFirst.2
    have before := inSecond.1
    bv_omega
  · have past := inSecond.2
    have before := inFirst.1
    bv_omega

/-- No file has two mappings. -/
theorem Separate.file_unique
    {maps : List Mapping}
    (separate : Separate maps)
    {first second : Mapping}
    (firstMember : first ∈ textMappings maps)
    (secondMember : second ∈ textMappings maps)
    (same : first.file = second.file) :
    first = second :=
  List.inj_on_of_nodup_map separate.files firstMember secondMember same

/-- A key that equals none is added last. -/
theorem assignKey_of_absent
    {Key Value : Type} {same : Key → Key → Bool}
    {key : Key} {entries : List (Key × Value)}
    (absent : ∀ entry ∈ entries, same entry.1 key = false)
    (value : Value) :
    assignKey same key value entries = entries ++ [(key, value)] := by
  induction entries with
  | nil => rfl
  | cons entry entries inductionHypothesis =>
      rw [List.forall_mem_cons] at absent
      rw [assignKey, absent.1, inductionHypothesis absent.2]
      rfl

/-- Values whose keys are distinct are all kept. -/
theorem assignKeys_of_distinct
    {Key Value : Type} {same : Key → Key → Bool}
    (keyOf : Value → Key)
    {values : List Value}
    (distinct : values.Pairwise fun first second =>
      same (keyOf first) (keyOf second) = false) :
    values.foldl
        (fun entries value => assignKey same (keyOf value) value entries) [] =
      values.map fun value => (keyOf value, value) := by
  induction values using List.reverseRecOn with
  | nil => rfl
  | append_singleton values value inductionHypothesis =>
      rw [List.pairwise_append] at distinct
      rw [List.foldl_append, inductionHypothesis distinct.1, List.foldl_cons,
        List.foldl_nil, assignKey_of_absent, List.map_append]
      · rfl
      · intro entry member
        obtain ⟨other, inside, rfl⟩ := List.mem_map.mp member
        exact distinct.2.2 other inside value (List.mem_singleton_self _)

/-- The only entry with a key is found. -/
theorem findKey_of_only
    {Key Value : Type} {same : Key → Key → Bool}
    {key : Key} {entries : List (Key × Value)} {entry : Key × Value}
    (member : entry ∈ entries)
    (found : same entry.1 key = true)
    (only : ∀ other ∈ entries, same other.1 key = true → other = entry) :
    findKey same key entries = some entry.2 := by
  have some_found : (entries.find? fun entry => same entry.1 key).isSome := by
    rw [List.find?_isSome]
    exact ⟨entry, member, found⟩
  obtain ⟨other, searched⟩ := Option.isSome_iff_exists.mp some_found
  have same_key := List.find?_some searched
  rw [findKey, searched,
    only other (List.mem_of_find?_eq_some searched) same_key, Option.map_some]

/-- Ranges that do not overlap are different keys. -/
theorem Interval.same_eq_false
    {first second : Interval}
    (apart : first.limit ≤ second.base ∨ second.limit ≤ first.base) :
    first.same second = false := by
  rcases apart with below | above
  · simp [Interval.same, Interval.less, below]
  · simp [Interval.same, Interval.less, above]

/-- An address is looked up strictly between base and limit. -/
theorem Interval.same_address_iff (range : Interval) (address : Word) :
    range.same ⟨address, address⟩ = true ↔
      range.base < address ∧ address < range.limit := by
  simp only [Interval.same, Interval.less, Bool.and_eq_true,
    Bool.not_eq_true', decide_eq_false_iff_not, BitVec.not_le]
  exact And.comm

namespace SelfMap

/-- What the constructor has made of the mappings read so far. -/
def ofTexts (texts : List Mapping) : SelfMap where
  mappings := texts.map fun mapping => (⟨mapping.base, mapping.limit⟩, mapping)
  textmappings := texts.map fun mapping => (mapping.file, mapping)

/-- The two maps are filled independently of each other. -/
theorem ofMaps_eq_foldl (maps : List Mapping) :
    ofMaps maps =
      { mappings := (textMappings maps).foldl
          (fun entries mapping =>
            assignKey Interval.same ⟨mapping.base, mapping.limit⟩ mapping
              entries) []
        textmappings := (textMappings maps).foldl
          (fun entries mapping =>
            assignKey (· == ·) mapping.file mapping entries) [] } := by
  induction maps using List.reverseRecOn with
  | nil => rfl
  | append_singleton maps mapping inductionHypothesis =>
      rw [ofMaps, List.foldl_append, List.foldl_cons, List.foldl_nil,
        ← ofMaps, inductionHypothesis, add]
      cases text : mapping.isText with
      | false =>
          have same : textMappings (maps ++ [mapping]) = textMappings maps := by
            simp [textMappings, text]
          rw [same, if_neg Bool.false_ne_true]
      | true =>
          have last : textMappings (maps ++ [mapping]) =
              textMappings maps ++ [mapping] := by
            simp [textMappings, text]
          simp only [last, List.foldl_append, List.foldl_cons, List.foldl_nil,
            if_true]

/-- Mappings of program text that do not overlap are all kept by address. -/
theorem ofMaps_mappings
    {maps : List Mapping}
    (apart : (textMappings maps).Pairwise fun first second =>
      first.limit ≤ second.base ∨ second.limit ≤ first.base) :
    (ofMaps maps).mappings = (ofTexts (textMappings maps)).mappings := by
  rw [ofMaps_eq_foldl]
  exact assignKeys_of_distinct
    (fun mapping : Mapping => ⟨mapping.base, mapping.limit⟩)
    (apart.imp Interval.same_eq_false)

/-- Those of different files are all kept by file. -/
theorem ofMaps_textmappings
    {maps : List Mapping}
    (files : ((textMappings maps).map Mapping.file).Nodup) :
    (ofMaps maps).textmappings =
      (ofTexts (textMappings maps)).textmappings := by
  rw [ofMaps_eq_foldl]
  exact assignKeys_of_distinct Mapping.file
    ((List.pairwise_map.mp files).imp beq_false_of_ne)

/-- A mapping is found at the addresses strictly inside it. -/
theorem getMappingByAddress_eq_some_iff
    {maps : List Mapping}
    (apart : (textMappings maps).Pairwise fun first second =>
      first.limit ≤ second.base ∨ second.limit ≤ first.base)
    (mapping : Mapping) (address : Word) :
    (ofMaps maps).getMappingByAddress address = some mapping ↔
      mapping ∈ textMappings maps ∧ mapping.Inside address := by
  rw [getMappingByAddress, ofMaps_mappings apart]
  constructor
  · intro found
    obtain ⟨entry, searched, rfl⟩ := Option.map_eq_some_iff.mp found
    obtain ⟨mapping, member, rfl⟩ :=
      List.mem_map.mp (List.mem_of_find?_eq_some searched)
    have same := List.find?_some searched
    exact ⟨member, (Interval.same_address_iff _ _).mp same⟩
  · rintro ⟨member, inside⟩
    have kept :
        ((⟨mapping.base, mapping.limit⟩, mapping) : Interval × Mapping) ∈
          (ofTexts (textMappings maps)).mappings := List.mem_map_of_mem member
    refine findKey_of_only kept ((Interval.same_address_iff _ _).mpr inside) ?_
    intro entry entryMember found
    obtain ⟨other, otherMember, rfl⟩ := List.mem_map.mp entryMember
    rw [Interval.same_address_iff] at found
    rw [Mapping.Inside.unique apart found inside otherMember member]

section Lookups

variable {maps : List Mapping} (separate : Separate maps)
include separate

/-- The mapping strictly around an address is found by it. -/
theorem getMappingByAddress_eq
    {mapping : Mapping} {address : Word}
    (member : mapping ∈ textMappings maps)
    (inside : mapping.Inside address) :
    (ofMaps maps).getMappingByAddress address = some mapping :=
  (getMappingByAddress_eq_some_iff separate.apart mapping address).mpr
    ⟨member, inside⟩

/-- The mapping of a file is found by its name. -/
theorem getMappingByFileName_eq
    {mapping : Mapping}
    (member : mapping ∈ textMappings maps) :
    (ofMaps maps).getMappingByFileName mapping.file = some mapping := by
  rw [getMappingByFileName, ofMaps_textmappings separate.files]
  have kept : (mapping.file, mapping) ∈
      (ofTexts (textMappings maps)).textmappings := List.mem_map_of_mem member
  refine findKey_of_only kept (beq_self_eq_true mapping.file) ?_
  intro entry entryMember found
  obtain ⟨other, otherMember, rfl⟩ := List.mem_map.mp entryMember
  rw [separate.file_unique otherMember member (beq_iff_eq.mp found)]

end Lookups

end SelfMap

end Causer
