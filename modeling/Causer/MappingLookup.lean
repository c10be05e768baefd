import Causer.Library.SearchTree
import Causer.SelfMap

/-!
# Mappings by address

The address is looked up as the interval from itself to itself.  It compares
below an interval that starts at it, so the first byte of a mapping is not found
in it, and every other byte is.  The order of the map is no strict order on
such a key, but the descent of `std::map` finds what the comparison says.
-/

namespace Causer

open OrderedSearch

/-- Lines of the file whose mappings of program text have room and do not
overlap. -/
structure DisjointMaps where
  maps : List Mapping
  ordered : ∀ mapping ∈ textMappings maps, mapping.base < mapping.limit
  apart : (textMappings maps).Pairwise fun first second =>
    first.limit ≤ second.base ∨ second.limit ≤ first.base

/-- The address is in the mapping, from the base on and below the limit. -/
def Mapping.Contains (mapping : Mapping) (address : Word) : Prop :=
  mapping.base ≤ address ∧ address < mapping.limit

instance (mapping : Mapping) (address : Word) :
    Decidable (mapping.Contains address) :=
  inferInstanceAs (Decidable (_ ∧ _))

theorem Mapping.Inside.contains
    {mapping : Mapping} {address : Word}
    (inside : mapping.Inside address) :
    mapping.Contains address :=
  ⟨BitVec.le_of_lt inside.1, inside.2⟩

/-- The address of a mapping that is not strictly inside is its base. -/
theorem Mapping.Contains.inside
    {mapping : Mapping} {address : Word}
    (contains : mapping.Contains address)
    (notBase : mapping.base ≠ address) :
    mapping.Inside address := by
  refine ⟨?_, contains.2⟩
  have above := contains.1
  bv_omega

namespace DisjointMaps

variable (layout : DisjointMaps)

/-- The mapping of an address is looked up, and only that. -/
def LookupRight (address : Word) : Prop :=
  ∀ mapping,
    (SelfMap.ofMaps layout.maps).getMappingByAddress address = some mapping ↔
      mapping ∈ textMappings layout.maps ∧ mapping.Contains address

/-- The mapping of an address is looked up exactly if the address is the base of
none. -/
theorem lookupRight_iff (address : Word) :
    layout.LookupRight address ↔
      ∀ mapping ∈ textMappings layout.maps, mapping.base ≠ address := by
  constructor
  · rintro right mapping member rfl
    have contains : mapping.Contains mapping.base :=
      ⟨BitVec.le_refl _, layout.ordered mapping member⟩
    have found := (right mapping).mpr ⟨member, contains⟩
    rw [SelfMap.getMappingByAddress_eq_some_iff layout.apart] at found
    exact BitVec.lt_irrefl _ found.2.1
  · intro notBase mapping
    rw [SelfMap.getMappingByAddress_eq_some_iff layout.apart]
    constructor
    · exact And.imp_right Mapping.Inside.contains
    · rintro ⟨member, contains⟩
      exact ⟨member, contains.inside (notBase mapping member)⟩

/-- What is less than an address, and what it is less than. -/
abbrev below (address : Word) (entry : Interval × Mapping) : Bool :=
  entry.1.less ⟨address, address⟩

abbrev above (address : Word) (entry : Interval × Mapping) : Bool :=
  Interval.less ⟨address, address⟩ entry.1

/-- The order of the map takes the key of an address for less than itself. -/
@[simp] theorem less_self (address : Word) :
    Interval.less ⟨address, address⟩ ⟨address, address⟩ = true :=
  decide_eq_true (BitVec.le_refl address)

variable {layout}

/-- The entries that are kept have room. -/
theorem room
    {entry : Interval × Mapping}
    (member : entry ∈ (SelfMap.ofMaps layout.maps).mappings) :
    entry.1.base < entry.1.limit := by
  rw [SelfMap.ofMaps_mappings layout.apart] at member
  obtain ⟨mapping, inside, rfl⟩ := List.mem_map.mp member
  exact layout.ordered mapping inside

variable {tree : SearchTree (Interval × Mapping)}
  (perm : tree.entries.Perm (SelfMap.ofMaps layout.maps).mappings)
  (sorted : tree.entries.Pairwise fun first second =>
    first.1.less second.1 = true)
include perm sorted

/-- An address divides the entries of an ordered tree, although it is no key
of the order. -/
theorem divides (address : Word) :
    Divides (below address) (above address) tree.entries := by
  constructor
  · refine sorted.imp_of_mem fun _ secondMember ordered isBelow => ?_
    have secondRoom := room (perm.mem_iff.mp secondMember)
    have first_le := of_decide_eq_true ordered
    have second_le := of_decide_eq_true isBelow
    exact decide_eq_true (by bv_omega)
  · refine sorted.imp_of_mem fun firstMember _ ordered isAbove => ?_
    have firstRoom := room (perm.mem_iff.mp firstMember)
    have first_le := of_decide_eq_true ordered
    have le_first := of_decide_eq_true isAbove
    exact decide_eq_true (by bv_omega)

/-- The descent in an ordered tree of the entries finds the mapping that is
looked up. -/
theorem search_eq (address : Word) :
    (tree.search (below address) (above address)).map Prod.snd =
      (SelfMap.ofMaps layout.maps).getMappingByAddress address := by
  rw [SearchTree.search_eq_find (divides perm sorted address)]
  refine congrArg (Option.map Prod.snd) (find_eq_of_perm perm ?_)
  intro first firstMember second secondMember inFirst inSecond
  rw [perm.mem_iff, SelfMap.ofMaps_mappings layout.apart] at firstMember
  rw [perm.mem_iff, SelfMap.ofMaps_mappings layout.apart] at secondMember
  obtain ⟨one, oneMember, rfl⟩ := List.mem_map.mp firstMember
  obtain ⟨two, twoMember, rfl⟩ := List.mem_map.mp secondMember
  have oneInside := (Interval.same_address_iff _ _).mp inFirst
  have twoInside := (Interval.same_address_iff _ _).mp inSecond
  rw [Mapping.Inside.unique layout.apart oneInside twoInside oneMember
    twoMember]

end DisjointMaps

/-- Two adjacent mappings of program text. -/
def adjacentMaps : DisjointMaps where
  maps :=
    [⟨0x401000, 0x402000, true, false, true, "a".toList⟩,
      ⟨0x400000, 0x401000, true, false, true, "a".toList⟩]
  ordered := by decide
  apart := by decide

/-- The first byte of the second mapping is found in neither. -/
theorem adjacentMaps_base :
    ¬adjacentMaps.LookupRight 0x401000 := by
  intro right
  have found := (right _).mpr
    ⟨List.mem_cons_self, by decide, by decide⟩
  revert found
  decide

end Causer
