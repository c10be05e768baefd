import Causer.MappingLookup
import Mathlib.Data.List.Infix
import Mathlib.Data.List.Sort

/-!
# The regions of program text

`getTextRegions` goes through the mappings of program text in the order of their
addresses and keeps, for the library itself, the thread library, libc and the
main executable, the bounds of the mapping it has met last.  It goes by the names
of the files, and a region takes its end for one of its addresses.  Whose the
files really are is not in their names: it is an input of the statements.
-/

namespace Causer

open TextStream (Text)

/-- Whose text a mapping is. -/
inductive RegionKind
  | causer
  | libthread
  | libc
  | appText
  deriving DecidableEq

/-- The bounds of the regions, and the names of the libraries. -/
structure TextRegions where
  appTextStart : Word
  appTextEnd : Word
  libthreadStart : Word
  libthreadEnd : Word
  causerStart : Word
  causerEnd : Word
  libcStart : Word
  libcEnd : Word
  currentLibrary : Text
  threadLibrary : Text
  libcLibrary : Text
  deriving DecidableEq

/-- The object lies in static storage, and its constructor writes no bounds. -/
def TextRegions.initial : TextRegions :=
  ⟨0, 0, 0, 0, 0, 0, 0, 0, [], [], []⟩

/-- The test that all of the following make on the bounds of a region. -/
def inRegion (regionStart regionEnd pcaddr : Word) : Bool :=
  decide (pcaddr ≥ regionStart) && decide (pcaddr ≤ regionEnd)

/-- `find` of a part in the name of the file. -/
def Mapping.finds (mapping : Mapping) (part : String) : Prop :=
  part.toList <:+: mapping.file

instance (mapping : Mapping) (part : String) :
    Decidable (mapping.finds part) :=
  inferInstanceAs (Decidable (_ <:+: _))

namespace TextRegions

variable (regions : TextRegions) (pcaddr : Word)

/-- `isCauserLibrary`. -/
def isCauserLibrary : Bool :=
  inRegion regions.causerStart regions.causerEnd pcaddr

/-- `isPthreadLibrary`. -/
def isPthreadLibrary : Bool :=
  inRegion regions.libthreadStart regions.libthreadEnd pcaddr

/-- `isLibcLibrary`. -/
def isLibcLibrary : Bool :=
  inRegion regions.libcStart regions.libcEnd pcaddr

/-- `isApplication`. -/
def isApplication : Bool :=
  inRegion regions.appTextStart regions.appTextEnd pcaddr

/-- The body of the loop of `getTextRegions`. -/
def enter (mainExe : Text) (regions : TextRegions) (mapping : Mapping) :
    TextRegions :=
  if mapping.isText then
    if mapping.finds "/mylibrary" then
      { regions with
        causerStart := mapping.base
        causerEnd := mapping.limit
        currentLibrary := mapping.file }
    else if mapping.finds "/libpthread-" then
      { regions with
        libthreadStart := mapping.base
        libthreadEnd := mapping.limit
        threadLibrary := mapping.file }
    else if mapping.finds "/libc-" then
      { regions with
        libcStart := mapping.base
        libcEnd := mapping.limit
        libcLibrary := mapping.file }
    else if mapping.file = mainExe then
      { regions with
        appTextStart := mapping.base
        appTextEnd := mapping.limit }
    else regions
  else regions

/-- The bounds of the region of a kind. -/
def bounds : RegionKind → Word × Word
  | .causer => (regions.causerStart, regions.causerEnd)
  | .libthread => (regions.libthreadStart, regions.libthreadEnd)
  | .libc => (regions.libcStart, regions.libcEnd)
  | .appText => (regions.appTextStart, regions.appTextEnd)

end TextRegions

namespace SelfMap

/-- The order of the entries of the map. -/
abbrev ByBase (first second : Interval × Mapping) : Prop :=
  first.1.base ≤ second.1.base

/-- The entries in the order in which the map is iterated. -/
def inOrder (selfmap : SelfMap) : List (Interval × Mapping) :=
  selfmap.mappings.insertionSort ByBase

/-- `getTextRegions`. -/
def getTextRegions (mainExe : Text) (selfmap : SelfMap) : TextRegions :=
  selfmap.inOrder.foldl (fun regions entry => regions.enter mainExe entry.2)
    .initial

end SelfMap

/-- As whose text the tests of the loop enter a mapping. -/
def Mapping.enteredAs (mainExe : Text) (mapping : Mapping) : Option RegionKind :=
  if mapping.finds "/mylibrary" then some .causer
  else if mapping.finds "/libpthread-" then some .libthread
  else if mapping.finds "/libc-" then some .libc
  else if mapping.file = mainExe then some .appText
  else none

/-- A mapping replaces the bounds of the kind that it is entered as. -/
theorem TextRegions.enter_bounds
    {mainExe : Text} {mapping : Mapping}
    (text : mapping.isText = true)
    (regions : TextRegions) (kind : RegionKind) :
    (regions.enter mainExe mapping).bounds kind =
      if mapping.enteredAs mainExe = some kind then (mapping.base, mapping.limit)
      else regions.bounds kind := by
  rw [enter, if_pos text, Mapping.enteredAs]
  split_ifs <;> cases kind <;> first | rfl | simp_all

/-- Each region has the bounds of the last mapping entered as its kind. -/
theorem TextRegions.foldl_bounds
    {mainExe : Text} {texts : List Mapping}
    (text : ∀ mapping ∈ texts, mapping.isText = true)
    (regions : TextRegions) (kind : RegionKind) :
    (texts.foldl (enter mainExe) regions).bounds kind =
      match (texts.filter (·.enteredAs mainExe = some kind)).getLast? with
      | some last => (last.base, last.limit)
      | none => regions.bounds kind := by
  induction texts using List.reverseRecOn with
  | nil => rfl
  | append_singleton texts mapping inductionHypothesis =>
      rw [List.forall_mem_append, List.forall_mem_singleton] at text
      rw [List.foldl_append, List.foldl_cons, List.foldl_nil,
        enter_bounds text.2, inductionHypothesis text.1, List.filter_append]
      by_cases isKind : mapping.enteredAs mainExe = some kind
      · simp [isKind]
      · simp [isKind]

namespace DisjointMaps

variable (layout : DisjointMaps)

/-- `_main_exe`, the file of the first line. -/
def mainExe : Text := (layout.maps.head?.map Mapping.file).getD []

/-- The regions after `getTextRegions`. -/
def regions : TextRegions :=
  (SelfMap.ofMaps layout.maps).getTextRegions layout.mainExe

/-- The mappings of program text in the order of their addresses. -/
def texts : List Mapping :=
  (SelfMap.ofMaps layout.maps).inOrder.map Prod.snd

/-- Those that are entered as a kind. -/
def entered (kind : RegionKind) : List Mapping :=
  layout.texts.filter (·.enteredAs layout.mainExe = some kind)

/-- Whose the files are.  The main executable is that of the first line. -/
structure Files where
  owner : Text → Option RegionKind
  appText : ∀ file, owner file = some .appText ↔ file = layout.mainExe

variable {layout} in
/-- The address lies in a mapping of a file of the kind. -/
def InKind (files : layout.Files) (kind : RegionKind) (address : Word) : Prop :=
  ∃ mapping ∈ textMappings layout.maps,
    files.owner mapping.file = some kind ∧ mapping.Contains address

variable {layout} in
/-- An address is classified by the mapping that it lies in. -/
structure ClassifiedRight (files : layout.Files) (address : Word) : Prop where
  libthread : layout.regions.isPthreadLibrary address = true ↔
    InKind files .libthread address
  libc : layout.regions.isLibcLibrary address = true ↔
    InKind files .libc address
  appText : layout.regions.isApplication address = true ↔
    InKind files .appText address
  /-- At most one of the three answers is yes. -/
  libthread_libc : ¬(layout.regions.isPthreadLibrary address = true ∧
    layout.regions.isLibcLibrary address = true)
  libthread_appText : ¬(layout.regions.isPthreadLibrary address = true ∧
    layout.regions.isApplication address = true)
  libc_appText : ¬(layout.regions.isLibcLibrary address = true ∧
    layout.regions.isApplication address = true)

/-- The limit of the last mapping entered as a kind, and otherwise the null
pointer. -/
def lastEnd (kind : RegionKind) : Word :=
  ((layout.entered kind).getLast?.map Mapping.limit).getD 0

variable {layout} in
/-- The mapping that the address lies in is of the kind exactly if it is the last
one entered as that, and the address is not the end of that one, unless another
mapping of the kind begins there. -/
def Clear (files : layout.Files) (address : Word) (kind : RegionKind) : Prop :=
  if address = layout.lastEnd kind then
    ∃ mapping ∈ textMappings layout.maps,
      files.owner mapping.file = some kind ∧ mapping.base = address
  else
    ∀ mapping ∈ textMappings layout.maps, mapping.Contains address →
      (files.owner mapping.file = some kind ↔
        some mapping = (layout.entered kind).getLast?)

variable {layout}

/-- The mappings are iterated in the order of the map. -/
theorem inOrder_sorted :
    (SelfMap.ofMaps layout.maps).inOrder.Pairwise fun first second =>
      first.1.less second.1 = true := by
  have perm : (SelfMap.ofMaps layout.maps).inOrder.Perm _ :=
    List.perm_insertionSort SelfMap.ByBase _
  have total : Std.Total SelfMap.ByBase := ⟨fun _ _ => BitVec.le_total ..⟩
  have trans : IsTrans _ SelfMap.ByBase := ⟨fun _ _ _ => BitVec.le_trans⟩
  have rising : (SelfMap.ofMaps layout.maps).inOrder.Pairwise
      SelfMap.ByBase := List.pairwise_insertionSort _ _
  have apart : (SelfMap.ofMaps layout.maps).inOrder.Pairwise
      fun first second =>
        first.1.limit ≤ second.1.base ∨ second.1.limit ≤ first.1.base := by
    refine (perm.pairwise_iff Or.symm).mpr ?_
    rw [SelfMap.ofMaps_mappings layout.apart, SelfMap.ofTexts,
      List.pairwise_map]
    exact layout.apart
  refine (rising.and apart).imp_of_mem fun _ secondMember both => ?_
  have secondRoom := room (perm.mem_iff.mp secondMember)
  have bases : _ ≤ _ := both.1
  refine decide_eq_true (both.2.resolve_right fun above => ?_)
  bv_omega

theorem perm_texts : layout.texts.Perm (textMappings layout.maps) := by
  have perm : layout.texts.Perm _ :=
    (List.perm_insertionSort SelfMap.ByBase _).map Prod.snd
  rw [SelfMap.ofMaps_mappings layout.apart, SelfMap.ofTexts,
    List.map_map] at perm
  simpa [Function.comp_def] using perm

/-- One mapping of program text ends before the next one begins. -/
theorem texts_sorted :
    layout.texts.Pairwise fun first second => first.limit ≤ second.base := by
  have key : ∀ entry ∈ (SelfMap.ofMaps layout.maps).inOrder,
      entry.1 = ⟨entry.2.base, entry.2.limit⟩ := by
    intro entry member
    rw [SelfMap.inOrder, List.mem_insertionSort,
      SelfMap.ofMaps_mappings layout.apart] at member
    obtain ⟨mapping, -, rfl⟩ := List.mem_map.mp member
    rfl
  rw [texts, List.pairwise_map]
  refine inOrder_sorted.imp_of_mem fun firstMember secondMember less => ?_
  have ends := of_decide_eq_true less
  rw [key _ firstMember, key _ secondMember] at ends
  exact ends

theorem mem_entered_iff
    {mapping : Mapping} {kind : RegionKind} :
    mapping ∈ layout.entered kind ↔
      mapping ∈ textMappings layout.maps ∧
        mapping.enteredAs layout.mainExe = some kind := by
  rw [entered, List.mem_filter, layout.perm_texts.mem_iff, decide_eq_true_iff]

/-- The region of a kind is that of the last mapping entered as it. -/
theorem regions_bounds (kind : RegionKind) :
    layout.regions.bounds kind =
      match (layout.entered kind).getLast? with
      | some last => (last.base, last.limit)
      | none => (0, 0) := by
  have text : ∀ mapping ∈ layout.texts, mapping.isText = true := by
    intro mapping member
    rw [layout.perm_texts.mem_iff] at member
    exact (List.mem_filter.mp member).2
  have loop : layout.regions =
      layout.texts.foldl (TextRegions.enter layout.mainExe) .initial := by
    rw [texts, List.foldl_map]
    rfl
  rw [loop, TextRegions.foldl_bounds text]
  change (match (layout.entered kind).getLast? with
    | some last => (last.base, last.limit)
    | none => TextRegions.initial.bounds kind) = _
  cases (layout.entered kind).getLast? with
  | none => cases kind <;> rfl
  | some last => rfl

theorem inRegion_iff {regionStart regionEnd pcaddr : Word} :
    inRegion regionStart regionEnd pcaddr = true ↔
      regionStart ≤ pcaddr ∧ pcaddr ≤ regionEnd := by
  simp [inRegion]

/-- At most one mapping contains an address. -/
theorem eq_of_contains
    {one two : Mapping} {address : Word}
    (oneMember : one ∈ textMappings layout.maps)
    (twoMember : two ∈ textMappings layout.maps)
    (oneContains : one.Contains address)
    (twoContains : two.Contains address) :
    one = two := by
  by_contra different
  have symmetric : Std.Symm fun first second : Mapping =>
      first.limit ≤ second.base ∨ second.limit ≤ first.base :=
    ⟨fun _ _ => Or.symm⟩
  obtain ⟨oneBase, oneLimit⟩ := oneContains
  obtain ⟨twoBase, twoLimit⟩ := twoContains
  rcases layout.apart.forall oneMember twoMember different with
    below | above <;> bv_omega

/-- The last mapping entered as a kind is one of the process. -/
theorem last_mem
    {kind : RegionKind} {last : Mapping}
    (isLast : (layout.entered kind).getLast? = some last) :
    last ∈ textMappings layout.maps :=
  (mem_entered_iff.mp (List.mem_of_getLast? isLast)).1

/-- Every region takes in its end. -/
theorem inRegion_lastEnd (kind : RegionKind) :
    inRegion (layout.regions.bounds kind).1 (layout.regions.bounds kind).2
      (layout.lastEnd kind) = true := by
  rw [regions_bounds, inRegion_iff, lastEnd]
  cases isLast : (layout.entered kind).getLast? with
  | none => exact ⟨BitVec.le_refl _, BitVec.le_refl _⟩
  | some last =>
      exact ⟨BitVec.le_of_lt (layout.ordered last (last_mem isLast)),
        BitVec.le_refl _⟩

/-- Elsewhere a region is the last mapping entered as its kind. -/
theorem inRegion_iff_of_ne
    {kind : RegionKind} {address : Word}
    (notEnd : address ≠ layout.lastEnd kind) :
    inRegion (layout.regions.bounds kind).1 (layout.regions.bounds kind).2
        address = true ↔
      ∃ last, (layout.entered kind).getLast? = some last ∧
        last.Contains address := by
  rw [regions_bounds, inRegion_iff]
  rw [lastEnd] at notEnd
  cases isLast : (layout.entered kind).getLast? with
  | none =>
      rw [isLast] at notEnd
      refine iff_of_false ?_ (by simp)
      rintro ⟨-, atMost⟩
      dsimp only [Option.map_none, Option.getD_none] at notEnd atMost
      bv_omega
  | some last =>
      rw [isLast] at notEnd
      dsimp only [Option.map_some, Option.getD_some] at notEnd ⊢
      constructor
      · rintro ⟨atLeast, atMost⟩
        exact ⟨last, rfl, atLeast, by bv_omega⟩
      · rintro ⟨_, same, contains⟩
        obtain rfl := Option.some.inj same
        exact ⟨contains.1, BitVec.le_of_lt contains.2⟩

/-- What contains the end of a region begins there. -/
theorem contains_lastEnd_iff
    {kind : RegionKind} {mapping : Mapping}
    (member : mapping ∈ textMappings layout.maps) :
    mapping.Contains (layout.lastEnd kind) ↔
      mapping.base = layout.lastEnd kind := by
  have room := layout.ordered mapping member
  constructor
  · rintro ⟨atLeast, below⟩
    rw [lastEnd] at atLeast below ⊢
    cases isLast : (layout.entered kind).getLast? with
    | none =>
        rw [isLast] at atLeast
        dsimp only [Option.map_none, Option.getD_none] at atLeast ⊢
        bv_omega
    | some last =>
        rw [isLast] at atLeast below
        dsimp only [Option.map_some, Option.getD_some] at atLeast below ⊢
        have lastRoom := layout.ordered last (last_mem isLast)
        by_contra different
        have inside : mapping.Contains (last.limit - 1) :=
          ⟨by bv_omega, by bv_omega⟩
        have lastInside : last.Contains (last.limit - 1) :=
          ⟨by bv_omega, by bv_omega⟩
        have same := eq_of_contains member (last_mem isLast) inside lastInside
        rw [same] at below
        exact BitVec.lt_irrefl _ below
  · intro begins
    exact ⟨BitVec.le_of_eq begins, begins ▸ room⟩

/-- The region of a kind stands for the mappings of that kind exactly where it is
clear. -/
theorem inRegion_bounds_iff
    {files : layout.Files} {kind : RegionKind} {address : Word} :
    (inRegion (layout.regions.bounds kind).1 (layout.regions.bounds kind).2
        address = true ↔ InKind files kind address) ↔
      Clear files address kind := by
  rw [Clear]
  split
  · next atEnd =>
      subst atEnd
      rw [iff_true_left (inRegion_lastEnd kind), InKind]
      refine exists_congr fun mapping => and_congr_right fun member => ?_
      exact and_congr_right fun _ => contains_lastEnd_iff member
  · next notEnd =>
      rw [inRegion_iff_of_ne notEnd]
      constructor
      · intro right mapping member contains
        constructor
        · intro owned
          obtain ⟨last, isLast, lastContains⟩ :=
            right.mpr ⟨mapping, member, owned, contains⟩
          rw [isLast, eq_of_contains member (last_mem isLast) contains
            lastContains]
        · intro isLast
          obtain ⟨other, otherMember, owned, otherContains⟩ :=
            right.mp ⟨mapping, isLast.symm, contains⟩
          rwa [eq_of_contains member otherMember contains otherContains]
      · intro clear
        constructor
        · rintro ⟨last, isLast, contains⟩
          have member := last_mem isLast
          exact ⟨last, member,
            (clear last member contains).mpr isLast.symm, contains⟩
        · rintro ⟨mapping, member, owned, contains⟩
          exact ⟨mapping, ((clear mapping member contains).mp owned).symm,
            contains⟩

/-- The mappings entered as a kind before the last one end before that one
begins. -/
theorem limit_le_last
    {kind : RegionKind} {front : List Mapping} {last mapping : Mapping}
    (split : layout.entered kind = front ++ [last])
    (member : mapping ∈ front) :
    mapping.limit ≤ last.base := by
  have sorted : (layout.entered kind).Pairwise fun first second =>
      first.limit ≤ second.base := texts_sorted.filter _
  rw [split, List.pairwise_append] at sorted
  exact sorted.2.2 mapping member last (List.mem_singleton_self _)

/-- Where the names tell whose the files are, an address is clear of a kind unless
it is the end of the last mapping or in an earlier one. -/
theorem clear_iff_of_recognised
    {files : layout.Files}
    (recognised : ∀ mapping ∈ textMappings layout.maps,
      files.owner mapping.file = mapping.enteredAs layout.mainExe)
    (address : Word) (kind : RegionKind) :
    Clear files address kind ↔
      address ≠ layout.lastEnd kind ∧
        ∀ mapping ∈ (layout.entered kind).dropLast,
          ¬mapping.Contains address := by
  have owned : ∀ mapping ∈ textMappings layout.maps,
      (files.owner mapping.file = some kind ↔
        mapping ∈ layout.entered kind) := by
    intro mapping member
    rw [recognised mapping member, mem_entered_iff]
    exact (and_iff_right member).symm
  rcases List.eq_nil_or_concat (layout.entered kind) with
    empty | ⟨front, last, split⟩
  · have noOwner : ∀ mapping ∈ textMappings layout.maps,
        files.owner mapping.file ≠ some kind := by
      intro mapping member
      rw [ne_eq, owned mapping member, empty]
      exact List.not_mem_nil
    rw [Clear, empty]
    split_ifs with atEnd
    · refine iff_of_false ?_ fun both => both.1 atEnd
      rintro ⟨mapping, member, isOwner, -⟩
      exact noOwner mapping member isOwner
    · refine iff_of_true (fun mapping member _ => ?_) ⟨atEnd, by simp⟩
      simp [noOwner mapping member]
  · rw [List.concat_eq_append] at split
    have lastEntered : last ∈ layout.entered kind := by
      rw [split]
      exact List.mem_append_right _ (List.mem_singleton_self _)
    have lastRoom := layout.ordered last (mem_entered_iff.mp lastEntered).1
    have isEnd : layout.lastEnd kind = last.limit := by
      simp [lastEnd, split]
    rw [Clear, split, List.getLast?_concat, List.dropLast_concat]
    split_ifs with atEnd
    · refine iff_of_false ?_ fun both => both.1 atEnd
      rintro ⟨mapping, member, isOwner, begins⟩
      rw [owned mapping member, split] at isOwner
      rw [atEnd, isEnd] at begins
      rcases List.mem_append.mp isOwner with early | isLast
      · have ends := limit_le_last split early
        have room := layout.ordered mapping member
        bv_omega
      · rw [List.mem_singleton.mp isLast] at begins
        bv_omega
    · constructor
      · intro clear
        refine ⟨atEnd, fun mapping early contains => ?_⟩
        have entered : mapping ∈ layout.entered kind := by
          rw [split]
          exact List.mem_append_left _ early
        have member := (mem_entered_iff.mp entered).1
        have isLast := (clear mapping member contains).mp
          ((owned mapping member).mpr entered)
        have ends := limit_le_last split early
        rw [Option.some.inj isLast] at ends
        bv_omega
      · rintro ⟨-, notEarly⟩ mapping member contains
        rw [owned mapping member, split, List.mem_append,
          List.mem_singleton, Option.some.injEq]
        exact or_iff_right fun early => notEarly mapping early contains

/-- No address is in mappings of two kinds. -/
theorem InKind.unique
    {files : layout.Files} {first second : RegionKind} {address : Word}
    (inFirst : InKind files first address)
    (inSecond : InKind files second address) :
    first = second := by
  obtain ⟨one, oneMember, oneKind, oneContains⟩ := inFirst
  obtain ⟨two, twoMember, twoKind, twoContains⟩ := inSecond
  rw [eq_of_contains oneMember twoMember oneContains twoContains,
    twoKind] at oneKind
  exact (Option.some.inj oneKind).symm

/-- An address is classified right exactly if it is clear of the thread library,
libc and the main executable. -/
theorem classifiedRight_iff (layout : DisjointMaps) (files : layout.Files)
    (address : Word) :
    ClassifiedRight files address ↔
      Clear files address .libthread ∧ Clear files address .libc ∧
        Clear files address .appText := by
  rw [← inRegion_bounds_iff, ← inRegion_bounds_iff, ← inRegion_bounds_iff]
  constructor
  · exact fun right => ⟨right.libthread, right.libc, right.appText⟩
  · rintro ⟨libthread, libc, appText⟩
    refine ⟨libthread, libc, appText, ?_, ?_, ?_⟩
    · rintro ⟨one, two⟩
      cases (libthread.mp one).unique (libc.mp two)
    · rintro ⟨one, two⟩
      cases (libthread.mp one).unique (appText.mp two)
    · rintro ⟨one, two⟩
      cases (libc.mp one).unique (appText.mp two)

end DisjointMaps

/-- The main executable lies right behind libc. -/
def behindLibc : DisjointMaps where
  maps :=
    [⟨0x401000, 0x402000, true, false, true, "/a".toList⟩,
      ⟨0x400000, 0x401000, true, false, true, "/libc-2.31.so".toList⟩]
  ordered := by decide
  apart := by decide

/-- Both files are what they are called. -/
def behindLibcFiles : behindLibc.Files where
  owner := fun file =>
    if file = "/a".toList then some .appText
    else if file = "/libc-2.31.so".toList then some .libc
    else none
  appText := by
    intro file
    change _ ↔ file = "/a".toList
    split_ifs with first second
    · simp [first]
    all_goals exact iff_of_false (by simp) first

/-- The first byte of the main executable is taken for one of libc. -/
theorem behindLibc_base :
    ¬DisjointMaps.ClassifiedRight behindLibcFiles 0x401000 := by
  intro right
  have isLibc : behindLibc.regions.isLibcLibrary 0x401000 = true := by
    decide +kernel
  have isApplication : behindLibc.regions.isApplication 0x401000 = true := by
    decide +kernel
  exact right.libc_appText ⟨isLibc, isApplication⟩

end Causer
