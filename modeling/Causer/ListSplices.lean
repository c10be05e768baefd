import Causer.Library.Ring

/-!
# Splices of whole lists

Three operations move all nodes of a ring at once.  Each rewrites the four
pointers at the two joints.
-/

namespace Causer

open Ring

variable {Node : Type*}

section Operations

variable [DecidableEq Node] (links : Links Node)

/-- `__list_link`. -/
def listLink (p n : Node) : Links Node := link links p n

/-- `listInsertList`: the second link reads pointers that the first one has
written. -/
def listInsertList (list place : Node) : Links Node :=
  let linked := listLink links place list
  listLink linked (linked.prev list) (linked.next place)

/-- `listInsertListTail`. -/
def listInsertListTail (list place : Node) : Links Node :=
  let linked := listLink links (links.prev place) (links.next list)
  listLink linked (linked.prev list) place

/-- `listRetrieveAllItems`. -/
def listRetrieveAllItems (dest src : Node) : Links Node :=
  let first := links.next src
  let last := links.prev src
  nodeInit
    ((((links.setPrev first dest).setNext last dest).setNext dest first).setPrev
      dest last) src

end Operations

variable [DecidableEq Node] {links : Links Node} {head place list : Node}
  {items others : List Node}

/-- The second link writes what is already there. -/
theorem listInsertList_eq
    (links : Links Node) (list place : Node) :
    listInsertList links list place = link links place list := by
  have sameNext : (listInsertList links list place).next =
      (link links place list).next := by
    ext node
    by_cases same : node = place <;>
      simp [listInsertList, listLink, link_next, link_prev, same]
  have samePrev : (listInsertList links list place).prev =
      (link links place list).prev := by
    ext node
    by_cases same : node = list <;>
      simp [listInsertList, listLink, link_next, link_prev, same]
  cases spliced : listInsertList links list place
  cases linked : link links place list
  simp_all

/-- The successors of the inserted ring stay inside it. -/
theorem listInsertList_next_mem
    {node : Node}
    (ring : IsRing links list others)
    (apart : place ∉ list :: others)
    (member : node ∈ list :: others) :
    (listInsertList links list place).next node ∈ list :: others := by
  have different : node ≠ place := fun same => apart (same ▸ member)
  have cycle : IsCycle links (list :: others) := ring
  rw [listInsertList_eq, link_next, if_neg different]
  exact cycle.next_mem member

/-- A traversal that enters the inserted ring never comes back. -/
theorem traverse_listInsertList
    {node : Node}
    (ring : IsRing links list others)
    (apart : place ∉ list :: others)
    (member : node ∈ list :: others)
    (fuel : Nat) :
    traverse (listInsertList links list place) place fuel node = none := by
  induction fuel generalizing node with
  | zero => rfl
  | succ fuel inductionHypothesis =>
      have inside := listInsertList_next_mem ring apart member
      have onward : isTail (listInsertList links list place) node place =
          false := by
        rw [isTail, decide_eq_false_iff_not]
        exact fun back => apart (back ▸ inside)
      rw [Ring.traverse, onward, inductionHypothesis inside]
      rfl

/-- No ring is left through the place. -/
theorem listInsertList_no_ring
    (ring : IsRing links list others)
    (apart : place ∉ list :: others)
    (nodes : List Node) :
    ¬IsRing (listInsertList links list place) place nodes := by
  intro spliced
  have next : (listInsertList links list place).next place = list := by
    rw [listInsertList_eq, link_next, if_pos rfl]
  cases nodes with
  | nil =>
      have back : list = place := next.symm.trans spliced.linked_next.next
      exact apart (back ▸ List.mem_cons_self)
  | cons first rest =>
      have visited := spliced.traverse_eq (List.cons_ne_nil _ _) le_rfl
      rw [next, traverse_listInsertList ring apart List.mem_cons_self]
        at visited
      cases visited

/-- The list never stands between the place and its former successor. -/
theorem not_isRing_listInsertList
    (_inside : IsRing links place items)
    (ring : IsRing links list others)
    (disjoint : (place :: items).Disjoint (list :: others)) :
    ¬IsRing (listInsertList links list place) place
      (list :: others ++ items) :=
  listInsertList_no_ring ring (fun member =>
    disjoint List.mem_cons_self member) _

def itemsLinks : Links Nat := insertTail (insertTail ⟨id, id⟩ 1 0) 3 2

theorem itemsLinks_first : IsRing itemsLinks 0 [1] := by
  have first : IsRing (insertTail ⟨id, id⟩ 1 0) 0 [1] :=
    (isRing_self 0).insertTail (by decide)
  have second : IsRing (insertTail ⟨id, id⟩ 1 0) 2 [] :=
    (isRing_self 0).insertTail_apart (isRing_self 2) (by decide) (by simp)
  exact second.insertTail_apart first (by decide) (by simp)

theorem itemsLinks_second : IsRing itemsLinks 2 [3] := by
  have second : IsRing (insertTail ⟨id, id⟩ 1 0) 2 [] :=
    (isRing_self 0).insertTail_apart (isRing_self 2) (by decide) (by simp)
  exact second.insertTail (by decide)

theorem not_isRing_itemsLinks :
    ¬IsRing (listInsertList itemsLinks 2 0) 0 [2, 3, 1] :=
  not_isRing_listInsertList itemsLinks_first itemsLinks_second (by simp)

/-- The last item is linked back to the head of the inserted list. -/
theorem exists_not_isRing_listInsertList :
    ¬∀ (links : Links Nat) (place list : Nat) (items others : List Nat),
      IsRing links place items → IsRing links list others →
        (place :: items).Disjoint (list :: others) →
          IsRing (listInsertList links list place) place
            (list :: others ++ items) := by
  intro claim
  have chain := (claim itemsLinks 0 2 [1] [3] itemsLinks_first
    itemsLinks_second (by simp)).chain
  simp only [List.cons_append, List.nil_append, List.isChain_cons_cons]
    at chain
  have next : (listInsertList itemsLinks 2 0).next 3 = 2 := by decide
  rw [chain.2.2.1.next] at next
  cases next

/-- Without items the links at the place are written as they were. -/
theorem listInsertListTail_alone
    (inside : IsRing links place items)
    (alone : IsRing links list [])
    (disjoint : (place :: items).Disjoint (list :: [])) :
    IsRing (listInsertListTail links list place) place items := by
  have linked := inside.linked_head
  have apart : ∀ node ∈ place :: items, node ≠ list := by
    rintro node member rfl
    exact disjoint member List.mem_cons_self
  have selfNext : links.next list = list := alone.linked_next.next
  apply inside.congr
  · intro node member
    rw [listInsertListTail, listLink, listLink, selfNext, link_next, link_prev,
      if_pos rfl, link_next]
    by_cases last : node = links.prev place
    · rw [if_pos last, last, linked.prev, linked.next]
    · rw [if_neg last, if_neg last]
  · intro node member
    rw [listInsertListTail, listLink, listLink, selfNext, link_prev, link_prev,
      if_pos rfl, link_prev, if_neg (apart node member)]
    by_cases same : node = place
    · rw [if_pos same, same]
    · rw [if_neg same]

/-- The items stand just before the place. -/
theorem listInsertListTail_cons
    {first : Node} {rest : List Node}
    (inside : IsRing links place items)
    (ring : IsRing links list (first :: rest))
    (disjoint : (place :: items).Disjoint (list :: first :: rest)) :
    IsRing (listInsertListTail links list place) place
      (items ++ first :: rest) := by
  have listFirst : list ≠ first := fun same =>
    ring.head_not_mem (same ▸ List.mem_cons_self)
  have nodup : (place :: items ++ first :: rest).Nodup :=
    inside.nodup.append (List.nodup_cons.mp ring.nodup).2 fun _ member others =>
      disjoint member (List.mem_cons_of_mem _ others)
  have joined := isRing_link_link inside.open_chain ring.open_chain.tail nodup
  rw [listInsertListTail, listLink, listLink, link_prev, ring.next_head,
    if_neg listFirst, inside.prev_head, ring.prev_head,
    List.getLast_cons (List.cons_ne_nil _ _)]
  exact joined

/-- The moved items are joined to the head by two links. -/
theorem listRetrieveAllItems_eq
    {dest src : Node}
    (different : links.prev src ≠ dest) :
    listRetrieveAllItems links dest src =
      nodeInit (link (link links dest (links.next src)) (links.prev src) dest)
        src := by
  rw [listRetrieveAllItems, link, link]
  simp only [Links.setNext, Links.setPrev]
  rw [Function.update_comm different]

/-- An empty head gets the items of a list that has some. -/
theorem listRetrieveAllItems_cons
    {first : Node} {rest : List Node}
    (ring : IsRing links list (first :: rest))
    (absent : head ∉ list :: first :: rest) :
    IsRing (listRetrieveAllItems links head list) head (first :: rest) := by
  have last := ring.prev_head
  have lastMember := List.getLast_mem (List.cons_ne_nil first rest)
  rw [List.getLast_cons (List.cons_ne_nil _ _)] at last
  rw [List.mem_cons, not_or] at absent
  have different : links.prev list ≠ head := fun same =>
    absent.2 (same ▸ last ▸ lastMember)
  have nodup : ([head] ++ first :: rest).Nodup :=
    List.nodup_cons.mpr ⟨absent.2, (List.nodup_cons.mp ring.nodup).2⟩
  have joined : IsRing _ head ([] ++ first :: rest) :=
    isRing_link_link (.singleton head) ring.open_chain.tail nodup
  rw [listRetrieveAllItems_eq different, ring.next_head, last]
  refine joined.nodeInit ?_
  rw [List.nil_append, List.mem_cons, not_or]
  exact ⟨Ne.symm absent.1, ring.head_not_mem⟩

/-- The source of a retrieval is an empty list. -/
theorem isRing_listRetrieveAllItems
    (links : Links Node) (dest src : Node) :
    IsRing (listRetrieveAllItems links dest src) src [] :=
  isRing_nodeInit _ _

/-- An empty source is taken for an item. -/
theorem listRetrieveAllItems_nil
    (alone : IsRing links list [])
    (different : head ≠ list) :
    ¬IsRing (listRetrieveAllItems links head list) head [] := by
  have next : (listRetrieveAllItems links head list).next head = list := by
    simp [listRetrieveAllItems, nodeInit, different,
      alone.linked_next.next]
  intro empty
  exact different (empty.linked_next.next.symm.trans next)

/-- The two moves do what they are for. -/
structure Moves (links : Links Node) (first second : Node)
    (items others : List Node) : Prop where
  /-- The items of the second list stand just before the head of the first. -/
  inserted : IsRing (listInsertListTail links second first) first
    (items ++ others)
  /-- An empty first list gets the items of the second one. -/
  retrieved : items = [] →
    IsRing (listRetrieveAllItems links first second) first others ∧
      IsRing (listRetrieveAllItems links first second) second []

/-- The moves fail exactly when nothing is retrieved from an empty list. -/
theorem moves_iff
    (first second : Node)
    (inside : IsRing links first items)
    (ring : IsRing links second others)
    (disjoint : (first :: items).Disjoint (second :: others)) :
    Moves links first second items others ↔ (items = [] → others ≠ []) := by
  have different : first ≠ second := fun same =>
    disjoint List.mem_cons_self (same ▸ List.mem_cons_self)
  cases others with
  | nil =>
      constructor
      · intro moves empty
        exact absurd (moves.retrieved empty).1
          (listRetrieveAllItems_nil ring different)
      · intro nonempty
        refine ⟨?_, fun empty => absurd rfl (nonempty empty)⟩
        rw [List.append_nil]
        exact listInsertListTail_alone inside ring disjoint
  | cons item rest =>
      refine ⟨fun _ _ => List.cons_ne_nil _ _, fun _ => ⟨?_, fun _ => ⟨?_, ?_⟩⟩⟩
      · exact listInsertListTail_cons inside ring disjoint
      · exact listRetrieveAllItems_cons ring fun member =>
          disjoint List.mem_cons_self member
      · exact isRing_listRetrieveAllItems links first second

/-- An empty list, and one of two items. -/
def twoItemsLinks : Links Nat := insertTail (insertTail ⟨id, id⟩ 2 1) 3 1

theorem twoItemsLinks_first : IsRing twoItemsLinks 0 [] := by
  have first : IsRing (insertTail ⟨id, id⟩ 2 1) 0 [] :=
    (isRing_self 1).insertTail_apart (isRing_self 0) (by decide) (by simp)
  have second : IsRing (insertTail ⟨id, id⟩ 2 1) 1 [2] :=
    (isRing_self 1).insertTail (by decide)
  exact second.insertTail_apart first (by decide) (by simp)

theorem twoItemsLinks_second : IsRing twoItemsLinks 1 [2, 3] := by
  have second : IsRing (insertTail ⟨id, id⟩ 2 1) 1 [2] :=
    (isRing_self 1).insertTail (by decide)
  exact second.insertTail (by decide)

/-- Both items are moved, and both are retrieved. -/
theorem moves_twoItemsLinks : Moves twoItemsLinks 0 1 [] [2, 3] :=
  (moves_iff 0 1 twoItemsLinks_first twoItemsLinks_second (by simp)).mpr
    fun _ => List.cons_ne_nil _ _

/-- The empty list is moved into another one. -/
theorem exists_not_moves :
    ¬∀ (links : Links Nat) (first second : Nat) (items others : List Nat),
      IsRing links first items → IsRing links second others →
        (first :: items).Disjoint (second :: others) →
          Moves links first second items others := by
  intro claim
  have moves := claim ⟨id, id⟩ 0 1 [] [] (isRing_self 0) (isRing_self 1)
    (by simp)
  exact listRetrieveAllItems_nil (isRing_self 1) Nat.zero_ne_one
    (moves.retrieved rfl).1

end Causer
