import Causer.Library.Ring

/-!
# The lists

A list is a ring of nodes through a head.  Rings lie next to each other in
memory, and an operation on one of them writes pointers of that ring and of the
node that it adds, and no others.  So a heap of disjoint rings stays one, and
exactly one of the sequences that it stands for changes.
-/

namespace Causer

open Ring

variable {Node : Type*}

section Operations

variable [DecidableEq Node] (links : Links Node)

/-- `isListEmpty`. -/
def isListEmpty (head : Node) : Bool := decide (links.next head = head)

/-- `nextEntry`. -/
def nextEntry (cur : Node) : Node := links.next cur

/-- `tailList`. -/
def tailList (head : Node) : Option Node :=
  if isListEmpty links head then none else some (links.prev head)

/-- `listInsertNode`. -/
def listInsertNode (node prev : Node) : Links Node :=
  insertBetween links node prev (links.next prev)

/-- `listInsertTail`. -/
def listInsertTail (node head : Node) : Links Node :=
  insertBetween links node (links.prev head) head

/-- `listInsertHead`. -/
def listInsertHead (node head : Node) : Links Node :=
  insertBetween links node head (links.next head)

/-- `listRemoveNode`. -/
def listRemoveNode (node : Node) : Links Node := removeNode links node

/-- `isListTail`. -/
def isListTail (node head : Node) : Bool := isTail links node head

/-- `listRetrieveItem`: the first item, if there is one. -/
def listRetrieveItem (list : Node) : Option Node × Links Node :=
  if isListEmpty links list then (none, links)
  else (some (links.next list), listRemoveNode links (links.next list))

end Operations

/-- Disjoint rings in memory, each entered at its head. -/
structure ListHeap (Node : Type*) where
  links : Links Node
  rings : List (List Node)
  cycles : ∀ ring ∈ rings, IsCycle links ring
  nodup : rings.flatten.Nodup

/-- Lists without a common node are disjoint. -/
theorem disjoint_of_flatten
    {ring other : List Node} {before after : List (List Node)}
    (nodup : (before ++ ring :: after).flatten.Nodup)
    (inside : other ∈ before ++ after) :
    ring.Disjoint other := by
  rw [List.flatten_append, List.flatten_cons, List.nodup_append,
    List.nodup_append] at nodup
  obtain ⟨-, ⟨-, -, apartAfter⟩, apartBefore⟩ := nodup
  intro node inRing inOther
  rcases List.mem_append.mp inside with inBefore | inAfter
  · exact apartBefore node (List.mem_flatten_of_mem inBefore inOther) node
      (List.mem_append_left _ inRing) rfl
  · exact apartAfter node inRing node
      (List.mem_flatten_of_mem inAfter inOther) rfl

namespace ListHeap

variable {heap : ListHeap Node} {place : Node} {left right : List Node}
  {before after : List (List Node)}

/-- A node of the heap has a place in one of the rings. -/
theorem exists_split
    (member : place ∈ heap.rings.flatten) :
    ∃ before left right after,
      heap.rings = before ++ (left ++ place :: right) :: after := by
  obtain ⟨ring, inside, inRing⟩ := List.mem_flatten.mp member
  obtain ⟨before, after, split⟩ := List.append_of_mem inside
  obtain ⟨left, right, rfl⟩ := List.append_of_mem inRing
  exact ⟨before, left, right, after, split⟩

/-- Every node is well linked. -/
theorem prev_next_and_next_prev
    (member : place ∈ heap.rings.flatten) :
    heap.links.prev (heap.links.next place) = place ∧
      heap.links.next (heap.links.prev place) = place := by
  obtain ⟨ring, inside, inRing⟩ := List.mem_flatten.mp member
  have cycle := heap.cycles ring inside
  exact ⟨cycle.prev_next inRing, cycle.next_prev inRing⟩

/-- The other rings are disjoint from one of the rings. -/
theorem disjoint_of_split
    {ring other : List Node}
    (split : heap.rings = before ++ ring :: after)
    (inside : other ∈ before ++ after) :
    ring.Disjoint other :=
  disjoint_of_flatten (split ▸ heap.nodup) inside

/-- A node stands once in its ring. -/
theorem not_mem_left
    (split : heap.rings = before ++ (left ++ place :: right) :: after) :
    place ∉ left ∧ place ∉ right := by
  have inside : left ++ place :: right ∈ heap.rings := by simp [split]
  have nodup := (heap.cycles _ inside).nodup
  rw [List.nodup_append, List.nodup_cons] at nodup
  exact ⟨fun member => nodup.2.2 place member place List.mem_cons_self rfl,
    nodup.2.1.1⟩

/-- The rings without the node stay. -/
theorem others_of_keeps
    {next : ListHeap Node} {ring touched : List Node} {place : Node}
    (split : heap.rings = before ++ ring :: after)
    (member : place ∈ ring)
    (touches : ∀ node ∈ touched, node ∈ ring ∨ node ∉ heap.rings.flatten)
    (keeps : Keeps heap.links next.links touched)
    (stays : ∀ other ∈ before ++ after, other ∈ next.rings) :
    ∀ other ∈ heap.rings, place ∉ other → other ∈ next.rings ∧
      ∀ node ∈ other, next.links.next node = heap.links.next node ∧
        next.links.prev node = heap.links.prev node := by
  intro other inHeap absent
  have inOthers : other ∈ before ++ after := by
    have inSplit := inHeap
    rw [split, List.mem_append, List.mem_cons] at inSplit
    rw [List.mem_append]
    rcases inSplit with inBefore | rfl | inAfter
    · exact Or.inl inBefore
    · exact absurd member absent
    · exact Or.inr inAfter
  refine ⟨stays other inOthers, fun node inOther => keeps node fun touched => ?_⟩
  rcases touches node touched with inRing | fresh
  · exact disjoint_of_split split inOthers inRing inOther
  · exact fresh (List.mem_flatten_of_mem inHeap inOther)

end ListHeap

variable [DecidableEq Node]

/-- The calls that change a list. -/
inductive ListCall (Node : Type*)
  | listInsertNode (node prev : Node)
  | listInsertTail (node head : Node)
  | listInsertHead (node head : Node)
  | listRemoveNode (node : Node)
  | listRetrieveItem (list : Node)

/-- Put an element behind another one. -/
def insertAfter (place node : Node) : List Node → List Node
  | [] => []
  | first :: rest =>
      if first = place then first :: node :: rest
      else first :: insertAfter place node rest

/-- Change the ring of a node. -/
def changeRing (place : Node) (change : List Node → List Node)
    (rings : List (List Node)) : List (List Node) :=
  rings.map fun ring => if place ∈ ring then change ring else ring

/-- Take a node out of its ring and make it one of its own. -/
def takeOut (node : Node) (rings : List (List Node)) : List (List Node) :=
  [node] :: (changeRing node (·.erase node) rings).filter (· ≠ [])

namespace ListCall

/-- What a call returns and what it makes of the links. -/
def perform (links : Links Node) : ListCall Node → Option Node × Links Node
  | listInsertNode node prev => (none, Causer.listInsertNode links node prev)
  | listInsertTail node head => (none, Causer.listInsertTail links node head)
  | listInsertHead node head => (none, Causer.listInsertHead links node head)
  | listRemoveNode node => (none, Causer.listRemoveNode links node)
  | listRetrieveItem list => Causer.listRetrieveItem links list

/-- The operation on sequences that the call stands for. -/
def specify (rings : List (List Node)) :
    ListCall Node → Option Node × List (List Node)
  | listInsertNode node prev =>
      (none, changeRing prev (insertAfter prev node) rings)
  | listInsertTail node head => (none, changeRing head (· ++ [node]) rings)
  | listInsertHead node head =>
      (none, changeRing head (fun ring => head :: node :: ring.tail) rings)
  | listRemoveNode node => (none, takeOut node rings)
  | listRetrieveItem list =>
      match rings.find? fun ring => list ∈ ring with
      | some (_ :: first :: _) => (some first, takeOut first rings)
      | _ => (none, rings)

/-- The node whose list is concerned. -/
def place : ListCall Node → Node
  | listInsertNode _ prev => prev
  | listInsertTail _ head => head
  | listInsertHead _ head => head
  | listRemoveNode node => node
  | listRetrieveItem list => list

/-- An insertion is of a node outside every list, and heads are heads. -/
def Allowed (rings : List (List Node)) : ListCall Node → Prop
  | listInsertNode node prev => node ∉ rings.flatten ∧ prev ∈ rings.flatten
  | listInsertTail node head =>
      node ∉ rings.flatten ∧ ∃ items, head :: items ∈ rings
  | listInsertHead node head =>
      node ∉ rings.flatten ∧ ∃ items, head :: items ∈ rings
  | listRemoveNode node => node ∈ rings.flatten
  | listRetrieveItem list => ∃ items, list :: items ∈ rings

end ListCall

/-- The queries answer as on the sequences. -/
structure Answers (links : Links Node) (rings : List (List Node)) : Prop where
  isListEmpty : ∀ head items, head :: items ∈ rings →
    Causer.isListEmpty links head = items.isEmpty
  tailList : ∀ head items, head :: items ∈ rings →
    Causer.tailList links head = items.getLast?
  isListTail : ∀ head items, head :: items ∈ rings →
    ∀ node ∈ rings.flatten,
      Causer.isListTail links node head = true ↔
        (head :: items).getLast? = some node
  nextEntry : ∀ left cur right, left ++ cur :: right ∈ rings →
    Causer.nextEntry links cur = (right ++ left).headD cur

/-- What a call makes of a heap. -/
structure Performed (heap : ListHeap Node) (call : ListCall Node)
    (next : ListHeap Node) : Prop where
  returned : (call.perform heap.links).1 = (call.specify heap.rings).1
  links : next.links = (call.perform heap.links).2
  rings : next.rings = (call.specify heap.rings).2
  others : ∀ ring ∈ heap.rings, call.place ∉ ring → ring ∈ next.rings ∧
    ∀ node ∈ ring, next.links.next node = heap.links.next node ∧
      next.links.prev node = heap.links.prev node

section Sequences

variable {place node : Node} {left right : List Node}
  {before after : List (List Node)}

theorem insertAfter_split
    (absent : place ∉ left) :
    insertAfter place node (left ++ place :: right) =
      left ++ place :: node :: right := by
  induction left with
  | nil => simp [insertAfter]
  | cons first left inductionHypothesis =>
      rw [List.mem_cons, not_or] at absent
      rw [List.cons_append, insertAfter, if_neg (Ne.symm absent.1),
        inductionHypothesis absent.2]
      rfl

theorem erase_split
    (absent : place ∉ left) :
    (left ++ place :: right).erase place = left ++ right := by
  rw [List.erase_append_right _ absent, List.erase_cons_head]

/-- Only the ring of the node is changed. -/
theorem changeRing_split
    {ring : List Node} {change : List Node → List Node}
    (nodup : (before ++ ring :: after).flatten.Nodup)
    (member : place ∈ ring) :
    changeRing place change (before ++ ring :: after) =
      before ++ change ring :: after := by
  have keeps : ∀ others : List (List Node), others ⊆ before ++ after →
      (others.map fun ring => if place ∈ ring then change ring else ring) =
        others := by
    intro others inside
    rw [List.map_congr_left fun other inOthers =>
      if_neg fun inOther =>
        disjoint_of_flatten nodup (inside inOthers) member inOther]
    exact List.map_id' others
  rw [changeRing, List.map_append, List.map_cons, if_pos member,
    keeps before (List.subset_append_left ..),
    keeps after (List.subset_append_right ..)]

/-- The ring of a node is found. -/
theorem find_split
    {ring : List Node}
    (nodup : (before ++ ring :: after).flatten.Nodup)
    (member : place ∈ ring) :
    (before ++ ring :: after).find? (fun ring => place ∈ ring) =
      some ring := by
  rw [List.find?_eq_some_iff_append]
  refine ⟨decide_eq_true member, before, after, rfl, ?_⟩
  intro other inBefore
  have absent : place ∉ other := fun inOther =>
    disjoint_of_flatten nodup (List.mem_append_left _ inBefore) member inOther
  simp [absent]

end Sequences

namespace ListHeap

variable {heap : ListHeap Node} {place node : Node} {left right : List Node}
  {before after : List (List Node)}

/-- An insertion behind a node of the heap. -/
theorem exists_inserted
    (split : heap.rings = before ++ (left ++ place :: right) :: after)
    (fresh : node ∉ heap.rings.flatten) :
    ∃ next : ListHeap Node,
      next.links = Causer.listInsertNode heap.links node place ∧
        next.rings = before ++ (left ++ place :: node :: right) :: after ∧
        Keeps heap.links next.links (node :: (left ++ place :: right)) := by
  have inside : left ++ place :: right ∈ heap.rings := by simp [split]
  have cycle := heap.cycles _ inside
  have member : place ∈ left ++ place :: right := by simp
  have absent : node ∉ left ++ place :: right := fun inRing =>
    fresh (List.mem_flatten_of_mem inside inRing)
  have keeps : Keeps heap.links (Causer.listInsertNode heap.links node place)
      (node :: (left ++ place :: right)) :=
    keeps_insertBetween List.mem_cons_self (List.mem_cons_of_mem _ member)
      (List.mem_cons_of_mem _ (cycle.next_mem member))
  refine ⟨⟨_, before ++ (left ++ place :: node :: right) :: after, ?_, ?_⟩,
    rfl, rfl, keeps⟩
  · intro ring inNew
    rw [List.mem_append, List.mem_cons] at inNew
    have kept : ring ∈ before ++ after →
        IsCycle (Causer.listInsertNode heap.links node place) ring := by
      intro inOthers
      have inHeap : ring ∈ heap.rings := by
        rw [split]
        simp only [List.mem_append, List.mem_cons] at inOthers ⊢
        tauto
      refine (heap.cycles ring inHeap).keeps keeps ?_
      rw [List.disjoint_cons_left]
      exact ⟨fun inRing => fresh (List.mem_flatten_of_mem inHeap inRing),
        disjoint_of_split split inOthers⟩
    rcases inNew with inBefore | rfl | inAfter
    · exact kept (List.mem_append_left _ inBefore)
    · exact cycle.insert absent
    · exact kept (List.mem_append_right _ inAfter)
  · have nodup := List.nodup_cons.mpr ⟨fresh, heap.nodup⟩
    refine (List.Perm.nodup_iff ?_).mp nodup
    have moved : (before.flatten ++ left ++ [place] ++
        node :: (right ++ after.flatten)).Perm
          (node :: (before.flatten ++ left ++ [place] ++
            (right ++ after.flatten))) := List.perm_middle
    rw [split]
    simpa using moved.symm

/-- What taking a node out makes of the rings. -/
theorem takeOut_split
    (split : heap.rings = before ++ (left ++ place :: right) :: after) :
    takeOut place heap.rings =
      [place] :: (before ++ (left ++ right) :: after).filter (· ≠ []) := by
  have nodup := heap.nodup
  rw [split] at nodup
  rw [takeOut, split, changeRing_split nodup (by simp),
    erase_split (not_mem_left split).1]

/-- A removal of a node of the heap. -/
theorem exists_removed
    (split : heap.rings = before ++ (left ++ place :: right) :: after) :
    ∃ next : ListHeap Node,
      next.links = Causer.listRemoveNode heap.links place ∧
        next.rings = takeOut place heap.rings ∧
        Keeps heap.links next.links (left ++ place :: right) := by
  have inside : left ++ place :: right ∈ heap.rings := by simp [split]
  have cycle := heap.cycles _ inside
  have member : place ∈ left ++ place :: right := by simp
  have keeps : Keeps heap.links (Causer.listRemoveNode heap.links place)
      (left ++ place :: right) :=
    keeps_removeNode member (cycle.prev_mem member) (cycle.next_mem member)
  refine ⟨⟨_, takeOut place heap.rings, ?_, ?_⟩, rfl, rfl, keeps⟩
  · intro ring inNew
    rw [takeOut_split split, List.mem_cons, List.mem_filter, List.mem_append,
      List.mem_cons, decide_eq_true_iff] at inNew
    have kept : ring ∈ before ++ after →
        IsCycle (Causer.listRemoveNode heap.links place) ring := by
      intro inOthers
      have inHeap : ring ∈ heap.rings := by
        rw [split]
        simp only [List.mem_append, List.mem_cons] at inOthers ⊢
        tauto
      exact (heap.cycles ring inHeap).keeps keeps
        (disjoint_of_split split inOthers)
    rcases inNew with rfl | ⟨inBefore | rfl | inAfter, nonempty⟩
    · exact isRing_removeNode heap.links place
    · exact kept (List.mem_append_left _ inBefore)
    · exact cycle.remove nonempty
    · exact kept (List.mem_append_right _ inAfter)
  · have nodup := heap.nodup
    have moved : (before.flatten ++ left ++
        place :: (right ++ after.flatten)).Perm
          (place :: (before.flatten ++ left ++
            (right ++ after.flatten))) := List.perm_middle
    rw [takeOut_split split, List.flatten_cons, List.flatten_filter_ne_nil]
    refine (List.Perm.nodup_iff ?_).mp nodup
    rw [split]
    simpa using moved

end ListHeap

namespace ListHeap

variable {heap : ListHeap Node} {call : ListCall Node}
  {place node head : Node} {left right items : List Node}
  {before after : List (List Node)}

/-- A call that puts a node behind another one. -/
theorem performed_insert
    (split : heap.rings = before ++ (left ++ place :: right) :: after)
    (fresh : node ∉ heap.rings.flatten)
    (performs : call.perform heap.links =
      (none, Causer.listInsertNode heap.links node place))
    (specifies : call.specify heap.rings =
      (none, before ++ (left ++ place :: node :: right) :: after))
    (concerns : call.place ∈ left ++ place :: right) :
    ∃ next, Performed heap call next := by
  obtain ⟨next, links, rings, keeps⟩ := exists_inserted split fresh
  refine ⟨next, ?_, ?_, ?_, ?_⟩
  · rw [performs, specifies]
  · rw [links, performs]
  · rw [rings, specifies]
  · refine others_of_keeps split concerns ?_ keeps ?_
    · intro touched member
      rcases List.mem_cons.mp member with rfl | inRing
      · exact Or.inr fresh
      · exact Or.inl inRing
    · intro other inOthers
      rw [rings]
      simp only [List.mem_append, List.mem_cons] at inOthers ⊢
      tauto

/-- A call that takes a node out of its list. -/
theorem performed_remove
    {returned : Option Node}
    (split : heap.rings = before ++ (left ++ place :: right) :: after)
    (performs : call.perform heap.links =
      (returned, Causer.listRemoveNode heap.links place))
    (specifies : call.specify heap.rings =
      (returned, takeOut place heap.rings))
    (concerns : call.place ∈ left ++ place :: right) :
    ∃ next, Performed heap call next := by
  obtain ⟨next, links, rings, keeps⟩ := exists_removed split
  refine ⟨next, ?_, ?_, ?_, ?_⟩
  · rw [performs, specifies]
  · rw [links, performs]
  · rw [rings, specifies]
  · refine others_of_keeps split concerns (fun _ => Or.inl) keeps ?_
    intro other inOthers
    have nonempty : other ≠ [] := by
      rintro rfl
      refine heap.cycles [] ?_
      rw [split]
      simp only [List.mem_append, List.mem_cons] at inOthers ⊢
      tauto
    rw [rings, takeOut_split split, List.mem_cons, List.mem_filter]
    refine Or.inr ⟨?_, decide_eq_true nonempty⟩
    simp only [List.mem_append, List.mem_cons] at inOthers ⊢
    tauto

theorem performed_listInsertNode
    (fresh : node ∉ heap.rings.flatten)
    (member : place ∈ heap.rings.flatten) :
    ∃ next, Performed heap (.listInsertNode node place) next := by
  obtain ⟨before, left, right, after, split⟩ := exists_split member
  have nodup := heap.nodup
  rw [split] at nodup
  have inside : place ∈ left ++ place :: right := by simp
  refine performed_insert split fresh rfl ?_ inside
  rw [ListCall.specify, split, changeRing_split nodup inside,
    insertAfter_split (not_mem_left split).1]

theorem performed_listInsertHead
    (fresh : node ∉ heap.rings.flatten)
    (member : head :: items ∈ heap.rings) :
    ∃ next, Performed heap (.listInsertHead node head) next := by
  obtain ⟨before, after, split⟩ := List.append_of_mem member
  have nodup := heap.nodup
  rw [split] at nodup
  have first : heap.rings = before ++ ([] ++ head :: items) :: after := split
  refine performed_insert first fresh rfl ?_ List.mem_cons_self
  rw [ListCall.specify, split, changeRing_split nodup List.mem_cons_self]
  rfl

/-- An insertion at the tail is one behind the last node. -/
theorem performed_listInsertTail
    (fresh : node ∉ heap.rings.flatten)
    (member : head :: items ∈ heap.rings) :
    ∃ next, Performed heap (.listInsertTail node head) next := by
  obtain ⟨before, after, split⟩ := List.append_of_mem member
  obtain ⟨left, last, ends⟩ := exists_concat head items
  have nodup := heap.nodup
  rw [split] at nodup
  have ring : IsRing heap.links head items := heap.cycles _ member
  have linked := ring.linked_head
  simp only [ends, List.getLast_append_singleton] at linked
  have concerns : head ∈ left ++ last :: [] := ends ▸ List.mem_cons_self
  refine performed_insert (ends ▸ split) fresh ?_ ?_ concerns
  · rw [ListCall.perform, Causer.listInsertTail, Causer.listInsertNode,
      linked.prev, linked.next]
  · rw [ListCall.specify, split, changeRing_split nodup List.mem_cons_self,
      ends, List.append_assoc]
    rfl

theorem performed_listRemoveNode
    (member : node ∈ heap.rings.flatten) :
    ∃ next, Performed heap (.listRemoveNode node) next := by
  obtain ⟨before, left, right, after, split⟩ := exists_split member
  exact performed_remove split rfl rfl (by simp [ListCall.place])

theorem isListEmpty_eq
    (member : head :: items ∈ heap.rings) :
    Causer.isListEmpty heap.links head = items.isEmpty := by
  have ring : IsRing heap.links head items := heap.cycles _ member
  cases items with
  | nil => simp [Causer.isListEmpty, ring.linked_next.next]
  | cons first rest =>
      have different : first ≠ head := by
        rintro rfl
        exact ring.head_not_mem List.mem_cons_self
      simp [Causer.isListEmpty, ring.next_head, different]

theorem tailList_eq
    (member : head :: items ∈ heap.rings) :
    Causer.tailList heap.links head = items.getLast? := by
  have ring : IsRing heap.links head items := heap.cycles _ member
  rw [Causer.tailList, isListEmpty_eq member, ring.prev_head]
  cases items with
  | nil => rfl
  | cons first rest => simp [List.getLast?_eq_getLast_of_ne_nil]

/-- Only the last node of a list has its head for a successor. -/
theorem isListTail_iff
    (member : head :: items ∈ heap.rings)
    (inHeap : node ∈ heap.rings.flatten) :
    Causer.isListTail heap.links node head = true ↔
      (head :: items).getLast? = some node := by
  have ring : IsRing heap.links head items := heap.cycles _ member
  obtain ⟨other, inside, inRing⟩ := List.mem_flatten.mp inHeap
  rw [Causer.isListTail, isTail, decide_eq_true_iff,
    List.getLast?_eq_getLast_of_ne_nil (List.cons_ne_nil _ _),
    ← ring.prev_head, Option.some_inj]
  constructor
  · intro last
    rw [← last, (heap.cycles other inside).prev_next inRing]
  · rintro rfl
    exact ring.linked_head.prev ▸ ring.linked_head.next

/-- The queries answer as on the sequences. -/
theorem answers (heap : ListHeap Node) : Answers heap.links heap.rings where
  isListEmpty _ _ member := isListEmpty_eq member
  tailList _ _ member := tailList_eq member
  isListTail _ _ member _ inHeap := isListTail_iff member inHeap
  nextEntry _ _ _ member := (heap.cycles _ member).linked_next.next

/-- From an empty list nothing is taken, else the first item is. -/
theorem performed_listRetrieveItem
    (member : head :: items ∈ heap.rings) :
    ∃ next, Performed heap (.listRetrieveItem head) next := by
  obtain ⟨before, after, split⟩ := List.append_of_mem member
  have empty := isListEmpty_eq member
  have found : heap.rings.find? (fun ring => head ∈ ring) =
      some (head :: items) := by
    rw [split]
    exact find_split (split ▸ heap.nodup) List.mem_cons_self
  cases items with
  | nil =>
      have performs : (ListCall.listRetrieveItem head).perform heap.links =
          (none, heap.links) := by
        simp [ListCall.perform, Causer.listRetrieveItem, empty]
      have specifies : (ListCall.listRetrieveItem head).specify heap.rings =
          (none, heap.rings) := by
        simp [ListCall.specify, found]
      exact ⟨heap, by rw [performs, specifies], by rw [performs],
        by rw [specifies], fun _ inHeap _ => ⟨inHeap, fun _ _ => ⟨rfl, rfl⟩⟩⟩
  | cons first rest =>
      have ring : IsRing heap.links head (first :: rest) :=
        heap.cycles _ member
      have second : heap.rings =
          before ++ ([head] ++ first :: rest) :: after := split
      have performs : (ListCall.listRetrieveItem head).perform heap.links =
          (some first, Causer.listRemoveNode heap.links first) := by
        simp [ListCall.perform, Causer.listRetrieveItem, empty, ring.next_head]
      have specifies : (ListCall.listRetrieveItem head).specify heap.rings =
          (some first, takeOut first heap.rings) := by
        simp [ListCall.specify, found]
      exact performed_remove second performs specifies List.mem_cons_self

/-- Every call keeps the lists well formed and does to the one list concerned
what it does to a sequence. -/
theorem behaves (heap : ListHeap Node) :
    Answers heap.links heap.rings ∧
      ∀ call : ListCall Node, call.Allowed heap.rings →
        ∃ next, Performed heap call next := by
  refine ⟨heap.answers, fun call allowed => ?_⟩
  cases call with
  | listInsertNode node prev =>
      exact performed_listInsertNode allowed.1 allowed.2
  | listInsertTail node head =>
      obtain ⟨fresh, items, member⟩ := allowed
      exact performed_listInsertTail fresh member
  | listInsertHead node head =>
      obtain ⟨fresh, items, member⟩ := allowed
      exact performed_listInsertHead fresh member
  | listRemoveNode node => exact performed_listRemoveNode allowed
  | listRetrieveItem list =>
      obtain ⟨items, member⟩ := allowed
      exact performed_listRetrieveItem member

end ListHeap

def itemLinks : Links Nat := insertTail ⟨id, id⟩ 1 0

theorem itemLinks_cycles :
    ∀ ring ∈ [[0, 1], [2]], IsCycle itemLinks ring := by
  intro ring member
  rcases List.mem_pair.mp member with rfl | rfl
  · exact (isRing_self 0).insertTail (by decide)
  · exact (isRing_self 0).insertTail_apart (isRing_self 2) (by decide)
      (by simp)

def itemHeap : ListHeap Nat where
  links := itemLinks
  rings := [[0, 1], [2]]
  cycles := itemLinks_cycles
  nodup := by decide

/-- The one item is taken. -/
theorem itemHeap_behaves :
    ∃ next, Performed itemHeap (.listRetrieveItem 0) next ∧
      next.rings = [[1], [0], [2]] := by
  obtain ⟨next, performed⟩ :=
    itemHeap.behaves.2 (.listRetrieveItem 0) ⟨[1], by decide⟩
  exact ⟨next, performed, performed.rings.trans (by decide)⟩

end Causer
