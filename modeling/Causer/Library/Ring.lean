import Mathlib.Data.List.Chain
import Mathlib.Data.List.Nodup
import Mathlib.Logic.Function.Basic

/-!
# Circular doubly linked lists

An intrusive list is a ring of nodes through a head node, each with a pointer
to its successor and one to its predecessor.  The links of all nodes are two
functions; the operations write them one assignment after the other.  `IsRing`
says which nodes a head leads to and in which order, and each operation has one
rule that says what it does to that list.
-/

namespace Ring

variable {Node : Type*}

/-- The two pointers of every node. -/
structure Links (Node : Type*) where
  /-- Successor of a node. -/
  next : Node → Node
  /-- Predecessor of a node. -/
  prev : Node → Node

section Operations

variable [DecidableEq Node]

/-- Assign the successor of one node. -/
def Links.setNext (links : Links Node) (node target : Node) : Links Node :=
  { links with next := Function.update links.next node target }

/-- Assign the predecessor of one node. -/
def Links.setPrev (links : Links Node) (node target : Node) : Links Node :=
  { links with prev := Function.update links.prev node target }

/-- Make a node a ring of its own. -/
def nodeInit (links : Links Node) (node : Node) : Links Node :=
  (links.setPrev node node).setNext node node

/-- Put a node between two others. -/
def insertBetween (links : Links Node) (node prev next : Node) :
    Links Node :=
  (((links.setNext node next).setPrev node prev).setNext prev node).setPrev
    next node

/-- Put a node before the head. -/
def insertTail (links : Links Node) (node head : Node) : Links Node :=
  insertBetween links node (links.prev head) head

/-- Make two nodes neighbours. -/
def link (links : Links Node) (first second : Node) : Links Node :=
  (links.setNext first second).setPrev second first

/-- Take a node out of its ring. -/
def removeNode (links : Links Node) (node : Node) : Links Node :=
  nodeInit (link links (links.prev node) (links.next node)) node

/-- Whether a node is the last of the ring through a head. -/
def isTail (links : Links Node) (node head : Node) : Bool :=
  links.next node = head

/-- The traversal that starts at a node, visits it, and goes on to its successor
unless the node is the last of the ring. -/
def traverse (links : Links Node) (head : Node) :
    Nat → Node → Option (List Node)
  | 0, _ => none
  | fuel + 1, node =>
      if isTail links node head then some [node]
      else (traverse links head fuel (links.next node)).map (node :: ·)

@[simp] theorem setNext_next
    (links : Links Node) (node target other : Node) :
    (links.setNext node target).next other =
      if other = node then target else links.next other :=
  Function.update_apply ..

@[simp] theorem setNext_prev
    (links : Links Node) (node target : Node) :
    (links.setNext node target).prev = links.prev := rfl

@[simp] theorem setPrev_next
    (links : Links Node) (node target : Node) :
    (links.setPrev node target).next = links.next := rfl

@[simp] theorem setPrev_prev
    (links : Links Node) (node target other : Node) :
    (links.setPrev node target).prev other =
      if other = node then target else links.prev other :=
  Function.update_apply ..

/-- The successors after two nodes have become neighbours. -/
@[simp] theorem link_next
    (links : Links Node) (first second other : Node) :
    (link links first second).next other =
      if other = first then second else links.next other := by
  simp [link]

/-- The predecessors after two nodes have become neighbours. -/
@[simp] theorem link_prev
    (links : Links Node) (first second other : Node) :
    (link links first second).prev other =
      if other = second then first else links.prev other := by
  simp [link]

/-- The successors after an insertion. -/
theorem insertBetween_next
    (links : Links Node) (node prev next other : Node) :
    (insertBetween links node prev next).next other =
      if other = prev then node
      else if other = node then next
      else links.next other := by
  simp [insertBetween]

/-- The predecessors after an insertion. -/
theorem insertBetween_prev
    (links : Links Node) (node prev next other : Node) :
    (insertBetween links node prev next).prev other =
      if other = next then node
      else if other = node then prev
      else links.prev other := by
  simp [insertBetween]

/-- The successors after a removal. -/
theorem removeNode_next
    (links : Links Node) (node other : Node) :
    (removeNode links node).next other =
      if other = node then node
      else if other = links.prev node then links.next node
      else links.next other := by
  simp [removeNode, nodeInit, link]

/-- The predecessors after a removal. -/
theorem removeNode_prev
    (links : Links Node) (node other : Node) :
    (removeNode links node).prev other =
      if other = node then node
      else if other = links.next node then links.prev node
      else links.prev other := by
  simp [removeNode, nodeInit, link]

end Operations

/-- Two nodes are neighbours in both directions. -/
structure Linked (links : Links Node) (first second : Node) : Prop where
  /-- The successor of the first is the second. -/
  next : links.next first = second
  /-- The predecessor of the second is the first. -/
  prev : links.prev second = first

/-- Only the pointers of the listed nodes have been written. -/
def Keeps (links other : Links Node) (touched : List Node) : Prop :=
  ∀ node ∉ touched,
    other.next node = links.next node ∧ other.prev node = links.prev node

/-- The ring through a head consists of the listed nodes in this order. -/
structure IsRing (links : Links Node) (head : Node) (nodes : List Node) :
    Prop where
  /-- Neighbours in the list are neighbours in the ring, back to the head. -/
  chain : (head :: nodes ++ [head]).IsChain (Linked links)
  /-- No node occurs twice. -/
  nodup : (head :: nodes).Nodup

/-- The listed nodes are a ring in this order, entered at the first. -/
def IsCycle (links : Links Node) : List Node → Prop
  | [] => False
  | head :: nodes => IsRing links head nodes

/-- A chain depends only on the successors of all but its last node and the
predecessors of all but its first. -/
theorem chain_congr
    {links other : Links Node}
    {nodes : List Node}
    (sameNext : ∀ node ∈ nodes.dropLast, other.next node = links.next node)
    (samePrev : ∀ node ∈ nodes.tail, other.prev node = links.prev node)
    (chain : nodes.IsChain (Linked links)) :
    nodes.IsChain (Linked other) := by
  induction nodes with
  | nil => exact .nil
  | cons first rest inductionHypothesis =>
      cases rest with
      | nil => exact .singleton first
      | cons second rest =>
          rw [List.isChain_cons_cons] at chain ⊢
          simp only [List.dropLast_cons_cons, List.mem_cons,
            forall_eq_or_imp, List.tail_cons] at sameNext samePrev
          refine ⟨⟨sameNext.1.trans chain.1.next,
            samePrev.1.trans chain.1.prev⟩,
            inductionHypothesis sameNext.2 samePrev.2 chain.2⟩

/-- A nonempty list ends with its last node. -/
theorem exists_concat (first : Node) (rest : List Node) :
    ∃ before last, first :: rest = before ++ [last] := by
  rcases List.eq_nil_or_concat (first :: rest) with empty | ⟨before, last, split⟩
  · cases empty
  · exact ⟨before, last, split.trans (List.concat_eq_append ..)⟩

/-- The last node does not occur before. -/
theorem getLast_not_mem_dropLast
    {nodes : List Node}
    (nonempty : nodes ≠ [])
    (nodup : nodes.Nodup) :
    nodes.getLast nonempty ∉ nodes.dropLast :=
  fun member => nodup.rel_dropLast_getLast member rfl

section Rules

variable {links : Links Node} {head : Node} {nodes : List Node}

theorem IsRing.head_not_mem (ring : IsRing links head nodes) :
    head ∉ nodes := (List.nodup_cons.mp ring.nodup).1

/-- The last node, or the head itself, is linked to the head. -/
theorem IsRing.linked_head (ring : IsRing links head nodes) :
    Linked links ((head :: nodes).getLast (List.cons_ne_nil _ _)) head := by
  have chain := ring.chain
  rw [← List.dropLast_append_getLast (List.cons_ne_nil head nodes),
    List.append_assoc, List.singleton_append,
    List.isChain_append_cons_cons] at chain
  exact chain.2.1

/-- The predecessor of the head is the last node, or the head itself. -/
theorem IsRing.prev_head (ring : IsRing links head nodes) :
    links.prev head = (head :: nodes).getLast (List.cons_ne_nil _ _) :=
  ring.linked_head.prev

/-- The predecessor of the head belongs to the ring. -/
theorem IsRing.prev_head_mem (ring : IsRing links head nodes) :
    links.prev head ∈ head :: nodes :=
  ring.prev_head ▸ List.getLast_mem _

/-- The nodes of a ring in front of the last link. -/
theorem IsRing.open_chain (ring : IsRing links head nodes) :
    (head :: nodes).IsChain (Linked links) :=
  ring.chain.left_of_append

/-- Two open chains whose ends are linked are a ring. -/
theorem isRing_append
    {first : Node} {rest : List Node}
    (chain : (head :: nodes).IsChain (Linked links))
    (others : (first :: rest).IsChain (Linked links))
    (joint : Linked links ((head :: nodes).getLast (List.cons_ne_nil _ _))
      first)
    (back : Linked links ((first :: rest).getLast (List.cons_ne_nil _ _))
      head)
    (nodup : (head :: nodes ++ first :: rest).Nodup) :
    IsRing links head (nodes ++ first :: rest) where
  chain := by
    rw [← List.cons_append, List.append_assoc, List.isChain_append,
      List.isChain_append]
    refine ⟨chain, ⟨others, .singleton head, ?_⟩, ?_⟩
    · rintro last isLast next isNext
      rw [List.getLast?_eq_getLast_of_ne_nil (List.cons_ne_nil _ _)] at isLast
      simp only [List.head?_cons, Option.mem_some_iff] at isLast isNext
      subst isLast isNext
      exact back
    · rintro last isLast next isNext
      rw [List.getLast?_eq_getLast_of_ne_nil (List.cons_ne_nil _ _)] at isLast
      simp only [List.cons_append, List.head?_cons, Option.mem_some_iff]
        at isLast isNext
      subst isLast isNext
      exact joint
  nodup := nodup

/-- A ring can be entered at each of its nodes. -/
theorem IsRing.rotate
    {before after : List Node} {node : Node}
    (ring : IsRing links head (before ++ node :: after)) :
    IsRing links node (after ++ head :: before) where
  chain := by
    have chain := ring.chain
    rw [List.cons_append, List.append_assoc, List.cons_append,
      List.isChain_cons_split] at chain
    rw [List.cons_append, List.append_assoc, List.cons_append,
      List.isChain_cons_split]
    exact chain.symm
  nodup := by
    rw [← List.cons_append, List.nodup_append_comm]
    exact ring.nodup

/-- Links that agree on all nodes of a ring have the same ring. -/
theorem IsRing.congr
    {other : Links Node}
    (ring : IsRing links head nodes)
    (sameNext : ∀ node ∈ head :: nodes, other.next node = links.next node)
    (samePrev : ∀ node ∈ head :: nodes, other.prev node = links.prev node) :
    IsRing other head nodes where
  chain := by
    apply chain_congr _ _ ring.chain
    · intro node member
      rw [List.dropLast_concat] at member
      exact sameNext node member
    · intro node member
      apply samePrev
      simpa [or_comm] using member
  nodup := ring.nodup

/-- A traversal from the first node of a ring visits its nodes in order, once
each, and ends. -/
theorem traverse_chain
    [DecidableEq Node]
    {first : Node}
    {rest : List Node}
    (chain : (first :: rest ++ [head]).IsChain (Linked links))
    (absent : head ∉ rest)
    (extra : Nat) :
    traverse links head (rest.length + 1 + extra) first =
      some (first :: rest) := by
  induction rest generalizing first with
  | nil =>
      rw [List.cons_append, List.nil_append, List.isChain_pair] at chain
      simp [Nat.add_comm 1 extra, traverse, isTail, chain.next]
  | cons second rest inductionHypothesis =>
      rw [List.cons_append, List.cons_append, List.isChain_cons_cons]
        at chain
      rw [List.mem_cons, not_or] at absent
      have visited := inductionHypothesis chain.2 absent.2
      rw [List.length_cons, Nat.add_right_comm, traverse, chain.1.next,
        visited]
      simp [isTail, chain.1.next, Ne.symm absent.1]

/-- The successor of the head of a nonempty ring is its first node. -/
theorem IsRing.next_head
    {first : Node} {rest : List Node}
    (ring : IsRing links head (first :: rest)) :
    links.next head = first := by
  have chain := ring.chain
  rw [List.cons_append, List.cons_append, List.isChain_cons_cons] at chain
  exact chain.1.next

/-- A traversal of a nonempty ring visits exactly its nodes. -/
theorem IsRing.traverse_eq
    [DecidableEq Node]
    (ring : IsRing links head nodes)
    (nonempty : nodes ≠ [])
    {fuel : Nat}
    (enough : nodes.length ≤ fuel) :
    traverse links head fuel (links.next head) = some nodes := by
  cases nodes with
  | nil => exact absurd rfl nonempty
  | cons first rest =>
      obtain ⟨extra, rfl⟩ := Nat.exists_eq_add_of_le enough
      have chain := ring.chain
      rw [List.cons_append, List.cons_append, List.isChain_cons_cons] at chain
      have absent := ring.head_not_mem
      rw [List.mem_cons, not_or] at absent
      rw [ring.next_head]
      exact traverse_chain chain.2 absent.2 extra

/-- The nodes of a ring are determined by its head. -/
theorem IsRing.unique
    [DecidableEq Node]
    {others : List Node}
    (ring : IsRing links head nodes)
    (other : IsRing links head others) :
    nodes = others := by
  have empty : ∀ {first : Node} {rest : List Node},
      IsRing links head (first :: rest) → ¬IsRing links head [] := by
    intro first rest nonempty alone
    have chain := alone.chain
    rw [List.cons_append, List.nil_append, List.isChain_pair] at chain
    have same : head = first := chain.next.symm.trans nonempty.next_head
    exact nonempty.head_not_mem (same ▸ List.mem_cons_self)
  cases nodes with
  | nil =>
      cases others with
      | nil => rfl
      | cons first rest => exact absurd ring (empty other)
  | cons first rest =>
      cases others with
      | nil => exact absurd other (empty ring)
      | cons second later =>
          -- both traversals are the same computation
          have one := ring.traverse_eq (List.cons_ne_nil _ _)
            (Nat.le_max_left _ (second :: later).length)
          have two := other.traverse_eq (List.cons_ne_nil _ _)
            (Nat.le_max_right (first :: rest).length _)
          exact Option.some.inj (one.symm.trans two)

variable {ring left right : List Node} {node : Node}

theorem IsCycle.nodup
    (cycle : IsCycle links ring) :
    ring.Nodup := by
  cases ring with
  | nil => exact List.nodup_nil
  | cons head nodes => exact IsRing.nodup cycle

/-- Where a ring is entered does not matter. -/
theorem IsCycle.rotate
    (cycle : IsCycle links (left ++ right)) :
    IsCycle links (right ++ left) := by
  cases left with
  | nil =>
      rw [List.append_nil]
      exact cycle
  | cons head before =>
      cases right with
      | nil =>
          rw [List.append_nil] at cycle
          exact cycle
      | cons node after => exact IsRing.rotate cycle

theorem IsCycle.enter
    (cycle : IsCycle links (left ++ node :: right)) :
    IsRing links node (right ++ left) :=
  cycle.rotate

theorem IsRing.leave
    (ring : IsRing links node (right ++ left)) :
    IsCycle links (left ++ node :: right) := by
  have cycle : IsCycle links (node :: right ++ left) := ring
  exact cycle.rotate

theorem IsCycle.congr
    {other : Links Node}
    (cycle : IsCycle links ring)
    (sameNext : ∀ node ∈ ring, other.next node = links.next node)
    (samePrev : ∀ node ∈ ring, other.prev node = links.prev node) :
    IsCycle other ring := by
  cases ring with
  | nil => exact cycle
  | cons head nodes => exact IsRing.congr cycle sameNext samePrev

/-- A ring none of whose nodes has been written is kept. -/
theorem IsCycle.keeps
    {other : Links Node} {touched : List Node}
    (cycle : IsCycle links ring)
    (keeps : Keeps links other touched)
    (apart : touched.Disjoint ring) :
    IsCycle other ring :=
  cycle.congr (fun _ member => (keeps _ fun touches => apart touches member).1)
    fun _ member => (keeps _ fun touches => apart touches member).2

/-- The head is linked to the first of the others, or to itself. -/
theorem IsRing.linked_next (ring : IsRing links head nodes) :
    Linked links head (nodes.headD head) := by
  have chain := ring.chain
  cases nodes with
  | nil => exact List.isChain_pair.mp chain
  | cons first rest => exact (List.isChain_cons_cons.mp chain).1

/-- Each node is linked to the next one, and the last to the first. -/
theorem IsCycle.linked_next
    (cycle : IsCycle links (left ++ node :: right)) :
    Linked links node ((right ++ left).headD node) :=
  cycle.enter.linked_next

theorem IsCycle.next_mem
    (cycle : IsCycle links ring)
    (member : node ∈ ring) :
    links.next node ∈ ring := by
  obtain ⟨left, right, rfl⟩ := List.append_of_mem member
  rw [cycle.linked_next.next]
  cases right <;> cases left <;> simp

theorem IsCycle.prev_mem
    (cycle : IsCycle links ring)
    (member : node ∈ ring) :
    links.prev node ∈ ring := by
  obtain ⟨left, right, rfl⟩ := List.append_of_mem member
  have inside := cycle.enter.prev_head_mem
  simp only [List.mem_cons, List.mem_append] at inside ⊢
  tauto

/-- The predecessor of a node's successor is the node. -/
theorem IsCycle.prev_next
    (cycle : IsCycle links ring)
    (member : node ∈ ring) :
    links.prev (links.next node) = node := by
  obtain ⟨left, right, rfl⟩ := List.append_of_mem member
  have linked := cycle.linked_next
  rw [linked.next, linked.prev]

/-- The successor of a node's predecessor is the node. -/
theorem IsCycle.next_prev
    (cycle : IsCycle links ring)
    (member : node ∈ ring) :
    links.next (links.prev node) = node := by
  obtain ⟨left, right, rfl⟩ := List.append_of_mem member
  have linked := cycle.enter.linked_head
  rw [linked.prev, linked.next]

end Rules

/-- Nodes that point to themselves are rings of their own. -/
@[simp] theorem isRing_self (node : Node) : IsRing ⟨id, id⟩ node [] :=
  ⟨List.isChain_pair.mpr ⟨rfl, rfl⟩, List.nodup_singleton node⟩

section Updates

variable [DecidableEq Node]
variable {links : Links Node} {head : Node} {nodes : List Node}

/-- A node that has just been initialised is a ring without others. -/
theorem isRing_nodeInit (links : Links Node) (head : Node) :
    IsRing (nodeInit links head) head [] where
  chain := by
    rw [List.cons_append, List.nil_append, List.isChain_pair]
    constructor <;> simp [nodeInit]
  nodup := List.nodup_singleton head

/-- Initialising a node leaves the rings it is not part of. -/
theorem IsRing.nodeInit
    (ring : IsRing links head nodes)
    {node : Node}
    (absent : node ∉ head :: nodes) :
    IsRing (Ring.nodeInit links node) head nodes := by
  apply ring.congr <;>
  · intro other member
    have different : other ≠ node := fun same => absent (same ▸ member)
    simp [Ring.nodeInit, different]

/-- An insertion behind the head puts the node first. -/
theorem IsRing.insertAfter
    (ring : IsRing links head nodes)
    {node : Node}
    (absent : node ∉ head :: nodes) :
    IsRing (insertBetween links node head (links.next head)) head
      (node :: nodes) := by
  obtain ⟨following, right, split⟩ : ∃ following right,
      nodes ++ [head] = following :: right := by
    cases nodes <;> simp
  have chain := ring.chain
  rw [List.cons_append, split, List.isChain_cons_cons] at chain
  obtain ⟨linked, rest⟩ := chain
  have nodup : (following :: right).Nodup := by
    rw [← split, List.nodup_append_comm]
    exact ring.nodup
  have others : ∀ {other : Node}, other ∈ following :: right →
      other ≠ node := by
    rintro other member rfl
    rw [← split, List.mem_append, List.mem_singleton] at member
    exact absent (List.mem_cons.mpr member.symm)
  have headNode : head ≠ node := fun same =>
    absent (same ▸ List.mem_cons_self)
  rw [linked.next]
  constructor
  · rw [List.cons_append, List.cons_append, split, List.isChain_cons_cons,
      List.isChain_cons_cons]
    refine ⟨⟨?_, ?_⟩, ⟨?_, ?_⟩, ?_⟩
    · rw [insertBetween_next, if_pos rfl]
    · rw [insertBetween_prev, if_neg (others List.mem_cons_self).symm,
        if_pos rfl]
    · rw [insertBetween_next, if_neg headNode.symm, if_pos rfl]
    · rw [insertBetween_prev, if_pos rfl]
    · apply chain_congr _ _ rest
      · intro other member
        have isOther := others (List.dropLast_subset _ member)
        rw [← split, List.dropLast_concat] at member
        rw [insertBetween_next, if_neg, if_neg isOther]
        rintro rfl
        exact ring.head_not_mem member
      · intro other member
        have isOther := others (List.mem_of_mem_tail member)
        rw [insertBetween_prev, if_neg, if_neg isOther]
        rintro rfl
        exact (List.nodup_cons.mp nodup).1 member
  · rw [List.nodup_cons, List.mem_cons, not_or, List.nodup_cons]
    rw [List.mem_cons, not_or] at absent
    exact ⟨⟨headNode, ring.head_not_mem⟩, absent.2,
      (List.nodup_cons.mp ring.nodup).2⟩

/-- An insertion at the tail appends the node. -/
theorem IsRing.insertTail
    (ring : IsRing links head nodes)
    {node : Node}
    (absent : node ∉ head :: nodes) :
    IsRing (Ring.insertTail links node head) head (nodes ++ [node]) := by
  -- It is an insertion behind the last node.
  rcases List.eq_nil_or_concat nodes with rfl | ⟨before, last, split⟩
  · have linked := ring.chain
    rw [List.cons_append, List.nil_append, List.isChain_pair] at linked
    have behind := ring.insertAfter absent
    rw [linked.next] at behind
    rw [Ring.insertTail, linked.prev]
    exact behind
  · rw [List.concat_eq_append] at split
    subst split
    have turned : IsRing links last (head :: before) := ring.rotate
    have prevHead : links.prev head = last := by
      rw [ring.prev_head]
      simp
    have behind := turned.insertAfter (fun member => absent (by
      simp only [List.mem_cons, List.mem_append] at member ⊢
      tauto))
    rw [turned.next_head] at behind
    have back : IsRing (Ring.insertTail links node head) head
        (before ++ last :: [node]) := by
      rw [Ring.insertTail, prevHead]
      exact IsRing.rotate behind
    rw [List.append_assoc]
    exact back

/-- An insertion writes the node and its neighbours. -/
theorem keeps_insertBetween
    {touched : List Node} {node prev next : Node}
    (nodeTouched : node ∈ touched)
    (prevTouched : prev ∈ touched)
    (nextTouched : next ∈ touched) :
    Keeps links (insertBetween links node prev next) touched := by
  intro other untouched
  have notNode : other ≠ node := fun same => untouched (same ▸ nodeTouched)
  constructor
  · rw [insertBetween_next, if_neg, if_neg notNode]
    exact fun same => untouched (same ▸ prevTouched)
  · rw [insertBetween_prev, if_neg, if_neg notNode]
    exact fun same => untouched (same ▸ nextTouched)

/-- A removal writes the node and its neighbours. -/
theorem keeps_removeNode
    {touched : List Node} {node : Node}
    (nodeTouched : node ∈ touched)
    (prevTouched : links.prev node ∈ touched)
    (nextTouched : links.next node ∈ touched) :
    Keeps links (Ring.removeNode links node) touched := by
  intro other untouched
  have notNode : other ≠ node := fun same => untouched (same ▸ nodeTouched)
  constructor
  · rw [removeNode_next, if_neg notNode, if_neg]
    exact fun same => untouched (same ▸ prevTouched)
  · rw [removeNode_prev, if_neg notNode, if_neg]
    exact fun same => untouched (same ▸ nextTouched)

/-- An insertion into one ring leaves the rings apart from it. -/
theorem IsRing.insertTail_apart
    {other : Node} {others : List Node}
    (ring : IsRing links head nodes)
    (apart : IsRing links other others)
    {node : Node}
    (absent : node ∉ other :: others)
    (disjoint : (head :: nodes).Disjoint (other :: others)) :
    IsRing (Ring.insertTail links node head) other others := by
  have cycle : IsCycle links (other :: others) := apart
  have keeps : Keeps links (Ring.insertTail links node head)
      (node :: head :: nodes) :=
    keeps_insertBetween List.mem_cons_self
      (List.mem_cons_of_mem _ ring.prev_head_mem)
      (List.mem_cons_of_mem _ List.mem_cons_self)
  apply cycle.keeps keeps
  rw [List.disjoint_cons_left]
  exact ⟨absent, disjoint⟩

/-- A removal of the head leaves the ring of the others. -/
theorem IsRing.removeHead
    {first : Node} {rest : List Node}
    (ring : IsRing links head (first :: rest)) :
    IsRing (Ring.removeNode links head) first rest := by
  obtain ⟨before, last, split⟩ := exists_concat first rest
  have chain := ring.chain
  have nodup := ring.nodup
  have headNext := ring.next_head
  have lastMember : last ∈ first :: rest := by simp [split]
  have lastHead : last ≠ head := fun same =>
    ring.head_not_mem (same ▸ lastMember)
  have firstHead : first ≠ head := fun same =>
    ring.head_not_mem (same ▸ List.mem_cons_self)
  rw [List.cons_append, List.cons_append, List.isChain_cons_cons,
    ← List.cons_append, split, List.append_assoc, List.singleton_append,
    List.isChain_append_cons_cons] at chain
  obtain ⟨-, whole, linked, -⟩ := chain
  rw [List.nodup_cons] at nodup
  constructor
  · rw [split, List.append_assoc, List.singleton_append,
      List.isChain_append_cons_cons]
    refine ⟨chain_congr ?_ ?_ whole, ⟨?_, ?_⟩, .singleton first⟩
    · intro other member
      rw [List.dropLast_concat] at member
      rw [removeNode_next, linked.prev, if_neg, if_neg]
      · rintro rfl
        have apart := nodup.2
        rw [split, List.nodup_append] at apart
        exact apart.2.2 other member other (List.mem_singleton_self _) rfl
      · rintro rfl
        exact ring.head_not_mem (split ▸ List.mem_append_left _ member)
    · intro other member
      rw [← split, List.tail_cons] at member
      rw [removeNode_prev, headNext, if_neg, if_neg]
      · rintro rfl
        exact (List.nodup_cons.mp nodup.2).1 member
      · rintro rfl
        exact ring.head_not_mem (List.mem_cons_of_mem _ member)
    · rw [removeNode_next, linked.prev, if_neg lastHead, if_pos rfl, headNext]
    · rw [removeNode_prev, headNext, if_neg firstHead, if_pos rfl,
        linked.prev]
  · exact nodup.2

/-- A removal takes the node out of the list. -/
theorem IsRing.removeNode
    {before after : List Node} {node : Node}
    (ring : IsRing links head (before ++ node :: after)) :
    IsRing (Ring.removeNode links node) head (before ++ after) := by
  have turned : IsRing links node (after ++ head :: before) := ring.rotate
  cases after with
  | nil =>
      rw [List.append_nil]
      exact turned.removeHead
  | cons first rest => exact turned.removeHead.rotate

/-- The removed node is a ring of its own. -/
theorem isRing_removeNode (links : Links Node) (node : Node) :
    IsRing (Ring.removeNode links node) node [] :=
  isRing_nodeInit _ _

/-- An insertion behind a node of a ring. -/
theorem IsCycle.insert
    {left right : List Node} {place node : Node}
    (cycle : IsCycle links (left ++ place :: right))
    (absent : node ∉ left ++ place :: right) :
    IsCycle (insertBetween links node place (links.next place))
      (left ++ place :: node :: right) := by
  have apart : node ∉ place :: (right ++ left) := by
    simp only [List.mem_cons, List.mem_append] at absent ⊢
    tauto
  have ring : IsRing _ place (node :: right ++ left) :=
    cycle.enter.insertAfter apart
  exact ring.leave

/-- A removal takes the node out of the ring, unless it is the only one. -/
theorem IsCycle.remove
    {left right : List Node} {node : Node}
    (cycle : IsCycle links (left ++ node :: right))
    (nonempty : left ++ right ≠ []) :
    IsCycle (Ring.removeNode links node) (left ++ right) := by
  have turned := cycle.enter
  cases others : right ++ left with
  | nil =>
      rw [List.append_eq_nil_iff] at others
      simp [others] at nonempty
  | cons first rest =>
      rw [others] at turned
      have removed : IsCycle (Ring.removeNode links node) (right ++ left) := by
        rw [others]
        exact turned.removeHead
      exact removed.rotate

/-- A link that writes no inner pointer of a chain keeps it. -/
theorem chain_link
    {first second : Node}
    (chain : nodes.IsChain (Linked links))
    (notFirst : first ∉ nodes.dropLast)
    (notSecond : second ∉ nodes.tail) :
    nodes.IsChain (Linked (link links first second)) := by
  apply chain_congr _ _ chain
  · intro node member
    rw [link_next, if_neg]
    exact fun same => notFirst (same ▸ member)
  · intro node member
    rw [link_prev, if_neg]
    exact fun same => notSecond (same ▸ member)

/-- Two links close two open chains to one ring. -/
theorem isRing_link_link
    {first : Node} {rest : List Node}
    (chain : (head :: nodes).IsChain (Linked links))
    (others : (first :: rest).IsChain (Linked links))
    (nodup : (head :: nodes ++ first :: rest).Nodup) :
    IsRing
      (link
        (link links ((head :: nodes).getLast (List.cons_ne_nil _ _)) first)
        ((first :: rest).getLast (List.cons_ne_nil _ _)) head)
      head (nodes ++ first :: rest) := by
  obtain ⟨nodupNodes, nodupOthers, apart⟩ := List.nodup_append.mp nodup
  have disjoint : (head :: nodes).Disjoint (first :: rest) :=
    fun node inNodes inOthers => apart node inNodes node inOthers rfl
  have joint := List.getLast_mem (List.cons_ne_nil head nodes)
  have last := List.getLast_mem (List.cons_ne_nil first rest)
  apply isRing_append
  · apply chain_link
    · apply chain_link chain
      · exact getLast_not_mem_dropLast _ nodupNodes
      · exact fun member =>
          disjoint (List.mem_of_mem_tail member) List.mem_cons_self
    · exact fun member => disjoint (List.dropLast_subset _ member) last
    · exact (List.nodup_cons.mp nodupNodes).1
  · apply chain_link
    · apply chain_link others
      · exact fun member => disjoint joint (List.dropLast_subset _ member)
      · exact (List.nodup_cons.mp nodupOthers).1
    · exact getLast_not_mem_dropLast _ nodupOthers
    · exact fun member =>
        disjoint List.mem_cons_self (List.mem_of_mem_tail member)
  · have jointLast := apart _ joint _ last
    have headFirst := apart _ List.mem_cons_self _ List.mem_cons_self
    constructor
    · rw [link_next, if_neg jointLast, link_next, if_pos rfl]
    · rw [link_prev, if_neg headFirst.symm, link_prev, if_pos rfl]
  · constructor
    · rw [link_next, if_pos rfl]
    · rw [link_prev, if_pos rfl]
  · exact nodup

end Updates

end Ring
