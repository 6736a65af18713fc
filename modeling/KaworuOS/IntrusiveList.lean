import KaworuOS.Base

/-!
# Intrusive lists (`lib/ds/intrusivelist.c`)

A node lies inside the object it links, and is named here by the address of that object; null is
zero. All nodes of one kind form a map from addresses.
-/

namespace KaworuOS

/-- `IntrusiveNode`. -/
structure IntrusiveNode where
  next : Nat
  prev : Nat
  deriving DecidableEq, Repr

/-- `IntrusiveList`. -/
structure IntrusiveList where
  head : Nat
  tail : Nat
  count : Nat
  deriving DecidableEq, Repr

/-- The nodes of one kind, by the address of the object that holds them. -/
abbrev Nodes := Nat → IntrusiveNode

/-- `node->next = v`. -/
def Nodes.setNext (nodes : Nodes) (node v : Nat) : Nodes :=
  fun p => if p = node then { nodes p with next := v } else nodes p

/-- `node->prev = v`. -/
def Nodes.setPrev (nodes : Nodes) (node v : Nat) : Nodes :=
  fun p => if p = node then { nodes p with prev := v } else nodes p

@[simp] lemma Nodes.setNext_next (nodes : Nodes) (node v p : Nat) :
    (nodes.setNext node v p).next = if p = node then v else (nodes p).next := by
  unfold setNext
  split <;> rfl

@[simp] lemma Nodes.setNext_prev (nodes : Nodes) (node v p : Nat) :
    (nodes.setNext node v p).prev = (nodes p).prev := by
  unfold setNext
  split <;> rfl

@[simp] lemma Nodes.setPrev_prev (nodes : Nodes) (node v p : Nat) :
    (nodes.setPrev node v p).prev = if p = node then v else (nodes p).prev := by
  unfold setPrev
  split <;> rfl

@[simp] lemma Nodes.setPrev_next (nodes : Nodes) (node v p : Nat) :
    (nodes.setPrev node v p).next = (nodes p).next := by
  unfold setPrev
  split <;> rfl

/-- `intrusivelist_node_is_null`. -/
def intrusivelistNodeIsNull (nodes : Nodes) (node : Nat) : Bool :=
  decide ((nodes node).next = 0) && decide ((nodes node).prev = 0)

/-- `intrusivelist_node_init`. -/
def intrusivelistNodeInit (nodes : Nodes) (node : Nat) : Nodes :=
  (nodes.setNext node 0).setPrev node 0

/-- `intrusivelist_init`. -/
def intrusivelistInit : IntrusiveList := ⟨0, 0, 0⟩

/-- `intrusivelist_insert_head`. -/
def intrusivelistInsertHead (nodes : Nodes) (il : IntrusiveList) (node : Nat) : Nodes × IntrusiveList :=
  let nodes := (nodes.setNext node il.head).setPrev node 0
  if il.head ≠ 0 then
    (nodes.setPrev il.head node, { il with head := node, count := il.count + 1 })
  else (nodes, ⟨node, node, il.count + 1⟩)

/-- `intrusivelist_insert_tail`. -/
def intrusivelistInsertTail (nodes : Nodes) (il : IntrusiveList) (node : Nat) : Nodes × IntrusiveList :=
  let nodes := (nodes.setNext node 0).setPrev node il.tail
  if il.tail ≠ 0 then
    (nodes.setNext il.tail node, { il with tail := node, count := il.count + 1 })
  else (nodes, ⟨node, node, il.count + 1⟩)

/-- The body of the loop of `intrusivelist_insert_sorted` that links `node` in front of
`existing`. -/
def insertBefore (nodes : Nodes) (il : IntrusiveList) (node existing : Nat) : Nodes × IntrusiveList :=
  let nodes := nodes.setNext node existing
  let wasPrev := (nodes existing).prev
  let nodes := (nodes.setPrev existing node).setPrev node wasPrev
  if wasPrev ≠ 0 then (nodes.setNext wasPrev node, { il with count := il.count + 1 })
  else (nodes, { il with head := node, count := il.count + 1 })

/-- The loop of `intrusivelist_insert_sorted`, from `existing` on. The comparator is
`comparator_fn` applied to the nodes as they are during the call. -/
def insertSortedFrom (comparator : Nat → Nat → Bool) (nodes : Nodes) (il : IntrusiveList) (node : Nat) :
    Nat → Nat → Except Halt (Nodes × IntrusiveList)
  | 0, _ => .error .hang
  | fuel + 1, existing =>
    if existing = 0 then .ok (intrusivelistInsertTail nodes il node)
    else if comparator existing node then .ok (insertBefore nodes il node existing)
    else insertSortedFrom comparator nodes il node fuel (nodes existing).next

/-- `intrusivelist_insert_sorted`, which always returns true. -/
def intrusivelistInsertSorted (comparator : Nat → Nat → Bool) (nodes : Nodes) (il : IntrusiveList)
    (node : Nat) : Except Halt (Nodes × IntrusiveList) :=
  if il.count = 0 then .ok (intrusivelistInsertHead nodes il node)
  else insertSortedFrom comparator nodes il node wordSize il.head

/-- The loop of `intrusivelist_insert_at`, from `existing` on. It links like that of
`intrusivelist_insert_sorted`, but writes to the node in front without a look. -/
def insertAtFrom (nodes : Nodes) (il : IntrusiveList) (node index : Nat) :
    Nat → Nat → Nat → Except Halt (Bool × Nodes × IntrusiveList)
  | 0, _, _ => .error .hang
  | fuel + 1, counting, existing =>
    if existing = 0 then .ok (decide (counting = index), nodes, il)
    else if counting = index then
      let nodes := nodes.setNext node existing
      let wasPrev := (nodes existing).prev
      let nodes := (nodes.setPrev existing node).setPrev node wasPrev
      if wasPrev = 0 then .error .fault
      else .ok (true, nodes.setNext wasPrev node, { il with count := il.count + 1 })
    else insertAtFrom nodes il node index fuel (counting + 1) (nodes existing).next

/-- `intrusivelist_insert_at`. -/
def intrusivelistInsertAt (nodes : Nodes) (il : IntrusiveList) (node index : Nat) :
    Except Halt (Bool × Nodes × IntrusiveList) :=
  if index = 0 then .ok (true, intrusivelistInsertHead nodes il node)
  else if index = il.count then .ok (true, intrusivelistInsertTail nodes il node)
  else if il.count < index then .ok (false, nodes, il)
  else insertAtFrom nodes il node index wordSize 0 il.head

/-- The first half of `intrusivelist_remove`: the node in front, or the head, skips `node`. -/
def unlinkPrev (nodes : Nodes) (il : IntrusiveList) (node : Nat) : Nodes × IntrusiveList :=
  if (nodes node).prev ≠ 0 then (nodes.setNext (nodes node).prev (nodes node).next, il)
  else (nodes, { il with head := (nodes node).next })

/-- The second half of `intrusivelist_remove`: the node behind, or the tail, skips `node`. -/
def unlinkNext (nodes : Nodes) (il : IntrusiveList) (node : Nat) : Nodes × IntrusiveList :=
  if (nodes node).next ≠ 0 then (nodes.setPrev (nodes node).next (nodes node).prev, il)
  else (nodes, { il with tail := (nodes node).prev })

/-- `intrusivelist_remove`. -/
def intrusivelistRemove (nodes : Nodes) (il : IntrusiveList) (node : Nat) : Nodes × IntrusiveList :=
  let (nodes, il) := unlinkPrev nodes il node
  let (nodes, il) := unlinkNext nodes il node
  (intrusivelistNodeInit nodes node, { il with count := il.count - 1 })

/-- `intrusivelist_remove_head`; the result is null for an empty list. -/
def intrusivelistRemoveHead (nodes : Nodes) (il : IntrusiveList) : Nat × Nodes × IntrusiveList :=
  let currentHead := il.head
  if currentHead = 0 then (0, nodes, il)
  else
    let head := (nodes currentHead).next
    let (nodes, tail) := if head ≠ 0 then (nodes.setPrev head 0, il.tail) else (nodes, 0)
    (currentHead, intrusivelistNodeInit nodes currentHead, ⟨head, tail, il.count - 1⟩)

/-- `intrusivelist_remove_tail`, which reads the node at the tail without a look. -/
def intrusivelistRemoveTail (nodes : Nodes) (il : IntrusiveList) : Except Halt (Nat × Nodes × IntrusiveList) :=
  let currentTail := il.tail
  if currentTail = 0 then .error .fault
  else
    let tail := (nodes currentTail).prev
    let (nodes, head) := if tail ≠ 0 then (nodes.setNext tail 0, il.head) else (nodes, 0)
    .ok (currentTail, intrusivelistNodeInit nodes currentTail, ⟨head, tail, il.count - 1⟩)

/-- `intrusivelist_peek_head`. -/
def intrusivelistPeekHead (il : IntrusiveList) : Nat := il.head

/-- `intrusivelist_count`. -/
def intrusivelistCount (il : IntrusiveList) : Nat := il.count

/-- `intrusivelist_is_empty`. -/
def intrusivelistIsEmpty (il : IntrusiveList) : Bool := decide (il.count = 0)

end KaworuOS
