import KaworuOS.Proofs.KheapRun
import KaworuOS.Proofs.SpaceLife

/-!
# The heap behind the callers of `kalloc`

The code that creates address spaces and processes sees the heap as the list of the blocks that it will return. `Serves`
ties this list to the heap itself: the calls of `kalloc` return these blocks and `-ENOMEM` behind them, and none of them
makes the heap grow. Such a call asks nothing of what is below the heap, so it takes no frames and maps no pages.
-/

namespace KaworuOS.Proofs
open Lib

variable {s : Mm} {heap : KHeap} {size : Nat}

/-- A call of `kalloc`: the heap that it finds, and the size. -/
structure HeapRequest where
  heap : KHeap
  size : Nat

namespace HeapRequest

/-- What the caller gets. -/
def pointer (vm : HeapVm) (r : HeapRequest) : Except Halt Nat :=
  (r.heap.kalloc vm r.size).map fun ret =>
    match ret.1 with
    | .ok ptr => ptr
    | .error e => errToPtr e

/-- The call does the same with anything below the heap. -/
def AsksNothing (r : HeapRequest) : Prop := ∀ vm vm', r.heap.kalloc vm r.size = r.heap.kalloc vm' r.size

end HeapRequest

/-- The next `n` calls of `kalloc` return the blocks in their order, and `-ENOMEM` when there is none left. The heap does
not grow: it serves the request as it is, or it is at its limit. -/
structure Serves (n : Nat) (blocks : List Nat) (requests : List HeapRequest) : Prop where
  calls : requests.length = n
  returns : ∀ (vm : HeapVm) (k : Nat) (r : HeapRequest), requests[k]? = some r →
    r.pointer vm = .ok (blocks.getD k (errToPtr .ENOMEM))
  settled : ∀ r ∈ requests, grows r.heap r.size = false

variable {n : Nat} {r : HeapRequest} {requests : List HeapRequest} {blocks : List Nat}

/-- At the limit `grow_heap` comes back before it calls `vm_alloc_mem`. -/
lemma growHeap_limit (vm vm' : HeapVm) (hlimit : MAX_HEAP_SIZE < wadd heap.freelist.capacity size) :
    heap.growHeap vm size = heap.growHeap vm' size := by
  unfold KHeap.growHeap
  congr 1
  funext _
  split
  · rfl
  · exact absurd hlimit ‹_›

lemma retry_settled {first : Except Errno Nat × Mem × FreeList} (vm vm' : HeapVm)
    (hfirst : freelistAlloc heap.mem heap.freelist size = .ok first) (h : grows heap size = false) :
    KHeap.retry vm first size = KHeap.retry vm' first size := by
  unfold KHeap.retry
  by_cases herr : isErr first.1 = true
  · rw [grows_eq hfirst, herr, Bool.true_and, decide_eq_false_iff_not, Nat.not_le] at h
    have hcap : first.2.2.capacity = heap.freelist.capacity := freelistAlloc_capacity hfirst
    have hgrow : KHeap.growHeap vm ⟨first.2.1, first.2.2⟩ size = KHeap.growHeap vm' ⟨first.2.1, first.2.2⟩ size :=
      growHeap_limit vm vm' (by rwa [hcap])
    rw [if_pos herr, if_pos herr, hgrow]
  · rw [if_neg herr, if_neg herr]

/-- A call that does not make the heap grow does not reach `vm_alloc_mem`. -/
lemma asksNothing_of_settled (h : grows r.heap r.size = false) : r.AsksNothing := by
  intro vm vm'
  unfold KHeap.kalloc
  refine bind_congr_of_ok fun first hfirst => ?_
  rw [retry_settled vm vm' hfirst h]

lemma Serves.asksNothing (h : Serves n blocks requests) (hr : r ∈ requests) : r.AsksNothing :=
  asksNothing_of_settled (h.settled r hr)

/-- The callers' `kalloc` returns what that of the heap returns, and the rest of the blocks serves the rest of the
requests. -/
theorem kalloc_of_serves (h : Serves (n + 1) s.heap.blocks (r :: requests)) :
    ∃ p s', kalloc s = (.ok p, s') ∧ (∀ vm : HeapVm, r.pointer vm = .ok p) ∧ Serves n s'.heap.blocks requests := by
  have hcalls : requests.length = n := Nat.succ.inj h.calls
  have hfirst := fun vm => h.returns vm 0 r rfl
  have hsettled : ∀ q ∈ requests, grows q.heap q.size = false := fun q hq => h.settled q (List.mem_cons_of_mem _ hq)
  cases hb : s.heap.blocks with
  | nil =>
    rw [hb] at hfirst h
    exact ⟨_, _, kalloc_nil hb, hfirst, by rw [hb]; exact ⟨hcalls, fun vm k q hq => h.returns vm (k + 1) q hq, hsettled⟩⟩
  | cons b rest =>
    rw [hb] at hfirst h
    exact ⟨_, _, kalloc_cons hb, hfirst, ⟨hcalls, fun vm k q hq => h.returns vm (k + 1) q hq, hsettled⟩⟩

/-- A heap of one free block, and a request for a part of it. -/
def requestAt (ptr : Nat) : HeapRequest :=
  let r := freelistInit (fun _ => 0) (ptr - 16) 4096
  ⟨⟨r.1, r.2⟩, 64⟩

/-- A heap at its limit, with a free block that is too small. -/
def requestFull : HeapRequest :=
  let r := freelistInit (fun _ => 0) 0x1000 32
  ⟨⟨r.1, { r.2 with capacity := MAX_HEAP_SIZE }⟩, 64⟩

/-- There is nothing below the heap. -/
def noVm : HeapVm := ⟨fun _ mem => (0, mem), fun _ => false⟩

/-- For requests that ask nothing it is enough to look at one thing below the heap. -/
lemma serves_of (vm₀ : HeapVm) (hcalls : requests.length = n) (hsettled : ∀ r ∈ requests, grows r.heap r.size = false)
    (hreturns : requests.map (HeapRequest.pointer vm₀) =
      (List.range requests.length).map (fun k => .ok (blocks.getD k (errToPtr .ENOMEM)))) :
        Serves n blocks requests := by
  refine ⟨hcalls, fun vm k r hr => ?_, hsettled⟩
  have hk : k < requests.length := (List.getElem?_eq_some_iff.mp hr).1
  have hat : (requests.map (HeapRequest.pointer vm₀))[k]? = some (.ok (blocks.getD k (errToPtr .ENOMEM))) := by
    rw [hreturns, List.getElem?_map, List.getElem?_range hk]
    rfl
  rw [List.getElem?_map, hr] at hat
  have hsame := asksNothing_of_settled (hsettled r (List.mem_of_getElem? hr)) vm vm₀
  have h₀ : r.pointer vm₀ = .ok (blocks.getD k (errToPtr .ENOMEM)) := Option.some.inj hat
  rw [← h₀]
  unfold HeapRequest.pointer
  rw [hsame]

end KaworuOS.Proofs
