import KaworuOS.Pmm
import KaworuOS.Lib.Chain

/-!
# The chain of free frames

`PmmInv s free` says that `pmm.free_list` goes through the frames `free`, in this order. Only the
first word of each free frame matters, so the chain survives every write elsewhere.
-/

namespace KaworuOS.Proofs
open Lib

/-- A frame of physical memory whose direct map does not reach the last page of the address space,
where the error pointers are. -/
structure IsFrame (hhdm f : Nat) : Prop where
  aligned : f % 4096 = 0
  bound : f < 2 ^ 48
  top : f + hhdm + 4096 < 2 ^ 64

/-- A page of physical memory whose direct map ends before the last page of the address space. -/
structure IsChunk (hhdm f : Nat) : Prop where
  aligned : f % 4096 = 0
  top : f + hhdm + 4096 < 2 ^ 64

/-- The address `x` lies in the direct map of the frame `f`. -/
def InPage (hhdm f x : Nat) : Prop := f + hhdm ≤ x ∧ x < f + hhdm + 4096

/-- Two memories agree on the direct map of the frame `f`. -/
def SamePage (hhdm : Nat) (mem mem' : Mem) (f : Nat) : Prop := mem.EqOn mem' (f + hhdm) 4096

/-- The offset of the direct map is page aligned and keeps null out of it. -/
structure GoodHhdm (hhdm : Nat) : Prop where
  positive : 0 < hhdm
  aligned : hhdm % 4096 = 0

/-- The free list of `pmm` goes through the pages of `free`, each of which it visits once. -/
structure FreeChain (s : Mm) (free : List Nat) : Prop where
  positive : 0 < s.hhdm
  chunks : ∀ f ∈ free, IsChunk s.hhdm f
  nodup : free.Nodup
  chain : Seg s.mem.load64 s.freeList (free.map (· + s.hhdm)) 0

/-- The free list of `pmm` goes through the frames of `free`. -/
structure PmmInv (s : Mm) (free : List Nat) : Prop where
  good : GoodHhdm s.hhdm
  frames : ∀ f ∈ free, IsFrame s.hhdm f
  nodup : free.Nodup
  chain : Seg s.mem.load64 s.freeList (free.map (· + s.hhdm)) 0

variable {s s' : Mm} {free : List Nat} {f g i j v x : Nat}

lemma IsFrame.chunk {hhdm : Nat} (hf : IsFrame hhdm f) : IsChunk hhdm f := ⟨hf.aligned, hf.top⟩

lemma IsChunk.apart {hhdm : Nat} (hf : IsChunk hhdm f) (hg : IsChunk hhdm g) (hne : f ≠ g) :
    f + 4096 ≤ g ∨ g + 4096 ≤ f := by
  have h1 := hf.aligned
  have h2 := hg.aligned
  omega

lemma IsFrame.apart {hhdm : Nat} (hf : IsFrame hhdm f) (hg : IsFrame hhdm g) (hne : f ≠ g) :
    f + 4096 ≤ g ∨ g + 4096 ≤ f := hf.chunk.apart hg.chunk hne

lemma PmmInv.freeChain (h : PmmInv s free) : FreeChain s free :=
  ⟨h.good.positive, fun f hf => (h.frames f hf).chunk, h.nodup, h.chain⟩

lemma readWord_ok {p : Nat} (h : isErrValue p = false) :
    readWord p s = (.ok (s.mem.load64 p), s) := by
  rw [readWord, h]
  rfl

lemma writeWord_ok {p : Nat} (h : isErrValue p = false) :
    writeWord p v s = (.ok (), { s with mem := s.mem.store64 p v }) := by
  rw [writeWord, h]
  rfl

lemma readWord_ends (p : Nat) (s : Mm) :
    Call.Ends (fun _ _ => True) (readWord p) s (fun v s' => v = s.mem.load64 p ∧ s' = s) := by
  cases herr : isErrValue p with
  | true =>
    have hhalt : readWord p s = (.error .fault, s) := by rw [readWord, if_pos herr]; rfl
    exact Call.ends_of_error hhalt trivial
  | false => exact Call.ends_of_ok (readWord_ok herr) ⟨rfl, rfl⟩

lemma writeWord_ends (p v : Nat) (s : Mm) : Call.Ends (fun _ _ => True) (writeWord p v) s
    (fun _ s' => s' = { s with mem := s.mem.store64 p v }) := by
  cases herr : isErrValue p with
  | true =>
    have hhalt : writeWord p v s = (.error .fault, s) := by rw [writeWord, if_pos herr]; rfl
    exact Call.ends_of_error hhalt trivial
  | false => exact Call.ends_of_ok (writeWord_ok herr) rfl

lemma pmmVirtToPhys_ok (hhdm : s.hhdm = g) : pmmVirtToPhys (f + g) s = (.ok f, s) := by
  subst hhdm
  have h1 : s.hhdm ≤ f + s.hhdm := by omega
  simp [pmmVirtToPhys, h1]

lemma pmmPhysToVirt_ok (h : f + s.hhdm < 2 ^ 64) : pmmPhysToVirt f s = (.ok (f + s.hhdm), s) := by
  rw [pmmPhysToVirt, Call.read, wadd_of_lt h]

lemma FreeChain.congr (h : FreeChain s free) (hhdm : s'.hhdm = s.hhdm) (hlist : s'.freeList = s.freeList)
    (hmem : ∀ f ∈ free, SamePage s.hhdm s.mem s'.mem f) : FreeChain s' free := by
  refine ⟨hhdm ▸ h.positive, hhdm ▸ h.chunks, h.nodup, ?_⟩
  rw [hhdm, hlist]
  apply h.chain.congr
  intro a ha
  obtain ⟨f, hf, rfl⟩ := List.mem_map.mp ha
  exact Mem.load64_congr ((hmem f hf).mono (Nat.le_refl _) (by omega))

lemma PmmInv.congr (h : PmmInv s free) (hhdm : s'.hhdm = s.hhdm) (hlist : s'.freeList = s.freeList)
    (hmem : ∀ f ∈ free, SamePage s.hhdm s.mem s'.mem f) : PmmInv s' free :=
  ⟨hhdm ▸ h.good, hhdm ▸ h.frames, h.nodup, (h.freeChain.congr hhdm hlist hmem).chain⟩

lemma SamePage.trans {hhdm : Nat} {m m' m'' : Mem} (h : SamePage hhdm m m' f)
    (h' : SamePage hhdm m' m'' f) : SamePage hhdm m m'' f :=
  Mem.EqOn.trans h h'

lemma IsChunk.samePage_fill {hhdm : Nat} (mem : Mem) (hf : IsChunk hhdm f) (hg : IsChunk hhdm g) (hne : f ≠ g) :
    SamePage hhdm mem (mem.fill (g + hhdm) 4096 0) f := by
  have h1 := hf.apart hg hne
  exact Mem.fill_eqOn mem 0 (by omega)

lemma samePage_fill {hhdm : Nat} (mem : Mem) (hf : IsFrame hhdm f) (hg : IsFrame hhdm g) (hne : f ≠ g) :
    SamePage hhdm mem (mem.fill (g + hhdm) 4096 0) f := hf.chunk.samePage_fill mem hg.chunk hne

lemma samePage_store {hhdm : Nat} (mem : Mem) (hf : IsFrame hhdm f) (hg : IsFrame hhdm g) (hne : f ≠ g)
    (hj : j < 512) : SamePage hhdm mem (mem.store64 (g + hhdm + 8 * j) v) f := by
  have h1 := hf.apart hg hne
  exact Mem.store64_eqOn mem (by omega)

lemma FreeChain.alloc_nil (h : FreeChain s []) :
    pmmAlloc s = (.ok (errToPtr .ENOMEM), { s with log := { s.log with failed := s.log.failed + 1 } }) := by
  have h0 : s.freeList = 0 := h.chain
  rw [pmmAlloc, Call.read_bind, if_pos h0]
  rfl

lemma pmmAlloc_nil (h : PmmInv s []) :
    pmmAlloc s = (.ok (errToPtr .ENOMEM), { s with log := { s.log with failed := s.log.failed + 1 } }) :=
  h.freeChain.alloc_nil

/-- The state after `pmm_alloc` has taken the frame `f`. -/
def takeFrame (s : Mm) (f : Nat) : Mm :=
  { s with mem := s.mem.fill (f + s.hhdm) 4096 0, freeList := s.mem.load64 (f + s.hhdm) }

lemma FreeChain.alloc_cons (h : FreeChain s (f :: free)) : pmmAlloc s = (.ok f, takeFrame s f) := by
  obtain ⟨hfirst, hne, -⟩ := h.chain
  have hf := h.chunks f (by simp)
  have hread : readWord (f + s.hhdm) s = (.ok (s.mem.load64 (f + s.hhdm)), s) := by
    have h1 := hf.top
    exact readWord_ok (not_isErrValue_of_lt (by omega))
  simp only [pmmAlloc, Call.read_bind, hfirst, hne, if_false]
  rw [Call.bind_ok hread, Call.update_bind, memset, Call.update_bind]
  exact pmmVirtToPhys_ok rfl

lemma pmmAlloc_cons (h : PmmInv s (f :: free)) : pmmAlloc s = (.ok f, takeFrame s f) := h.freeChain.alloc_cons

lemma FreeChain.take (h : FreeChain s (f :: free)) : FreeChain (takeFrame s f) free := by
  obtain ⟨-, -, hrest⟩ := h.chain
  have hnot := (List.nodup_cons.mp h.nodup).1
  refine ⟨h.positive, fun g hg => h.chunks g (by simp [hg]), (List.nodup_cons.mp h.nodup).2, ?_⟩
  apply hrest.congr
  intro a ha
  obtain ⟨g, hg, rfl⟩ := List.mem_map.mp ha
  have hne : g ≠ f := by
    rintro rfl
    exact hnot hg
  have hsame := (h.chunks g (by simp [hg])).samePage_fill s.mem (h.chunks f (by simp)) hne
  exact Mem.load64_congr (hsame.mono (Nat.le_refl _) (by omega))

lemma PmmInv.take (h : PmmInv s (f :: free)) : PmmInv (takeFrame s f) free := by
  have htake := h.freeChain.take
  exact ⟨h.good, fun g hg => h.frames g (by simp [hg]), htake.nodup, htake.chain⟩

/-- The state after `pmm_free` has given the frame `f` back. -/
def giveFrame (s : Mm) (f : Nat) : Mm :=
  { s with
    mem := s.mem.store64 (f + s.hhdm) s.freeList
    freeList := f + s.hhdm
    log := { s.log with released := f :: s.log.released } }

lemma IsChunk.free_ok (hf : IsChunk s.hhdm f) : pmmFree f s = (.ok (), giveFrame s f) := by
  have h1 := hf.top
  have haligned : isPageAligned f = true := (isPageAligned_iff f).mpr hf.aligned
  have hvirt : pmmPhysToVirt f s = (.ok (f + s.hhdm), s) := pmmPhysToVirt_ok (by omega)
  have hwrite : writeWord (f + s.hhdm) s.freeList s =
      (.ok (), { s with mem := s.mem.store64 (f + s.hhdm) s.freeList }) :=
    writeWord_ok (not_isErrValue_of_lt (by omega))
  simp only [pmmFree, haligned, if_true]
  rw [Call.bind_ok hvirt, Call.read_bind, Call.bind_ok hwrite]
  rfl

lemma pmmFree_ok (hf : IsFrame s.hhdm f) : pmmFree f s = (.ok (), giveFrame s f) := hf.chunk.free_ok

lemma FreeChain.give (h : FreeChain s free) (hf : IsChunk s.hhdm f) (hnot : f ∉ free) :
    FreeChain (giveFrame s f) (f :: free) := by
  have hpos := h.positive
  refine ⟨h.positive, ?_, List.nodup_cons.mpr ⟨hnot, h.nodup⟩, rfl, ?_, ?_⟩
  · intro g hg
    rcases List.mem_cons.mp hg with rfl | hg
    · exact hf
    · exact h.chunks g hg
  · show f + s.hhdm ≠ 0
    omega
  · have hbound : s.freeList < 2 ^ 64 := by
      have hchain := h.chain
      cases hfree : free with
      | nil =>
        rw [hfree] at hchain
        have h0 : s.freeList = 0 := hchain
        omega
      | cons g rest =>
        rw [hfree] at hchain
        have h0 : s.freeList = g + s.hhdm := hchain.1
        have h1 := (h.chunks g (by simp [hfree])).top
        omega
    have hhead : (giveFrame s f).mem.load64 (f + s.hhdm) = s.freeList := by
      show (s.mem.store64 (f + s.hhdm) s.freeList).load64 (f + s.hhdm) = s.freeList
      rw [Mem.load64_store64_same, Nat.mod_eq_of_lt hbound]
    show Seg (giveFrame s f).mem.load64 ((giveFrame s f).mem.load64 (f + s.hhdm)) _ 0
    rw [hhead]
    apply h.chain.congr
    intro a ha
    obtain ⟨g, hg, rfl⟩ := List.mem_map.mp ha
    have hne : g ≠ f := by
      rintro rfl
      exact hnot hg
    have h1 := (h.chunks g hg).apart hf hne
    exact Mem.load64_store64_of_disjoint _ (by omega)

lemma PmmInv.give (h : PmmInv s free) (hf : IsFrame s.hhdm f) (hnot : f ∉ free) :
    PmmInv (giveFrame s f) (f :: free) := by
  have hgive := h.freeChain.give hf.chunk hnot
  refine ⟨h.good, ?_, hgive.nodup, hgive.chain⟩
  intro g hg
  rcases List.mem_cons.mp hg with rfl | hg
  · exact hf
  · exact h.frames g hg

/-- The ranges may overlap if the destination begins before the source. -/
lemma copyBytes_eq_blit (mem : Mem) {dest src n : Nat} (hdest : dest + n ≤ 2 ^ 64) (hsrc : src + n ≤ 2 ^ 64)
    (hahead : dest ≤ src ∨ src + n ≤ dest) : copyBytes mem dest src n = mem.blit dest src n := by
  induction n generalizing mem dest src with
  | zero =>
    funext x
    simp only [copyBytes, Mem.blit]
    rw [if_neg (by omega)]
  | succ n ih =>
    rw [copyBytes]
    rcases Nat.eq_zero_or_pos n with rfl | hpos
    · funext x
      rw [copyBytes, Mem.set, Mem.blit]
      by_cases hx : x = dest
      · subst hx
        rw [if_pos rfl, if_pos (by omega), Nat.sub_self, Nat.add_zero]
      · rw [if_neg hx, if_neg (by omega)]
    · have h1 : wadd dest 1 = dest + 1 := wadd_of_lt (by omega)
      have h2 : wadd src 1 = src + 1 := wadd_of_lt (by omega)
      rw [h1, h2, ih _ (by omega) (by omega) (by omega)]
      funext x
      unfold Mem.blit
      by_cases hx : x = dest
      · subst hx
        rw [if_neg (by omega), if_pos (by omega), Mem.set_same, Nat.sub_self, Nat.add_zero]
      · by_cases hin : dest + 1 ≤ x ∧ x < dest + 1 + n
        · have hoff : src + 1 + (x - (dest + 1)) = src + (x - dest) := by omega
          rw [if_pos hin, if_pos (by omega), hoff]
          exact Mem.set_other mem _ (by omega)
        · rw [if_neg hin, if_neg (by omega), Mem.set_other mem _ hx]

/-- A memory of zeroes whose free frames have been given to `pmm` one by one. -/
def bootMm (hhdm : Nat) : List Nat → Mm
  | [] => ⟨fun _ => 0, hhdm, 0, ⟨[], []⟩, ⟨0, [], [], []⟩⟩
  | f :: free => giveFrame (bootMm hhdm free) f

lemma bootMm_hhdm (hhdm : Nat) (free : List Nat) : (bootMm hhdm free).hhdm = hhdm := by
  cases free with
  | nil => rfl
  | cons f free => exact bootMm_hhdm hhdm free

lemma bootMm_inv {hhdm : Nat} (hgood : GoodHhdm hhdm) {free : List Nat}
    (hframes : ∀ f ∈ free, f % 4096 = 0 ∧ f < 2 ^ 48 ∧ f + hhdm + 4096 < 2 ^ 64) (hnodup : free.Nodup) :
    PmmInv (bootMm hhdm free) free := by
  induction free with
  | nil => exact ⟨hgood, by simp, List.nodup_nil, rfl⟩
  | cons f free ih =>
    obtain ⟨h1, h2, h3⟩ := hframes f (by simp)
    obtain ⟨hnot, hrest⟩ := List.nodup_cons.mp hnodup
    apply (ih (fun g hg => hframes g (by simp [hg])) hrest).give _ hnot
    rw [bootMm_hhdm]
    exact ⟨h1, h2, h3⟩

/-- How often `pmm_alloc` has failed so far. -/
def failures (s : Mm) : Nat := s.log.failed

/-- A quantity of the heap and of `failures`, which no failure makes smaller. Code that neither allocates nor frees blocks
of the heap never makes it smaller. -/
class Gauge (m : Mm → Nat) : Prop where
  le : ∀ {s s' : Mm}, s'.heap = s.heap → failures s ≤ failures s' → m s ≤ m s'

instance : Gauge failures := ⟨fun _ h => h⟩

variable {m : Mm → Nat} [Gauge m]

lemma mono_sameHeap {g : Mm → Mm} (hheap : ∀ s, (g s).heap = s.heap) (hfail : ∀ s, failures s ≤ failures (g s)) :
    Call.Mono m (Call.update g : Kernel Unit) :=
  Call.mono_update (fun s => Gauge.le (hheap s) (hfail s))

omit [Gauge m] in
lemma mono_readWord (p : Nat) : Call.Mono m (readWord p) :=
  Call.mono_ite (Call.mono_halt _) (Call.mono_read _)

lemma mono_writeWord (p v : Nat) : Call.Mono m (writeWord p v) :=
  Call.mono_ite (Call.mono_halt _) (mono_sameHeap (fun _ => rfl) (fun _ => Nat.le_refl _))

omit [Gauge m] in
lemma mono_pmmPhysToVirt (phy : Nat) : Call.Mono m (pmmPhysToVirt phy) := Call.mono_read _

omit [Gauge m] in
lemma mono_pmmVirtToPhys (virt : Nat) : Call.Mono m (pmmVirtToPhys virt) :=
  Call.mono_bind (Call.mono_read _) (fun _ => Call.mono_ite (Call.mono_pure _) (Call.mono_halt _))

lemma mono_pmmAlloc : Call.Mono m pmmAlloc := by
  apply Call.mono_bind (Call.mono_read _)
  intro ret
  apply Call.mono_ite
  · exact Call.mono_bind (mono_sameHeap (fun _ => rfl) (fun s => Nat.le_succ _)) (fun _ => Call.mono_pure _)
  · apply Call.mono_bind (mono_readWord _)
    intro next
    refine Call.mono_bind ?_ (fun _ => Call.mono_bind ?_ (fun _ => mono_pmmVirtToPhys _))
    · exact mono_sameHeap (fun _ => rfl) (fun _ => Nat.le_refl _)
    · exact mono_sameHeap (fun _ => rfl) (fun _ => Nat.le_refl _)

lemma mono_pmmFree (phyAddr : Nat) : Call.Mono m (pmmFree phyAddr) := by
  apply Call.mono_ite
  · apply Call.mono_bind (mono_pmmPhysToVirt _)
    intro p
    apply Call.mono_bind (Call.mono_read _)
    intro next
    exact Call.mono_bind (mono_writeWord _ _) (fun _ => mono_sameHeap (fun _ => rfl) (fun _ => Nat.le_refl _))
  · exact Call.mono_halt _

end KaworuOS.Proofs
