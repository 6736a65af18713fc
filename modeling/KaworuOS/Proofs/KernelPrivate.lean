import KaworuOS.Proofs.KernelBytes
import KaworuOS.Proofs.KernelProtection
import KaworuOS.Proofs.UaccessString

/-!
# Allocations are private memory

The pages of an allocation are its owner's alone. While they stay allocated they keep their frames, and what is read there
through the kernel's table is what the owner has written, whatever is called and written for others.
-/

namespace KaworuOS.Proofs
open Lib

variable {s₀ s₁ : Mm} {root x y f : Nat} {T T₀ T' : Tree} {free free' free₀ owned owned' : List Nat}
  {boot : Nat → Option Leaf} {r r₀ r' : KernelRun} {g : KernelRegion} {P : Nat → Prop} {l : Leaf} {m mem : Mem}
  {resp : LimineResponses} {memmap : Memmap} {image : KernelImage} {k : KernelSpace}

/-- The byte that the kernel reads at an address. -/
def KernelRun.byte (r : KernelRun) (x : Nat) : Option UInt8 := userByte r.space.kernelPageTable r.mm x

/-- The frame is behind one of the pages. -/
def KernelRun.Backs (r : KernelRun) (P : Nat → Prop) (f : Nat) : Prop :=
  ∃ va, Upper va ∧ va % 4096 = 0 ∧ P (pageOf va) ∧ pagingLookup r.space.kernelPageTable va r.mm = (.ok f, r.mm)

/-- The runs in which some pages of a region stay allocated, with what their owner has written there. Others call the
kernel, and write into their own frames. -/
inductive PrivateRun (g : KernelRegion) (P : Nat → Prop) (r₀ : KernelRun) : Mem → KernelRun → Prop
  | start : PrivateRun g P r₀ (fun x => (r₀.byte x).getD 0) r₀
  | call {m : Mem} {r r' : KernelRun} (h : PrivateRun g P r₀ m r) (hcall : KernelCall r r')
      (hkeep : ∀ q, P q → AllocPage (r'.vm g) q) : PrivateRun g P r₀ m r'
  | store {m : Mem} {r : KernelRun} {x pa : Nat} {v : UInt8} (h : PrivateRun g P r₀ m r) (hx : Upper x)
      (hP : P (pageOf x))
      (hpa : translate r.space.kernelPageTable x r.mm = some pa) :
      PrivateRun g P r₀ (m.set x v) (r.wrote (r.mm.mem.set (wadd pa r.mm.hhdm) v))
  | others {m mem : Mem} {r : KernelRun} (h : PrivateRun g P r₀ m r)
      (hmem : ∀ x, (∀ f, f ∈ r.held ∨ (r.Allocated f ∧ ¬r.Backs P f) → ¬InPage r.mm.hhdm f x) → mem x = r.mm.mem x) :
      PrivateRun g P r₀ m (r.wrote mem)

/-- The invariant of such a run, from the mappings `T₀` on. -/
structure PrivateInv (free₀ : List Nat) (boot : Nat → Option Leaf) (g : KernelRegion) (P : Nat → Prop) (root : Nat)
    (T₀ : Tree) (m : Mem) (r : KernelRun) (T : Tree) (owned free : List Nat) : Prop where
  kernel : KernelInv free₀ boot r root T owned free
  pages : ∀ q, P q → AllocPage (r.vm g) q
  leaf : ∀ q, P q → T.leaf q = T₀.leaf q
  bytes : ∀ x l, Upper x → P (pageOf x) → T.leaf (pageOf x) = some l → r.mm.mem (l.pa + x % 4096 + r.mm.hhdm) = m x

lemma Upper.roundDown (hx : Upper x) : Upper (x / 4096 * 4096) ∧ pageOf (x / 4096 * 4096) = pageOf x := by
  obtain ⟨h1, h2⟩ := hx
  have hdown : Upper (x / 4096 * 4096) := ⟨by omega, by omega⟩
  refine ⟨hdown, ?_⟩
  rw [hdown.pageOf_eq, Upper.pageOf_eq ⟨h1, h2⟩]
  omega

/-- An address of the upper half is known by its page and its offset. -/
lemma Upper.eq_of_pageOf (hx : Upper x) (hy : Upper y) (hpage : pageOf x = pageOf y) (hoffset : x % 4096 = y % 4096) :
    x = y := by
  rw [hx.pageOf_eq, hy.pageOf_eq] at hpage
  unfold Upper at hx hy
  omega

section Page

variable (h : KernelInv free₀ boot r root T owned free)
include h

lemma KernelInv.page_frame {q : Nat} (hq : AllocPage (r.vm g) q) :
    ∃ l, T.leaf q = some l ∧ IsFrame r.mm.hhdm l.pa := by
  obtain ⟨howned, hhas⟩ := h.allocPage_owned hq
  obtain ⟨l, hl⟩ := Option.ne_none_iff_exists'.mp ((h.mapped g q hhas).mpr howned)
  have hmem := h.frames.leaf_owned (q := q) ⟨g, hq⟩ hl
  exact ⟨l, hl, (h.frames.mem_start (List.mem_append_left _ (List.mem_append_left _ hmem))).2⟩

lemma KernelInv.lookup_eq (hx : Upper x) (hl : T.leaf (pageOf x) = some l) :
    pagingLookup r.space.kernelPageTable (x / 4096 * 4096) r.mm = (.ok l.pa, r.mm) := by
  rw [h.table]
  exact pagingLookup_leaf h.frames.table (Nat.mul_mod_left _ _) (hx.roundDown.2 ▸ hl)

lemma KernelInv.translate_eq (hl : T.leaf (pageOf x) = some l) :
    translate r.space.kernelPageTable x r.mm = some (l.pa + x % 4096) := by
  rw [h.table]
  exact h.frames.table.translate_eq hl

/-- A byte of an allocated page is one of its frame. -/
lemma KernelInv.byte_eq (hl : T.leaf (pageOf x) = some l) (hframe : IsFrame r.mm.hhdm l.pa) :
    r.byte x = some (r.mm.mem (l.pa + x % 4096 + r.mm.hhdm)) := by
  have htop := hframe.top
  unfold KernelRun.byte userByte
  rw [h.translate_eq hl, Option.map_some, wadd_of_lt (by omega)]

lemma KernelInv.page_allocated (hx : Upper x) (hq : AllocPage (r.vm g) (pageOf x)) (hl : T.leaf (pageOf x) = some l) :
    r.Allocated l.pa := by
  obtain ⟨hdown, hpage⟩ := hx.roundDown
  refine ⟨g, x / 4096 * 4096, Nat.mul_mod_left _ _, ?_, hpage ▸ hq, h.lookup_eq hx hl⟩
  exact h.inRange_of_regionPage hdown (hpage ▸ (h.allocPage_owned hq).2)

/-- The pages of a new allocation are allocated. -/
lemma KernelInv.alloc_pages {size va q : Nat} {s : Mm} (hlt : size < 2 ^ 64)
    (hcall : r.space.alloc g size r.mm = (.ok (va, k), s)) (hok : isErrValue va = false)
    (hnever : failures s = failures r.mm) (hq : RegionAllocation.Covers ⟨va, size / 4096⟩ q) :
    AllocPage ((r.after g s k va (some .alloc)).vm g) q := by
  obtain ⟨region, hrun, rfl⟩ := setRegion_pair hcall
  rw [h.table] at hrun
  obtain ⟨_, _, _, haligned, ht, -, -⟩ := vmAlloc_fresh h.frames.table (h.pages g) hlt hrun hok hnever
  unfold KernelRun.after KernelRun.vm KernelSpace.setRegion
  simp only [Function.update_self]
  exact (allocPage_take (v := r.vm g) (h.pages g) ht haligned .alloc q).mpr (.inr ⟨rfl, hq⟩)

end Page

lemma inPage_byte {hhdm pa : Nat} : InPage hhdm pa (pa + x % 4096 + hhdm) := by
  unfold InPage
  omega

section Inv

variable (h : PrivateInv free₀ boot g P root T₀ m r T owned free)
include h

lemma PrivateInv.call (hcall : KernelCall r r') (hkeep : ∀ q, P q → AllocPage (r'.vm g) q)
    (hnever : failures r'.mm = failures r.mm) :
    ∃ T' owned' free', PrivateInv free₀ boot g P root T₀ m r' T' owned' free' := by
  obtain ⟨T', owned', free', hhdm, hkernel⟩ := h.kernel.call hcall hnever
  have hkept : ∀ q, P q → PageKept r.mm T r'.mm T' q := fun q hq =>
    h.kernel.call_keeps hcall hnever hkernel.frames.table (h.pages q hq) (hkeep q hq)
  refine ⟨T', owned', free', hkernel, hkeep, fun q hq => (hkept q hq).leaf.trans (h.leaf q hq), ?_⟩
  intro x l hx hP hl
  have hl' : T.leaf (pageOf x) = some l := (hkept _ hP).leaf.symm.trans hl
  rw [hhdm, (hkept _ hP).bytes l hl' _ inPage_byte]
  exact h.bytes x l hx hP hl'

lemma PrivateInv.store {pa : Nat} {v : UInt8} (hx : Upper x) (hP : P (pageOf x))
    (hpa : translate r.space.kernelPageTable x r.mm = some pa) :
    PrivateInv free₀ boot g P root T₀ (m.set x v) (r.wrote (r.mm.mem.set (wadd pa r.mm.hhdm) v)) T owned free := by
  obtain ⟨l, hl, hframe⟩ := h.kernel.page_frame (h.pages _ hP)
  have htop := hframe.top
  have hpa' := h.kernel.translate_eq hl
  rw [hpa] at hpa'
  obtain rfl := Option.some.inj hpa'
  rw [wadd_of_lt (by omega)]
  refine ⟨h.kernel.wrote ?_, h.pages, h.leaf, ?_⟩
  · intro z hz
    apply Mem.set_other
    rintro rfl
    exact hz l.pa (.inr (h.kernel.page_allocated hx (h.pages _ hP) hl)) inPage_byte
  · intro y l' hy hP' hl'
    show r.mm.mem.set (l.pa + x % 4096 + r.mm.hhdm) v (l'.pa + y % 4096 + r.mm.hhdm) = _
    by_cases hxy : y = x
    · subst hxy
      obtain rfl := Option.some.inj (hl.symm.trans hl')
      rw [Mem.set_same]
      exact (Mem.set_same ..).symm
    · have hne : l'.pa + y % 4096 + r.mm.hhdm ≠ l.pa + x % 4096 + r.mm.hhdm := by
        intro heq
        obtain ⟨l₁, hl₁, hframe'⟩ := h.kernel.page_frame (h.pages _ hP')
        obtain rfl := Option.some.inj (hl'.symm.trans hl₁)
        have hpa : l'.pa = l.pa := by
          have h1 := hframe.aligned
          have h2 := hframe'.aligned
          omega
        have hmine : r.Mine (pageOf y) := ⟨g, h.pages _ hP'⟩
        have hpage := h.kernel.frames.inj hmine ⟨g, h.pages _ hP⟩ hl' hl hpa
        exact hxy (hy.eq_of_pageOf hx hpage (by omega))
      rw [Mem.set_other _ _ hne, Mem.set_other _ _ hxy]
      exact h.bytes y l' hy hP' hl'

lemma PrivateInv.others
    (hmem : ∀ x, (∀ f, f ∈ r.held ∨ (r.Allocated f ∧ ¬r.Backs P f) → ¬InPage r.mm.hhdm f x) → mem x = r.mm.mem x) :
    PrivateInv free₀ boot g P root T₀ m (r.wrote mem) T owned free := by
  have hkernel := h.kernel.wrote fun x hx => hmem x fun f hf => hx f (hf.imp_right And.left)
  refine ⟨hkernel, h.pages, h.leaf, ?_⟩
  intro x l hx hP hl
  have hmine : r.Mine (pageOf x) := ⟨g, h.pages _ hP⟩
  show mem (l.pa + x % 4096 + r.mm.hhdm) = m x
  rw [← h.bytes x l hx hP hl]
  apply hmem
  rintro f (hf | ⟨hf, hback⟩) hin
  · exact h.kernel.frames.page_apart hmine hl inPage_byte (.inr (.inr hf)) hin
  · -- another frame does not overlap the one behind the page
    obtain ⟨q, l', hq, hl', rfl⟩ := h.kernel.allocated hf
    obtain ⟨g', hq'⟩ := hq
    obtain ⟨l₁, hl₁, hframe'⟩ := h.kernel.page_frame hq'
    obtain rfl := Option.some.inj (hl'.symm.trans hl₁)
    obtain ⟨l₂, hl₂, hframe⟩ := h.kernel.page_frame (h.pages _ hP)
    obtain rfl := Option.some.inj (hl.symm.trans hl₂)
    have hpa : l.pa = l'.pa := by
      by_contra hne
      have hapart := hframe.apart hframe' hne
      unfold InPage at hin
      omega
    apply hback
    obtain ⟨hdown, hpage⟩ := hx.roundDown
    exact ⟨_, hdown, Nat.mul_mod_left _ _, hpage ▸ hP, hpa ▸ h.kernel.lookup_eq hx hl⟩

end Inv

lemma PrivateRun.failures_le (hrun : PrivateRun g P r₀ m r) : failures r₀.mm ≤ failures r.mm := by
  induction hrun with
  | start => exact Nat.le_refl _
  | call _ hcall _ ih => exact Nat.le_trans ih hcall.failures_le
  | store _ _ _ _ ih => exact ih
  | others _ _ ih => exact ih

lemma PrivateRun.inv (h : KernelInv free₀ boot r₀ root T₀ owned free) (hpages : ∀ q, P q → AllocPage (r₀.vm g) q)
    (hrun : PrivateRun g P r₀ m r) (hnever : failures r.mm = failures r₀.mm) :
    ∃ T owned free, PrivateInv free₀ boot g P root T₀ m r T owned free := by
  induction hrun with
  | start =>
    refine ⟨T₀, owned, free, h, hpages, fun _ _ => rfl, ?_⟩
    intro x l hx hP hl
    obtain ⟨l', hl', hframe⟩ := h.page_frame (hpages _ hP)
    obtain rfl := Option.some.inj (hl.symm.trans hl')
    rw [h.byte_eq hl hframe, Option.getD_some]
  | @call m r r' hbefore hcall hkeep ih =>
    have h1 := hbefore.failures_le
    have h2 := hcall.failures_le
    obtain ⟨T, owned, free, hinv⟩ := ih (by omega)
    exact hinv.call hcall hkeep (by omega)
  | store _ hx hP hpa ih =>
    obtain ⟨T, owned, free, hinv⟩ := ih hnever
    exact ⟨T, owned, free, hinv.store hx hP hpa⟩
  | others _ hmem ih =>
    obtain ⟨T, owned, free, hinv⟩ := ih hnever
    exact ⟨T, owned, free, hinv.others hmem⟩

/-- **Allocations are private memory.** From any state that the kernel comes to after its boot, pages of a region that stay
allocated keep their translation, and what is read there is what their owner has written last. -/
theorem allocations_are_private (hgood : GoodBoot resp memmap image s₀)
    (hboot : kernelMainMemory resp image s₀ = (.ok k, s₁))
    (hbefore : Relation.ReflTransGen KernelStep (KernelRun.booted k s₁) r₀) (hpages : ∀ q, P q → AllocPage (r₀.vm g) q)
    (hrun : PrivateRun g P r₀ m r) (hnever : r.mm.log.failed = s₀.log.failed) (hx : Upper x) (hP : P (pageOf x)) :
    translate r.space.kernelPageTable x r.mm = translate r₀.space.kernelPageTable x r₀.mm ∧ r.byte x = some (m x) := by
  have hle₀ : failures s₀ ≤ failures s₁ := (mono_kernelMainMemory resp image).le hboot
  have hle₁ : failures s₁ ≤ failures r₀.mm := KernelStep.run_failures_le hbefore
  have hle := hrun.failures_le
  have hsame : failures r.mm = failures s₀ := hnever
  obtain ⟨user, root, M, hbooted⟩ := kernelMainMemory_booted hgood hboot (by omega)
  obtain ⟨free₀, T, owned, free, -, hinv⟩ := hbooted.inv hgood
  have hmm : (KernelRun.booted k s₁).mm = s₁ := rfl
  obtain ⟨T₀, owned₀, free₁, hinv₀⟩ := hinv.run hbefore (by rw [hmm]; omega)
  obtain ⟨T', owned', free', h⟩ := hrun.inv hinv₀ hpages (by omega)
  obtain ⟨l, hl, hframe⟩ := h.kernel.page_frame (h.pages _ hP)
  constructor
  · rw [h.kernel.translate_eq hl, hinv₀.translate_eq ((h.leaf _ hP).symm.trans hl)]
  · rw [h.kernel.byte_eq hl hframe, h.bytes x l hx hP hl]

/-- A boot, a page that is allocated after it, and a frame that somebody takes. -/
lemma smallBoot_allocates : ∃ k s₁ k' s₂ f s₃,
    kernelMainMemory smallResponses smallImage (bootMm (2 ^ 64 - 2 ^ 47) []) = (.ok k, s₁) ∧
      k.alloc .mem 0x1000 s₁ = (.ok (0xffffffffa0000000, k'), s₂) ∧ pmmAlloc s₂ = (.ok f, s₃) ∧ isErrValue f = false ∧
      failures s₁ = failures (bootMm (2 ^ 64 - 2 ^ 47) []) ∧ failures s₂ = failures (bootMm (2 ^ 64 - 2 ^ 47) []) ∧
      failures s₃ = failures (bootMm (2 ^ 64 - 2 ^ 47) []) := by
  let boot := kernelMainMemory smallResponses smallImage
  let s₀ := bootMm (2 ^ 64 - 2 ^ 47) []
  let k := boot.valueD s₀ ⟨0, 0, KernelRegion.storage, 0⟩
  let s₁ := (boot s₀).2
  let s₂ := (k.alloc .mem 0x1000 s₁).2
  have hboot : boot s₀ = (.ok k, s₁) := Call.eq_valueD _ (by decide +kernel)
  have halloc : k.alloc .mem 0x1000 s₁ = (.ok (0xffffffffa0000000, _), s₂) :=
    Call.eq_pairD (0, k) (by decide +kernel) (by decide +kernel)
  have htake : pmmAlloc s₂ = (.ok (Call.valueD pmmAlloc s₂ 0), (pmmAlloc s₂).2) := Call.eq_valueD _ (by decide +kernel)
  have hok : isErrValue (Call.valueD pmmAlloc s₂ 0) = false := by decide +kernel
  have hnever₁ : failures s₁ = failures s₀ := by decide +kernel
  have hnever₂ : failures s₂ = failures s₀ := by decide +kernel
  have hnever₃ : failures (pmmAlloc s₂).2 = failures s₀ := by decide +kernel
  exact ⟨k, s₁, _, s₂, _, _, hboot, halloc, htake, hok, hnever₁, hnever₂, hnever₃⟩

/-- A byte is written to the first page that is allocated after a boot. Somebody takes a frame before and writes to it
afterwards. -/
theorem allocations_are_private_small : ∃ k s₁ r₀ m r f,
    kernelMainMemory smallResponses smallImage (bootMm (2 ^ 64 - 2 ^ 47) []) = (.ok k, s₁) ∧
      KernelStep (KernelRun.booted k s₁) r₀ ∧ PrivateRun .mem (fun q => q = 0xffffa0000) r₀ m r ∧
      translate r.space.kernelPageTable 0xffffffffa0000005 r.mm =
        translate r₀.space.kernelPageTable 0xffffffffa0000005 r₀.mm ∧
      r.byte 0xffffffffa0000005 = some 42 ∧ f ∈ r.held ∧ r.mm.mem (f + r.mm.hhdm) = 13 := by
  obtain ⟨k, s₁, k', s₂, f, s₃, hboot, halloc, htake, hok, hnever₁, hnever₂, hnever₃⟩ := smallBoot_allocates
  obtain ⟨user, root, M, hbooted⟩ := kernelMainMemory_booted smallResponses_good hboot hnever₁
  obtain ⟨free₀, T, owned, free, -, hinv⟩ := hbooted.inv smallResponses_good
  let r₀ : KernelRun := (KernelRun.booted k s₁).after .mem s₂ k' 0xffffffffa0000000 (some .alloc)
  let r₁ : KernelRun := { r₀ with mm := s₃, held := f :: r₀.held }
  have hcall : KernelCall (KernelRun.booted k s₁) r₀ := .alloc (by decide) halloc (by decide)
  have hpages : ∀ q, q = 0xffffa0000 → AllocPage (r₀.vm .mem) q := by
    rintro q rfl
    refine hinv.alloc_pages (by decide) halloc (by decide) (hnever₂.trans hnever₁.symm) ?_
    unfold RegionAllocation.Covers
    decide
  obtain ⟨T₀, owned₀, free₁, -, hinv₀⟩ := hinv.call hcall (hnever₂.trans hnever₁.symm)
  have htaken : KernelCall r₀ r₁ := .take htake hok
  have hstart : PrivateRun .mem (fun q => q = 0xffffa0000) r₀ (fun x => (r₀.byte x).getD 0) r₀ := .start
  have hrun₁ := hstart.call htaken hpages
  obtain ⟨T₁, owned₁, free₂, hinv₁⟩ := hrun₁.inv hinv₀ hpages (hnever₃.trans hnever₂.symm)
  have hpage : pageOf 0xffffffffa0000005 = 0xffffa0000 := by decide
  obtain ⟨l, hl, -⟩ := hinv₁.kernel.page_frame (hpages _ hpage)
  have hupper : Upper 0xffffffffa0000005 := by
    unfold Upper
    decide
  have hrun₂ := hrun₁.store (v := 42) hupper hpage (hinv₁.kernel.translate_eq hl)
  have hrun := @PrivateRun.others _ _ _ _ (Mem.set _ (f + s₃.hhdm) 13) _ hrun₂ (by
    intro x hx
    refine Mem.set_other _ _ fun heq => hx f (.inl List.mem_cons_self) ?_
    rw [heq]
    exact ⟨Nat.le_refl _, Nat.lt_add_of_pos_right (by decide)⟩)
  obtain ⟨hsame, hbyte⟩ := allocations_are_private smallResponses_good hboot (.single (.call hcall)) hpages hrun hnever₃
    hupper hpage
  rw [Mem.set_same] at hbyte
  exact ⟨k, s₁, r₀, _, _, f, hboot, .call hcall, hrun, hsame, hbyte, List.mem_cons_self, Mem.set_same ..⟩

end KaworuOS.Proofs
