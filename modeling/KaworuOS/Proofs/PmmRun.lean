import KaworuOS.Proofs.Pmm
import Mathlib.Logic.Relation

/-!
# Runs of the frame allocator

The frames come from the memory map. `pmm_init` links them through their own first words; from then
on frames are allocated, given back, and overwritten by their owners.
-/

namespace KaworuOS

/-- The entries that `pmm_init` hands out. -/
def MemMapEntry.Allocatable (entry : MemMapEntry) : Prop := entry.type = .ACPI_RECLAIMABLE ∨ entry.type = .USABLE

/-- The address `x` lies in the entry. -/
def MemMapEntry.Has (entry : MemMapEntry) (x : Nat) : Prop := entry.base ≤ x ∧ x < entry.base + entry.length

/-- The page `f` lies wholly inside the entry. -/
def MemMapEntry.Covers (entry : MemMapEntry) (f : Nat) : Prop :=
  f % PAGE_SIZE = 0 ∧ entry.base ≤ f ∧ f + PAGE_SIZE ≤ entry.base + entry.length

instance (entry : MemMapEntry) : Decidable entry.Allocatable := inferInstanceAs (Decidable (_ ∨ _))

instance (entry : MemMapEntry) (f : Nat) : Decidable (entry.Covers f) := inferInstanceAs (Decidable (_ ∧ _ ∧ _))

namespace Proofs
open Lib

/-- The frames of a memory map. -/
def IsMapFrame (entries : List MemMapEntry) (f : Nat) : Prop :=
  ∃ entry ∈ entries, entry.Allocatable ∧ entry.Covers f

/-- What the boot loader promises of the map and of the direct map at `hhdm`, which maps the entries
above null and below the end of the address space. -/
structure GoodMap (hhdm : Nat) (entries : List MemMapEntry) : Prop where
  aligned : ∀ entry ∈ entries, entry.Allocatable → entry.base % PAGE_SIZE = 0
  disjoint : entries.Pairwise (fun e e' => e.Allocatable → e'.Allocatable → ∀ x, ¬(e.Has x ∧ e'.Has x))
  good : GoodHhdm hhdm
  direct : ∀ entry ∈ entries, entry.Allocatable → entry.base + entry.length + hhdm < wordSize

/-- The call returns with `Q`. -/
abbrev Returns {α : Type} (x : Kernel α) (s : Mm) (Q : α → Mm → Prop) : Prop := Call.Ends (fun _ _ => False) x s Q

lemma Returns.run {α : Type} {x : Kernel α} {s : Mm} {Q : α → Mm → Prop} (h : Returns x s Q) :
    ∃ a s', x s = (.ok a, s') ∧ Q a s' := by
  rcases hx : x s with ⟨r, s'⟩
  rw [Returns, Call.Ends, hx] at h
  cases r with
  | error e => exact h.elim
  | ok a => exact ⟨a, s', rfl, h⟩

variable {s s' : Mm} {entries : List MemMapEntry} {free : List Nat} {hhdm f : Nat}

/-- The free list after some frames have been given to it. -/
structure Filled (s s' : Mm) (free : List Nat) (P : Nat → Prop) : Prop where
  hhdm : s'.hhdm = s.hhdm
  chain : ∃ free', FreeChain s' free' ∧ ∀ f, f ∈ free' ↔ f ∈ free ∨ P f

lemma pmmFreePages_returns {e : Nat} (turns p : Nat) (h : FreeChain s free) (hp : p % 4096 = 0) (hpe : p ≤ e)
    (hhdm : 4096 ≤ s.hhdm) (he : e + s.hhdm < 2 ^ 64) (hturns : (e - p) / 4096 < turns)
    (hnew : ∀ f, f % 4096 = 0 → p ≤ f → f + 4096 ≤ e → f ∉ free) :
    Returns (pmmFreePages e turns p) s (fun _ s' =>
      Filled s s' free (fun f => f % 4096 = 0 ∧ p ≤ f ∧ f + 4096 ≤ e)) := by
  induction turns generalizing p s free with
  | zero => omega
  | succ turns ih =>
    -- the end of a page does not wrap around, since the direct map does not
    have hnext : wadd p PAGE_SIZE = p + 4096 := wadd_of_lt (b := 4096) (by omega)
    unfold pmmFreePages
    rw [hnext]
    split
    case isFalse hend =>
      have hlast : ∀ f, ¬(f % 4096 = 0 ∧ p ≤ f ∧ f + 4096 ≤ e) := by omega
      exact ⟨rfl, free, h, fun f => ⟨.inl, fun hf => hf.resolve_right (hlast f)⟩⟩
    case isTrue hend =>
      have hchunk : IsChunk s.hhdm p := ⟨hp, by omega⟩
      have hgive := h.give hchunk (hnew p hp (Nat.le_refl p) hend)
      apply Call.ends_bind_ok hchunk.free_ok
      have hnew' : ∀ f, f % 4096 = 0 → p + 4096 ≤ f → f + 4096 ≤ e → f ∉ p :: free := by
        intro f h1 h2 h3 hmem
        rcases List.mem_cons.mp hmem with rfl | hmem
        · omega
        · exact hnew f h1 (by omega) h3 hmem
      apply (ih (p + 4096) hgive (by omega) hend hhdm he (by omega) hnew').mono
      rintro _ s' ⟨hhdm', free', hchain, hmem⟩
      refine ⟨hhdm', free', hchain, ?_⟩
      intro f
      rw [hmem f, List.mem_cons]
      constructor
      · rintro ((rfl | hf) | ⟨h1, h2, h3⟩)
        · exact .inr ⟨hp, Nat.le_refl f, hend⟩
        · exact .inl hf
        · exact .inr ⟨h1, by omega, h3⟩
      · rintro (hf | ⟨h1, h2, h3⟩)
        · exact .inl (.inr hf)
        · by_cases hfp : f = p
          · exact .inl (.inl hfp)
          · exact .inr ⟨h1, by omega, h3⟩

lemma pmmFreeRange_returns {p e : Nat} (h : FreeChain s free) (hp : p % 4096 = 0) (hpe : p ≤ e)
    (hhdm : 4096 ≤ s.hhdm) (he : e + s.hhdm < 2 ^ 64)
    (hnew : ∀ f, f % 4096 = 0 → p ≤ f → f + 4096 ≤ e → f ∉ free) :
    Returns (pmmFreeRange p e) s (fun _ s' =>
      Filled s s' free (fun f => f % 4096 = 0 ∧ p ≤ f ∧ f + 4096 ≤ e)) := by
  have hturns : (e - p) / 4096 < pageTurns := by
    unfold pageTurns
    omega
  exact pmmFreePages_returns pageTurns p h hp hpe hhdm he hturns hnew

lemma covers_has {entry : MemMapEntry} (h : entry.Covers f) : entry.Has f := by
  obtain ⟨-, h1, h2⟩ := h
  exact ⟨h1, Nat.lt_of_lt_of_le (Nat.lt_add_of_pos_right (by decide)) h2⟩

lemma pmmInitEntry_returns {entry : MemMapEntry} (h : FreeChain s free) (hgood : GoodHhdm s.hhdm)
    (haligned : entry.Allocatable → entry.base % PAGE_SIZE = 0)
    (hdirect : entry.Allocatable → entry.base + entry.length + s.hhdm < wordSize)
    (hnew : entry.Allocatable → ∀ f, entry.Covers f → f ∉ free) :
    Returns (match entry.type with
      | .ACPI_RECLAIMABLE | .USABLE => pmmFreeRange entry.base (wadd entry.base entry.length)
      | _ => return ()) s (fun _ s' => Filled s s' free (fun f => entry.Allocatable ∧ entry.Covers f)) := by
  by_cases halloc : entry.Allocatable
  case neg =>
    have hskip : Filled s s free (fun f => entry.Allocatable ∧ entry.Covers f) :=
      ⟨rfl, free, h, fun f => ⟨.inl, fun hf => hf.resolve_right (fun h' => halloc h'.1)⟩⟩
    unfold MemMapEntry.Allocatable at halloc
    split
    case h_1 htype => exact absurd (.inl htype) halloc
    case h_2 htype => exact absurd (.inr htype) halloc
    case h_3 => exact hskip
  have hpos := hgood.positive
  have hpage := hgood.aligned
  have htop : entry.base + entry.length + s.hhdm < 2 ^ 64 := hdirect halloc
  have hend : wadd entry.base entry.length = entry.base + entry.length := wadd_of_lt (by omega)
  have hfree : Returns (pmmFreeRange entry.base (wadd entry.base entry.length)) s
      (fun _ s' => Filled s s' free (fun f => entry.Allocatable ∧ entry.Covers f)) := by
    rw [hend]
    apply (pmmFreeRange_returns h (haligned halloc) (Nat.le_add_right _ _) (by omega) htop
      (fun f h1 h2 h3 => hnew halloc f ⟨h1, h2, h3⟩)).mono
    rintro _ s' ⟨hhdm, free', hchain, hmem⟩
    refine ⟨hhdm, free', hchain, ?_⟩
    intro f
    rw [hmem f]
    exact ⟨fun hf => hf.imp_right (fun h' => ⟨halloc, h'⟩), fun hf => hf.imp_right (fun h' => h'.2)⟩
  rcases halloc with htype | htype
  · rw [htype]
    exact hfree
  · rw [htype]
    exact hfree

lemma pmmInit_returns (h : FreeChain s free) (hmap : GoodMap s.hhdm entries)
    (hnew : ∀ f, IsMapFrame entries f → f ∉ free) :
    Returns (pmmInit entries) s (fun _ s' => Filled s s' free (IsMapFrame entries)) := by
  induction entries generalizing s free with
  | nil =>
    refine ⟨rfl, free, h, fun f => ⟨.inl, ?_⟩⟩
    rintro (hf | ⟨entry, hentry, -⟩)
    · exact hf
    · cases hentry
  | cons entry entries ih =>
    have hrest : GoodMap s.hhdm entries :=
      ⟨fun e he => hmap.aligned e (List.mem_cons_of_mem _ he), (List.pairwise_cons.mp hmap.disjoint).2, hmap.good,
        fun e he => hmap.direct e (List.mem_cons_of_mem _ he)⟩
    have hfirst : Returns
        (match entry.type with
          | .ACPI_RECLAIMABLE | .USABLE => pmmFreeRange entry.base (wadd entry.base entry.length)
          | _ => return ()) s
        (fun _ s' => Filled s s' free (fun f => entry.Allocatable ∧ entry.Covers f)) := by
      apply pmmInitEntry_returns h hmap.good (hmap.aligned entry List.mem_cons_self)
        (hmap.direct entry List.mem_cons_self)
      intro halloc f hcovers
      exact hnew f ⟨entry, List.mem_cons_self, halloc, hcovers⟩
    apply hfirst.bind
    rintro _ s₁ ⟨hhdm, free₁, hchain, hmem⟩
    have hnew₁ : ∀ f, IsMapFrame entries f → f ∉ free₁ := by
      rintro f ⟨e, he, halloc, hcovers⟩ hf
      rcases (hmem f).mp hf with hf | ⟨halloc', hcovers'⟩
      · exact hnew f ⟨e, List.mem_cons_of_mem _ he, halloc, hcovers⟩ hf
      · exact (List.pairwise_cons.mp hmap.disjoint).1 e he halloc' halloc f ⟨covers_has hcovers', covers_has hcovers⟩
    apply (ih hchain (hhdm ▸ hrest) hnew₁).mono
    rintro _ s₂ ⟨hhdm₂, free₂, hchain₂, hmem₂⟩
    refine ⟨hhdm₂.trans hhdm, free₂, hchain₂, ?_⟩
    intro f
    rw [hmem₂ f, hmem f]
    constructor
    · rintro ((hf | hf) | ⟨e, he, hf⟩)
      · exact .inl hf
      · exact .inr ⟨entry, List.mem_cons_self, hf⟩
      · exact .inr ⟨e, List.mem_cons_of_mem _ he, hf⟩
    · rintro (hf | ⟨e, he, hf⟩)
      · exact .inl (.inl hf)
      · rcases List.mem_cons.mp he with rfl | he
        · exact .inl (.inr hf)
        · exact .inr ⟨e, he, hf⟩

/-- A state of a run, with the frames that somebody has. -/
structure PmmRun where
  mm : Mm
  owned : List Nat

/-- The steps of a run: a frame is allocated, an owner gives a frame back, or an owner writes into a frame. -/
inductive PmmStep : PmmRun → PmmRun → Prop
  | alloc {r : PmmRun} {res : Nat} {s' : Mm} (hcall : pmmAlloc r.mm = (.ok res, s')) :
      PmmStep r ⟨s', if res = errToPtr .ENOMEM then r.owned else res :: r.owned⟩
  | free {r : PmmRun} {f : Nat} {s' : Mm} (hf : f ∈ r.owned) (hcall : pmmFree f r.mm = (.ok (), s')) :
      PmmStep r ⟨s', r.owned.erase f⟩
  | write {r : PmmRun} {f : Nat} {mem : Mem} (hf : f ∈ r.owned)
      (hmem : ∀ x, ¬InPage r.mm.hhdm f x → mem x = r.mm.mem x) : PmmStep r ⟨{ r.mm with mem := mem }, r.owned⟩

/-- The free list and the owners share the frames of the map: the chain through the free frames ends in
null and visits exactly those that nobody has, and `pmm_alloc` and `pmm_free` do what they are for. -/
structure PmmRun.Shared (entries : List MemMapEntry) (r : PmmRun) : Prop where
  chain : ∃ free : List Nat, Seg r.mm.mem.load64 r.mm.freeList (free.map (· + r.mm.hhdm)) 0 ∧ free.Nodup ∧
    ∀ f, f ∈ free ↔ IsMapFrame entries f ∧ f ∉ r.owned
  owned : r.owned.Nodup ∧ ∀ f ∈ r.owned, IsMapFrame entries f
  full : (pmmAlloc r.mm).1 = .ok (errToPtr .ENOMEM) ↔ ∀ f, IsMapFrame entries f → f ∈ r.owned
  alloc : (∃ f, IsMapFrame entries f ∧ f ∉ r.owned) → ∃ f s', pmmAlloc r.mm = (.ok f, s') ∧ IsMapFrame entries f ∧
    f ∉ r.owned ∧ ∀ x, InPage r.mm.hhdm f x → s'.mem x = 0
  free : ∀ f ∈ r.owned, ∃ s', pmmFree f r.mm = (.ok (), s')

/-- The invariant of a run, with the free frames in the order of the chain. -/
structure PmmRun.Inv (entries : List MemMapEntry) (r : PmmRun) (free : List Nat) : Prop where
  map : GoodMap r.mm.hhdm entries
  chain : FreeChain r.mm free
  mem_free : ∀ f, f ∈ free ↔ IsMapFrame entries f ∧ f ∉ r.owned
  nodup : r.owned.Nodup
  owned : ∀ f ∈ r.owned, IsMapFrame entries f

lemma GoodMap.chunk (h : GoodMap hhdm entries) (hf : IsMapFrame entries f) : IsChunk hhdm f := by
  obtain ⟨entry, hentry, halloc, haligned, -, hend⟩ := hf
  have h1 : entry.base + entry.length + hhdm < 2 ^ 64 := h.direct entry hentry halloc
  have h2 : f + 4096 ≤ entry.base + entry.length := hend
  exact ⟨haligned, by omega⟩

lemma GoodMap.ne_error (h : GoodMap hhdm entries) (hf : IsMapFrame entries f) : f ≠ errToPtr .ENOMEM := by
  have h1 := (h.chunk hf).top
  have h2 : errToPtr .ENOMEM = 2 ^ 64 - 12 := rfl
  omega

namespace PmmRun

variable {r r' : PmmRun}

lemma Inv.cases (h : r.Inv entries free) (hf : IsMapFrame entries f) : f ∈ r.owned ∨ f ∈ free := by
  by_cases hown : f ∈ r.owned
  · exact .inl hown
  · exact .inr ((h.mem_free f).mpr ⟨hf, hown⟩)

lemma Inv.shared (h : r.Inv entries free) : r.Shared entries := by
  refine ⟨⟨free, h.chain.chain, h.chain.nodup, h.mem_free⟩, ⟨h.nodup, h.owned⟩, ?_, ?_, ?_⟩
  · cases free with
    | nil =>
      rw [h.chain.alloc_nil]
      refine ⟨fun _ f hf => ?_, fun _ => rfl⟩
      exact (h.cases hf).resolve_right List.not_mem_nil
    | cons f free =>
      obtain ⟨hf, hnot⟩ := (h.mem_free f).mp List.mem_cons_self
      rw [h.chain.alloc_cons]
      constructor
      · intro heq
        exact absurd (Except.ok.inj heq) (h.map.ne_error hf)
      · intro hall
        exact absurd (hall f hf) hnot
  · rintro ⟨f, hf, hnot⟩
    cases free with
    | nil => exact absurd ((h.cases hf).resolve_left hnot) List.not_mem_nil
    | cons g free =>
      obtain ⟨hg, hgnot⟩ := (h.mem_free g).mp List.mem_cons_self
      refine ⟨g, takeFrame r.mm g, h.chain.alloc_cons, hg, hgnot, ?_⟩
      rintro x ⟨h1, h2⟩
      exact Mem.fill_apply r.mm.mem 0 h1 h2
  · intro f hf
    exact ⟨giveFrame r.mm f, (h.map.chunk (h.owned f hf)).free_ok⟩

lemma Inv.take (h : r.Inv entries (f :: free)) : Inv entries ⟨takeFrame r.mm f, f :: r.owned⟩ free := by
  obtain ⟨hf, hnot⟩ := (h.mem_free f).mp List.mem_cons_self
  refine ⟨h.map, h.chain.take, ?_, List.nodup_cons.mpr ⟨hnot, h.nodup⟩, ?_⟩
  · intro g
    have hg := h.mem_free g
    rw [List.mem_cons] at hg
    have hfresh := (List.nodup_cons.mp h.chain.nodup).1
    constructor
    · intro hmem
      obtain ⟨h1, h2⟩ := hg.mp (.inr hmem)
      refine ⟨h1, ?_⟩
      rw [List.mem_cons, not_or]
      exact ⟨fun heq => hfresh (heq ▸ hmem), h2⟩
    · rintro ⟨h1, h2⟩
      rw [List.mem_cons, not_or] at h2
      exact (hg.mpr ⟨h1, h2.2⟩).resolve_left h2.1
  · intro g hg
    rcases List.mem_cons.mp hg with rfl | hg
    · exact hf
    · exact h.owned g hg

lemma Inv.give (h : r.Inv entries free) (hf : f ∈ r.owned) :
    Inv entries ⟨giveFrame r.mm f, r.owned.erase f⟩ (f :: free) := by
  have hmap := h.owned f hf
  have hnot : f ∉ free := fun hmem => ((h.mem_free f).mp hmem).2 hf
  refine ⟨h.map, h.chain.give (h.map.chunk hmap) hnot, ?_, h.nodup.erase f, ?_⟩
  · intro g
    rw [List.mem_cons, h.mem_free g, h.nodup.mem_erase_iff]
    constructor
    · rintro (rfl | ⟨h1, h2⟩)
      · exact ⟨hmap, fun hc => hc.1 rfl⟩
      · exact ⟨h1, fun hc => h2 hc.2⟩
    · rintro ⟨h1, h2⟩
      by_cases hgf : g = f
      · exact .inl hgf
      · exact .inr ⟨h1, fun hc => h2 ⟨hgf, hc⟩⟩
  · intro g hg
    exact h.owned g (List.mem_of_mem_erase hg)

lemma Inv.write {mem : Mem} (h : r.Inv entries free) (hf : f ∈ r.owned)
    (hmem : ∀ x, ¬InPage r.mm.hhdm f x → mem x = r.mm.mem x) :
    Inv entries ⟨{ r.mm with mem := mem }, r.owned⟩ free := by
  refine ⟨h.map, h.chain.congr rfl rfl ?_, h.mem_free, h.nodup, h.owned⟩
  intro g hg x h1 h2
  obtain ⟨hgmap, hgnot⟩ := (h.mem_free g).mp hg
  have hne : g ≠ f := fun heq => hgnot (heq ▸ hf)
  have hapart := (h.map.chunk hgmap).apart (h.map.chunk (h.owned f hf)) hne
  apply hmem
  rintro ⟨h3, h4⟩
  omega

lemma Inv.step (h : r.Inv entries free) (hstep : PmmStep r r') : ∃ free', r'.Inv entries free' := by
  cases hstep with
  | alloc hcall =>
    cases free with
    | nil =>
      rw [h.chain.alloc_nil] at hcall
      obtain ⟨hres, rfl⟩ := Prod.mk.inj hcall
      obtain rfl := Except.ok.inj hres
      rw [if_pos rfl]
      exact ⟨[], h.map, h.chain.congr rfl rfl (by simp), h.mem_free, h.nodup, h.owned⟩
    | cons f free =>
      rw [h.chain.alloc_cons] at hcall
      obtain ⟨hres, rfl⟩ := Prod.mk.inj hcall
      obtain rfl := Except.ok.inj hres
      rw [if_neg (h.map.ne_error ((h.mem_free f).mp List.mem_cons_self).1)]
      exact ⟨free, h.take⟩
  | free hf hcall =>
    rw [(h.map.chunk (h.owned _ hf)).free_ok] at hcall
    obtain ⟨-, rfl⟩ := Prod.mk.inj hcall
    exact ⟨_, h.give hf⟩
  | write hf hmem => exact ⟨free, h.write hf hmem⟩

lemma Inv.run (h : r.Inv entries free) (hrun : Relation.ReflTransGen PmmStep r r') : ∃ free', r'.Inv entries free' := by
  induction hrun with
  | refl => exact ⟨free, h⟩
  | tail _ hstep ih =>
    obtain ⟨free', ih⟩ := ih
    exact ih.step hstep

end PmmRun

/-- **The frame allocator.** `pmm_init` puts the frames of the memory map on the free list; from then on,
whatever is allocated, freed and written, the free list visits each frame that nobody has once and
no other, and `pmm_alloc` returns one of them, cleared, or fails when there is none. -/
theorem frames_are_free_or_owned (entries : List MemMapEntry) (s : Mm) (hmap : GoodMap s.hhdm entries)
    (hempty : s.freeList = 0) :
    ∃ s', pmmInit entries s = (.ok (), s') ∧
      ∀ r, Relation.ReflTransGen PmmStep ⟨s', []⟩ r → r.Shared entries := by
  have hnil : FreeChain s [] := ⟨hmap.good.positive, by simp, List.nodup_nil, hempty⟩
  obtain ⟨_, s', hinit, hhdm, free, hchain, hmem⟩ := (pmmInit_returns hnil hmap (by simp)).run
  have hinv : PmmRun.Inv entries ⟨s', []⟩ free := by
    refine ⟨hhdm ▸ hmap, hchain, ?_, List.nodup_nil, by simp⟩
    intro f
    rw [hmem f]
    simp
  refine ⟨s', hinit, ?_⟩
  intro r hrun
  obtain ⟨free', hfree'⟩ := hinv.run hrun
  exact hfree'.shared

/-- A map with two usable entries around a reserved one. -/
def smallMap : List MemMapEntry :=
  [⟨0x1000, 0x2000, .USABLE⟩, ⟨0x3000, 0x1000, .RESERVED⟩, ⟨0x5000, 0x1000, .ACPI_RECLAIMABLE⟩]

lemma smallMap_good : GoodMap (2 ^ 64 - 2 ^ 47) smallMap := by
  refine ⟨by decide, ?_, ⟨by decide, by decide⟩, by decide⟩
  refine List.pairwise_cons.mpr ⟨?_, List.pairwise_cons.mpr ⟨?_, List.pairwise_singleton ..⟩⟩
  · intro e he _ _ x
    simp only [List.mem_cons, List.not_mem_nil, or_false] at he
    rcases he with rfl | rfl
    · simp only [MemMapEntry.Has]
      omega
    · simp only [MemMapEntry.Has]
      omega
  · intro e _ halloc
    exact absurd halloc (by decide)

/-- The first allocation from a map with three frames. -/
theorem frames_are_free_or_owned_small :
    ∃ s r, pmmInit smallMap (bootMm (2 ^ 64 - 2 ^ 47) []) = (.ok (), s) ∧ PmmStep ⟨s, []⟩ r ∧ r.owned.length = 1 ∧
      r.Shared smallMap := by
  obtain ⟨s, hinit, hall⟩ := frames_are_free_or_owned smallMap (bootMm (2 ^ 64 - 2 ^ 47) []) smallMap_good rfl
  have hfirst : IsMapFrame smallMap 0x1000 := by
    refine ⟨⟨0x1000, 0x2000, .USABLE⟩, by decide, .inr rfl, by decide⟩
  obtain ⟨f, s', halloc, hf, -, -⟩ := (hall _ .refl).alloc ⟨0x1000, hfirst, List.not_mem_nil⟩
  have hstep := PmmStep.alloc (r := ⟨s, []⟩) halloc
  have hne : f ≠ errToPtr .ENOMEM := smallMap_good.ne_error hf
  rw [if_neg hne] at hstep
  exact ⟨s, _, hinit, hstep, rfl, hall _ (.single hstep)⟩

end Proofs

end KaworuOS
