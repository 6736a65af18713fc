import KaworuOS.Wait4
import KaworuOS.Proofs.UaccessString

/-!
# A parent and its zombies

`sys_wait4` unlinks a zombie before it copies the exit code, and does not link it again when the copy
fails. A run of calls in which every zombie that is found meets a status pointer that the check accepts
returns every child once.
-/

namespace KaworuOS.Proofs
open Lib

variable {s s' s₀ : Family} {parent table status : Nat}

/-- The children list of the parent. -/
def childrenOf (parent : Nat) (s : Family) : List Nat := (s.proc parent).children

/-- The memory translates the eight bytes at `status` to bytes that then hold `code`. -/
def StoredAt (table status : Nat) (mm : Mm) (mem : Mem) (code : Int) : Prop :=
  ∀ i < 8, ∃ pa, translate table (wadd status i) mm = some pa ∧
    mem (wadd pa mm.hhdm) = UInt8.ofNat (castU64 code / 256 ^ i)

lemma wadd_succ (a i : Nat) : wadd (wadd a 1) i = wadd a (i + 1) := by
  unfold wadd wordSize
  omega

/-- Bytes that go to distinct addresses are all in memory at the end. -/
lemma storeToUser_ok {mmu : Nat → Option Nat} {bytes : List UInt8} {dst : Nat} {m m' : Mm} (hdst : dst < 2 ^ 64)
    (hcall : storeToUser mmu dst bytes m = (.ok (), m'))
    (hapart : ∀ i j pa pa', i < j → j < bytes.length → mmu (wadd dst i) = some pa → mmu (wadd dst j) = some pa' →
      wadd pa m.hhdm ≠ wadd pa' m.hhdm) :
    (∀ a, (∀ i < bytes.length, ∀ pa, mmu (wadd dst i) = some pa → wadd pa m.hhdm ≠ a) → m'.mem a = m.mem a) ∧
      ∀ i byte, bytes[i]? = some byte → ∃ pa, mmu (wadd dst i) = some pa ∧ m'.mem (wadd pa m.hhdm) = byte := by
  induction bytes generalizing dst m with
  | nil =>
    obtain ⟨-, rfl⟩ := Prod.mk.inj hcall
    exact ⟨fun _ _ => rfl, nofun⟩
  | cons byte bytes ih =>
    have hzero : wadd dst 0 = dst := wadd_of_lt hdst
    rw [storeToUser] at hcall
    cases hpa : mmu dst with
    | none =>
      rw [hpa] at hcall
      cases hcall
    | some pa =>
      rw [hpa] at hcall
      have hlt : wadd dst 1 < 2 ^ 64 := Nat.mod_lt _ (Nat.two_pow_pos 64)
      obtain ⟨hkeep, hstored⟩ := ih hlt hcall (by
        intro i j pa pa' hij hj hi hj'
        rw [wadd_succ] at hi hj'
        exact hapart (i + 1) (j + 1) pa pa' (by omega) (by simpa using hj) hi hj')
      constructor
      · intro a ha
        rw [hkeep]
        · exact Mem.set_other _ _ (Ne.symm (ha 0 (by simp) pa (by rwa [hzero])))
        · intro i hi pa' hpa'
          rw [wadd_succ] at hpa'
          exact ha (i + 1) (by simpa using hi) pa' hpa'
      · intro i b hb
        cases i with
        | zero =>
          refine ⟨pa, by rwa [hzero], ?_⟩
          rw [hkeep]
          · rw [List.getElem?_cons_zero] at hb
            rw [← Option.some.inj hb]
            exact Mem.set_same _ _ _
          · intro j hj pa' hpa'
            rw [wadd_succ] at hpa'
            exact Ne.symm (hapart 0 (j + 1) pa pa' (by omega) (by simpa using hj) (by rwa [hzero]) hpa')
        | succ i =>
          rw [List.getElem?_cons_succ] at hb
          obtain ⟨pa', hpa', hmem⟩ := hstored i b hb
          rw [wadd_succ] at hpa'
          exact ⟨pa', hpa', hmem⟩

/-- The hardware keeps the offset in the page. -/
lemma translate_offset {va pa : Nat} {m : Mm} (h : translate table va m = some pa) : pa % 4096 = va % 4096 := by
  unfold translate at h
  split at h
  · split at h
    · obtain rfl := Option.some.inj h
      rename_i pde _ _
      have haligned : pageDescToPa (PageDescriptor.outputAddress.get (m.mem.load64 pde)) % 4096 = 0 := by
        rw [pageDescToPa, Nat.shiftLeft_eq]
        exact Nat.mul_mod_left _ _
      rw [pageDesc_or_offset haligned]
      omega
    · cases h
  · cases h

lemma storeToUser_u64 {m m' : Mm} {value : Nat} (hstatus : status < 2 ^ 64)
    (hcall : storeToUser (fun va => translate table va m) status (u64Bytes value) m = (.ok (), m')) :
    ∀ i < 8, ∃ pa, translate table (wadd status i) m = some pa ∧
      m'.mem (wadd pa m.hhdm) = UInt8.ofNat (value / 256 ^ i) := by
  have hlen : (u64Bytes value).length = 8 := rfl
  obtain ⟨-, hstored⟩ := storeToUser_ok hstatus hcall (by
    intro i j pa pa' hij hj hi hj' heq
    have h1 := translate_offset hi
    have h2 := translate_offset hj'
    rw [hlen] at hj
    unfold wadd wordSize at heq h1 h2
    omega)
  intro i hi
  apply hstored i
  rw [u64Bytes, List.getElem?_map, List.getElem?_range hi]
  rfl

lemma copyToUserU64_cases {m m' : Mm} {value ret : Nat} (hcall : copyToUserU64 table status value m = (.ok ret, m')) :
    (rangeVerdict table status 8 true false m = .ok false ∧ ret = Errno.EFAULT.code ∧ m' = m) ∨
    (rangeVerdict table status 8 true false m = .ok true ∧ ret = Errno.EOK.code ∧
      ∀ i < 8, ∃ pa, translate table (wadd status i) m = some pa ∧
        m'.mem (wadd pa m.hhdm) = UInt8.ofNat (value / 256 ^ i)) := by
  have hvalid := userRangeValid_run table status 8 true false m
  unfold copyToUserU64 at hcall
  rcases hverdict : rangeVerdict table status 8 true false m with e | accepted
  · rw [hverdict] at hvalid
    rw [Call.bind_error hvalid] at hcall
    cases hcall
  rw [hverdict] at hvalid
  rw [Call.bind_ok hvalid] at hcall
  cases accepted with
  | false =>
    cases hcall
    exact .inl ⟨rfl, rfl, rfl⟩
  | true =>
    rw [if_pos rfl, Call.read_bind] at hcall
    obtain ⟨u, m₁, hstore, hret⟩ := Call.ok_of_bind hcall
    cases hret
    -- a range that is accepted begins below the end of the user range
    have hstatus : status < 2 ^ 64 := by
      unfold rangeVerdict isWithinUserVmRange at hverdict
      by_contra hge
      rw [if_neg] at hverdict
      · cases hverdict
      · have h1 : ¬status < USER_VM_RANGE_BASE := by
          unfold USER_VM_RANGE_BASE
          omega
        have h2 := wsub_lt USER_VM_RANGE_END 8
        rw [if_neg h1, if_pos (by omega)]
        exact Bool.false_ne_true
    exact .inr ⟨rfl, rfl, storeToUser_u64 hstatus hstore⟩

/-- What a turn of the loop does that ends. -/
inductive Turn (parent table status : Nat) (s : Family) : Wait4Result → Family → Prop
  | childless (hnone : childrenOf parent s = []) : Turn parent table status s (.returned (-10)) s
  | blocked (hsome : childrenOf parent s ≠ []) (hrunning : ∀ c ∈ childrenOf parent s, (s.proc c).state ≠ .ZOMBIE) :
      Turn parent table status s .blocked s
  | refused {child : Nat} (hchild : child ∈ childrenOf parent s) (hzombie : (s.proc child).state = .ZOMBIE)
      (hverdict : rangeVerdict table status 8 true false s.mm = .ok false) :
      Turn parent table status s (.returned (-14)) (s.setProc parent ((s.proc parent).removeChild child))
  | reaped {child : Nat} {s' : Family} (hchild : child ∈ childrenOf parent s) (hzombie : (s.proc child).state = .ZOMBIE)
      (hverdict : rangeVerdict table status 8 true false s.mm = .ok true)
      (hproc : s'.proc = Function.update s.proc parent ((s.proc parent).removeChild child))
      (hstored : StoredAt table status s.mm s'.mm.mem (s.proc child).exitCode) :
      Turn parent table status s (.returned (castI64 (s.proc child).pid)) s'

/-- A zombie is unlinked from its parent, and destroyed when the exit code is stored. -/
lemma wait4Reap_cases {child : Nat} {r : Wait4Result} (hcall : wait4Reap parent table status child s = (.ok r, s')) :
    (rangeVerdict table status 8 true false s.mm = .ok false ∧ r = .returned (-14) ∧
      s' = s.setProc parent ((s.proc parent).removeChild child)) ∨
    (rangeVerdict table status 8 true false s.mm = .ok true ∧ r = .returned (castI64 (s.proc child).pid) ∧
      s'.proc = Function.update s.proc parent ((s.proc parent).removeChild child) ∧
      s'.processes = unlink s.processes child ∧ s'.freed = child :: s.freed ∧
      StoredAt table status s.mm s'.mm.mem (s.proc child).exitCode) := by
  unfold wait4Reap at hcall
  rw [Call.read_bind, Call.update_bind] at hcall
  obtain ⟨ret, s₁, hcopy, hcall⟩ := Call.ok_of_bind hcall
  rcases hrun : copyToUserU64 table status (castU64 (s.proc child).exitCode) s.mm with ⟨ret', m'⟩
  have hrun' : copyToUserU64 table status (castU64 (s.proc child).exitCode)
      (s.setProc parent ((s.proc parent).removeChild child)).mm = (ret', m') := hrun
  unfold Family.onMm at hcopy
  rw [hrun'] at hcopy
  obtain ⟨rfl, rfl⟩ := Prod.mk.inj hcopy
  rcases copyToUserU64_cases hrun with ⟨hverdict, rfl, rfl⟩ | ⟨hverdict, rfl, hstored⟩
  · rw [if_pos (by decide)] at hcall
    obtain ⟨hr, rfl⟩ := Prod.mk.inj hcall
    obtain rfl := Except.ok.inj hr
    exact .inl ⟨hverdict, rfl, rfl⟩
  · rw [if_neg (by decide)] at hcall
    obtain ⟨u, s₂, hdestroy, hret⟩ := Call.ok_of_bind hcall
    obtain ⟨hr, rfl⟩ := Prod.mk.inj hret
    obtain rfl := Except.ok.inj hr
    unfold Family.procManagerRemoveDestroy at hdestroy
    rw [Call.read_bind] at hdestroy
    obtain ⟨u₁, s₃, hassert, hdestroy⟩ := Call.ok_of_bind hdestroy
    obtain ⟨-, rfl⟩ := Prod.mk.inj hassert
    obtain ⟨u₂, s₄, hcount, hdestroy⟩ := Call.ok_of_bind hdestroy
    obtain ⟨-, rfl⟩ := Prod.mk.inj hcount
    obtain ⟨-, rfl⟩ := Prod.mk.inj hdestroy
    exact .inr ⟨hverdict, rfl, rfl, rfl, rfl, hstored⟩

lemma wait4Reap_turn {child : Nat} {r : Wait4Result} (hchild : child ∈ childrenOf parent s)
    (hzombie : (s.proc child).state = .ZOMBIE) (hcall : wait4Reap parent table status child s = (.ok r, s')) :
    Turn parent table status s r s' := by
  rcases wait4Reap_cases hcall with ⟨hverdict, rfl, rfl⟩ | ⟨hverdict, rfl, hproc, -, -, hstored⟩
  · exact .refused hchild hzombie hverdict
  · exact .reaped hchild hzombie hverdict hproc hstored

lemma wait4Scan_turn {r : Wait4Result} {rest : List Nat} {hasChildren : Bool}
    (hrest : ∀ c ∈ rest, c ∈ childrenOf parent s)
    (hseen : ∀ c ∈ childrenOf parent s, c ∉ rest → (s.proc c).state ≠ .ZOMBIE)
    (hhas : hasChildren = true ∨ rest = childrenOf parent s) (hsome : hasChildren = true → childrenOf parent s ≠ [])
    (hcall : wait4Scan parent table status rest hasChildren s = (.ok r, s')) : Turn parent table status s r s' := by
  induction rest generalizing hasChildren with
  | nil =>
    obtain ⟨hr, rfl⟩ := Prod.mk.inj hcall
    obtain rfl := Except.ok.inj hr
    cases hasChildren with
    | true => exact .blocked (hsome rfl) fun c hc => hseen c hc (List.not_mem_nil)
    | false =>
      rcases hhas with hhas | hnil
      · cases hhas
      · exact .childless hnil.symm
  | cons child rest ih =>
    rw [wait4Scan, Call.read_bind] at hcall
    have hchild := hrest child List.mem_cons_self
    by_cases hzombie : (s.proc child).state = .ZOMBIE
    · rw [if_pos hzombie] at hcall
      exact wait4Reap_turn hchild hzombie hcall
    · rw [if_neg hzombie] at hcall
      refine ih (fun c hc => hrest c (List.mem_cons_of_mem _ hc)) ?_ (.inl rfl)
        (fun _ => List.ne_nil_of_mem hchild) hcall
      intro c hc hnot
      by_cases heq : c = child
      · rwa [heq]
      · exact hseen c hc fun hmem => (List.mem_cons.mp hmem).elim heq hnot

lemma sysWait4_turn {r : Wait4Result} (hcall : sysWait4 parent table status s = (.ok r, s')) :
    Turn parent table status s r s' := by
  have hscan : wait4Scan parent table status (childrenOf parent s) false s = (.ok r, s') := hcall
  exact wait4Scan_turn (fun _ hc => hc) (fun _ hc hnot => absurd hc hnot) (.inr rfl)
    (fun hhas => absurd hhas Bool.false_ne_true) hscan

/-- A turn of the loop: its status pointer, how it ends, and the states before and after it. -/
structure WaitEvent where
  status : Nat
  result : Wait4Result
  before : Family
  after : Family

/-- Runs of a family with the turns so far, the newest first. Between the turns, the children exit and lose their
threads, and the memory changes in any way. -/
inductive FamilyRun (parent table : Nat) (s₀ : Family) : List WaitEvent → Family → Prop
  | start : FamilyRun parent table s₀ [] s₀
  | wait {events : List WaitEvent} {s s' : Family} {status : Nat} {r : Wait4Result}
      (h : FamilyRun parent table s₀ events s)
      (hcall : sysWait4 parent table status s = (.ok r, s')) :
        FamilyRun parent table s₀ (⟨status, r, s, s'⟩ :: events) s'
  | exit {events : List WaitEvent} {s : Family} {child : Nat} (exitCode : Int) (h : FamilyRun parent table s₀ events s)
      (hchild : child ∈ childrenOf parent s) (hrunning : (s.proc child).state = .RUNNING) :
      FamilyRun parent table s₀ events (s.setProc child ((s.proc child).exit exitCode))
  | removeThread {events : List WaitEvent} {s : Family} {child : Nat} (thread : Nat)
      (h : FamilyRun parent table s₀ events s)
      (hchild : child ∈ childrenOf parent s) :
      FamilyRun parent table s₀ events (s.setProc child ((s.proc child).removeThread thread))
  | memory {events : List WaitEvent} {s : Family} (mm : Mm) (h : FamilyRun parent table s₀ events s) :
      FamilyRun parent table s₀ events { s with mm := mm }

/-- The children of a parent have process identifiers of their own. -/
structure FamilyStart (parent : Nat) (s₀ : Family) : Prop where
  self : parent ∉ childrenOf parent s₀
  pids : ((childrenOf parent s₀).map fun c => (s₀.proc c).pid).Nodup
  small : ∀ c ∈ childrenOf parent s₀, (s₀.proc c).pid < 2 ^ 63

/-- The process identifier that a turn returns. -/
def WaitEvent.returnedPid (e : WaitEvent) : Option Int :=
  match e.result with
  | .returned ret => if 0 ≤ ret then some ret else none
  | .blocked => none

/-- The process identifiers of the children. -/
def pidsOf (parent : Nat) (s : Family) : List Int := (childrenOf parent s).map fun c => ((s.proc c).pid : Int)

/-- What the turns of a run should do. -/
structure LosesNoChild (parent table : Nat) (s₀ : Family) (events : List WaitEvent) (s : Family) : Prop where
  unchanged : ∀ e ∈ events, ∀ ret, e.result = .returned ret → ret < 0 →
    childrenOf parent e.after = childrenOf parent e.before ∧ e.after.processes = e.before.processes
  once : (events.filterMap WaitEvent.returnedPid ++ pidsOf parent s).Perm (pidsOf parent s₀)
  exitCode : ∀ e ∈ events, ∀ ret, e.result = .returned ret → 0 ≤ ret → ∃ c ∈ childrenOf parent e.before,
    ret = (e.before.proc c).pid ∧ (e.before.proc c).state = .ZOMBIE ∧
      StoredAt table e.status e.before.mm e.after.mm.mem (e.before.proc c).exitCode
  childless : ∀ later e earlier, events = later ++ e :: earlier → e.result = .returned (-Errno.ECHILD.code) →
    (earlier.filterMap WaitEvent.returnedPid).Perm (pidsOf parent s₀)

/-- The check accepts the status pointer, or there is no zombie. -/
def WaitEvent.Accepted (parent table : Nat) (e : WaitEvent) : Prop :=
  (∃ c ∈ childrenOf parent e.before, (e.before.proc c).state = .ZOMBIE) →
    rangeVerdict table e.status 8 true false e.before.mm ≠ .ok false

lemma castI64_of_lt {n : Nat} (h : n < 2 ^ 63) : castI64 n = n := if_pos h

lemma childrenOf_removeChild {child : Nat} (hchild : child ∈ childrenOf parent s)
    (hproc : s'.proc = Function.update s.proc parent ((s.proc parent).removeChild child)) :
    childrenOf parent s' = (childrenOf parent s).erase child := by
  rw [childrenOf, hproc, Function.update_self]
  exact if_pos hchild

/-- The process identifiers of the children are those of a subset. -/
lemma FamilyStart.of_sublist (h : FamilyStart parent s) (hsub : (childrenOf parent s').Sublist (childrenOf parent s))
    (hpid : ∀ c ∈ childrenOf parent s', (s'.proc c).pid = (s.proc c).pid) : FamilyStart parent s' := by
  have hsame : (childrenOf parent s').map (fun c => (s'.proc c).pid) = (childrenOf parent s').map fun c =>
    (s.proc c).pid :=
    List.map_congr_left hpid
  refine ⟨fun hself => h.self (hsub.subset hself), ?_, ?_⟩
  · rw [hsame]
    exact (hsub.map _).nodup h.pids
  · intro c hc
    rw [hpid c hc]
    exact h.small c (hsub.subset hc)

lemma FamilyStart.removeChild {child : Nat} (h : FamilyStart parent s) (hchild : child ∈ childrenOf parent s)
    (hproc : s'.proc = Function.update s.proc parent ((s.proc parent).removeChild child)) :
    FamilyStart parent s' ∧ (pidsOf parent s).Perm (((s.proc child).pid : Int) :: pidsOf parent s') := by
  have hchildren := childrenOf_removeChild hchild hproc
  have hsub : (childrenOf parent s').Sublist (childrenOf parent s) := by
    rw [hchildren]
    exact List.erase_sublist
  have hpid : ∀ c ∈ childrenOf parent s', (s'.proc c).pid = (s.proc c).pid := by
    intro c hc
    have hne : c ≠ parent := by
      rintro rfl
      exact h.self (hsub.subset hc)
    rw [hproc, Function.update_of_ne hne]
  refine ⟨h.of_sublist hsub hpid, ?_⟩
  have hsame : pidsOf parent s' = (childrenOf parent s').map fun c => ((s.proc c).pid : Int) :=
    List.map_congr_left fun c hc => by rw [hpid c hc]
  rw [hsame, hchildren]
  exact (List.perm_cons_erase hchild).map fun c => ((s.proc c).pid : Int)

/-- A step between the turns keeps the children and their identifiers. -/
lemma setProc_keeps {child : Nat} (proc : Process) (h : FamilyStart parent s) (hchild : child ∈ childrenOf parent s)
    (hpid : proc.pid = (s.proc child).pid) :
    childrenOf parent (s.setProc child proc) = childrenOf parent s ∧
      ∀ c, ((s.setProc child proc).proc c).pid = (s.proc c).pid := by
  have hproc : (s.setProc child proc).proc = Function.update s.proc child proc := rfl
  rw [childrenOf, hproc]
  constructor
  · have hne : parent ≠ child := by
      rintro rfl
      exact h.self hchild
    rw [Function.update_of_ne hne]
    rfl
  · intro c
    by_cases hc : c = child
    · rw [hc, Function.update_self, hpid]
    · rw [Function.update_of_ne hc]

lemma LosesNoChild.of_keeps {events : List WaitEvent} (h : FamilyStart parent s)
    (hloses : LosesNoChild parent table s₀ events s)
    (hchildren : childrenOf parent s' = childrenOf parent s) (hpid : ∀ c, (s'.proc c).pid = (s.proc c).pid) :
    FamilyStart parent s' ∧ LosesNoChild parent table s₀ events s' := by
  have hpids : pidsOf parent s' = pidsOf parent s := by
    unfold pidsOf
    rw [hchildren]
    exact List.map_congr_left fun c _ => by rw [hpid]
  refine ⟨h.of_sublist (by rw [hchildren]) fun c _ => hpid c, hloses.unchanged, ?_, hloses.exitCode, hloses.childless⟩
  rw [hpids]
  exact hloses.once

/-- The run lemma for one more turn: what the turn returns has left the children. -/
lemma LosesNoChild.cons {events : List WaitEvent} {e : WaitEvent} (hloses : LosesNoChild parent table s₀ events s)
    (hunchanged : ∀ ret, e.result = .returned ret → ret < 0 →
      childrenOf parent e.after = childrenOf parent e.before ∧ e.after.processes = e.before.processes)
    (hpids : (pidsOf parent s).Perm (e.returnedPid.toList ++ pidsOf parent s'))
    (hexit : ∀ ret, e.result = .returned ret → 0 ≤ ret → ∃ c ∈ childrenOf parent e.before,
      ret = (e.before.proc c).pid ∧ (e.before.proc c).state = .ZOMBIE ∧
        StoredAt table e.status e.before.mm e.after.mm.mem (e.before.proc c).exitCode)
    (hchildless : e.result = .returned (-Errno.ECHILD.code) → childrenOf parent s = []) :
    LosesNoChild parent table s₀ (e :: events) s' := by
  have hreturned : (e :: events).filterMap WaitEvent.returnedPid =
      e.returnedPid.toList ++ events.filterMap WaitEvent.returnedPid := by
    cases hpid : e.returnedPid with
    | none => exact List.filterMap_cons_none hpid
    | some pid => exact List.filterMap_cons_some hpid
  refine ⟨?_, ?_, ?_, ?_⟩
  · intro e' he ret hret hneg
    rcases List.mem_cons.mp he with rfl | he
    · exact hunchanged ret hret hneg
    · exact hloses.unchanged e' he ret hret hneg
  · rw [hreturned]
    refine List.Perm.trans ?_ hloses.once
    refine List.Perm.trans ?_ (hpids.symm.append_left _)
    rw [← List.append_assoc]
    exact List.perm_append_comm.append_right _
  · intro e' he ret hret hpos
    rcases List.mem_cons.mp he with rfl | he
    · exact hexit ret hret hpos
    · exact hloses.exitCode e' he ret hret hpos
  · intro later e' earlier hsplit hret
    cases later with
    | nil =>
      obtain ⟨rfl, rfl⟩ := List.cons.inj hsplit
      have honce := hloses.once
      rw [pidsOf, hchildless hret] at honce
      simpa using honce
    | cons _ later => exact hloses.childless later e' earlier (List.cons.inj hsplit).2 hret

/-- A turn that finds no zombie changes nothing. -/
lemma LosesNoChild.idle {events : List WaitEvent} {r : Wait4Result} (hloses : LosesNoChild parent table s₀ events s)
    (hnone : WaitEvent.returnedPid ⟨status, r, s, s⟩ = none)
    (hchildless : r = .returned (-Errno.ECHILD.code) → childrenOf parent s = []) :
    LosesNoChild parent table s₀ (⟨status, r, s, s⟩ :: events) s := by
  refine hloses.cons (fun _ _ _ => ⟨rfl, rfl⟩) ?_ ?_ hchildless
  · rw [hnone]
    exact List.Perm.refl _
  · intro ret hret hpos
    simp only at hret
    simp [WaitEvent.returnedPid, hret, hpos] at hnone

lemma LosesNoChild.reaped {events : List WaitEvent} {child : Nat} (h : FamilyStart parent s)
    (hloses : LosesNoChild parent table s₀ events s) (hchild : child ∈ childrenOf parent s)
    (hzombie : (s.proc child).state = .ZOMBIE)
    (hproc : s'.proc = Function.update s.proc parent ((s.proc parent).removeChild child))
    (hstored : StoredAt table status s.mm s'.mm.mem (s.proc child).exitCode) :
    LosesNoChild parent table s₀ (⟨status, .returned (castI64 (s.proc child).pid), s, s'⟩ :: events) s' := by
  have hcast := castI64_of_lt (h.small child hchild)
  have hpos : (0 : Int) ≤ (s.proc child).pid := Int.natCast_nonneg _
  have hret : ∀ {ret}, Wait4Result.returned (castI64 (s.proc child).pid) = .returned ret →
    ret = (s.proc child).pid := by
    intro ret hret
    rw [hcast] at hret
    exact (Wait4Result.returned.inj hret).symm
  refine hloses.cons ?_ ?_ ?_ ?_
  · intro ret hr hneg
    have heq := hret hr
    omega
  · have hpid : WaitEvent.returnedPid ⟨status, .returned (castI64 (s.proc child).pid), s, s'⟩ =
        some ((s.proc child).pid : Int) := by
      rw [WaitEvent.returnedPid, hcast]
      exact if_pos hpos
    rw [hpid]
    exact (h.removeChild hchild hproc).2
  · intro ret hr _
    exact ⟨child, hchild, hret hr, hzombie, hstored⟩
  · intro hr
    have heq := hret hr
    simp only [Errno.code] at heq
    omega

lemma FamilyRun.loses_no_child {events : List WaitEvent} (hstart : FamilyStart parent s₀)
    (hrun : FamilyRun parent table s₀ events s) (haccepted : ∀ e ∈ events, e.Accepted parent table) :
    FamilyStart parent s ∧ LosesNoChild parent table s₀ events s := by
  induction hrun with
  | start =>
    exact ⟨hstart, nofun, List.Perm.refl _, nofun, fun later e earlier hsplit => by simp at hsplit⟩
  | @wait events s s' status r _ hcall ih =>
    obtain ⟨h, hloses⟩ := ih fun e he => haccepted e (List.mem_cons_of_mem _ he)
    have haccept := haccepted _ List.mem_cons_self
    cases sysWait4_turn hcall with
    | childless hnone => exact ⟨h, hloses.idle rfl fun _ => hnone⟩
    | blocked => exact ⟨h, hloses.idle rfl nofun⟩
    | refused hchild hzombie hverdict => exact absurd hverdict (haccept ⟨_, hchild, hzombie⟩)
    | reaped hchild hzombie _ hproc hstored =>
      exact ⟨(h.removeChild hchild hproc).1, hloses.reaped h hchild hzombie hproc hstored⟩
  | @exit _ s child exitCode _ hchild _ ih =>
    obtain ⟨h, hloses⟩ := ih haccepted
    obtain ⟨hchildren, hpid⟩ := setProc_keeps ((s.proc child).exit exitCode) h hchild rfl
    exact hloses.of_keeps h hchildren hpid
  | @removeThread _ s child thread _ hchild ih =>
    obtain ⟨h, hloses⟩ := ih haccepted
    obtain ⟨hchildren, hpid⟩ := setProc_keeps ((s.proc child).removeThread thread) h hchild rfl
    exact hloses.of_keeps h hchildren hpid
  | memory mm _ ih =>
    obtain ⟨h, hloses⟩ := ih haccepted
    exact hloses.of_keeps h rfl fun _ => rfl

lemma FamilyRun.turn {events : List WaitEvent} (hrun : FamilyRun parent table s₀ events s) :
    ∀ e ∈ events, Turn parent table e.status e.before e.result e.after := by
  induction hrun with
  | start => exact nofun
  | wait _ hcall ih =>
    intro e he
    rcases List.mem_cons.mp he with rfl | he
    · exact sysWait4_turn hcall
    · exact ih e he
  | exit _ _ _ _ ih => exact ih
  | removeThread _ _ _ ih => exact ih
  | memory _ _ ih => exact ih

/-- A turn that finds a zombie and refuses the status pointer changes the children. -/
lemma Turn.changes {r : Wait4Result} (hturn : Turn parent table status s r s') {c : Nat} (hc : c ∈ childrenOf parent s)
    (hzombie : (s.proc c).state = .ZOMBIE) (hverdict : rangeVerdict table status 8 true false s.mm = .ok false) :
    r = .returned (-14) ∧ childrenOf parent s' ≠ childrenOf parent s := by
  cases hturn with
  | childless hnone =>
    rw [hnone] at hc
    cases hc
  | blocked _ hrunning => exact absurd hzombie (hrunning c hc)
  | refused hchild =>
    refine ⟨rfl, ?_⟩
    rw [childrenOf_removeChild hchild rfl]
    intro heq
    have hlen := List.length_erase_of_mem hchild
    have hpos := List.length_pos_of_mem hchild
    rw [heq] at hlen
    omega
  | reaped _ _ haccepted =>
    rw [hverdict] at haccepted
    cases haccepted

/-- A run loses no child exactly if the check accepts the status pointer of every turn that finds a zombie. -/
theorem wait4_loses_no_child_iff {events : List WaitEvent} (hstart : FamilyStart parent s₀)
    (hrun : FamilyRun parent table s₀ events s) :
    LosesNoChild parent table s₀ events s ↔ ∀ e ∈ events, e.Accepted parent table := by
  constructor
  · rintro hloses e he ⟨c, hc, hzombie⟩ hverdict
    obtain ⟨hret, hchanged⟩ := (hrun.turn e he).changes hc hzombie hverdict
    exact hchanged (hloses.unchanged e he _ hret (by decide)).1
  · exact fun haccepted => (hrun.loses_no_child hstart haccepted).2

/-- A parent, process 1, with a zombie, process 2, and a page of memory. -/
def zombieFamily : Family where
  mm := zeroPage
  proc p :=
    if p = 1 then ⟨10, .RUNNING, 0, [2], [5], 0, 0, 0⟩
    else ⟨20, .ZOMBIE, 1, [], [], 0, 0, 7⟩
  processes := [1, 2]
  spaces := []
  tables := []
  freed := []

/-- The family after the parent has waited with a pointer to its page, and with one behind the page. -/
def waitedFamily (status : Nat) : Family := (sysWait4 1 0x101000 status zombieFamily).2

lemma zombieFamily_start : FamilyStart 1 zombieFamily := by
  refine ⟨by decide, by decide, ?_⟩
  intro c hc
  obtain rfl : c = 2 := List.mem_singleton.mp hc
  decide

lemma zombieFamily_wait {status : Nat} {ret : Int}
    (h : (sysWait4 1 0x101000 status zombieFamily).1 = .ok (.returned ret)) :
    FamilyRun 1 0x101000 zombieFamily [⟨status, .returned ret, zombieFamily, waitedFamily status⟩]
      (waitedFamily status) :=
  .wait .start (Call.eq_of_fst h)

/-- The zombie is returned to a valid pointer. -/
theorem wait4_loses_no_child_iff_valid : LosesNoChild 1 0x101000 zombieFamily
    [⟨0x10000, .returned 20, zombieFamily, waitedFamily 0x10000⟩] (waitedFamily 0x10000) := by
  have hverdict : rangeVerdict 0x101000 0x10000 8 true false zombieFamily.mm = .ok true := by decide +kernel
  refine (wait4_loses_no_child_iff zombieFamily_start (zombieFamily_wait (by decide +kernel))).mpr ?_
  intro e he _ hrefused
  obtain rfl := List.mem_singleton.mp he
  rw [hverdict] at hrefused
  cases hrefused

/-- With a pointer that is not mapped the zombie is gone, and the next call finds no child. -/
theorem wait4_loses_zombie : FamilyStart 1 zombieFamily ∧
    FamilyRun 1 0x101000 zombieFamily [⟨0x11000, .returned (-14), zombieFamily, waitedFamily 0x11000⟩]
      (waitedFamily 0x11000) ∧
    (sysWait4 1 0x101000 0x10000 (waitedFamily 0x11000)).1 = .ok (.returned (-10)) ∧
    ¬LosesNoChild 1 0x101000 zombieFamily [⟨0x11000, .returned (-14), zombieFamily, waitedFamily 0x11000⟩]
      (waitedFamily 0x11000) := by
  refine ⟨zombieFamily_start, zombieFamily_wait (by decide +kernel), by decide +kernel, ?_⟩
  intro hloses
  have hgone : childrenOf 1 (waitedFamily 0x11000) = [] := by decide +kernel
  have hsame := (hloses.unchanged _ List.mem_cons_self _ rfl (by decide)).1
  rw [hgone] at hsame
  cases hsame

end KaworuOS.Proofs
