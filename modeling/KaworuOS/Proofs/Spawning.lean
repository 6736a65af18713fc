import KaworuOS.Spawning
import KaworuOS.Proofs.FdTableCreate
import KaworuOS.Proofs.SpaceExhaust

/-!
# Creating a process is not failure-atomic

A creation that fails should return an error pointer and leave nothing behind. It does so while it has only a block for
the process: the next thing that fails finds descriptors in use in the table, which `fdtable_destroy` does not accept,
or a process that is running, which `proc_manager_remove_destroy` does not accept, or it gives back the address space
and the process and keeps the rest. What is kept is counted with `holdings`, which a call that leaves nothing behind
does not change.
-/

namespace KaworuOS.Proofs
open Lib

variable {s s' : Spawning} {free : List Nat} {p t b n : Nat}

/-- The next `n` calls of `kalloc` succeed. -/
def Gives (n : Nat) (heap : Heap) : Prop := n ≤ heap.blocks.length ∧ ∀ b ∈ heap.blocks.take n, isErrValue b = false

instance (n : Nat) (heap : Heap) : Decidable (Gives n heap) := inferInstanceAs (Decidable (_ ∧ _))

lemma gives_succ {heap : Heap} {rest : List Nat} (hblocks : heap.blocks = b :: rest) (live : List Nat) :
    Gives (n + 1) heap ↔ isErrValue b = false ∧ Gives n ⟨rest, live⟩ := by
  unfold Gives
  rw [hblocks, List.length_cons, List.take_succ_cons, List.forall_mem_cons]
  exact ⟨fun h => ⟨h.2.1, Nat.le_of_succ_le_succ h.1, h.2.2⟩, fun h => ⟨Nat.succ_le_succ h.2.1, h.1, h.2.2⟩⟩

lemma not_gives_nil {heap : Heap} (hblocks : heap.blocks = []) : ¬Gives (n + 1) heap := by
  rintro ⟨hlen, -⟩
  rw [hblocks] at hlen
  exact Nat.not_succ_le_zero n hlen

/-- Nothing that a creation could leave behind is there: the processes and their children, the references to files, the
free frames and the blocks of the heap are what they were. -/
structure Unchanged (free : List Nat) (s s' : Spawning) : Prop where
  processes : s'.processes = s.processes
  children : ∀ p ∈ s.processes, (s'.proc p).children = (s.proc p).children
  counts : ∀ f ∈ s.mm.heap.live, (s'.file f).count = (s.file f).count
  frames : ∃ free', PmmInv s'.mm free' ∧ free'.Perm free
  blocks : (inUse s'.mm.heap.live).Perm (inUse s.mm.heap.live)

/-- The creation returns an error pointer and leaves nothing behind. -/
def FailsCleanly (free : List Nat) (x : SpawnCall (Except Nat Nat)) (s : Spawning) : Prop :=
  ∃ err s', x s = (.ok (.error err), s') ∧ Unchanged free s s'

/-- What a creation takes: places in the list of processes, and blocks. -/
def holdings (s : Spawning) : Nat := s.processes.length + blockCount s.mm

/-- One for a process that is running. -/
def running (p : Nat) (s : Spawning) : Nat := if (s.proc p).state = .RUNNING then 1 else 0

/-- The processes, their list and `pid_count` are the same. -/
structure SameTree (s s' : Spawning) : Prop where
  processes : s'.processes = s.processes
  proc : s'.proc = s.proc
  pidCount : s'.pidCount = s.pidCount

/-- A quantity of the processes, their list, `pid_count` and the number of blocks in use, which no other block makes
smaller. -/
class Tally (m : Spawning → Nat) : Prop where
  le : ∀ {s s' : Spawning}, SameTree s s' → blockCount s.mm ≤ blockCount s'.mm → m s ≤ m s'

instance : Tally holdings := ⟨fun {s s'} hsame hle => by
  unfold holdings
  rw [hsame.processes]
  exact Nat.add_le_add_left hle _⟩

instance (p : Nat) : Tally (running p) := ⟨fun {s s'} hsame _ => by rw [running, running, hsame.proc]⟩

lemma Unchanged.holdings (h : Unchanged free s s') : holdings s' = holdings s := by
  have h1 := h.blocks.length_eq
  unfold Proofs.holdings blockCount
  rw [h.processes, h1]

section Calls

open Spawning

variable {α : Type} {k : Nat} {m : Spawning → Nat} [Tally m]

lemma withMm_ok {x : Kernel α} {a : α} {mm : Mm} (h : x s.mm = (.ok a, mm)) :
    withMm x s = (.ok a, { s with mm := mm }) := by
  unfold withMm
  rw [h]

lemma withMm_error {x : Kernel α} {e : Halt} {mm : Mm} (h : x s.mm = (.error e, mm)) :
    withMm x s = (.error e, { s with mm := mm }) := by
  unfold withMm
  rw [h]

lemma withFiles_ok {x : FileCall α} {a : α} {f : Files} (h : x s.files = (.ok a, f)) :
    withFiles x s = (.ok a, s.setFiles f) := by
  unfold withFiles
  rw [h]

lemma withFiles_error {x : FileCall α} {e : Halt} {f : Files} (h : x s.files = (.error e, f)) :
    withFiles x s = (.error e, s.setFiles f) := by
  unfold withFiles
  rw [h]

lemma ends_withMm {x : Kernel α} {Q : α → Mm → Prop} (h : Call.Ends (fun _ _ => True) x s.mm Q) :
    Call.Ends (fun _ _ => True) (withMm x) s (fun a s' => Q a s'.mm ∧ s' = { s with mm := s'.mm }) := by
  rcases hx : x s.mm with ⟨e | a, mm⟩
  · exact Call.ends_of_error (withMm_error hx) trivial
  · exact Call.ends_of_ok (withMm_ok hx) ⟨h.ok hx, rfl⟩

lemma ends_withFiles {x : FileCall α} {Q : α → Files → Prop} (h : Yields x s.files Q) :
    Call.Ends (fun _ _ => True) (withFiles x) s (fun a s' => Q a s'.files ∧ s' = s.setFiles s'.files) := by
  rcases hx : x s.files with ⟨e | a, f⟩
  · exact Call.ends_of_error (withFiles_error hx) trivial
  · exact Call.ends_of_ok (withFiles_ok hx) ⟨h.ok hx, rfl⟩

lemma mono_withMm {x : Kernel α} (h : Call.Mono blockCount x) : Call.Mono m (withMm x) :=
  fun s => Tally.le ⟨rfl, rfl, rfl⟩ (h s.mm)

lemma loses_withMm {x : Kernel α} (h : Call.Loses blockCount k x) : Call.Loses holdings k (withMm x) := by
  intro s
  have h1 := h s.mm
  show s.processes.length + blockCount s.mm ≤ s.processes.length + blockCount (x s.mm).2 + k
  omega

lemma mono_withFiles {x : FileCall α} (h : Call.Mono fileBlockCount x) : Call.Mono m (withFiles x) :=
  fun s => Tally.le ⟨rfl, rfl, rfl⟩ (h s.files)

/-- A change elsewhere. -/
lemma mono_same {g : Spawning → Spawning} (hsame : ∀ s, SameTree s (g s)) (hmm : ∀ s, (g s).mm = s.mm) :
    Call.Mono m (Call.update g : SpawnCall Unit) :=
  Call.mono_update (fun s => Tally.le (hsame s) (by rw [hmm]))

/-- The part that `proc_manager_create_impl` and `proc_manager_create_exec_from` have in common: a block for the process
and a table of descriptors, which is made by `create`. -/
def takeTwo (create : FileCall (Except Errno Nat)) (rest : Nat → Nat → SpawnCall (Except Nat Nat)) :
    SpawnCall (Except Nat Nat) := do
  let proc ← withMm kalloc
  if isErrValue proc then return .error (ptrToErr proc)
  match ← withFiles create with
  | .error _ => do
    withMm (kfree proc)
    return .error (Errno.code .ENOMEM)
  | .ok table => rest proc table

/-- The rest of `proc_manager_create_impl`. -/
def createRest (proc table : Nat) : SpawnCall (Except Nat Nat) := do
  let err ← withFiles (fdtableAttachStdFiles table)
  if err ≠ .EOK then
    dropProcessAndTable proc table
    return .error (Errno.code .EMFILE)
  match ← withMm addressSpaceCreate with
  | .error _ => do
    dropProcessAndTable proc table
    return .error (Errno.code .ENOMEM)
  | .ok as => do
    Call.update (fun s => s.setSpace as.self as)
    processInit proc as.self table
    insertProcess proc
    return .ok proc

lemma procManagerCreateImpl_eq : Spawning.procManagerCreateImpl = takeTwo fdtableCreate createRest := rfl

/-- The rest of `proc_manager_create_exec_from`. -/
def execFromRest (src : Process) (srcTask srcFrame dst table : Nat) : SpawnCall (Except Nat Nat) := do
  let srcSpace ← Call.read (fun s => s.space src.addressSpace)
  match ← withMm (addressSpaceCreateFrom srcSpace) with
  | .error _ => do
    dropProcessAndTable dst table
    return .error (Errno.code .ENOMEM)
  | .ok as => do
    Call.update (fun s => s.setSpace as.self as)
    processInit dst as.self table
    match ← taskManagerCreateUserFrom dst srcTask srcFrame with
    | .error _ => giveUp dst as.self
    | .ok task => do
      insertProcess dst
      startTask dst task

lemma procManagerCreateExecFrom_eq (src task frame : Nat) (s : Spawning) :
    Spawning.procManagerCreateExecFrom src task frame s =
      takeTwo (fdtableCreateFrom (s.proc src).files) (execFromRest (s.proc src) task frame) s := rfl

/-- One of the first two calls of `kalloc` fails. The second one is for the table. -/
lemma takeTwo_fails {create : FileCall (Except Errno Nat)} (rest : Nat → Nat → SpawnCall (Except Nat Nat))
    (hpmm : PmmInv s.mm free) (h : ¬Gives 2 s.mm.heap)
    (hcreate : ∀ f : Files, (∀ b rest, f.heap.blocks = b :: rest → isErrValue b = true) →
      ∃ f', create f = (.ok (.error .ENOMEM), f') ∧ OnlyErrors f f') :
    FailsCleanly free (takeTwo create rest) s := by
  have hsame : ∀ {heap : Heap} {log : Log}, PmmInv { s.mm with heap := heap, log := log } free :=
    hpmm.congr rfl rfl (fun _ _ _ _ _ => rfl)
  unfold takeTwo
  match hb : s.mm.heap.blocks with
  | [] =>
    have hrun := withMm_ok (kalloc_nil hb)
    refine ⟨ptrToErr (errToPtr .ENOMEM), s, ?_, ⟨rfl, fun _ _ => rfl, fun _ _ => rfl, ⟨free, hpmm, List.Perm.refl _⟩,
      List.Perm.refl _⟩⟩
    rw [Call.bind_ok hrun, if_pos isErrValue_errToPtr]
    rfl
  | b :: blocks =>
    have hrun := withMm_ok (kalloc_cons hb)
    cases herr : isErrValue b with
    | true =>
      refine ⟨ptrToErr b, { s with mm := takeBlock s.mm b blocks }, ?_, ⟨rfl, fun _ _ => rfl, fun _ _ => rfl,
        ⟨free, hsame, List.Perm.refl _⟩, ?_⟩⟩
      · rw [Call.bind_ok hrun, if_pos herr]
        rfl
      · show (inUse (b :: s.mm.heap.live)).Perm _
        rw [inUse_cons_error herr]
    | false =>
      have hnone : ∀ b' rest, blocks = b' :: rest → isErrValue b' = true := by
        intro b' rest hblocks
        by_contra hok
        apply h
        rw [gives_succ hb s.mm.heap.live, gives_succ (by exact hblocks) s.mm.heap.live]
        exact ⟨herr, by simpa using hok, Nat.zero_le _, by simp⟩
      let s₁ : Spawning := { s with mm := takeBlock s.mm b blocks }
      obtain ⟨f, hf, hrest, hlive, hinUse⟩ := hcreate s₁.files hnone
      have hmem : b ∈ f.heap.live := hlive b List.mem_cons_self
      have hfile : f.file = s.file := by
        rw [hrest]
        rfl
      refine ⟨Errno.code .ENOMEM, { s₁.setFiles f with mm := giveBlock (s₁.setFiles f).mm b }, ?_,
        ⟨rfl, fun _ _ => rfl, ?_, ⟨free, hsame, List.Perm.refl _⟩, ?_⟩⟩
      · rw [Call.bind_ok hrun, herr, if_neg Bool.false_ne_true, Call.bind_ok (withFiles_ok hf)]
        dsimp only
        rw [Call.bind_ok (withMm_ok (kfree_ok hmem))]
        rfl
      · intro p _
        show (f.file p).count = _
        rw [hfile]
      · show (inUse (f.heap.live.erase b)).Perm _
        have hinUse' : inUse f.heap.live = inUse (b :: s.mm.heap.live) := hinUse
        rw [inUse_erase, hinUse', inUse_cons herr, List.erase_cons_head]

/-- A table with a descriptor in use is not destroyed. -/
lemma dropProcessAndTable_stuck {fd : Nat} (hfd : fd < MAX_FILES_PER_FD) (hslot : slotState s.files (t, fd) ≠ .FREE) :
    Call.Ends (fun _ _ => True) (dropProcessAndTable p t) s (fun _ _ => False) := by
  unfold dropProcessAndTable
  apply (ends_withMm (Call.ends_true (kfree p) s.mm)).bind
  rintro _ s₁ ⟨-, hs₁⟩
  apply (ends_withFiles (destroy_yields t)).bind
  rintro _ s₂ ⟨⟨-, hfree⟩, -⟩
  apply hslot
  have h1 := hfree fd hfd
  rw [hs₁] at h1
  exact h1

lemma createRest_ends (hfree : ∀ fd < MAX_FILES_PER_FD, slotState s.files (t, fd) = .FREE) :
    Call.Ends (fun _ _ => True) (createRest p t) s
      (fun r s' => r = .ok p ∧ holdings s + 5 ≤ holdings s' ∧ 0 < running p s') := by
  unfold createRest
  apply ((ends_withFiles (attachStdFiles_yields hfree)).and
    ((mono_withFiles (m := holdings) (mono_fdtableAttachStdFiles t)).ends s)).bind
  rintro _ s₁ ⟨⟨⟨rfl, hslot⟩, -⟩, h1⟩
  rw [if_neg (not_not.mpr rfl)]
  apply (ends_withMm (addressSpaceCreate_gains s₁.mm)).bind
  rintro r s₂ ⟨h2, hs₂⟩
  cases r with
  | error err =>
    have hslot₂ : slotState s₂.files (t, STDIN) ≠ .FREE := by
      rw [hs₂]
      show slotState s₁.files (t, STDIN) ≠ .FREE
      rw [hslot]
      decide
    exact (dropProcessAndTable_stuck (by decide) hslot₂).bind (fun _ _ h => h.elim)
  | ok as =>
    have h2' := h2 as rfl
    refine ⟨rfl, ?_, ?_⟩
    case refine_2 =>
      show 0 < if (Function.update s₂.proc p ((s₂.proc p).init s₂.pidCount as.self t) p).state = .RUNNING then 1 else 0
      rw [Function.update_self]
      exact Nat.one_pos
    have hlen : s₂.processes = s₁.processes := by rw [hs₂]
    show s.processes.length + blockCount s.mm + 5 ≤ (s₂.processes ++ [p]).length + blockCount s₂.mm
    rw [List.length_append, List.length_singleton, hlen]
    unfold holdings at h1
    omega

lemma Gives.two {heap : Heap} (h : Gives 2 heap) :
    ∃ b₁ b₂ rest, heap.blocks = b₁ :: b₂ :: rest ∧ isErrValue b₁ = false ∧ isErrValue b₂ = false := by
  match hb : heap.blocks with
  | [] => exact absurd h (not_gives_nil hb)
  | b₁ :: blocks =>
    obtain ⟨h1, h'⟩ := (gives_succ hb heap.live).mp h
    match blocks with
    | [] => exact absurd h' (not_gives_nil rfl)
    | b₂ :: rest => exact ⟨b₁, b₂, rest, rfl, h1, ((gives_succ rfl heap.live).mp h').1⟩

lemma takeTwo_eq {create : FileCall (Except Errno Nat)} {blocks : List Nat} {f : Files}
    (rest : Nat → Nat → SpawnCall (Except Nat Nat)) (hb : s.mm.heap.blocks = b :: blocks) (herr : isErrValue b = false)
    (hcreate : create ({ s with mm := takeBlock s.mm b blocks } : Spawning).files = (.ok (.ok t), f)) :
    takeTwo create rest s = rest b t (({ s with mm := takeBlock s.mm b blocks } : Spawning).setFiles f) := by
  unfold takeTwo
  rw [Call.bind_ok (withMm_ok (kalloc_cons hb)), herr, if_neg Bool.false_ne_true, Call.bind_ok (withFiles_ok hcreate)]

/-- A creation with a block for the process and one for the table. -/
lemma procManagerCreateImpl_ends (h : Gives 2 s.mm.heap) : Call.Ends (fun _ _ => True) Spawning.procManagerCreateImpl s
    (fun r s' => ∃ q, r = .ok q ∧ holdings s + 7 ≤ holdings s' ∧ 0 < running q s') := by
  obtain ⟨b₁, b₂, rest, hb, h1, h2⟩ := h.two
  have hblocks : ({ s with mm := takeBlock s.mm b₁ (b₂ :: rest) } : Spawning).files.heap.blocks = b₂ :: rest := rfl
  have hcreate := fdtableCreate_cons hblocks h2
  rw [procManagerCreateImpl_eq, Call.Ends, takeTwo_eq createRest hb h1 hcreate]
  have hfree : ∀ fd < MAX_FILES_PER_FD, slotState (({ s with mm := takeBlock s.mm b₁ (b₂ :: rest) } : Spawning).setFiles
      (newTable ({ s with mm := takeBlock s.mm b₁ (b₂ :: rest) } : Spawning).files b₂ rest)).files (b₂, fd) = .FREE :=
    fun fd _ => slotState_newTable rest fd
  apply (createRest_ends hfree).mono
  rintro r s' ⟨hr, hle, hrunning⟩
  refine ⟨b₁, hr, ?_, hrunning⟩
  have hheld : s.processes.length + (inUse (b₂ :: b₁ :: s.mm.heap.live)).length + 5 ≤ holdings s' := hle
  rw [inUse_cons h2, inUse_cons h1, List.length_cons, List.length_cons] at hheld
  show s.processes.length + (inUse s.mm.heap.live).length + 7 ≤ holdings s'
  omega

lemma mono_withSpace {α : Type} {x : AddressSpace → Kernel (α × AddressSpace)} (as : Nat)
    (h : ∀ space, Call.Mono blockCount (x space)) : Call.Mono m (withSpace as x) := by
  apply Call.mono_bind (Call.mono_read _)
  intro space
  apply Call.mono_bind (mono_withMm (h space))
  rintro ⟨r, space⟩
  exact Call.mono_bind (mono_same (fun _ => ⟨rfl, rfl, rfl⟩) (fun _ => rfl)) (fun _ => Call.mono_pure _)

lemma mono_taskInit (p task entry tid : Nat) : Call.Mono m (Spawning.taskInit p task entry tid) := by
  refine Call.mono_bind (mono_same (fun _ => ⟨rfl, rfl, rfl⟩) (fun _ => rfl)) (fun _ => ?_)
  apply Call.mono_bind (mono_withMm mono_kalloc)
  intro stack
  refine Call.mono_bind (mono_same (fun _ => ⟨rfl, rfl, rfl⟩) (fun _ => rfl)) (fun _ => ?_)
  apply Call.mono_ite (Call.mono_pure _)
  refine Call.mono_bind (mono_same (fun _ => ⟨rfl, rfl, rfl⟩) (fun _ => rfl)) (fun _ => ?_)
  exact Call.mono_bind (mono_same (fun _ => ⟨rfl, rfl, rfl⟩) (fun _ => rfl)) (fun _ => Call.mono_pure _)

lemma mono_taskInitUser (p task userEntry stack tid : Nat) : Call.Mono m (taskInitUser p task userEntry stack tid) := by
  apply Call.mono_bind (mono_taskInit _ _ _ _)
  intro err
  apply Call.mono_ite (Call.mono_pure _)
  apply Call.mono_bind (Call.mono_read _)
  intro sp
  apply Call.mono_bind (mono_withMm (mono_writeWord _ _))
  intro _
  apply Call.mono_bind (mono_withMm (mono_writeWord _ _))
  intro _
  exact Call.mono_bind (mono_same (fun _ => ⟨rfl, rfl, rfl⟩) (fun _ => rfl)) (fun _ => Call.mono_pure _)

lemma mono_taskManagerCreateUser (p userEntry userStack : Nat) :
    Call.Mono m (taskManagerCreateUser p userEntry userStack) := by
  refine Call.mono_bind ?_ (fun cpu => ?_)
  · apply Call.mono_bind (Call.mono_read _)
    intro cpu
    exact Call.mono_bind (Call.mono_lift _) (fun _ => Call.mono_pure _)
  apply Call.mono_bind (mono_withMm mono_kalloc)
  intro task
  apply Call.mono_ite (Call.mono_pure _)
  refine Call.mono_bind (mono_same (fun _ => ⟨rfl, rfl, rfl⟩) (fun _ => rfl)) (fun _ => ?_)
  apply Call.mono_bind (Call.mono_read _)
  intro tid
  refine Call.mono_bind (mono_same (fun _ => ⟨rfl, rfl, rfl⟩) (fun _ => rfl)) (fun _ => ?_)
  apply Call.mono_bind (mono_taskInitUser _ _ _ _ _)
  intro err
  apply Call.mono_ite (Call.mono_pure _)
  exact Call.mono_bind (mono_same (fun _ => ⟨rfl, rfl, rfl⟩) (fun _ => rfl)) (fun _ => Call.mono_pure _)

lemma mono_taskManagerCreateUserFrom (p src srcFrame : Nat) :
    Call.Mono m (taskManagerCreateUserFrom p src srcFrame) := by
  apply Call.mono_bind (Call.mono_read _)
  intro thread
  apply Call.mono_bind (mono_taskManagerCreateUser _ _ _)
  rintro (err | dst)
  · exact Call.mono_pure _
  apply Call.mono_ite (Call.mono_pure _)
  apply Call.mono_bind (Call.mono_read _)
  intro stack
  apply Call.mono_bind (mono_withMm (mono_memcpy _ _ _))
  intro _
  apply Call.mono_bind (mono_withMm (mono_writeWord _ _))
  intro _
  exact Call.mono_bind (mono_same (fun _ => ⟨rfl, rfl, rfl⟩) (fun _ => rfl)) (fun _ => Call.mono_pure _)

lemma loses_giveUp (proc as : Nat) : Call.Loses holdings 5 (giveUp proc as) := by
  refine Call.loses_bind (l := 5) (Call.mono_read _).loses (fun space => ?_) rfl
  refine Call.loses_bind (l := 1) (loses_withMm (loses_addressSpaceDestroy _)) (fun _ => ?_) rfl
  exact Call.loses_bind (l := 0) (loses_withMm (loses_kfree _)) (fun _ => (Call.mono_pure _).loses) rfl

/-- A creation has returned a process, or it has kept something. -/
def Keeps (s : Spawning) (r : Except Nat Nat) (s' : Spawning) : Prop := (∃ q, r = .ok q) ∨ holdings s < holdings s'

lemma startTask_ends (task : Nat) : Call.Ends (fun _ _ => True) (startTask p task) s (fun r _ => ∃ q, r = .ok q) := by
  apply Call.ends_bind_ok (x := Call.update _) rfl
  apply (Call.ends_true (Spawning.schedulerEnqueue task) _).bind
  intro _ _ _
  exact ⟨p, rfl⟩

lemma procManagerCreateExec_ends (h : Gives 2 s.mm.heap) (programPa programSize entry : Nat) :
    Call.Ends (fun _ _ => True) (Spawning.procManagerCreateExec programPa programSize entry) s (Keeps s) := by
  have hgive : ∀ {s' : Spawning} (proc as : Nat), holdings s + 6 ≤ holdings s' →
      Call.Ends (fun _ _ => True) (giveUp proc as) s' (Keeps s) := by
    intro s' proc as hle
    apply ((loses_giveUp proc as).ends s').mono
    intro r s'' hlost
    right
    omega
  apply (procManagerCreateImpl_ends h).bind
  rintro _ s₁ ⟨proc, rfl, h1, -⟩
  apply Call.ends_bind_ok (x := Call.read _) rfl
  set as := (s₁.proc proc).addressSpace
  apply ((mono_withSpace (m := holdings) as (fun _ => mono_addressSpaceAlloc _ _ _ _)).ends s₁).bind
  intro ustack s₂ h2
  split
  · exact hgive proc as (by omega)
  apply ((mono_withSpace (m := holdings) as (fun _ => mono_addressSpaceMapOwned _ _ _ _ _ _)).ends s₂).bind
  intro err s₃ h3
  split
  · exact hgive proc as (by omega)
  apply ((mono_taskManagerCreateUser (m := holdings) _ _ _).ends s₃).bind
  intro r s₄ h4
  cases r with
  | error err => exact hgive proc as (by omega)
  | ok task => exact (startTask_ends _).mono (fun _ _ hr => .inl hr)

/-- A process that is running is not removed. -/
lemma procManagerRemoveDestroy_stuck (hrunning : 0 < running p s) (err : Nat) :
    Call.Ends (fun _ _ => True) (do
      procManagerRemoveDestroy p
      return .error err) s (fun (r : Except Nat Nat) _ => ∃ q, r = .ok q) := by
  have hstate : (s.proc p).state ≠ .ZOMBIE := by
    intro hzombie
    rw [running, hzombie, if_neg (by decide)] at hrunning
    exact absurd hrunning (Nat.lt_irrefl 0)
  have hassert : (Call.lift (assertThat ((s.proc p).state = .ZOMBIE)) : SpawnCall Unit) s = (.error .panic, s) := by
    rw [Call.lift_apply, assertThat, if_neg hstate]
  have hrun : procManagerRemoveDestroy p s = (.error .panic, s) := by
    unfold procManagerRemoveDestroy
    rw [Call.read_bind]
    exact Call.bind_error hassert
  exact Call.ends_of_error (Call.bind_error hrun) trivial

/-- A process is created from a file, or the call does not return. -/
lemma procManagerCreateExecFromElf_ends (h : Gives 2 s.mm.heap) (elf : Mem) (elfSize : Nat) :
    Call.Ends (fun _ _ => True) (procManagerCreateExecFromElf elf elfSize) s (fun r _ => ∃ q, r = .ok q) := by
  apply (procManagerCreateImpl_ends h).bind
  rintro _ s₁ ⟨proc, rfl, -, h1⟩
  apply Call.ends_bind_ok (x := Call.read _) rfl
  apply Call.ends_bind_ok (x := Call.read _) rfl
  have hload : ∀ {α : Type} (x : Loader α), Call.Mono (running proc) (withLoader x) := fun _ _ => Nat.le_refl _
  apply ((hload _).ends s₁).bind
  rintro ⟨result, space⟩ s₂ h2
  apply Call.ends_bind_ok (x := Call.update _) rfl
  have h2' : 0 < running proc (s₂.setSpace (s₁.proc proc).addressSpace space) := Nat.lt_of_lt_of_le h1 h2
  cases result with
  | error err => exact procManagerRemoveDestroy_stuck h2' err
  | ok entry =>
    dsimp only
    apply ((mono_withSpace (m := running proc) _ (fun _ => mono_addressSpaceAlloc _ _ _ _)).ends _).bind
    intro ustack s₃ h3
    have hrunning : 0 < running proc s₃ := Nat.lt_of_lt_of_le h2' h3
    split
    · exact procManagerRemoveDestroy_stuck hrunning _
    apply ((mono_taskManagerCreateUser (m := running proc) _ _ _).ends s₃).bind
    intro r s₄ h4
    cases r with
    | error err => exact procManagerRemoveDestroy_stuck (Nat.lt_of_lt_of_le hrunning h4) _
    | ok task => exact startTask_ends _

/-- The heap and the files when a creation has its two blocks. -/
def afterTwo (heap : Heap) : Heap := ⟨heap.blocks.drop 2, (heap.blocks.take 2).reverse ++ heap.live⟩

/-- `kalloc` gives a block for the table that is not in use. -/
def FreshTable (heap : Heap) : Prop :=
  ∀ b₁ b₂ rest, heap.blocks = b₁ :: b₂ :: rest → isErrValue b₂ = false → b₂ ≠ 0 ∧ b₂ ∉ b₁ :: heap.live

/-- The table has no descriptor in use. -/
def NoDescriptors (table : FDTable) : Prop := ∀ fd < MAX_FILES_PER_FD, table.filesState fd = .FREE

lemma copySlot_heap {s : Files} (dst src fd : Nat) : Yields (copySlot dst src fd) s (fun _ s' => s'.heap = s.heap) := by
  unfold copySlot
  apply (deref_yields Files.table src).bind
  rintro table s₁ ⟨-, rfl⟩
  split
  · refine Call.Ends.bind (Q := fun _ s' => s'.heap = s₁.heap) ?_ (fun _ _ h => Call.ends_of_ok rfl h)
    unfold fileGet refcountGet
    refine Call.Ends.bind (Q := fun _ s' => s'.heap = s₁.heap) ?_ (fun _ _ h => Call.ends_of_ok rfl h)
    apply (deref_yields Files.file _).bind
    rintro file _ ⟨-, rfl⟩
    split
    · exact trivial
    · rfl
  · rfl

lemma fdtableCreateFrom_heap {s : Files} {rest : List Nat} (hblocks : s.heap.blocks = b :: rest)
    (herr : isErrValue b = false) (src : Nat) : Yields (fdtableCreateFrom src) s
      (fun r s' => r = .ok b ∧ s'.heap = ⟨rest, b :: s.heap.live⟩) := by
  unfold fdtableCreateFrom
  apply Call.ends_bind_ok (fdtableCreate_cons hblocks herr)
  apply (Call.ends_each (E := fun _ _ => True) (f := copySlot b src) (fun _ s' => s'.heap = ⟨rest, b :: s.heap.live⟩)
    (fun fd _ s' h => (copySlot_heap b src fd).mono (fun _ _ h' => h'.trans h)) _ _ rfl).bind
  intro _ s' h
  exact ⟨rfl, h⟩

/-- The rest of `proc_manager_create_exec_from` returns a process, or keeps the table of descriptors, or gives it up
because `address_space_create_from` has failed. -/
lemma execFromRest_ends (src : Process) (srcTask srcFrame : Nat) :
    Call.Ends (fun _ _ => True) (execFromRest src srcTask srcFrame p t) s (fun r s' =>
      (∃ q, r = .ok q) ∨ holdings s ≤ holdings s' + 1 ∨ (NoDescriptors (s.table t) ∧
        ∃ err mm, addressSpaceCreateFrom (s.space src.addressSpace) s.mm = (.ok (.error err), mm))) := by
  unfold execFromRest
  apply Call.ends_bind_ok (x := Call.read _) rfl
  rcases hspace : addressSpaceCreateFrom (s.space src.addressSpace) s.mm with ⟨e | r, mm⟩
  · exact Call.ends_of_error (Call.bind_error (withMm_error hspace)) trivial
  apply Call.ends_bind_ok (withMm_ok hspace)
  cases r with
  | error err =>
    dsimp only
    refine Call.Ends.bind (Q := fun _ _ => NoDescriptors (s.table t)) ?_ (fun _ _ h => .inr (.inr ⟨h, err, mm, rfl⟩))
    unfold dropProcessAndTable
    apply (ends_withMm (Call.ends_true (kfree p) mm)).bind
    rintro _ s₁ ⟨-, hs₁⟩
    apply (ends_withFiles (destroy_yields t)).bind
    rintro _ s₂ ⟨⟨-, hfree⟩, -⟩
    intro fd hfd
    have h1 := hfree fd hfd
    rw [hs₁] at h1
    exact h1
  | ok as =>
    have hgain := (addressSpaceCreateFrom_gains (s.space src.addressSpace) s.mm).ok hspace as rfl
    dsimp only
    apply Call.ends_bind_ok (x := Call.update _) rfl
    refine Call.Ends.bind (Q := fun _ s' => holdings s + 4 ≤ holdings s') ?_ ?_
    · apply Call.ends_bind_ok (x := Call.read _) rfl
      show s.processes.length + blockCount s.mm + 4 ≤ s.processes.length + blockCount mm
      omega
    intro _ s₁ h1
    apply ((mono_taskManagerCreateUserFrom (m := holdings) _ _ _).ends s₁).bind
    intro r s₂ h2
    cases r with
    | error err =>
      apply ((loses_giveUp p as.self).ends s₂).mono
      intro r s₃ h3
      right
      left
      omega
    | ok task =>
      refine Call.Ends.bind (Q := fun _ _ => True) trivial ?_
      intro _ s₃ _
      exact (startTask_ends _).mono (fun _ _ hr => .inl hr)

lemma procManagerCreateExecFrom_ends {src : Nat} (h : Gives 2 s.mm.heap) (hfresh : FreshTable s.mm.heap)
    (hlive : (s.proc src).files ∈ s.mm.heap.live) (srcTask srcFrame : Nat) :
    Call.Ends (fun _ _ => True) (Spawning.procManagerCreateExecFrom src srcTask srcFrame) s (fun r s' =>
      Keeps s r s' ∨ (NoDescriptors (s.table (s.proc src).files) ∧
        ∃ err mm, addressSpaceCreateFrom (s.space (s.proc src).addressSpace) { s.mm with heap := afterTwo s.mm.heap } =
          (.ok (.error err), mm))) := by
  obtain ⟨b₁, b₂, rest, hb, h1, h2⟩ := h.two
  let s₁ : Spawning := { s with mm := takeBlock s.mm b₁ (b₂ :: rest) }
  have hheap : HeapFresh s₁.files.heap := by
    intro b hb'
    obtain rfl : b₂ = b := by simpa [s₁, takeBlock, Spawning.files] using hb'
    obtain ⟨hzero, hnot⟩ := hfresh b₁ b₂ rest hb h2
    exact ⟨hzero, h2, hnot⟩
  rw [Call.Ends, procManagerCreateExecFrom_eq]
  rcases hcreate : fdtableCreateFrom (s.proc src).files s₁.files with ⟨e | r, f⟩
  · have hrun : takeTwo (fdtableCreateFrom (s.proc src).files) (execFromRest (s.proc src) srcTask srcFrame) s =
        (.error e, s₁.setFiles f) := by
      unfold takeTwo
      rw [Call.bind_ok (withMm_ok (kalloc_cons hb)), h1, if_neg Bool.false_ne_true,
        Call.bind_error (withFiles_error hcreate)]
    rw [hrun]
    trivial
  have hblocks : s₁.files.heap.blocks = b₂ :: rest := rfl
  obtain ⟨rfl, hheap'⟩ := (fdtableCreateFrom_heap hblocks h2 (s.proc src).files).ok hcreate
  rw [takeTwo_eq _ hb h1 hcreate]
  apply (execFromRest_ends (s.proc src) srcTask srcFrame).mono
  rintro r s' (hr | hkept | ⟨hno, err, mm, hspace⟩)
  · exact .inl (.inl hr)
  · left
    right
    have h3 : s.processes.length + (inUse f.heap.live).length ≤ holdings s' + 1 := hkept
    rw [hheap'] at h3
    have h4 : inUse (b₂ :: s₁.files.heap.live) = b₂ :: b₁ :: inUse s.mm.heap.live := by
      rw [inUse_cons h2]
      exact congrArg _ (inUse_cons h1 s.mm.heap.live)
    rw [h4, List.length_cons, List.length_cons] at h3
    show s.processes.length + (inUse s.mm.heap.live).length < holdings s'
    omega
  · right
    constructor
    · intro fd hfd
      obtain ⟨err', hbad, -⟩ | ⟨b, hbeq, -, -, hcopy⟩ :=
        (createFrom_yields hheap (List.mem_cons_of_mem _ hlive)).ok hcreate
      · cases hbad
      · obtain rfl := Except.ok.inj hbeq
        have h3 : slotState f (b₂, fd) = .FREE := hno fd hfd
        rw [hcopy fd hfd] at h3
        exact h3
    · refine ⟨err, mm, ?_⟩
      have hmm : (s₁.setFiles f).mm = { s.mm with heap := afterTwo s.mm.heap } := by
        show ({ s.mm with heap := f.heap } : Mm) = _
        rw [hheap', afterTwo, hb]
        rfl
      rw [← hmm]
      exact hspace

lemma gives_add_two {heap : Heap} {b₁ b₂ : Nat} {rest : List Nat} (hb : heap.blocks = b₁ :: b₂ :: rest)
    (h1 : isErrValue b₁ = false) (h2 : isErrValue b₂ = false) (live : List Nat) (n : Nat) :
    Gives (n + 2) heap ↔ Gives n ⟨rest, live⟩ := by
  rw [gives_succ hb live, gives_succ (n := n) rfl live]
  exact ⟨fun h => h.2.2, fun h => ⟨h1, h2, h⟩⟩

/-- A copy of a process without descriptors, where `address_space_create` fails. -/
lemma procManagerCreateExecFrom_fails {src : Nat} (hpmm : PmmInv s.mm free) (h : Gives 2 s.mm.heap)
    (hlive : (s.proc src).files ∈ s.mm.heap.live) (hno : NoDescriptors (s.table (s.proc src).files))
    (hstop : ¬(Gives 6 s.mm.heap ∧ free ≠ [])) (srcTask srcFrame : Nat) :
    FailsCleanly free (Spawning.procManagerCreateExecFrom src srcTask srcFrame) s := by
  obtain ⟨b₁, b₂, rest, hb, h1, h2⟩ := h.two
  let s₁ : Spawning := { s with mm := takeBlock s.mm b₁ (b₂ :: rest) }
  have hblocks₁ : s₁.files.heap.blocks = b₂ :: rest := rfl
  have hlive₀ : (s.proc src).files ∈ s₁.files.heap.live := List.mem_cons_of_mem _ hlive
  obtain ⟨f, hcreate, hheap, hfile, hfree⟩ := fdtableCreateFrom_blank hblocks₁ h2 hlive₀ hno
  have hpmm₂ : PmmInv (s₁.setFiles f).mm free := hpmm.congr rfl rfl (fun _ _ _ _ _ => rfl)
  have hstop₂ : ¬(HasBlocks (s₁.setFiles f).mm ∧ free ≠ []) := by
    have hblocks : (s₁.setFiles f).mm.heap = ⟨rest, b₂ :: b₁ :: s.mm.heap.live⟩ := hheap
    have hgives : HasBlocks (s₁.setFiles f).mm ↔ Gives 4 (s₁.setFiles f).mm.heap := Iff.rfl
    rw [hgives, hblocks, ← gives_add_two hb h1 h2]
    exact hstop
  obtain ⟨mm, hspace, ⟨-, taken, left, back, hfree₀, hperm, hpmm₃, -⟩, hinUse⟩ := addressSpaceCreate_error hpmm₂ hstop₂
  have hinUse₃ : inUse mm.heap.live = b₂ :: b₁ :: inUse s.mm.heap.live := by
    rw [hinUse]
    show inUse f.heap.live = _
    rw [hheap]
    show inUse (b₂ :: b₁ :: s.mm.heap.live) = _
    rw [inUse_cons h2, inUse_cons h1]
  have hlive₁ : b₁ ∈ mm.heap.live := by
    apply List.mem_of_mem_filter (p := fun b => !isErrValue b)
    show b₁ ∈ inUse mm.heap.live
    rw [hinUse₃]
    simp
  have hinUse₄ : inUse (mm.heap.live.erase b₁) = b₂ :: inUse s.mm.heap.live := by
    rw [inUse_erase, hinUse₃, erase_second]
  have hlive₂ : b₂ ∈ mm.heap.live.erase b₁ := by
    apply List.mem_of_mem_filter (p := fun b => !isErrValue b)
    show b₂ ∈ inUse (mm.heap.live.erase b₁)
    rw [hinUse₄]
    exact List.mem_cons_self
  let s₄ : Spawning := { s₁.setFiles f with mm := giveBlock mm b₁ }
  have hdestroy := fdtableDestroy_free (s := s₄.files) (t := b₂) hlive₂ hfree
  have hdrop : dropProcessAndTable b₁ b₂ { s₁.setFiles f with mm := mm } = (.ok (), s₄.setFiles
      { s₄.files with heap := { s₄.files.heap with live := s₄.files.heap.live.erase b₂ } }) := by
    unfold dropProcessAndTable
    rw [Call.bind_ok (withMm_ok (kfree_ok hlive₁)), Call.bind_ok (withFiles_ok hdestroy)]
    rfl
  have hfrom : addressSpaceCreateFrom ((s₁.setFiles f).space (s.proc src).addressSpace) (s₁.setFiles f).mm =
      (.ok (.error (Errno.code .ENOMEM)), mm) := by
    rw [addressSpaceCreateFrom, Call.bind_ok hspace]
    rfl
  refine ⟨Errno.code .ENOMEM, s₄.setFiles
    { s₄.files with heap := { s₄.files.heap with live := s₄.files.heap.live.erase b₂ } },
    ?_, ⟨rfl, fun _ _ => rfl, ?_, ⟨back ++ left, ?_, ?_⟩, ?_⟩⟩
  · rw [procManagerCreateExecFrom_eq, takeTwo_eq _ hb h1 hcreate]
    unfold execFromRest
    rw [Call.read_bind, Call.bind_ok (withMm_ok hfrom)]
    dsimp only
    rw [Call.bind_ok hdrop]
    rfl
  · intro q _
    show (f.file q).count = _
    rw [hfile]
    rfl
  · exact hpmm₃.congr rfl rfl (fun _ _ _ _ _ => rfl)
  · rw [hfree₀]
    exact hperm.append_right left
  · show (inUse ((mm.heap.live.erase b₁).erase b₂)).Perm _
    rw [inUse_erase, hinUse₄, List.erase_cons_head]

/-- The copy of an address space begins and runs out of frames, and what it then reads through the error pointer of
`pmm_alloc` makes it return another error. -/
def Strays (free : List Nat) (src : AddressSpace) (s : Mm) : Prop :=
  free.length < framesFor (copiedPages src) ∧
    ∃ err mm, addressSpaceCreateFrom src s = (.ok (.error err), mm) ∧ err ≠ Errno.code .ENOMEM

/-- `address_space_create_from` fails before it copies anything, or because it has run out of frames. -/
lemma ForkSource.strays {src : AddressSpace} {root err : Nat} {T : Tree} {mm : Mm}
    (hsource : ForkSource s.mm src root T free)
    (h : Gives 2 s.mm.heap)
    (hrun : addressSpaceCreateFrom src { s.mm with heap := afterTwo s.mm.heap } = (.ok (.error err), mm)) :
    ¬(Gives 6 s.mm.heap ∧ free ≠ []) ∨ Strays free src { s.mm with heap := afterTwo s.mm.heap } := by
  by_cases hstop : Gives 6 s.mm.heap ∧ free ≠ []
  case neg => exact .inl hstop
  right
  obtain ⟨b₁, b₂, rest, hb, h1, h2⟩ := h.two
  have hsource' := hsource.heap (afterTwo s.mm.heap)
  have hblocks : HasBlocks { s.mm with heap := afterTwo s.mm.heap } := by
    have hgives : Gives 4 (afterTwo s.mm.heap) := by
      rw [afterTwo, hb]
      exact (gives_add_two hb h1 h2 _ 4).mp hstop.1
    exact hgives
  rcases hsource'.copies hblocks hstop.2 with ⟨hshort, -⟩ | ⟨dst, s', -, -, -, hok, -⟩
  · exact ⟨hshort, err, mm, hrun, fun heq => (hsource'.never hblocks hstop.2).ok hrun (congrArg Except.error heq)⟩
  · rw [hrun] at hok
    cases hok

lemma not_failsCleanly {x : SpawnCall (Except Nat Nat)} (h : Call.Ends (fun _ _ => True) x s (Keeps s)) :
    ¬FailsCleanly free x s := by
  rintro ⟨err, s', hrun, hsame⟩
  rcases h.ok hrun with ⟨q, hq⟩ | hlt
  · cases hq
  · rw [hsame.holdings] at hlt
    exact Nat.lt_irrefl _ hlt

lemma procManagerCreateImpl_fails (hpmm : PmmInv s.mm free) (h : ¬Gives 2 s.mm.heap) :
    FailsCleanly free Spawning.procManagerCreateImpl s :=
  takeTwo_fails createRest hpmm h (fun _ hnone => fdtableCreate_error hnone)

lemma procManagerCreateExec_fails (hpmm : PmmInv s.mm free) (h : ¬Gives 2 s.mm.heap)
    (programPa programSize entry : Nat) :
    FailsCleanly free (Spawning.procManagerCreateExec programPa programSize entry) s := by
  obtain ⟨err, s', hrun, hsame⟩ := procManagerCreateImpl_fails hpmm h
  refine ⟨err, s', ?_, hsame⟩
  unfold Spawning.procManagerCreateExec
  rw [Call.bind_ok hrun]
  rfl

/-- The loader is given the address space of an error pointer. -/
lemma not_failsCleanly_fromElf (hpmm : PmmInv s.mm free) (elf : Mem) (elfSize : Nat) :
    ¬FailsCleanly free (procManagerCreateExecFromElf elf elfSize) s := by
  by_cases h : Gives 2 s.mm.heap
  · exact not_failsCleanly ((procManagerCreateExecFromElf_ends h elf elfSize).mono (fun _ _ hr => .inl hr))
  obtain ⟨err, s', hrun, -⟩ := procManagerCreateImpl_fails hpmm h
  have hcreate : Spawning.procManagerCreate s = (.ok (.error err), s') := hrun
  rintro ⟨err', s'', hrun', -⟩
  unfold procManagerCreateExecFromElf at hrun'
  rw [Call.bind_ok hcreate] at hrun'
  cases hrun'

/-- The child is entered among the children of its parent, also where it is an error pointer. -/
lemma not_failsCleanly_childFrom (parent parentTask parentFrame : Nat) :
    ¬FailsCleanly free (Spawning.procManagerCreateExecChildFrom parent parentTask parentFrame) s := by
  apply not_failsCleanly
  apply (Call.ends_true (Spawning.procManagerCreateExecFrom parent parentTask parentFrame) s).bind
  intro r s' _
  cases r with
  | error err => exact trivial
  | ok child =>
    apply Call.ends_bind_ok (x := Call.update _) rfl
    apply Call.ends_bind_ok (x := Call.update _) rfl
    exact .inl ⟨child, rfl⟩

/-- When a creation that fails leaves nothing behind: `proc_manager_create` and `proc_manager_create_exec` if and only
if the process or its table of descriptors gets no block; a fork and `proc_manager_create_exec_from_elf` never;
`proc_manager_create_exec_from` also if the source has no descriptor in use and `address_space_create` fails. It could
fail cleanly in no other way but by running out of frames in the middle of the copy and straying through memory. All of
it is for a heap that does not grow for the calls of `kalloc`, at most eleven, so that they take no frames. -/
theorem process_creation_atomic {requests : List HeapRequest} (hpmm : PmmInv s.mm free)
    (hserves : Serves 11 s.mm.heap.blocks requests) :
    (∀ r ∈ requests, r.AsksNothing) ∧
    (FailsCleanly free Spawning.procManagerCreate s ↔ ¬Gives 2 s.mm.heap) ∧
    (∀ programPa programSize entry,
      FailsCleanly free (Spawning.procManagerCreateExec programPa programSize entry) s ↔ ¬Gives 2 s.mm.heap) ∧
    (∀ elf elfSize, ¬FailsCleanly free (procManagerCreateExecFromElf elf elfSize) s) ∧
    (∀ parent task frame, ¬FailsCleanly free (Spawning.procManagerCreateExecChildFrom parent task frame) s) ∧
    ∀ src task frame, (s.proc src).files ∈ s.mm.heap.live → FreshTable s.mm.heap →
      (¬Gives 2 s.mm.heap ∨ NoDescriptors (s.table (s.proc src).files) ∧ ¬(Gives 6 s.mm.heap ∧ free ≠ []) →
        FailsCleanly free (Spawning.procManagerCreateExecFrom src task frame) s) ∧
      ∀ root T, ForkSource s.mm (s.space (s.proc src).addressSpace) root T free →
        FailsCleanly free (Spawning.procManagerCreateExecFrom src task frame) s →
        ¬Gives 2 s.mm.heap ∨ NoDescriptors (s.table (s.proc src).files) ∧ (¬(Gives 6 s.mm.heap ∧ free ≠ []) ∨
          Strays free (s.space (s.proc src).addressSpace) { s.mm with heap := afterTwo s.mm.heap }) := by
  refine ⟨fun r => hserves.asksNothing, ⟨?_, procManagerCreateImpl_fails hpmm⟩,
    fun programPa programSize entry => ⟨?_, fun h => ?_⟩,
    not_failsCleanly_fromElf hpmm, not_failsCleanly_childFrom, fun src task frame hlive hfresh => ⟨?_, ?_⟩⟩
  · intro hclean h
    have hends := procManagerCreateImpl_ends h
    exact not_failsCleanly (hends.mono (fun _ _ ⟨q, hr, _⟩ => .inl ⟨q, hr⟩)) hclean
  · intro hclean h
    exact not_failsCleanly (procManagerCreateExec_ends h programPa programSize entry) hclean
  · exact procManagerCreateExec_fails hpmm h programPa programSize entry
  · intro hwhen
    by_cases h : Gives 2 s.mm.heap
    · obtain ⟨hno, hstop⟩ := hwhen.resolve_left (not_not.mpr h)
      exact procManagerCreateExecFrom_fails hpmm h hlive hno hstop task frame
    · unfold FailsCleanly
      rw [procManagerCreateExecFrom_eq]
      exact takeTwo_fails (execFromRest (s.proc src) task frame) hpmm h (fun _ hnone => fdtableCreateFrom_error hnone _)
  · rintro root T hsource ⟨err, s', hrun, hsame⟩
    by_cases h : Gives 2 s.mm.heap
    case neg => exact .inl h
    right
    rcases (procManagerCreateExecFrom_ends h hfresh hlive task frame).ok hrun with (⟨q, hq⟩ | hlt) |
      ⟨hno, err', mm, hcopy⟩
    · cases hq
    · rw [hsame.holdings] at hlt
      exact absurd hlt (Nat.lt_irrefl _)
    · exact ⟨hno, hsource.strays h hcopy⟩

/-- A process whose address space is that of `parentMapped` and whose table has no descriptor in use. -/
def spawnBoot (blocks : List Nat) : Spawning where
  mm := { parentMapped.mm with heap := ⟨blocks, 0xd000 :: 0xd100 :: parentMapped.mm.heap.live⟩ }
  file := fun _ => ⟨0, 0, 0, 0, 0⟩
  table := fun _ => FDTable.blank
  released := []
  space := fun _ => parentMapped.as
  proc := fun _ => ⟨1, .RUNNING, 0, [], [], 0xe000, 0xd100, 0⟩
  processes := [0xd000]
  pidCount := 2
  smp := ⟨fun _ => ⟨0xc000, .READY, 0, 0xd000, 0⟩, fun _ => false, fun _ => 0xc100, fun _ => 0xc200, fun _ => 0xc300,
    fun _ => false, fun _ => [], fun _ => []⟩
  cpus := [0xc000]
  online := fun _ => true
  thread := fun _ => ⟨1, 0xc400, .userEntryTrampoline, 0xc500, 0, 0⟩
  tasks := [0xc100]
  taskIdCount := 2

lemma spawnBoot_source (blocks : List Nat) :
    ∃ root T free, ForkSource (spawnBoot blocks).mm parentMapped.as root T free ∧ free.length = 6 := by
  obtain ⟨root, T, free, hsource, hlen⟩ := parent_source
  exact ⟨root, T, free, hsource.heap _, hlen⟩

theorem process_creation_atomic_two_blocks :
    ∃ free, FailsCleanly free (Spawning.procManagerCreateExecFrom 0xd000 0xc100 0) (spawnBoot [0xd200, 0xd300]) ∧
      ¬FailsCleanly free Spawning.procManagerCreate (spawnBoot [0xd200, 0xd300]) ∧
      FailsCleanly free Spawning.procManagerCreate (spawnBoot [0xd200]) := by
  obtain ⟨root, T, free, hsource, -⟩ := spawnBoot_source [0xd200, 0xd300]
  have hpmm := hsource.inv.table.pmm
  have hpmm₁ : PmmInv (spawnBoot [0xd200]).mm free := hpmm.congr rfl rfl (fun _ _ _ _ _ => rfl)
  have hserves : Serves 11 [0xd200, 0xd300]
      (requestAt 0xd200 :: requestAt 0xd300 :: List.replicate 9 requestFull) :=
    serves_of noVm (by decide +kernel) (by decide +kernel) (by decide +kernel)
  have hserves₁ : Serves 11 [0xd200] (requestAt 0xd200 :: List.replicate 10 requestFull) :=
    serves_of noVm (by decide +kernel) (by decide +kernel) (by decide +kernel)
  obtain ⟨-, hcreate, -, -, -, hfrom⟩ := process_creation_atomic hpmm hserves
  have hfresh : FreshTable (spawnBoot [0xd200, 0xd300]).mm.heap := by
    intro b₁ b₂ rest hb _
    obtain ⟨rfl, rfl, rfl⟩ : 0xd200 = b₁ ∧ 0xd300 = b₂ ∧ [] = rest := by
      have h1 : [0xd200, 0xd300] = b₁ :: b₂ :: rest := hb
      simpa using h1
    exact ⟨by decide, by decide +kernel⟩
  have hwhen : ¬Gives 6 (spawnBoot [0xd200, 0xd300]).mm.heap := by decide
  have hlive : ((spawnBoot [0xd200, 0xd300]).proc 0xd000).files ∈ (spawnBoot [0xd200, 0xd300]).mm.heap.live :=
    List.mem_cons_of_mem _ List.mem_cons_self
  refine ⟨free, ?_, ?_, ?_⟩
  · exact (hfrom 0xd000 0xc100 0 hlive hfresh).1 (.inr ⟨fun _ _ => rfl, fun h => hwhen h.1⟩)
  · exact fun hclean => hcreate.mp hclean (by decide)
  · exact (process_creation_atomic hpmm₁ hserves₁).2.1.mpr (by decide)

/-- There are blocks for the process, its table and the standard files, and none for an address space. The table is not
destroyed, and with no block at all a fork goes on with the error pointer. -/
theorem process_creation_panics :
    (Spawning.procManagerCreate (spawnBoot [0xd200, 0xd300, 0xd400, 0xd500, 0xd600])).1 = .error .panic ∧
    (Spawning.procManagerCreateExecChildFrom 0xd000 0xc100 0 (spawnBoot [])).1 = .error .fault ∧
    (∃ free, PmmInv (spawnBoot [0xd200, 0xd300, 0xd400, 0xd500, 0xd600]).mm free ∧
      ¬FailsCleanly free Spawning.procManagerCreate (spawnBoot [0xd200, 0xd300, 0xd400, 0xd500, 0xd600])) := by
  have hpanic : (Spawning.procManagerCreate (spawnBoot [0xd200, 0xd300, 0xd400, 0xd500, 0xd600])).1 = .error
    .panic := by
    decide +kernel
  refine ⟨hpanic, by decide +kernel, ?_⟩
  obtain ⟨root, T, free, hsource, -⟩ := spawnBoot_source [0xd200, 0xd300, 0xd400, 0xd500, 0xd600]
  refine ⟨free, hsource.inv.table.pmm, ?_⟩
  rintro ⟨err, s', hrun, -⟩
  rw [hrun] at hpanic
  cases hpanic

end Calls

end KaworuOS.Proofs
