import KaworuOS.ProcessTree
import KaworuOS.Proofs.Wait4Children

/-!
# The tree of processes

Three things keep the tree together: a process is created without a parent or forked as a child of its parent, its
children are gone before it is reaped, and a zombie that leaves the children list of its parent is destroyed. The code
relies on the first one without writing the field, and on the other two without a check.
-/

namespace KaworuOS.Proofs
open Lib

variable {s s' : ProcessTree} {p q b : Nat} {a : Creation}

/-- All parts of `proc_manager_create_impl` succeed. -/
structure Creation.Succeeds (a : Creation) : Prop where
  proc : ∃ p, a.proc = .ok p
  table : ∃ table, a.table = .ok table
  attached : a.attached = .EOK
  space : ∃ space, a.space = .ok space

/-- The stack, the mapping and the task of `proc_manager_create_exec` succeed too. -/
structure Creation.Starts (a : Creation) : Prop where
  stack : ∃ stack, a.stack = .ok stack
  mapped : a.mapped = .EOK
  task : ∃ task, a.task = .ok task

/-- What happens to the processes: the calls, and what a cleanup task and the rest of the kernel do between them. -/
inductive TreeOp
  | create (a : Creation)
  | createExec (a : Creation)
  | fork (p : Nat) (a : Creation)
  | exit (p : Nat) (status : Int)
  | wait4 (p table status : Nat)
  | removeThread (p thread : Nat)
  | clearSpace (p : Nat)
  | memory (mm : Mm)

/-- The state after a call that returns. -/
def TreeOp.run (s : ProcessTree) : TreeOp → Except Halt ProcessTree
  | create a => (procManagerCreate a s).map Prod.snd
  | createExec a => (procManagerCreateExec a s).map Prod.snd
  | fork p a => (procManagerCreateExecChildFrom p a s).map Prod.snd
  | exit p status => (sysExit p status s).map Prod.snd
  | wait4 p table status => (s.wait4 p table status).map Prod.snd
  | removeThread p thread => .ok (s.setProc p ((s.proc p).removeThread thread))
  | clearSpace p => .ok (s.setProc p { s.proc p with addressSpace := 0 })
  | memory mm => .ok { s with family := { s.family with mm := mm } }

/-- `kalloc` gives a block that is not in use. -/
def Creation.Fresh (s : ProcessTree) (a : Creation) : Prop := ∀ p, a.proc = .ok p → p ≠ 0 ∧ p ∉ s.live

/-- A process that makes a system call. -/
def Calls (s : ProcessTree) (p : Nat) : Prop := p ∈ s.processes ∧ (s.proc p).state = .RUNNING

/-- The calls that can be made. -/
def TreeOp.Possible (s : ProcessTree) : TreeOp → Prop
  | create a | createExec a => Creation.Fresh s a
  | fork p a => Calls s p ∧ Creation.Fresh s a
  | exit p _ | wait4 p _ _ => Calls s p
  | _ => True

/-- The zombie that `wait4` finds first. -/
def zombieOf (s : Family) (p : Nat) : Option Nat := (s.proc p).children.find? fun c => (s.proc c).state = .ZOMBIE

/-- The call keeps the tree together: a new block has a null `parent`, and the creation does not give up once the
process is in `process_list`; and a child that `wait4` takes has no children, and its exit code can be stored. -/
def TreeOp.Careful (s : ProcessTree) : TreeOp → Prop
  | create a => Creation.Succeeds a → a.old.parent = 0
  | createExec a => Creation.Succeeds a → a.old.parent = 0 ∧ Creation.Starts a
  | wait4 p table status => ∀ c, zombieOf s.family p = some c →
      (s.proc c).children = [] ∧ rangeVerdict table status 8 true false s.family.mm ≠ .ok false
  | _ => True

/-- The states that are reached from `proc_manager_init` by calls that meet a condition. -/
inductive TreeRun (C : ProcessTree → TreeOp → Prop) : ProcessTree → Prop
  | init {s : ProcessTree} (hprocesses : s.processes = []) (hlive : s.live = []) : TreeRun C s
  | step {s s' : ProcessTree} (h : TreeRun C s) (op : TreeOp) (hpossible : TreeOp.Possible s op) (hC : C s op)
      (hrun : op.run s = .ok s') : TreeRun C s'

/-- What should hold of the tree: the processes of the list are there, with a parent that is null or in the list; the
children lists are those of the parent fields, and `exit` and `getppid` read a parent that is there. -/
structure TreeIntact (s : ProcessTree) : Prop where
  listed : ∀ q ∈ s.processes, q ∈ s.live
  parent : ∀ q ∈ s.processes, (s.proc q).parent = 0 ∨ (s.proc q).parent ∈ s.processes
  children : ∀ p ∈ s.processes, ∀ q, q ∈ (s.proc p).children ↔ q ∈ s.processes ∧ (s.proc q).parent = p
  oneList : ∀ p ∈ s.processes, ∀ p' ∈ s.processes, ∀ q, q ∈ (s.proc p).children → q ∈ (s.proc p').children → p = p'
  exit : ∀ p ∈ s.processes, ∀ status, sysExit p status s ≠ .error .fault
  getppid : ∀ p ∈ s.processes, sysGetppid p s = .ok 0 ∨ ∃ q ∈ s.processes, sysGetppid p s = .ok (castI64 (s.proc q).pid)

/-- The invariant of a careful run. -/
structure TreeInv (s : ProcessTree) : Prop where
  nodup : s.processes.Nodup
  listed : ∀ q ∈ s.processes, q ∈ s.live
  zero : 0 ∉ s.live
  parent : ∀ q ∈ s.processes, (s.proc q).parent = 0 ∨ (s.proc q).parent ∈ s.processes
  children : ∀ p ∈ s.processes, ∀ q, q ∈ (s.proc p).children ↔ q ∈ s.processes ∧ (s.proc q).parent = p
  once : ∀ p ∈ s.processes, (s.proc p).children.Nodup

lemma TreeInv.intact (h : TreeInv s) : TreeIntact s where
  listed := h.listed
  parent := h.parent
  children := h.children
  oneList p hp p' hp' q hq hq' := ((h.children p hp q).mp hq).2.symm.trans ((h.children p' hp' q).mp hq').2
  exit p hp status := by
    have hparent : ((s.setProc p ((s.proc p).exit status)).proc p).parent = (s.proc p).parent := by
      simp [ProcessTree.proc, ProcessTree.setProc, Family.setProc, Process.exit]
    unfold sysExit
    dsimp only
    rw [hparent]
    rcases h.parent p hp with hzero | hlisted
    · rw [assertThat, if_neg (not_not.mpr hzero)]
      exact fun heq => by cases heq
    · have hlive : (s.proc p).parent ∈ (s.setProc p ((s.proc p).exit status)).live := h.listed _ hlisted
      rw [assertThat]
      split_ifs
      · exact fun heq => by cases heq
      · exact fun heq => by cases heq
  getppid p hp := by
    unfold sysGetppid
    dsimp only
    rcases h.parent p hp with hzero | hlisted
    · exact .inl (if_pos hzero)
    · by_cases hzero : (s.proc p).parent = 0
      · exact .inl (if_pos hzero)
      · rw [if_neg hzero, if_pos (h.listed _ hlisted)]
        exact .inr ⟨_, hlisted, rfl⟩

/-- A call that keeps the list, the parents and the children. -/
lemma TreeInv.congr (h : TreeInv s) (hprocesses : s'.processes = s.processes) (hlive : s'.live = s.live)
    (hparent : ∀ q ∈ s.processes, (s'.proc q).parent = (s.proc q).parent)
    (hchildren : ∀ q ∈ s.processes, (s'.proc q).children = (s.proc q).children) : TreeInv s' where
  nodup := hprocesses ▸ h.nodup
  listed := by
    rw [hprocesses, hlive]
    exact h.listed
  zero := hlive ▸ h.zero
  parent q hq := by
    rw [hprocesses] at hq ⊢
    rw [hparent q hq]
    exact h.parent q hq
  children p hp q := by
    rw [hprocesses] at hp ⊢
    rw [hchildren p hp, h.children p hp q]
    exact and_congr_right fun hq => by rw [hparent q hq]
  once p hp := by
    rw [hprocesses] at hp
    rw [hchildren p hp]
    exact h.once p hp

/-- A new process is put behind the others and on the children list of its parent, if it has one. -/
lemma TreeInv.add (h : TreeInv s) (hzero : b ≠ 0) (hfresh : b ∉ s.live) (hprocesses : s'.processes = s.processes ++ [b])
    (hlive : s'.live = b :: s.live) {parent : Nat} (hparent : parent = 0 ∨ parent ∈ s.processes)
    (hnew : (s'.proc b).parent = parent) (hnone : (s'.proc b).children = [])
    (hold : ∀ q ∈ s.processes, (s'.proc q).parent = (s.proc q).parent)
    (hchildren : ∀ q ∈ s.processes, (s'.proc q).children = (s.proc q).children ++ if q = parent then [b] else []) :
    TreeInv s' := by
  have hb : b ∉ s.processes := fun hmem => hfresh (h.listed b hmem)
  have hnonzero : ∀ q ∈ s.processes, q ≠ 0 := by
    rintro q hq rfl
    exact h.zero (h.listed 0 hq)
  have hmem : ∀ q, q ∈ s'.processes ↔ q ∈ s.processes ∨ q = b := by simp [hprocesses]
  have hnotParent : ∀ q ∈ s.processes, (s.proc q).parent ≠ b := by
    intro q hq heq
    rcases h.parent q hq with h0 | hin
    · exact hzero (heq.symm.trans h0)
    · exact hb (heq ▸ hin)
  have hbParent : parent ≠ b := by
    rintro rfl
    exact hparent.elim hzero hb
  refine ⟨?_, fun q hq => ?_, ?_, fun q hq => ?_, fun p hp q => ?_, fun p hp => ?_⟩
  · rw [hprocesses]
    exact List.nodup_append.mpr ⟨h.nodup, List.nodup_singleton b, fun x hx y hy hxy => hb (by simp_all)⟩
  · rw [hlive]
    rcases (hmem q).mp hq with hq | rfl
    · exact List.mem_cons_of_mem _ (h.listed q hq)
    · exact List.mem_cons_self
  · rw [hlive]
    exact fun hmem0 => (List.mem_cons.mp hmem0).elim (fun h0 => hzero h0.symm) h.zero
  · rcases (hmem q).mp hq with hq | rfl
    · rw [hold q hq]
      exact (h.parent q hq).imp_right fun hin => (hmem _).mpr (.inl hin)
    · rw [hnew]
      exact hparent.imp_right fun hin => (hmem _).mpr (.inl hin)
  · rcases (hmem p).mp hp with hp | rfl
    · rw [hchildren p hp, List.mem_append, h.children p hp q, hmem]
      constructor
      · rintro (⟨hq, heq⟩ | hq)
        · exact ⟨.inl hq, (hold q hq).trans heq⟩
        · split_ifs at hq with hpp
          · obtain rfl := List.mem_singleton.mp hq
            exact ⟨.inr rfl, hnew.trans hpp.symm⟩
          · cases hq
      · rintro ⟨hq | rfl, heq⟩
        · exact .inl ⟨hq, (hold q hq).symm.trans heq⟩
        · rw [if_pos (heq.symm.trans hnew)]
          exact .inr List.mem_cons_self
    · rw [hnone, hmem]
      refine ⟨fun hq => (by cases hq), ?_⟩
      rintro ⟨hq | rfl, heq⟩
      · exact absurd ((hold q hq).symm.trans heq) (hnotParent q hq)
      · exact absurd (hnew.symm.trans heq) hbParent
  · rcases (hmem p).mp hp with hp | rfl
    · rw [hchildren p hp]
      split_ifs with hpp
      · have hnot : b ∉ (s.proc p).children := fun hin => hb ((h.children p hp b).mp hin).1
        exact List.nodup_append.mpr ⟨h.once p hp, List.nodup_singleton b, fun x hx y hy hxy => hnot (by simp_all)⟩
      · rw [List.append_nil]
        exact h.once p hp
    · rw [hnone]
      exact List.nodup_nil

/-- A child without children is taken from its parent and from the list. -/
lemma TreeInv.take (h : TreeInv s) (hp : p ∈ s.processes) (hq : q ∈ (s.proc p).children) (hne : q ≠ p)
    (hnone : (s.proc q).children = []) (hprocesses : s'.processes = unlink s.processes q)
    (hlive : s'.live = s.live.filter fun x => x ≠ q)
    (hproc : s'.proc = Function.update s.proc p ((s.proc p).removeChild q)) : TreeInv s' := by
  obtain ⟨hlisted, hparent⟩ := (h.children p hp q).mp hq
  have herase : s'.processes = s.processes.erase q := hprocesses.trans (if_pos hlisted)
  have hmem : ∀ x, x ∈ s'.processes ↔ x ≠ q ∧ x ∈ s.processes := fun x => by
    rw [herase]
    exact h.nodup.mem_erase_iff
  have hchildrenP : (s'.proc p).children = (s.proc p).children.erase q := by
    rw [hproc, Function.update_self]
    exact if_pos hq
  have hsame : ∀ x, x ≠ p → s'.proc x = s.proc x := fun x hx => by rw [hproc, Function.update_of_ne hx]
  have hsameParent : ∀ x, (s'.proc x).parent = (s.proc x).parent := by
    intro x
    by_cases hx : x = p
    · subst hx
      rw [hproc, Function.update_self]
      rfl
    · rw [hsame x hx]
  refine ⟨?_, fun x hx => ?_, ?_, fun x hx => ?_, fun p' hp' x => ?_, fun p' hp' => ?_⟩
  · rw [herase]
    exact h.nodup.erase q
  · rw [hlive]
    exact List.mem_filter.mpr ⟨h.listed x ((hmem x).mp hx).2, by simpa using ((hmem x).mp hx).1⟩
  · rw [hlive]
    exact fun h0 => h.zero (List.mem_filter.mp h0).1
  · rw [hsameParent, hmem]
    refine (h.parent x ((hmem x).mp hx).2).imp_right fun hin => ⟨?_, hin⟩
    -- `q` has no children
    intro heq
    have hchild := (h.children q hlisted x).mpr ⟨((hmem x).mp hx).2, heq⟩
    rw [hnone] at hchild
    cases hchild
  · rw [hmem, hsameParent]
    by_cases hpp : p' = p
    · subst hpp
      rw [hchildrenP, (h.once p' hp).mem_erase_iff, h.children p' hp x, and_assoc]
    · rw [hsame p' hpp, h.children p' ((hmem p').mp hp').2 x]
      refine ⟨fun hx => ⟨⟨?_, hx.1⟩, hx.2⟩, fun hx => ⟨hx.1.2, hx.2⟩⟩
      rintro rfl
      exact hpp (hx.2.symm.trans hparent)
  · by_cases hpp : p' = p
    · subst hpp
      rw [hchildrenP]
      exact (h.once p' hp).erase q
    · rw [hsame p' hpp]
      exact h.once p' ((hmem p').mp hp').2

/-- A creation that has failed: the block is given back. -/
structure Withdrawn (s s' : ProcessTree) : Prop where
  processes : s'.processes = s.processes
  live : s'.live = s.live
  proc : ∀ q ∈ s.live, s'.proc q = s.proc q

lemma Withdrawn.inv (h : Withdrawn s s') (hs : TreeInv s) : TreeInv s' :=
  hs.congr h.processes h.live (fun q hq => by rw [h.proc q (hs.listed q hq)])
    fun q hq => by rw [h.proc q (hs.listed q hq)]

lemma withdrawn_kfree {old : Process} (hfresh : b ∉ s.live) : Withdrawn s ((s.kalloc b old).kfree b) where
  processes := rfl
  live := List.erase_cons_head ..
  proc q hq := by
    have hne : q ≠ b := by
      rintro rfl
      exact hfresh hq
    exact Function.update_of_ne hne _ _

@[simp] lemma setProc_proc_self {proc : Process} : (s.setProc p proc).proc p = proc :=
  Function.update_self ..

lemma setProc_proc_of_ne {proc : Process} (hne : q ≠ p) : (s.setProc p proc).proc q = s.proc q :=
  Function.update_of_ne hne _ _

/-- The process that `process_init` makes out of a block keeps the parent of the old content. -/
lemma proc_init {old : Process} {space table : Nat} :
    ((s.kalloc b old).init b space table).proc b = old.init s.pidCount space table := by
  simp [ProcessTree.kalloc, ProcessTree.init, ProcessTree.proc, ProcessTree.setProc, Family.setProc]

lemma proc_init_of_ne {old : Process} {space table : Nat} (hne : q ≠ b) :
    ((s.kalloc b old).init b space table).proc q = s.proc q :=
  (Function.update_of_ne hne _ _).trans (Function.update_of_ne hne _ _)

lemma createImpl_cases {r : Except Errno Nat} (hfresh : Creation.Fresh s a)
    (h : procManagerCreateImpl a s = .ok (r, s')) :
    (∃ e, r = .error e ∧ Withdrawn s s') ∨
      ∃ b space table, r = .ok b ∧ a.proc = .ok b ∧ Creation.Succeeds a ∧
        s' = ((s.kalloc b a.old).init b space table).insert b := by
  unfold procManagerCreateImpl at h
  cases hproc : a.proc with
  | error e =>
    rw [hproc] at h
    obtain ⟨rfl, rfl⟩ := Prod.mk.inj (Except.ok.inj h)
    exact .inl ⟨e, rfl, rfl, rfl, fun _ _ => rfl⟩
  | ok b =>
    rw [hproc] at h
    have hwithdrawn : Withdrawn s ((s.kalloc b a.old).kfree b) := withdrawn_kfree (hfresh b hproc).2
    dsimp only at h
    cases htable : a.table with
    | error e =>
      rw [htable] at h
      obtain ⟨rfl, rfl⟩ := Prod.mk.inj (Except.ok.inj h)
      exact .inl ⟨_, rfl, hwithdrawn⟩
    | ok table =>
      rw [htable] at h
      dsimp only at h
      split_ifs at h with hattached
      · obtain ⟨_, -, h⟩ := bind_eq_ok.mp h
        obtain ⟨rfl, rfl⟩ := Prod.mk.inj (Except.ok.inj h)
        exact .inl ⟨_, rfl, hwithdrawn⟩
      · cases hspace : a.space with
        | error e =>
          rw [hspace] at h
          obtain ⟨_, -, h⟩ := bind_eq_ok.mp h
          obtain ⟨rfl, rfl⟩ := Prod.mk.inj (Except.ok.inj h)
          exact .inl ⟨_, rfl, hwithdrawn⟩
        | ok space =>
          rw [hspace] at h
          obtain ⟨rfl, rfl⟩ := Prod.mk.inj (Except.ok.inj h)
          exact .inr ⟨b, space, table, rfl, rfl,
            ⟨⟨b, hproc⟩, ⟨table, htable⟩, not_not.mp hattached, ⟨space, hspace⟩⟩, rfl⟩

/-- A process that was created without a parent. -/
lemma TreeInv.created {old : Process} {space table : Nat} (h : TreeInv s) (hzero : b ≠ 0) (hfresh : b ∉ s.live)
    (hold : old.parent = 0) : TreeInv (((s.kalloc b old).init b space table).insert b) := by
  have hnonzero : ∀ q ∈ s.processes, q ≠ 0 ∧ q ≠ b := by
    refine fun q hq => ⟨?_, ?_⟩
    · rintro rfl
      exact h.zero (h.listed 0 hq)
    · rintro rfl
      exact hfresh (h.listed q hq)
  have hproc : ∀ q, (((s.kalloc b old).init b space table).insert b).proc q =
      ((s.kalloc b old).init b space table).proc q := fun _ => rfl
  refine h.add hzero hfresh rfl rfl (.inl rfl) ?_ ?_ ?_ ?_
  · rw [hproc, proc_init]
    exact hold
  · rw [hproc, proc_init]
    rfl
  · intro q hq
    rw [hproc, proc_init_of_ne (hnonzero q hq).2]
  · intro q hq
    rw [hproc, proc_init_of_ne (hnonzero q hq).2, if_neg (hnonzero q hq).1, List.append_nil]

/-- Another thread changes nothing in the tree. -/
lemma TreeInv.setProc (h : TreeInv s) {proc : Process} (hparent : proc.parent = (s.proc p).parent)
    (hchildren : proc.children = (s.proc p).children) : TreeInv (s.setProc p proc) := by
  have hsame : ∀ q, (((s.setProc p proc).proc q).parent = (s.proc q).parent) ∧
      (((s.setProc p proc).proc q).children = (s.proc q).children) := by
    intro q
    by_cases hqp : q = p
    · subst hqp
      simpa [ProcessTree.proc, ProcessTree.setProc, Family.setProc] using ⟨hparent, hchildren⟩
    · have hq : (s.setProc p proc).proc q = s.proc q := Function.update_of_ne hqp _ _
      rw [hq]
      exact ⟨rfl, rfl⟩
  exact h.congr rfl rfl (fun q _ => (hsame q).1) fun q _ => (hsame q).2

lemma createExecFrom_ok (h : procManagerCreateExecFrom a s = .ok (.ok b, s')) :
    a.proc = .ok b ∧ ∃ space table task,
      s' = (((s.kalloc b a.old).init b space table).insert b).addThread b task := by
  unfold procManagerCreateExecFrom at h
  cases hproc : a.proc with
  | error e =>
    rw [hproc] at h
    cases h
  | ok dst =>
    rw [hproc] at h
    dsimp only at h
    cases htable : a.table with
    | error e =>
      rw [htable] at h
      cases h
    | ok table =>
      rw [htable] at h
      dsimp only at h
      cases hspace : a.space with
      | error e =>
        rw [hspace] at h
        obtain ⟨_, -, h⟩ := bind_eq_ok.mp h
        cases h
      | ok space =>
        rw [hspace] at h
        dsimp only at h
        cases htask : a.task with
        | error e =>
          rw [htask] at h
          cases h
        | ok task =>
          rw [htask] at h
          obtain ⟨hr, rfl⟩ := Prod.mk.inj (Except.ok.inj h)
          obtain rfl := Except.ok.inj hr
          exact ⟨rfl, space, table, task, rfl⟩

lemma TreeInv.create {r : Except Errno Nat} (h : TreeInv s) (hfresh : Creation.Fresh s a)
    (hcareful : Creation.Succeeds a → a.old.parent = 0) (hcall : procManagerCreate a s = .ok (r, s')) :
    TreeInv s' := by
  rcases createImpl_cases hfresh hcall with ⟨e, -, hwithdrawn⟩ | ⟨b, space, table, -, hproc, hsucceeds, rfl⟩
  · exact hwithdrawn.inv h
  · exact h.created (hfresh b hproc).1 (hfresh b hproc).2 (hcareful hsucceeds)

lemma TreeInv.createExec {r : Except Errno Nat} (h : TreeInv s) (hfresh : Creation.Fresh s a)
    (hcareful : Creation.Succeeds a → a.old.parent = 0 ∧ Creation.Starts a)
    (hcall : procManagerCreateExec a s = .ok (r, s')) : TreeInv s' := by
  obtain ⟨⟨r₁, s₁⟩, hcreate, hcall⟩ := bind_eq_ok.mp hcall
  rcases createImpl_cases hfresh hcreate with ⟨e, rfl, hwithdrawn⟩ | ⟨b, space, table, rfl, hproc, hsucceeds, rfl⟩
  · obtain ⟨rfl, rfl⟩ := Prod.mk.inj (Except.ok.inj hcall)
    exact hwithdrawn.inv h
  · obtain ⟨hold, ⟨stack, hstack⟩, hmapped, ⟨task, htask⟩⟩ := hcareful hsucceeds
    dsimp only at hcall
    rw [hstack, if_neg (not_not.mpr hmapped), htask] at hcall
    obtain ⟨rfl, rfl⟩ := Prod.mk.inj (Except.ok.inj hcall)
    exact (h.created (hfresh b hproc).1 (hfresh b hproc).2 hold).setProc rfl rfl

/-- The parent of a fork is set whatever the block held. -/
lemma TreeInv.fork {child : Nat} (h : TreeInv s) (hp : p ∈ s.processes) (hfresh : Creation.Fresh s a)
    (hcall : procManagerCreateExecChildFrom p a s = .ok (child, s')) : TreeInv s' := by
  obtain ⟨⟨r, s₁⟩, hcreate, hcall⟩ := bind_eq_ok.mp hcall
  cases r with
  | error e => cases hcall
  | ok b =>
    obtain ⟨rfl, rfl⟩ := Prod.mk.inj (Except.ok.inj hcall)
    obtain ⟨hproc, space, table, task, rfl⟩ := createExecFrom_ok hcreate
    obtain ⟨hzero, hb⟩ := hfresh b hproc
    have hne : ∀ q ∈ s.processes, q ≠ b := by
      rintro q hq rfl
      exact hb (h.listed q hq)
    have hpb : p ≠ b := hne p hp
    have hinit : ∀ q ∈ s.processes,
        ((((s.kalloc b a.old).init b space table).insert b).addThread b task).proc q = s.proc q := fun q hq =>
      (setProc_proc_of_ne (hne q hq)).trans (proc_init_of_ne (hne q hq))
    refine h.add hzero hb rfl rfl (.inr hp) ?_ ?_ ?_ ?_
    · rw [setProc_proc_self]
      rfl
    · rw [setProc_proc_self, setProc_proc_of_ne (Ne.symm hpb)]
      unfold ProcessTree.addThread
      rw [setProc_proc_self]
      exact congrArg Process.children proc_init
    · intro q hq
      rw [setProc_proc_of_ne (hne q hq)]
      by_cases hqp : q = p
      · subst hqp
        rw [setProc_proc_self, hinit q hq]
        rfl
      · rw [setProc_proc_of_ne hqp, hinit q hq]
    · intro q hq
      rw [setProc_proc_of_ne (hne q hq)]
      by_cases hqp : q = p
      · subst hqp
        rw [setProc_proc_self, hinit q hq, if_pos rfl]
        rfl
      · rw [setProc_proc_of_ne hqp, hinit q hq, if_neg hqp, List.append_nil]

lemma wait4Scan_zombie {f f' : Family} {table status : Nat} {rest : List Nat} {hasChildren : Bool} {r : Wait4Result}
    (hcall : wait4Scan p table status rest hasChildren f = (.ok r, f')) :
    (rest.find? (fun c => (f.proc c).state = .ZOMBIE) = none ∧ f' = f) ∨
      ∃ c, rest.find? (fun c => (f.proc c).state = .ZOMBIE) = some c ∧ wait4Reap p table status c f = (.ok r, f') := by
  induction rest generalizing hasChildren with
  | nil =>
    obtain ⟨-, rfl⟩ := Prod.mk.inj hcall
    exact .inl ⟨rfl, rfl⟩
  | cons child rest ih =>
    rw [wait4Scan, Call.read_bind] at hcall
    by_cases hzombie : (f.proc child).state = .ZOMBIE
    · rw [if_pos hzombie] at hcall
      exact .inr ⟨child, List.find?_cons_of_pos (by simpa using hzombie), hcall⟩
    · rw [if_neg hzombie] at hcall
      rw [List.find?_cons_of_neg (by simpa using hzombie)]
      exact ih hcall

lemma TreeInv.wait4 {table status : Nat} {r : Wait4Result} (h : TreeInv s) (hcalls : Calls s p)
    (hcareful : (TreeOp.wait4 p table status).Careful s) (hcall : s.wait4 p table status = .ok (r, s')) :
    TreeInv s' := by
  unfold ProcessTree.wait4 at hcall
  rcases hturn : sysWait4 p table status { s.family with freed := [] } with ⟨e | r', family⟩
  · rw [hturn] at hcall
    cases hcall
  rw [hturn] at hcall
  obtain ⟨rfl, rfl⟩ := Prod.mk.inj (Except.ok.inj hcall)
  have hscan : wait4Scan p table status (s.proc p).children false
    { s.family with freed := [] } = (.ok r', family) := hturn
  rcases wait4Scan_zombie hscan with ⟨-, rfl⟩ | ⟨c, hfound, hreap⟩
  · exact h.congr rfl (by simp) (fun _ _ => rfl) fun _ _ => rfl
  · obtain ⟨hnone, hverdict⟩ := hcareful c hfound
    have hzombie : (s.family.proc c).state = .ZOMBIE := by simpa using List.find?_some hfound
    have hne : c ≠ p := by
      rintro rfl
      exact ProcessState.noConfusion (hcalls.2.symm.trans hzombie)
    rcases wait4Reap_cases hreap with ⟨hrefused, -, -⟩ | ⟨-, -, hproc, hprocesses, hfreed, -⟩
    · exact absurd hrefused hverdict
    · exact h.take hcalls.1 (List.mem_of_find?_eq_some hfound) hne hnone hprocesses (by simp [hfreed]) hproc

lemma TreeInv.exit {status : Int} {parent : Nat} (h : TreeInv s) (hcall : sysExit p status s = .ok (parent, s')) :
    TreeInv s' := by
  obtain ⟨_, -, hcall⟩ := bind_eq_ok.mp hcall
  split_ifs at hcall
  · obtain ⟨-, rfl⟩ := Prod.mk.inj (Except.ok.inj hcall)
    exact h.setProc rfl rfl

lemma TreeInv.step {op : TreeOp} (h : TreeInv s) (hpossible : op.Possible s) (hcareful : op.Careful s)
    (hrun : op.run s = .ok s') : TreeInv s' := by
  cases op with
  | create a =>
    obtain ⟨⟨r, s₁⟩, hcall, rfl⟩ := map_eq_ok.mp hrun
    exact h.create hpossible hcareful hcall
  | createExec a =>
    obtain ⟨⟨r, s₁⟩, hcall, rfl⟩ := map_eq_ok.mp hrun
    exact h.createExec hpossible hcareful hcall
  | fork p a =>
    obtain ⟨⟨child, s₁⟩, hcall, rfl⟩ := map_eq_ok.mp hrun
    exact h.fork hpossible.1.1 hpossible.2 hcall
  | exit p status =>
    obtain ⟨⟨parent, s₁⟩, hcall, rfl⟩ := map_eq_ok.mp hrun
    exact h.exit hcall
  | wait4 p table status =>
    obtain ⟨⟨r, s₁⟩, hcall, rfl⟩ := map_eq_ok.mp hrun
    exact h.wait4 hpossible hcareful hcall
  | removeThread p thread =>
    obtain rfl := Except.ok.inj hrun
    exact h.setProc rfl rfl
  | clearSpace p =>
    obtain rfl := Except.ok.inj hrun
    exact h.setProc rfl rfl
  | memory mm =>
    obtain rfl := Except.ok.inj hrun
    exact h.congr rfl rfl (fun _ _ => rfl) fun _ _ => rfl

lemma TreeRun.inv (h : TreeRun (fun s op => op.Careful s) s) : TreeInv s := by
  induction h with
  | init hprocesses hlive =>
    refine ⟨?_, ?_, ?_, ?_, ?_, ?_⟩
    · rw [hprocesses]
      exact List.nodup_nil
    · simp [hprocesses]
    · simp [hlive]
    · simp [hprocesses]
    · simp [hprocesses]
    · simp [hprocesses]
  | step _ op hpossible hcareful hrun ih => exact ih.step hpossible hcareful hrun

/-- The tree is intact in every state of a run whose calls are all careful. -/
theorem process_tree_intact (h : TreeRun (fun s op => op.Careful s) s) : TreeIntact s :=
  h.inv.intact

/-- No process, with a page of memory. -/
def freshTree : ProcessTree where
  family :=
    { mm := zeroPage
      proc := fun _ => ⟨0, .RUNNING, 0, [], [], 0, 0, 0⟩
      processes := []
      spaces := []
      tables := []
      freed := [] }
  live := []
  pidCount := 1

/-- A creation that succeeds, in a block that holds a parent. -/
def createdAt (p parent : Nat) : Creation where
  proc := .ok p
  old := ⟨0, .ZOMBIE, parent, [], [], 0, 0, 0⟩
  table := .ok 2
  attached := .EOK
  tableFree := true
  space := .ok 3
  stack := .ok 4
  mapped := .EOK
  task := .ok 5

/-- The state after calls, of which the newest is the first. -/
def treeAfter : List TreeOp → ProcessTree
  | [] => freshTree
  | op :: ops => okOr (treeAfter ops) (op.run (treeAfter ops))

lemma treeRun_after {C : ProcessTree → TreeOp → Prop} {op : TreeOp} {ops : List TreeOp} (h : TreeRun C (treeAfter ops))
    (hpossible : op.Possible (treeAfter ops)) (hC : C (treeAfter ops) op)
    (hok : (op.run (treeAfter ops)).isOk = true) : TreeRun C (treeAfter (op :: ops)) :=
  h.step op hpossible hC (eq_ok_of_isOk _ hok)

lemma createdAt_fresh {parent : Nat} (hb : b ≠ 0) (hfresh : b ∉ s.live) : Creation.Fresh s (createdAt b parent) := by
  intro p hp
  obtain rfl := Except.ok.inj hp
  exact ⟨hb, hfresh⟩

/-- A process, its child that exits, and a `wait4` that reaps it. -/
theorem process_tree_intact_reaped :
    TreeIntact (treeAfter [.wait4 4096 0x101000 0x10000, .removeThread 8192 5, .exit 8192 7,
      .fork 4096 (createdAt 8192 99), .create (createdAt 4096 0)]) ∧
    (treeAfter [.wait4 4096 0x101000 0x10000, .removeThread 8192 5, .exit 8192 7,
      .fork 4096 (createdAt 8192 99), .create (createdAt 4096 0)]).processes = [4096] := by
  have hcreate : TreeRun (fun s op => op.Careful s) (treeAfter [.create (createdAt 4096 0)]) :=
    treeRun_after (.init rfl rfl) (createdAt_fresh (by decide) (by decide)) (fun _ => rfl) (by decide +kernel)
  have hfork := @treeRun_after _ (.fork 4096 (createdAt 8192 99)) _ hcreate
    ⟨⟨by decide +kernel, by decide +kernel⟩, createdAt_fresh (by decide) (by decide +kernel)⟩ trivial (by decide +kernel)
  have hexit := @treeRun_after _ (.exit 8192 7) _ hfork
    ⟨by decide +kernel, by decide +kernel⟩ trivial (by decide +kernel)
  have hremove := @treeRun_after _ (.removeThread 8192 5) _ hexit trivial trivial (by decide +kernel)
  refine ⟨process_tree_intact (treeRun_after hremove ⟨by decide +kernel, by decide +kernel⟩ ?_ (by decide +kernel)),
    by decide +kernel⟩
  intro c hc
  have hzombie : zombieOf (treeAfter [.removeThread 8192 5, .exit 8192 7, .fork 4096 (createdAt 8192 99),
      .create (createdAt 4096 0)]).family 4096 = some 8192 := by decide +kernel
  obtain rfl := Option.some.inj (hzombie.symm.trans hc)
  exact ⟨by decide +kernel, by decide +kernel⟩

/-- The first process, in a block with something left in it. -/
theorem getppid_reads_old_block : TreeRun (fun _ _ => True) (treeAfter [.create (createdAt 4096 99)]) ∧
    sysGetppid 4096 (treeAfter [.create (createdAt 4096 99)]) = .error .fault ∧
    ¬TreeIntact (treeAfter [.create (createdAt 4096 99)]) := by
  have hrun : TreeRun (fun _ _ => True) (treeAfter [.create (createdAt 4096 99)]) :=
    treeRun_after (.init rfl rfl) (createdAt_fresh (by decide) (by decide)) trivial (by decide +kernel)
  have hfault : sysGetppid 4096 (treeAfter [.create (createdAt 4096 99)]) = .error .fault := by decide +kernel
  refine ⟨hrun, hfault, fun hintact => ?_⟩
  rcases hintact.getppid 4096 (by decide +kernel) with hzero | ⟨q, -, hpid⟩
  · rw [hfault] at hzero
    cases hzero
  · rw [hfault] at hpid
    cases hpid

end KaworuOS.Proofs
