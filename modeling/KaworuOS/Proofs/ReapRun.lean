import KaworuOS.Proofs.ReapLog

/-!
# Processes are reaped safely

In a run in which parents take only finished zombies, and cleanup tasks find only settled tasks, the
assertions of `proc_manager_remove_destroy` hold, every address space and every table of files is
destroyed once, and no freed process is used.
-/

namespace KaworuOS.Proofs
open Lib

variable {cpus real : Nat → Prop} {space table : Nat → Nat} {s s' : Life} {c : Nat}

/-- The invariant of runs in which processes are reaped when they are finished. -/
structure ReapInv (cpus real : Nat → Prop) (space table : Nat → Nat) (s : Life) : Prop where
  clean : CleanupInv cpus s
  sched : LifeSched cpus s
  family : FamilyInv real s
  log : LogInv real space table s
  stopped : ∀ dead ∈ s.destroyed, Stopped cpus s dead

/-- Cleanup tasks find settled tasks, and parents take finished zombies. -/
def LifeOp.Careful (cpus : Nat → Prop) (s : Life) (op : LifeOp) : Prop :=
  LifeOp.FindsSettled cpus s op ∧ LifeOp.TakesFinished s op

/-- A step destroys only the task that a cleanup task has in its hands. -/
lemma LifeCase.destroyed_cases (h : LifeCase s c s') :
    s'.destroyed = s.destroyed ∨ ∃ dead, s.pc (s.smp.current c) = .destroy dead ∧
      s'.destroyed = dead :: s.destroyed := by
  cases h with
  | task _ hnext =>
    cases hnext
    case destroy dead hpc => exact .inr ⟨dead, hpc, rfl⟩
    all_goals exact .inl rfl
  | pick => exact .inl rfl
  | resume => exact .inl rfl

lemma ReapInv.op (h : ReapInv cpus real space table s) (hinj : ∀ p q, real p → real q → space p = space q → p = q)
    (hinj' : ∀ p q, real p → real q → table p = table q → p = q) (hpos : ∀ p, real p → space p ≠ 0 ∧ table p ≠ 0)
    {op : LifeOp} (hc : cpus op.cpu) (hcareful : LifeOp.Careful cpus s op) (hrun : op.run s = some (.ok s')) :
    ReapInv cpus real space table s' := by
  obtain ⟨hfinds, htakes⟩ := hcareful
  obtain ⟨hact, hcase⟩ := LifeOp.cases_of_run hrun
  have hkeeps := hcase.keepsStopped hc
  have hstopped : ∀ dead ∈ s'.destroyed, Stopped cpus s' dead := by
    intro d hd
    apply hkeeps.stopped
    rcases hcase.destroyed_cases with heq | ⟨dead, hpc, heq⟩
    · rw [heq] at hd
      exact h.stopped d hd
    · rw [heq] at hd
      rcases List.mem_cons.mp hd with rfl | hd
      · exact h.clean.stopped _ d true (by rw [hpc]; rfl)
      · exact h.stopped d hd
  refine ⟨h.clean.op hc hfinds hrun, h.sched.case hc hcase, ?_, ?_, hstopped⟩
  · cases hcase with
    | task hphase hnext =>
      have hwaits : Waits (s.pc (s.smp.current op.cpu)) → (s.smp.task (s.smp.current op.cpu)).process ≠ 0 :=
        h.sched.waits _
      have huser : s.pc (s.smp.current op.cpu) = .user → FamilyInv real s' := by
        intro hpc
        refine h.family.next rfl hwaits hnext (fun child rest seen hscan => ?_)
        rw [hpc] at hscan
        cases hscan
      cases op with
      | go c copied => exact h.family.next rfl hwaits hnext htakes
      | wait4 c => exact huser (LifeOp.pc_of_act hact (.inl ⟨c, rfl⟩))
      | exit c status => exact huser (LifeOp.pc_of_act hact (.inr (.inl ⟨c, status, rfl⟩)))
      | finish c => exact huser (LifeOp.pc_of_act hact (.inr (.inr ⟨c, rfl⟩)))
      | timer c =>
        obtain ⟨smp, hput, rfl⟩ := LifeOp.timer_of_act hact
        exact h.family.calm rfl rfl rfl rfl (calm_putBackPrev hput).1.process
      | pick c => exact absurd hact (LifeOp.act_ne_of_run hphase (.inl rfl))
      | resume c => exact absurd hact (LifeOp.act_ne_of_run hphase (.inr rfl))
    | pick hphase hswitch => exact h.family.calm rfl rfl rfl rfl (pick_process hswitch)
    | resume => exact h.family.calm rfl rfl rfl rfl (fun _ => rfl)
  · cases hcase with
    | task hphase hnext => exact h.log.next h.clean h.family hinj hinj' hpos hnext
    | pick hphase hswitch => exact h.log.calm rfl rfl rfl rfl rfl rfl (pick_process hswitch)
    | resume => exact h.log.calm rfl rfl rfl rfl rfl rfl (fun _ => rfl)

lemma ReapInv.not_freed_of_onCpu (h : ReapInv cpus real space table s) {t : Nat} (hon : OnCpu cpus s t) :
    (s.smp.task t).process ∉ s.freed := by
  intro hfreed
  exact (h.stopped t ((h.family.freed _ hfreed).1.tasks t rfl)).off hon

lemma mem_of_mem_examined {smp : Smp} {l : List Nat} {t : Nat} (h : t ∈ LifeOp.examined smp l) : t ∈ l := by
  induction l with
  | nil => cases h
  | cons next rest ih =>
    unfold LifeOp.examined at h
    split at h
    · rcases List.mem_cons.mp h with rfl | h
      · exact List.mem_cons_self
      · exact List.mem_cons_of_mem next (ih h)
    · obtain rfl := List.mem_singleton.mp h
      exact List.mem_cons_self

lemma ReapInv.taskUses_live (h : ReapInv cpus real space table s) (hc : cpus c) :
    ∀ p ∈ LifeOp.taskUses s c, p ∉ s.freed := by
  have hcur : (s.smp.task (s.smp.current c)).process ∉ s.freed := h.not_freed_of_onCpu ⟨c, hc, .inl rfl⟩
  have hreaping : ∀ child, reaping (s.pc (s.smp.current c)) = some child → ∀ p ∈ [child], p ∉ s.freed := by
    intro child hreap p hp
    obtain rfl := List.mem_singleton.mp hp
    exact (h.family.reaping _ p hreap).2.2
  have hdead : ∀ dead, held (s.pc (s.smp.current c)) = some (dead, true) →
      ∀ p ∈ [(s.smp.task dead).process], p ∉ s.freed := by
    intro dead hheld p hp hfreed
    obtain rfl := List.mem_singleton.mp hp
    exact (h.clean.taken _ dead hheld).2 ((h.family.freed _ hfreed).1.tasks dead rfl)
  unfold LifeOp.taskUses
  dsimp only
  split
  case h_1 | h_2 | h_3 =>
    intro p hp
    obtain rfl := List.mem_singleton.mp hp
    exact hcur
  case h_4 child rest seen hpc =>
    intro p hp hfreed
    rcases List.mem_cons.mp hp with rfl | hp
    · exact hcur hfreed
    · obtain rfl := List.mem_singleton.mp hp
      exact h.family.taken p (.inl hfreed) _ (h.family.scan (s.smp.current c) p (by rw [hpc]; exact List.mem_cons_self))
  case h_5 hpc =>
    intro p hp hfreed
    rcases List.mem_cons.mp hp with rfl | hp
    · exact hcur hfreed
    · obtain rfl := List.mem_singleton.mp hp
      have hreal := h.family.owner (s.smp.current c) (h.sched.waits _ (by rw [hpc]; trivial))
      have hgone := (h.family.freed _ hfreed).1.children _ hreal rfl (s.smp.current c) rfl
      exact (h.stopped _ hgone).off ⟨c, hc, .inl rfl⟩
  case h_6 child hpc => exact hreaping child (by rw [hpc]; rfl)
  case h_7 child hpc => exact hreaping child (by rw [hpc]; rfl)
  case h_8 child hpc => exact hreaping child (by rw [hpc]; rfl)
  case h_9 child hpc => exact hreaping child (by rw [hpc]; rfl)
  case h_10 dead hpc => exact hdead dead (by rw [hpc]; rfl)
  case h_11 dead hpc => exact hdead dead (by rw [hpc]; rfl)
  case h_12 dead hpc => exact hdead dead (by rw [hpc]; rfl)
  case h_13 dead hpc => exact hdead dead (by rw [hpc]; rfl)
  case h_14 => exact fun p hp => (nomatch hp)

lemma ReapInv.uses_live (h : ReapInv cpus real space table s) {op : LifeOp} (hc : cpus op.cpu) :
    ∀ p ∈ op.uses s, p ∉ s.freed := by
  cases op with
  | wait4 c => exact fun p hp => (nomatch hp)
  | finish c => exact fun p hp => (nomatch hp)
  | timer c => exact fun p hp => (nomatch hp)
  | exit c status =>
    intro p hp
    obtain rfl := List.mem_singleton.mp hp
    exact h.not_freed_of_onCpu ⟨c, hc, .inl rfl⟩
  | go c copied => exact h.taskUses_live hc
  | pick c =>
    intro p hp hfreed
    simp only [LifeOp.uses] at hp
    split at hp
    · cases hp
    · obtain ⟨t, ht, rfl⟩ := List.mem_map.mp hp
      have hready := (h.sched.queued c t (mem_of_mem_examined ht)).state
      rw [(h.stopped t ((h.family.freed _ hfreed).1.tasks t rfl)).dead] at hready
      cases hready
  | resume c =>
    intro p hp
    simp only [LifeOp.uses] at hp
    split at hp
    case h_1 prev hphase =>
      rcases List.mem_cons.mp hp with rfl | hp
      · exact h.not_freed_of_onCpu ⟨c, hc, .inr hphase⟩
      · obtain rfl := List.mem_singleton.mp hp
        exact h.not_freed_of_onCpu ⟨c, hc, .inl rfl⟩
    case h_2 => cases hp

/-- Reaping is safe in the state `s`, which a run from `s₀` has reached. -/
structure ReapSafe (cpus : Nat → Prop) (s₀ s : Life) : Prop where
  asserts : ∀ t child, s.pc t = .reap child → (s.proc child).state = .ZOMBIE ∧ (s.proc child).threads = []
  uses : ∀ op : LifeOp, cpus op.cpu → ∀ p ∈ op.uses s, p ∉ s.freed
  spaces : s.spaces.Nodup
  tables : s.tables.Nodup
  reaped : ∀ p ∈ s.freed, (s₀.proc p).addressSpace ∈ s.spaces ∧ (s₀.proc p).files ∈ s.tables

/-- Before the first step every process has one task and resources of its own, and nothing has been
destroyed. -/
structure ReapStart (cpus : Nat → Prop) (s : Life) : Prop where
  clean : CleanupStart cpus s
  sched : LifeSched cpus s
  ne_zero : ∀ p ∈ s.processes, p ≠ 0
  single : ∀ t u, (s.smp.task t).process = (s.smp.task u).process → (s.smp.task t).process ≠ 0 → t = u
  owner : ∀ t, (s.smp.task t).process ≠ 0 →
    (s.smp.task t).process ∈ s.processes ∧ t ∈ (s.proc (s.smp.task t).process).threads
  tree : ∀ p, ∀ q ∈ (s.proc p).children, q ∈ s.processes ∧ (s.proc q).parent = p
  nodup : ∀ p, (s.proc p).children.Nodup
  listed : ∀ q ∈ s.processes, (s.proc q).parent ≠ 0 → q ∈ (s.proc (s.proc q).parent).children
  space : ∀ p ∈ s.processes, (s.proc p).addressSpace ≠ 0 ∧ (s.proc p).files ≠ 0
  space_inj : ∀ p ∈ s.processes, ∀ q ∈ s.processes, (s.proc p).addressSpace = (s.proc q).addressSpace → p = q
  files_inj : ∀ p ∈ s.processes, ∀ q ∈ s.processes, (s.proc p).files = (s.proc q).files → p = q
  nothing : s.spaces = [] ∧ s.tables = [] ∧ s.freed = []

lemma ReapStart.inv (h : ReapStart cpus s) : ReapInv cpus (· ∈ s.processes) (fun p => (s.proc p).addressSpace)
    (fun p => (s.proc p).files) s := by
  have hreaping : ∀ t x, reaping (s.pc t) ≠ some x := by
    intro t x hx
    rcases h.clean.pc t with hpc | hpc <;> rw [hpc] at hx <;> cases hx
  have hundone : ∀ x, ¬Did s x := by
    rintro x ⟨t, hx⟩
    rcases h.clean.pc t with hpc | hpc <;> rw [hpc] at hx <;> cases hx
  obtain ⟨hspaces, htables, hfreed⟩ := h.nothing
  have hnot : ∀ p, p ∉ s.freed := by
    intro p hp
    rw [hfreed] at hp
    cases hp
  refine ⟨h.clean.inv, h.sched, ?_, ?_, ?_⟩
  · refine ⟨h.ne_zero, h.single, fun t ht => (h.owner t ht).1, h.tree, h.nodup, ?_,
      fun t ht => .inl (h.owner t ht).2, ?_, fun q hq hne => .inl (h.listed q hq hne),
      fun t q hq => absurd hq (hreaping t q), fun t u q hq => absurd hq (hreaping t q),
        fun q hq => absurd hq (hnot q), ?_⟩
    · intro t q hq
      rcases h.clean.pc t with hpc | hpc <;> rw [hpc] at hq <;> cases hq
    · intro t d hd
      rcases h.clean.pc t with hpc | hpc <;> rw [hpc] at hd <;> cases hd
    · rintro q (hq | ⟨t, ht⟩)
      · exact absurd hq (hnot q)
      · exact absurd ht (hreaping t q)
  · refine ⟨fun _ => rfl, ?_, ?_, ?_, ?_, fun p _ => .inr rfl, ?_, ?_, ?_⟩
    · rw [hspaces]
      exact List.nodup_nil
    · rw [htables]
      exact List.nodup_nil
    · intro x hx
      rw [hspaces] at hx
      cases hx
    · intro x hx
      rw [htables] at hx
      cases hx
    · intro p hp
      rw [hspaces]
      refine ⟨fun hin => (nomatch hin), ?_⟩
      rintro (h0 | ⟨d, hd, -⟩ | hd | hd | hf)
      · exact absurd h0 (h.space p hp).1
      · exact absurd hd (hundone _)
      · exact absurd hd (hundone _)
      · exact absurd hd (hundone _)
      · exact absurd hf (hnot p)
    · intro p hp
      rw [htables]
      refine ⟨fun hin => (nomatch hin), ?_⟩
      rintro (hd | hf)
      · exact absurd hd (hundone _)
      · exact absurd hf (hnot p)
    · intro p hp h0
      exact absurd h0 (h.space p hp).1
  · intro d hd
    rw [h.clean.destroyed] at hd
    cases hd

/-- **Reaping is safe** in a run in which parents take only finished zombies and cleanup tasks find
only settled tasks. -/
theorem careful_reaping_is_safe {s₀ : Life} (hstart : ReapStart cpus s₀)
    (hrun : Relation.ReflTransGen (LifeStep cpus (LifeOp.Careful cpus)) s₀ s) : ReapSafe cpus s₀ s := by
  have hinv : ReapInv cpus (· ∈ s₀.processes) (fun p => (s₀.proc p).addressSpace) (fun p => (s₀.proc p).files) s := by
    induction hrun with
    | refl => exact hstart.inv
    | tail _ hstep ih =>
      obtain ⟨op, hc, hcareful, hop⟩ := hstep
      exact ih.op (fun p q hp hq => hstart.space_inj p hp q hq) (fun p q hp hq => hstart.files_inj p hp q hq)
        hstart.space hc hcareful hop
  refine ⟨?_, fun op hc => hinv.uses_live hc, hinv.log.spaces, hinv.log.tables, ?_⟩
  · intro t child hpc
    obtain ⟨hfinished, -, -⟩ := hinv.family.reaping t child (by rw [hpc]; rfl)
    exact ⟨hfinished.zombie, hfinished.threads⟩
  · intro p hp
    have hreal := (hinv.family.freed p hp).2
    exact ⟨(hinv.log.space_iff p hreal).mpr (.inr (.inr (.inr (.inr hp)))),
      (hinv.log.table_iff p hreal).mpr (.inr hp)⟩

lemma family_cleanupStart : CleanupStart OneOrTwo family := by
  refine ⟨by decide, ?_, family_pc, rfl, rfl⟩
  rintro t ht c (rfl | rfl)
  · revert t
    decide
  · revert t
    decide

lemma family_sched : LifeSched OneOrTwo family := by
  refine ⟨?_, rfl, ?_, ?_, ?_, fun c t ht => (nomatch ht), fun _ => List.nodup_nil, ?_, ?_⟩
  · rintro c (rfl | rfl) <;> decide
  · rintro c (rfl | rfl) <;> decide
  · rintro c (rfl | rfl) <;> decide
  · rintro c (rfl | rfl) - - <;> exact .inl rfl
  · intro t hst
    rcases family_task t with ⟨-, ht⟩ | ⟨-, ht⟩ | ⟨-, -, -, -, ht⟩
    · rw [ht] at hst
      cases hst
    · rw [ht] at hst
      cases hst
    · exact absurd hst ht
  · intro t hw
    rcases family_pc t with hpc | hpc <;> rw [hpc] at hw <;> exact absurd hw id

lemma family_start : ReapStart OneOrTwo family := by
  refine ⟨family_cleanupStart, family_sched, by decide, ?_, ?_, ?_, ?_, by decide, by decide, by decide, by decide,
    rfl, rfl, rfl⟩
  · intro t u heq hne
    rcases family_task t with ⟨rfl, ht⟩ | ⟨rfl, ht⟩ | ⟨-, -, ht, -⟩ <;>
      rcases family_task u with ⟨rfl, hu⟩ | ⟨rfl, hu⟩ | ⟨-, -, hu, -⟩ <;> simp_all
  · intro t hne
    rcases family_task t with ⟨rfl, ht⟩ | ⟨rfl, ht⟩ | ⟨-, -, ht, -⟩
    · decide
    · decide
    · exact absurd ht hne
  · intro p q hq
    rcases family_proc p with ⟨rfl, hp⟩ | ⟨-, hp⟩ | hp <;> rw [hp] at hq
    · obtain rfl := List.mem_singleton.mp hq
      decide
    · cases hq
    · cases hq
  · intro p
    rcases family_proc p with ⟨-, hp⟩ | ⟨-, hp⟩ | hp <;> rw [hp]
    · exact List.nodup_singleton _
    · exact List.nodup_nil
    · exact List.nodup_nil

/-- The parent finds its child as a zombie and starts to destroy it. -/
def parentTakes : List LifeOp := [.wait4 1, .go 1 true, .go 1 true]

/-- The child exits, and the cleanup task of CPU 2 takes over. -/
def childExits : List LifeOp := [.exit 2 0, .go 2 true, .go 2 true, .go 2 true, .go 2 true, .pick 2, .resume 2]

/-- The cleanup task of CPU 2 takes task 12 from its process, and more steps follow. -/
def cleanupTakes : List LifeOp := [.go 2 true, .go 2 true, .go 2 true]

/-- The parent destroys its child when the exiting task is still a thread of it; the cleanup task
looks at a process that the parent has freed; and both destroy the address space. -/
theorem reaping_is_not_safe : ReapStart OneOrTwo family ∧
    (∃ s, Relation.ReflTransGen (LifeStep OneOrTwo fun _ _ => True) family s ∧
      s.pc (s.smp.current 1) = .reap 0x800 ∧ (s.proc 0x800).threads = [12] ∧
      (LifeOp.go 1 true).run s = some (.error .panic)) ∧
    (∃ s, Relation.ReflTransGen (LifeStep OneOrTwo fun _ _ => True) family s ∧
      (LifeOp.go 2 true).uses s = [0x800] ∧ s.freed = [0x800] ∧ (LifeOp.go 2 true).run s = some (.error .fault)) ∧
    ∃ s, Relation.ReflTransGen (LifeStep OneOrTwo fun _ _ => True) family s ∧ s.spaces = [0xA40, 0xA40] := by
  have hsteps : ∀ {ops s}, checkOps (fun _ op => onTwoCpus op) family ops = true → runOps family ops = some s →
      Relation.ReflTransGen (LifeStep OneOrTwo fun _ _ => True) family s := fun hall hs =>
    runOps_steps _ (fun _ _ hop => ⟨oneOrTwo_of_onTwoCpus hop, trivial⟩) hall hs
  refine ⟨family_start, ?_, ?_, ?_⟩
  · refine ⟨afterOps family (.exit 2 0 :: parentTakes),
      hsteps (by decide +kernel) (runSteps_afterSteps (by decide +kernel)), ?_⟩
    refine ⟨by decide +kernel, by decide +kernel, eq_error_of_haltOf (by decide +kernel)⟩
  · refine ⟨afterOps family (childExits ++ cleanupTakes ++ parentTakes ++
      [.go 1 true, .go 1 true, .go 1 true, .go 1 true]),
      hsteps (by decide +kernel) (runSteps_afterSteps (by decide +kernel)), ?_⟩
    refine ⟨by decide +kernel, by decide +kernel, eq_error_of_haltOf (by decide +kernel)⟩
  · refine ⟨afterOps family (childExits ++ cleanupTakes ++ [.go 2 true, .go 2 true] ++ parentTakes ++
      [.go 1 true, .go 1 true]), hsteps (by decide +kernel) (runSteps_afterSteps (by decide +kernel)), ?_⟩
    decide +kernel

/-- A step on the two CPUs that finds no task and looks at no child. -/
def carefree (s : Life) (op : LifeOp) : Bool :=
  findsNothing s op && match op with
    | .go c _ => decide (scanning (s.pc (s.smp.current c)) = [])
    | _ => true

lemma careful_of_carefree (s : Life) (op : LifeOp) (h : carefree s op = true) :
    OneOrTwo op.cpu ∧ LifeOp.Careful OneOrTwo s op := by
  obtain ⟨hfinds, hscan⟩ := (Bool.and_eq_true _ _).mp h
  obtain ⟨hcpu, hsettled⟩ := findsSettled_of_findsNothing hfinds
  refine ⟨hcpu, hsettled, ?_⟩
  cases op with
  | go c copied =>
    intro child rest seen hpc
    have hnil := of_decide_eq_true hscan
    rw [hpc] at hnil
    cases hnil
  | _ => trivial

/-- The child has exited, and the cleanup task of CPU 2 runs. -/
def childGone : Life := afterOps family childExits

/-- The cleanup task has found task 12. -/
def childFound : Life := afterOps childGone [.go 2 true]

/-- The cleanup task is done, and the parent looks at its child. -/
def childCleaned : Life := afterOps childFound
  [.go 2 true, .go 2 true, .go 2 true, .go 2 true, .go 2 true, .go 2 true, .wait4 1, .go 1 true]

/-- The parent has taken its child. -/
def childTaken : Life := afterOps childCleaned [.go 1 true]

/-- The parent has freed its child. -/
def childFreed : Life := afterOps childTaken [.go 1 true, .go 1 true, .go 1 true, .go 1 true]

lemma childGone_held (t : Nat) (x : Nat × Bool) : held (childGone.pc t) ≠ some x := by
  intro ht
  rcases eq_or_ne t 12 with rfl | h₁
  · rw [show childGone.pc 12 = .gone by decide +kernel] at ht
    cases ht
  rcases eq_or_ne t 202 with rfl | h₂
  · rw [show childGone.pc 202 = .find by decide +kernel] at ht
    cases ht
  have hrest : checkOps (fun s op => decide (s.smp.current op.cpu ∈ [12, 202])) family childExits = true := by
    decide +kernel
  have hpc : childGone.pc t = family.pc t :=
    runOps_pc hrest (runSteps_afterSteps (by decide +kernel)) (by simp [h₁, h₂])
  rw [hpc] at ht
  rcases family_pc t with h | h <;> rw [h] at ht <;> cases ht

lemma childCleaned_held (t : Nat) (x : Nat × Bool) : held (childCleaned.pc t) ≠ some x := by
  intro ht
  rcases eq_or_ne t 11 with rfl | h₁
  · rw [show childCleaned.pc 11 = .scan [0x800] false by decide +kernel] at ht
    cases ht
  rcases eq_or_ne t 202 with rfl | h₂
  · rw [show childCleaned.pc 202 = .find by decide +kernel] at ht
    cases ht
  have hrest : checkOps (fun s op => decide (s.smp.current op.cpu ∈ [11, 202])) childGone [.go 2 true] = true := by
    decide +kernel
  have hrest' : checkOps (fun s op => decide (s.smp.current op.cpu ∈ [11, 202])) childFound
      [.go 2 true, .go 2 true, .go 2 true, .go 2 true, .go 2 true, .go 2 true, .wait4 1, .go 1 true] = true := by
    decide +kernel
  have hfound : childFound.pc t = childGone.pc t :=
    runOps_pc hrest (runSteps_afterSteps (by decide +kernel)) (by simp [h₁, h₂])
  have hcleaned : childCleaned.pc t = childFound.pc t :=
    runOps_pc hrest' (runSteps_afterSteps (by decide +kernel)) (by simp [h₁, h₂])
  rw [hcleaned, hfound] at ht
  exact childGone_held t x ht

lemma childGone_finds : LifeStep OneOrTwo (LifeOp.Careful OneOrTwo) childGone childFound := by
  have hfind : childGone.findDeadTask = some 12 := by decide +kernel
  refine ⟨.go 2 true, .inr rfl, ⟨?_, ?_⟩, step_afterSteps (by decide +kernel)⟩
  · intro _ dead hdead
    obtain rfl := Option.some.inj (hfind.symm.trans hdead)
    refine ⟨?_, fun t b => childGone_held t _⟩
    rintro ⟨c, rfl | rfl, h | h⟩ <;> revert h <;> decide +kernel
  · intro child rest seen hpc
    rw [show childGone.pc (childGone.smp.current 2) = .find by decide +kernel] at hpc
    cases hpc

lemma childCleaned_takes : LifeStep OneOrTwo (LifeOp.Careful OneOrTwo) childCleaned childTaken := by
  have hscan : childCleaned.pc (childCleaned.smp.current 1) = .scan [0x800] false := by decide +kernel
  refine ⟨.go 1 true, .inl rfl, ⟨?_, ?_⟩, step_afterSteps (by decide +kernel)⟩
  · intro hpc
    rw [hscan] at hpc
    cases hpc
  · intro child rest seen hpc _
    rw [hscan] at hpc
    cases hpc
    exact ⟨by decide +kernel, by decide +kernel, fun t dead b ht => absurd ht (childCleaned_held t _)⟩

/-- The child exits, its task is destroyed, and its parent reaps it. -/
theorem careful_reaping_is_safe_freed : ReapStart OneOrTwo family ∧
    Relation.ReflTransGen (LifeStep OneOrTwo (LifeOp.Careful OneOrTwo)) family childFreed ∧
    childFreed.freed = [0x800] ∧ ReapSafe OneOrTwo family childFreed := by
  have hgone : Relation.ReflTransGen (LifeStep OneOrTwo (LifeOp.Careful OneOrTwo)) family childGone :=
    runOps_steps carefree careful_of_carefree (by decide +kernel) (runSteps_afterSteps (by decide +kernel))
  have hcleaned : Relation.ReflTransGen (LifeStep OneOrTwo (LifeOp.Careful OneOrTwo)) childFound childCleaned :=
    runOps_steps carefree careful_of_carefree (by decide +kernel) (runSteps_afterSteps (by decide +kernel))
  have hfreed : Relation.ReflTransGen (LifeStep OneOrTwo (LifeOp.Careful OneOrTwo)) childTaken childFreed :=
    runOps_steps carefree careful_of_carefree (by decide +kernel) (runSteps_afterSteps (by decide +kernel))
  have hall := (hgone.tail childGone_finds).trans ((hcleaned.tail childCleaned_takes).trans hfreed)
  exact ⟨family_start, hall, by decide +kernel, careful_reaping_is_safe family_start hall⟩

end KaworuOS.Proofs
