import KaworuOS.Proofs.SchedulerPlaces
import KaworuOS.UserTable

/-!
# The user table that a task runs with

`switch_address_space` compares the tables of the two tasks and trusts that the first one is loaded. Before the first
switch there is no task, and what is loaded is what the boot loader has left there.
-/

namespace KaworuOS.Proofs
open Lib

variable {s s' s'' : UserCpu}

/-- The register holds the table of the current task. -/
def UserCpu.Follows (s : UserCpu) : Prop := s.ttbr0 + s.hhdm = taskTable s s.sched.cpu.current

/-- Before the first switch: the table for tasks without a process is loaded already, or the first task has another
one. -/
def UserCpu.LoadsFirst (s : UserCpu) : Prop :=
  s.ttbr0 + s.hhdm = vmGetKernelUserPageTable s ∨
    ∃ t sched, schedulerPickNext s.sched = .ok (t, sched) ∧ taskTable s t ≠ vmGetKernelUserPageTable s

/-- A call of `scheduler_switch`, or whatever happens on the CPUs between two calls. It does not change the current
task, which has its process from `task_init` on; and a process has its table before its first task, and until its last
task has been removed. -/
inductive UserCpuStep : UserCpu → UserCpu → Prop
  | switch {s s' : UserCpu} (hcall : UserCpu.schedulerSwitch s = .ok s') : UserCpuStep s s'
  | other {s : UserCpu} {sched : Sched} {processTable : Nat → Nat} (hcur : sched.cpu.current = s.sched.cpu.current)
      (hprocess : (sched.task s.sched.cpu.current).process = (s.sched.task s.sched.cpu.current).process)
      (htable : processTable (s.sched.task s.sched.cpu.current).process =
        s.processTable (s.sched.task s.sched.cpu.current).process) :
      UserCpuStep s { s with sched := sched, processTable := processTable }

lemma switchTo_current {s s' : Sched} {prev next : Nat} (h : switchTo s prev next = .ok s') :
    s'.cpu.current = next := by
  unfold switchTo at h
  obtain ⟨_, -, h⟩ := bind_eq_ok.mp h
  obtain ⟨_, -, h⟩ := bind_eq_ok.mp h
  obtain ⟨_, -, h⟩ := bind_eq_ok.mp h
  dsimp only at h
  split at h
  · obtain ⟨_, -, h⟩ := bind_eq_ok.mp h
    cases h
    rfl
  · split at h
    · cases h
      rfl
    · split at h
      · cases h
        rfl
      · obtain ⟨_, -, h⟩ := bind_eq_ok.mp h
        obtain ⟨_, -, h⟩ := bind_eq_ok.mp h
        cases h
        rfl

/-- The first switch goes to the task that `scheduler_pick_next` selects. -/
lemma schedulerSwitch_first {s s' : Sched} (hfirst : s.cpu.current = 0) (h : schedulerSwitch s = .ok s') :
    ∃ s₁, schedulerPickNext s = .ok (s'.cpu.current, s₁) := by
  unfold schedulerSwitch at h
  obtain ⟨s₁, hput, hrest⟩ := bind_eq_ok.mp h
  obtain ⟨⟨next, s₂⟩, hpick, hto⟩ := bind_eq_ok.mp hrest
  rw [putBackPrev, if_pos hfirst] at hput
  obtain rfl := Except.ok.inj hput
  rw [switchTo_current hto]
  exact ⟨s₂, hpick⟩

lemma taskTable_congr {t : Nat} (hkernel : s'.kernelUserTable = s.kernelUserTable)
    (hprocess : (s'.sched.task t).process = (s.sched.task t).process)
    (htable : s'.processTable (s.sched.task t).process = s.processTable (s.sched.task t).process) :
    taskTable s' t = taskTable s t := by
  rw [taskTable, taskTable, hprocess, htable, vmGetKernelUserPageTable, vmGetKernelUserPageTable, hkernel]

/-- What a switch does: the register is written exactly if the two tables differ. -/
lemma userSwitch_cases (h : UserCpu.schedulerSwitch s = .ok s') : ∃ sched, schedulerSwitch s.sched = .ok sched ∧
    (∀ p, taskTable s' p = taskTable s p) ∧
    ((taskTable s s.sched.cpu.current = taskTable s sched.cpu.current ∧ s' = { s with sched := sched }) ∨
      (taskTable s s.sched.cpu.current ≠ taskTable s sched.cpu.current ∧ s.hhdm ≤ taskTable s sched.cpu.current ∧
        s' = { s with sched := sched, ttbr0 := taskTable s sched.cpu.current - s.hhdm })) := by
  unfold UserCpu.schedulerSwitch at h
  obtain ⟨sched, hswitch, h⟩ := bind_eq_ok.mp h
  have htable : ∀ ttbr0 p, taskTable { s with sched := sched, ttbr0 := ttbr0 } p = taskTable s p :=
    fun ttbr0 p => taskTable_congr rfl (sameTasks_schedulerSwitch hswitch p).2 rfl
  dsimp only at h
  refine ⟨sched, hswitch, ?_⟩
  by_cases hsame : s.sched.cpu.current = sched.cpu.current
  · rw [if_pos hsame] at h
    obtain rfl := Except.ok.inj h
    exact ⟨htable s.ttbr0, .inl ⟨congrArg (taskTable s) hsame, rfl⟩⟩
  · rw [if_neg hsame, switchAddressSpace, htable s.ttbr0, htable s.ttbr0] at h
    by_cases hdiffer : taskTable s s.sched.cpu.current ≠ taskTable s sched.cpu.current
    · rw [if_pos hdiffer, pagingSwitchUserTable] at h
      split at h
      · rename_i hle
        obtain rfl := Except.ok.inj h
        exact ⟨htable _, .inr ⟨hdiffer, hle, rfl⟩⟩
      · cases h
    · rw [if_neg hdiffer] at h
      obtain rfl := Except.ok.inj h
      exact ⟨htable s.ttbr0, .inl ⟨not_not.mp hdiffer, rfl⟩⟩

lemma UserCpuStep.follows (h : UserCpu.Follows s) (hstep : UserCpuStep s s') : UserCpu.Follows s' := by
  cases hstep with
  | switch hcall =>
    obtain ⟨sched, -, htable, ⟨hsame, rfl⟩ | ⟨-, hle, rfl⟩⟩ := userSwitch_cases hcall
    · rw [UserCpu.Follows, htable]
      exact h.trans hsame
    · rw [UserCpu.Follows, htable]
      exact Nat.sub_add_cancel hle
  | @other sched processTable hcur hprocess htable =>
    have hsame : taskTable { s with sched := sched, processTable := processTable } s.sched.cpu.current =
        taskTable s s.sched.cpu.current := taskTable_congr rfl hprocess htable
    show s.ttbr0 + s.hhdm = taskTable { s with sched := sched, processTable := processTable } sched.cpu.current
    rw [hcur, hsame]
    exact h

lemma UserCpu.run_follows (h : UserCpu.Follows s) (hrun : Relation.ReflTransGen UserCpuStep s s') :
    UserCpu.Follows s' := by
  induction hrun with
  | refl => exact h
  | tail _ hstep ih => exact hstep.follows ih

/-- The first switch compares with the table for tasks without a process, as if that one were loaded. -/
lemma first_follows_iff (hfirst : s.sched.cpu.current = 0) (hcall : UserCpu.schedulerSwitch s = .ok s') :
    UserCpu.Follows s' ↔ UserCpu.LoadsFirst s := by
  have hnull : taskTable s s.sched.cpu.current = vmGetKernelUserPageTable s := by
    rw [taskTable, hfirst, if_neg (fun hne => hne.1 rfl)]
  obtain ⟨sched, hswitch, htable, hcase⟩ := userSwitch_cases hcall
  obtain ⟨sched₁, hpick⟩ := schedulerSwitch_first hfirst hswitch
  rw [hnull] at hcase
  rcases hcase with ⟨hsame, rfl⟩ | ⟨hdiffer, hle, rfl⟩
  · rw [UserCpu.Follows, htable, ← hsame, UserCpu.LoadsFirst]
    refine ⟨.inl, ?_⟩
    rintro (hkernel | ⟨t, sched₂, hpick', hne⟩)
    · exact hkernel
    · obtain ⟨rfl, -⟩ := Prod.mk.inj (Except.ok.inj (hpick.symm.trans hpick'))
      exact absurd hsame.symm hne
  · rw [UserCpu.Follows, htable]
    exact ⟨fun _ => .inr ⟨_, sched₁, hpick, hdiffer.symm⟩, fun _ => Nat.sub_add_cancel hle⟩

/-- **The loaded user table.** In every run from the first switch on, on any CPU, the register holds the table of the
current task if and only if the table for tasks without a process was loaded before, or the first task has another
one. -/
theorem user_table_follows_iff (hfirst : s.sched.cpu.current = 0) (hcall : UserCpu.schedulerSwitch s = .ok s') :
    (∀ s'', Relation.ReflTransGen UserCpuStep s' s'' → UserCpu.Follows s'') ↔ UserCpu.LoadsFirst s := by
  rw [← first_follows_iff hfirst hcall]
  exact ⟨fun hruns => hruns s' .refl, fun h _ hrun => UserCpu.run_follows h hrun⟩

/-- A CPU before the first switch. Its one task belongs to `process`, whose table is at `0x9000`; the table for tasks
without a process is at `0x8000`, the direct map begins at `0x1000`, and the boot loader has left `ttbr0`. -/
def firstTask (process ttbr0 : Nat) : UserCpu where
  sched := okOr bareCpu (createTask (commonCpuInitTasks bareCpu 0x10 0x20) 0x30 process)
  processTable := fun _ => 0x9000
  kernelUserTable := 0x8000
  hhdm := 0x1000
  ttbr0 := ttbr0

/-- The first task has a process. -/
theorem user_table_follows_iff_process :
    ∃ s', UserCpu.schedulerSwitch (firstTask 0x40 0x123000) = .ok s' ∧ s'.ttbr0 = 0x8000 ∧
      ∀ s'', Relation.ReflTransGen UserCpuStep s' s'' → UserCpu.Follows s'' := by
  have hcall := eq_ok_of_isOk (firstTask 0x40 0x123000) (x := UserCpu.schedulerSwitch (firstTask 0x40 0x123000))
    (by decide +kernel)
  refine ⟨_, hcall, by decide +kernel, (user_table_follows_iff (by decide +kernel) hcall).mpr (.inr ?_)⟩
  obtain ⟨sched, hpick⟩ := schedulerSwitch_first (s := (firstTask 0x40 0x123000).sched) (by decide +kernel)
    (eq_ok_of_isOk bareCpu (by decide +kernel))
  exact ⟨_, sched, hpick, by decide +kernel⟩

/-- The first task has no process, and runs with the table of the boot loader. -/
theorem user_table_of_boot_loader :
    ∃ s', UserCpu.schedulerSwitch (firstTask 0 0x123000) = .ok s' ∧ s'.sched.cpu.current = 0x30 ∧
      s'.ttbr0 = 0x123000 ∧ taskTable s' 0x30 = vmGetKernelUserPageTable s' ∧ ¬UserCpu.Follows s' := by
  have hcall := eq_ok_of_isOk (firstTask 0 0x123000) (x := UserCpu.schedulerSwitch (firstTask 0 0x123000))
    (by decide +kernel)
  refine ⟨_, hcall, by decide +kernel, by decide +kernel, by decide +kernel, ?_⟩
  unfold UserCpu.Follows
  decide +kernel

end KaworuOS.Proofs
