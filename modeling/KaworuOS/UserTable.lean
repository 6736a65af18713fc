import KaworuOS.Scheduler

/-!
# The user translation table of a CPU (`sched/scheduler.c`, `mm/paging.c`, `mm/vmm.c`)

`TTBR0_EL1` holds the physical address of the table. It is written by `paging_switch_user_table`, which only
`scheduler_switch` calls.
-/

namespace KaworuOS

/-- A CPU with its register `TTBR0_EL1`, `address_space->table` of each process, `as.kernel_user_table` and the
offset of the direct map. -/
structure UserCpu where
  sched : Sched
  processTable : Nat → Nat
  kernelUserTable : Nat
  hhdm : Nat
  ttbr0 : Nat

/-- `vm_get_kernel_user_page_table`. -/
def vmGetKernelUserPageTable (s : UserCpu) : Nat := s.kernelUserTable

/-- `paging_switch_user_table`, with the `ASSERT` of `pmm_virt_to_phys`. -/
def pagingSwitchUserTable (s : UserCpu) (table : Nat) : Except Halt UserCpu :=
  if s.hhdm ≤ table then .ok { s with ttbr0 := table - s.hhdm } else .error .panic

/-- The table that `switch_address_space` finds for a task, or for no task. -/
def taskTable (s : UserCpu) (t : Nat) : Nat :=
  if t ≠ 0 ∧ (s.sched.task t).process ≠ 0 then s.processTable (s.sched.task t).process
  else vmGetKernelUserPageTable s

/-- `switch_address_space`. -/
def switchAddressSpace (s : UserCpu) (prev next : Nat) : Except Halt UserCpu :=
  if taskTable s prev ≠ taskTable s next then pagingSwitchUserTable s (taskTable s next) else .ok s

/-- `scheduler_switch` with `switch_address_space`, up to the switch of contexts. -/
def UserCpu.schedulerSwitch (s : UserCpu) : Except Halt UserCpu := do
  let prev := s.sched.cpu.current
  let sched ← KaworuOS.schedulerSwitch s.sched
  let s := { s with sched := sched }
  if prev = sched.cpu.current then .ok s else switchAddressSpace s prev sched.cpu.current

end KaworuOS
