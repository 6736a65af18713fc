import KaworuOS.Scheduler

/-!
# Sleeping and the timer interrupt (`sched/scheduler.c`, `core/timer.c`, `irq/irq_controller.c`)

An interrupt can come between two statements of `scheduler_sleep_current`, but not while it holds the
lock of the queue of sleeping tasks, and not inside of a switch. A task that has been switched away
from by an interrupt goes on with the same statement when it runs again.
-/

namespace KaworuOS

/-- `timer_ms_to_ticks`, with the frequency of the timer. -/
def timerMsToTicks (frequency ms : Nat) : Nat := wmul (frequency / 1000) ms

/-- The statement of `scheduler_sleep_current` that a task executes next, or `outside` when it is not in this
function. -/
inductive SleepPc
  | outside
  | assertNotNull
  | assertNotIdle
  | assertCpu
  | assertRunning
  | enqueue
  | switch
  deriving DecidableEq, Repr

/-- One statement of `scheduler_sleep_current`, executed by `current`. -/
def sleepStatement (s : Sched) (current now ticks : Nat) : SleepPc → Except Halt (SleepPc × Sched)
  | .outside => .ok (.assertNotNull, s)
  | .assertNotNull => do
    assertThat (current ≠ 0)
    .ok (.assertNotIdle, s)
  | .assertNotIdle => do
    assertThat (current ≠ s.cpu.idle)
    .ok (.assertCpu, s)
  | .assertCpu => do
    assertThat ((s.task current).cpu = s.cpu.addr)
    .ok (.assertRunning, s)
  | .assertRunning => do
    assertThat ((s.task current).state = .RUNNING)
    .ok (.enqueue, s)
  | .enqueue => do
    let s ← sleepEnqueue s current now ticks
    .ok (.switch, s)
  | .switch => do
    let s ← schedulerSwitch s
    .ok (.outside, s)

/-- The timer interrupt: `timer_tick` asks for a switch and wakes sleepers, and `irq_handle` grants it when
there is a current task. -/
def timerInterrupt (s : Sched) (now : Nat) : Except Halt Sched := do
  let s ← schedulerWakeSleepers s now
  if s.cpu.current ≠ 0 then schedulerSwitch s else .ok s

end KaworuOS
