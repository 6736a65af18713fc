import KaworuOS.Proofs.ProcessLife

/-!
# Parents that wait for their children

The scan of `sys_wait4` and its `scheduler_block_current` are steps apart. A child that exits and
wakes its parent after the scan has passed it, and before the parent is blocked, wakes nobody. When no
child does so, no parent sleeps on a zombie.
-/

namespace KaworuOS.Proofs
open Lib

/-- The scan has passed the child `q`, and the parent is not blocked yet. -/
def Passed (q : Nat) : LifePc → Prop
  | .scan rest _ => q ∉ rest
  | .enqueue | .block => True
  | _ => False

/-- A task of `q` has its `scheduler_wake_all` to perform. -/
def WakePending (s : Life) (q : Nat) : Prop := ∃ u, (s.smp.task u).process = q ∧ s.pc u = .wake

/-- A parent is blocked on its queue, one of its children is a zombie, and no child will wake it. -/
def SleepsOnZombie (s : Life) : Prop :=
  ∃ t, (s.smp.task t).state = .BLOCKED ∧ (s.smp.task t).process ≠ 0 ∧
    (s.smp.task t).waitingOn = (s.smp.task t).process ∧
    (∃ q ∈ (s.proc (s.smp.task t).process).children, (s.proc q).state = .ZOMBIE) ∧
    ∀ q, (s.proc q).parent = (s.smp.task t).process → ¬WakePending s q

/-- A child does not wake its parent between the scan that has passed it and the block. -/
def LifeOp.WakeInTime (s : Life) : LifeOp → Prop
  | .go c _ => s.pc (s.smp.current c) = .wake → ∀ t,
      (s.smp.task t).process = (s.proc (s.smp.task (s.smp.current c)).process).parent →
        ¬Passed (s.smp.task (s.smp.current c)).process (s.pc t)
  | _ => True

/-- The zombies that a parent will not look at again have their wake-up to perform. -/
structure WaitInv (s : Life) : Prop where
  tree : ∀ p, ∀ q ∈ (s.proc p).children, (s.proc q).parent = p
  waiting : ∀ t, (s.smp.task t).waitingOn ≠ 0 → t ∈ s.smp.waitQueue (s.smp.task t).waitingOn
  passed : ∀ t, ∀ q ∈ (s.proc (s.smp.task t).process).children, (s.proc q).state = .ZOMBIE → Passed q (s.pc t) →
    WakePending s q
  asleep : ∀ t, (s.smp.task t).state = .BLOCKED → (s.smp.task t).process ≠ 0 →
    (s.smp.task t).waitingOn = (s.smp.task t).process →
      ∀ q ∈ (s.proc (s.smp.task t).process).children, (s.proc q).state = .ZOMBIE → WakePending s q

variable {s s' : Life} {c cur p q : Nat}

lemma WaitInv.not_sleepsOnZombie (h : WaitInv s) : ¬SleepsOnZombie s := by
  rintro ⟨t, hst, hp, hwait, ⟨q, hq, hz⟩, hnone⟩
  exact hnone q (h.tree _ q hq) (h.asleep t hst hp hwait q hq hz)

/-- The processes after a step other than an exit: some children may be gone. -/
structure Fewer (s s' : Life) : Prop where
  children : ∀ p, ∀ q ∈ (s'.proc p).children, q ∈ (s.proc p).children
  parent : ∀ q, (s'.proc q).parent = (s.proc q).parent
  state : ∀ q, (s'.proc q).state = (s.proc q).state

lemma Fewer.refl (h : s'.proc = s.proc) : Fewer s s' := by
  constructor <;> simp [h]

lemma fewer_update {proc : Process} (hproc : s'.proc = Function.update s.proc p proc)
    (hchildren : ∀ q ∈ proc.children, q ∈ (s.proc p).children) (hparent : proc.parent = (s.proc p).parent)
    (hstate : proc.state = (s.proc p).state) : Fewer s s' := by
  have hself : s'.proc p = proc := by rw [hproc, Function.update_self]
  have hother : ∀ r, r ≠ p → s'.proc r = s.proc r := by
    intro r hr
    rw [hproc, Function.update_of_ne hr]
  constructor <;> intro r <;> rcases eq_or_ne r p with rfl | hr
  · rwa [hself]
  · rw [hother r hr]
    exact fun _ hin => hin
  · rwa [hself]
  · rw [hother r hr]
  · rwa [hself]
  · rw [hother r hr]

/-- The waiting tasks after a step: who sleeps now has slept before, or has passed all its children. -/
structure Sleeps (s : Life) (smp : Smp) : Prop where
  process : ∀ t, (smp.task t).process = (s.smp.task t).process
  waiting : ∀ t, (smp.task t).waitingOn ≠ 0 → t ∈ smp.waitQueue (smp.task t).waitingOn
  asleep : ∀ t, (smp.task t).state = .BLOCKED → (smp.task t).process ≠ 0 →
    (smp.task t).waitingOn = (smp.task t).process →
      ((s.smp.task t).state = .BLOCKED ∧ (s.smp.task t).waitingOn = (s.smp.task t).process) ∨ ∀ q, Passed q (s.pc t)

lemma WaitInv.step (h : WaitInv s) (hfewer : Fewer s s') (hsleeps : Sleeps s s'.smp)
    (hwake : ∀ t, s.pc t = .wake → s'.pc t = .wake)
    (hpassed : ∀ t, ∀ q ∈ (s.proc (s.smp.task t).process).children, (s.proc q).state = .ZOMBIE → Passed q (s'.pc t) →
      Passed q (s.pc t)) : WaitInv s' := by
  have hpending : ∀ q, WakePending s q → WakePending s' q := by
    rintro q ⟨u, hu, hpc⟩
    exact ⟨u, (hsleeps.process u).trans hu, hwake u hpc⟩
  refine ⟨?_, hsleeps.waiting, ?_, ?_⟩
  · intro p q hq
    rw [hfewer.parent]
    exact h.tree p q (hfewer.children p q hq)
  · intro t q hq hz hp
    rw [hfewer.state] at hz
    rw [hsleeps.process] at hq
    exact hpending q (h.passed t q (hfewer.children _ q hq) hz (hpassed t q (hfewer.children _ q hq) hz hp))
  · intro t hst hne hwait q hq hz
    have hor := hsleeps.asleep t hst hne hwait
    rw [hsleeps.process] at hne hq
    rw [hfewer.state] at hz
    apply hpending q
    rcases hor with ⟨hst', hwait'⟩ | hall
    · exact h.asleep t hst' hne hwait' q (hfewer.children _ q hq) hz
    · exact h.passed t q (hfewer.children _ q hq) hz (hall q)

lemma Calm.sleeps {smp : Smp} (hcalm : Calm s.smp smp) (h : WaitInv s) : Sleeps s smp := by
  refine ⟨hcalm.process, ?_, ?_⟩
  · intro t hne
    rw [hcalm.waitingOn] at hne ⊢
    rw [hcalm.waitQueue]
    exact h.waiting t hne
  · intro t hst _ hwait
    rw [hcalm.waitingOn, hcalm.process] at hwait
    exact .inl ⟨hcalm.blocked t hst, hwait⟩

lemma WaitInv.move (h : WaitInv s) {pc : LifePc} (hpc : s'.pc = Function.update s.pc cur pc) (hold : s.pc cur ≠ .wake)
    (hnew : ∀ q ∈ (s.proc (s.smp.task cur).process).children, (s.proc q).state = .ZOMBIE → Passed q pc →
      Passed q (s.pc cur)) (hfewer : Fewer s s')
    (hsleeps : Sleeps s s'.smp) : WaitInv s' := by
  refine h.step hfewer hsleeps ?_ ?_ <;> intro t <;> rw [hpc] <;> by_cases ht : t = cur
  · subst ht
    exact fun hwake => absurd hwake hold
  · rw [Function.update_of_ne ht]
    exact id
  · subst ht
    rw [Function.update_self]
    exact hnew
  · rw [Function.update_of_ne ht]
    exact fun _ _ _ hp => hp

lemma WaitInv.goOn (h : WaitInv s) {pc : LifePc} (hpc : s'.pc = Function.update s.pc cur pc) (hproc : s'.proc = s.proc)
    (hsmp : Calm s.smp s'.smp) (hold : s.pc cur ≠ .wake) (hnew : ∀ q, ¬Passed q pc) : WaitInv s' :=
  h.move hpc hold (fun q _ _ hp => absurd hp (hnew q)) (Fewer.refl hproc) (hsmp.sleeps h)

lemma WaitInv.exit (h : WaitInv s) (hpc : s.pc cur = .user) (status : Int) :
    WaitInv ((s.exitProcess (s.smp.task cur).process status).setPc cur .wake) := by
  set s' := (s.exitProcess (s.smp.task cur).process status).setPc cur .wake with hs'
  have hself : s'.proc (s.smp.task cur).process = (s.proc (s.smp.task cur).process).exit status :=
    Function.update_self ..
  have hother : ∀ r, r ≠ (s.smp.task cur).process → s'.proc r = s.proc r := fun r hr => Function.update_of_ne hr ..
  have hpc' : ∀ t, t ≠ cur → s'.pc t = s.pc t := fun t ht => Function.update_of_ne ht ..
  have hcur : s'.pc cur = .wake := Function.update_self ..
  have hchildren : ∀ r, (s'.proc r).children = (s.proc r).children := by
    intro r
    rcases eq_or_ne r (s.smp.task cur).process with rfl | hr
    · rw [hself]
      rfl
    · rw [hother r hr]
  have hparent : ∀ r, (s'.proc r).parent = (s.proc r).parent := by
    intro r
    rcases eq_or_ne r (s.smp.task cur).process with rfl | hr
    · rw [hself]
      rfl
    · rw [hother r hr]
  -- a zombie is the process that exits now, or it has been one before
  have hpending : ∀ q, (s'.proc q).state = .ZOMBIE → ((s.proc q).state = .ZOMBIE → WakePending s q) →
    WakePending s' q := by
    intro q hz hold
    rcases eq_or_ne q (s.smp.task cur).process with rfl | hq
    · exact ⟨cur, rfl, hcur⟩
    · rw [hother q hq] at hz
      obtain ⟨u, hu, hwake⟩ := hold hz
      have hne : u ≠ cur := by
        rintro rfl
        exact hq hu.symm
      exact ⟨u, hu, (hpc' u hne).trans hwake⟩
  refine ⟨?_, h.waiting, ?_, ?_⟩
  · intro p q hq
    rw [hchildren] at hq
    rw [hparent]
    exact h.tree p q hq
  · intro t q hq hz hp
    rw [hchildren] at hq
    rcases eq_or_ne t cur with rfl | ht
    · rw [hcur] at hp
      exact absurd hp id
    · rw [hpc' t ht] at hp
      exact hpending q hz (fun hz' => h.passed t q hq hz' hp)
  · intro t hst hne hwait q hq hz
    rw [hchildren] at hq
    exact hpending q hz (fun hz' => h.asleep t hst hne hwait q hq hz')

lemma WaitInv.wake (h : WaitInv s) (hpc : s.pc cur = .wake) (hq : q = (s.smp.task cur).process) {smp : Smp}
    (hw : Woken (s.proc q).parent (s.smp.waitQueue (s.proc q).parent) s.smp smp) (hne : (s.proc q).parent ≠ 0)
    (htime : ∀ t, (s.smp.task t).process = (s.proc q).parent → ¬Passed q (s.pc t)) :
    WaitInv ({ s with smp := smp }.setPc cur .exit) := by
  set s' := { s with smp := smp }.setPc cur .exit with hs'
  have hcur : s'.pc cur = .exit := Function.update_self ..
  have hpc' : ∀ t, t ≠ cur → s'.pc t = s.pc t := fun t ht => Function.update_of_ne ht ..
  have hpending : ∀ r, r ≠ q → WakePending s r → WakePending s' r := by
    rintro r hr ⟨u, hu, hwake⟩
    have hucur : u ≠ cur := by
      rintro rfl
      exact hr (hu.symm.trans hq.symm)
    exact ⟨u, (hw.process u).trans hu, (hpc' u hucur).trans hwake⟩
  refine ⟨h.tree, ?_, ?_, ?_⟩
  · intro t hwait
    change (smp.task t).waitingOn ≠ 0 at hwait
    change t ∈ smp.waitQueue (smp.task t).waitingOn
    by_cases hin : t ∈ s.smp.waitQueue (s.proc q).parent
    · exact absurd (hw.woken t hin).2 hwait
    · rw [hw.other t hin] at hwait ⊢
      have hin' := h.waiting t hwait
      rwa [hw.waitQueue _ (fun heq => hin (by rwa [heq] at hin'))]
  · intro t r hr hz hp
    change r ∈ (s.proc (smp.task t).process).children at hr
    rw [hw.process] at hr
    rcases eq_or_ne t cur with rfl | ht
    · rw [hcur] at hp
      exact absurd hp id
    · rw [hpc' t ht] at hp
      apply hpending r _ (h.passed t r hr hz hp)
      rintro rfl
      exact htime t (h.tree _ r hr).symm hp
  · intro t hst hne' hwait r hr hz
    change (smp.task t).state = .BLOCKED at hst
    change (smp.task t).process ≠ 0 at hne'
    change (smp.task t).waitingOn = (smp.task t).process at hwait
    change r ∈ (s.proc (smp.task t).process).children at hr
    have hin : t ∉ s.smp.waitQueue (s.proc q).parent := by
      intro hin
      rw [(hw.woken t hin).1] at hst
      cases hst
    rw [hw.other t hin] at hst hne' hwait hr
    apply hpending r _ (h.asleep t hst hne' hwait r hr hz)
    -- a parent of `q` that sleeps is on the queue that was woken
    rintro rfl
    apply hin
    rw [h.tree _ r hr]
    have hin' := h.waiting t (by rwa [hwait])
    rwa [hwait] at hin'

lemma not_wake_of_eq {pc : LifePc} (h : s.pc cur = pc) (hne : pc ≠ .wake) : s.pc cur ≠ .wake := by
  rwa [h]

lemma WaitInv.enqueue (h : WaitInv s) (hpc : s.pc cur = .enqueue) :
    WaitInv ({ s with smp := (s.smp.setWaitQueue p (s.smp.waitQueue p ++ [cur])).setWaitingOn cur p }.setPc cur
      .block) := by
  have hself := Smp.setWaitingOn_self (s.smp.setWaitQueue p (s.smp.waitQueue p ++ [cur])) cur p
  have hother : ∀ t, t ≠ cur → ((s.smp.setWaitQueue p (s.smp.waitQueue p ++ [cur])).setWaitingOn cur p).task t =
      s.smp.task t := fun t ht => Smp.setWaitingOn_other _ _ _ ht
  have hall : ∀ q, Passed q (s.pc cur) := by
    intro q
    rw [hpc]
    trivial
  have hsleeps : Sleeps s ((s.smp.setWaitQueue p (s.smp.waitQueue p ++ [cur])).setWaitingOn cur p) := by
    refine ⟨?_, ?_, ?_⟩ <;> intro t <;> rcases eq_or_ne t cur with rfl | ht
    · rw [hself]
      rfl
    · rw [hother t ht]
    · rw [hself]
      intro _
      change t ∈ (s.smp.setWaitQueue p (s.smp.waitQueue p ++ [t])).waitQueue p
      rw [Smp.setWaitQueue_self]
      exact List.mem_append_right _ List.mem_cons_self
    · rw [hother t ht]
      intro hwait
      have hin := h.waiting t hwait
      change t ∈ (s.smp.setWaitQueue p (s.smp.waitQueue p ++ [cur])).waitQueue (s.smp.task t).waitingOn
      by_cases hq : (s.smp.task t).waitingOn = p
      · rw [hq] at hin ⊢
        rw [Smp.setWaitQueue_self]
        exact List.mem_append_left _ hin
      · rwa [Smp.setWaitQueue_other _ _ _ hq]
    · exact fun _ _ _ => .inr hall
    · rw [hother t ht]
      exact fun hst _ hwait => .inl ⟨hst, hwait⟩
  exact h.move rfl (not_wake_of_eq hpc (by simp)) (fun q _ _ _ => hall q) (Fewer.refl rfl) hsleeps

lemma WaitInv.block (h : WaitInv s) (hpc : s.pc cur = .block) :
    WaitInv ({ s with smp := s.smp.setState cur .BLOCKED }.setPc cur .switch) := by
  have hsleeps : Sleeps s (s.smp.setState cur .BLOCKED) := by
    refine ⟨fun t => Smp.setState_process .., ?_, ?_⟩
    · intro t hwait
      rw [Smp.setState_waitingOn] at hwait ⊢
      exact h.waiting t hwait
    · intro t hst _ hwait
      rcases eq_or_ne t cur with rfl | ht
      · right
        intro q
        rw [hpc]
        trivial
      · left
        rw [Smp.setState_other _ _ _ ht] at hst hwait
        exact ⟨hst, hwait⟩
  exact h.move rfl (not_wake_of_eq hpc (by simp)) (fun _ _ _ hp => absurd hp id) (Fewer.refl rfl) hsleeps

lemma calm_setNeedsCleanup (smp : Smp) (v : Bool) : Calm smp (smp.setNeedsCleanup c v) :=
  ⟨fun _ => rfl, fun _ => rfl, fun _ => rfl, rfl, rfl, rfl, rfl, fun _ hst => hst⟩

lemma WaitInv.next (h : WaitInv s) (hnext : LifeNext s c cur p s') (hp : p = (s.smp.task cur).process)
    (htime : s.pc cur = .wake → ∀ t, (s.smp.task t).process = (s.proc p).parent → ¬Passed p (s.pc t)) : WaitInv s' := by
  have hwake : ∀ {pc : LifePc}, s.pc cur = pc → pc ≠ .wake → s.pc cur ≠ .wake := fun hpc hne => not_wake_of_eq hpc hne
  cases hnext with
  | wait4 hpc => exact h.goOn rfl rfl (Calm.refl _) (hwake hpc (by simp)) (fun _ => id)
  | exit hpc _ status =>
    subst hp
    exact h.exit hpc status
  | finish hpc => exact h.goOn rfl rfl (Calm.refl _) (hwake hpc (by simp)) (fun _ => id)
  | loop hpc =>
    refine h.move rfl (hwake hpc (by simp)) ?_ (Fewer.refl rfl) ((Calm.refl _).sleeps h)
    intro q hq _ hpassed
    subst hp
    exact absurd hq hpassed
  | zombie hpc hz copied =>
    refine h.move rfl (hwake hpc (by simp)) ?_ (fewer_update rfl ?_ rfl rfl) ((Calm.refl _).sleeps h)
    · intro q _ _ hpassed
      split at hpassed <;> exact absurd hpassed id
    · exact fun q hq => mem_of_mem_unlink hq
  | alive hpc hz =>
    refine h.move rfl (hwake hpc (by simp)) ?_ (Fewer.refl rfl) ((Calm.refl _).sleeps h)
    intro q _ hzq hpassed
    rw [hpc]
    intro hin
    rcases List.mem_cons.mp hin with rfl | hin
    · exact hz hzq
    · exact hpassed hin
  | scanned hpc =>
    refine h.move rfl (hwake hpc (by simp)) ?_ (Fewer.refl rfl) ((Calm.refl _).sleeps h)
    intro q _ _ _
    rw [hpc]
    exact List.not_mem_nil
  | childless hpc => exact h.goOn rfl rfl (Calm.refl _) (hwake hpc (by simp)) (fun _ => id)
  | enqueue hpc => exact h.enqueue hpc
  | block hpc => exact h.block hpc
  | reap hpc => exact h.goOn rfl rfl (Calm.refl _) (hwake hpc (by simp)) (fun _ => id)
  | dropSpace hpc => exact h.goOn rfl rfl (Calm.refl _) (hwake hpc (by simp)) (fun _ => id)
  | noSpace hpc => exact h.goOn rfl rfl (Calm.refl _) (hwake hpc (by simp)) (fun _ => id)
  | dropFiles hpc => exact h.goOn rfl rfl (Calm.refl _) (hwake hpc (by simp)) (fun _ => id)
  | noFiles hpc => exact h.goOn rfl rfl (Calm.refl _) (hwake hpc (by simp)) (fun _ => id)
  | free hpc => exact h.goOn rfl rfl (Calm.refl _) (hwake hpc (by simp)) (fun _ => id)
  | wake hpc hparent hw => exact h.wake hpc hp hw hparent (htime hpc)
  | taskExit hpc => exact h.goOn rfl rfl (calm_setNeedsCleanup _ _) (hwake hpc (by simp)) (fun _ => id)
  | setDead hpc => exact h.goOn rfl rfl (calm_setState (by decide)) (hwake hpc (by simp)) (fun _ => id)
  | leave hpc hput =>
    rcases hpc with ⟨hpc, rfl⟩ | ⟨hpc, rfl⟩ | ⟨hpc, rfl⟩ <;>
    exact h.goOn rfl rfl (calm_putBackPrev hput).1 (hwake hpc (by simp)) (fun _ => id)
  | nothing hpc hfind => exact h.goOn rfl rfl (calm_setNeedsCleanup _ _) (hwake hpc (by simp)) (fun _ => id)
  | find hpc => exact h.goOn rfl rfl (Calm.refl _) (hwake hpc (by simp)) (fun _ => id)
  | remove hpc =>
    refine h.goOn rfl rfl (Calm.refl _) (hwake hpc (by simp)) ?_
    intro q hpassed
    split at hpassed <;> exact absurd hpassed id
  | removeThread hpc hq =>
    exact h.move rfl (hwake hpc (by simp)) (fun _ _ _ hpassed => absurd hpassed id)
      (fewer_update rfl (fun _ hin => hin) rfl rfl) ((Calm.refl _).sleeps h)
  | lastThread hpc => exact h.goOn rfl rfl (Calm.refl _) (hwake hpc (by simp)) (fun _ => id)
  | otherThreads hpc => exact h.goOn rfl rfl (Calm.refl _) (hwake hpc (by simp)) (fun _ => id)
  | destroySpace hpc => exact h.goOn rfl rfl (Calm.refl _) (hwake hpc (by simp)) (fun _ => id)
  | clearSpace hpc hq =>
    exact h.move rfl (hwake hpc (by simp)) (fun _ _ _ hpassed => absurd hpassed id)
      (fewer_update rfl (fun _ hin => hin) rfl rfl) ((Calm.refl _).sleeps h)
  | destroy hpc => exact h.goOn rfl rfl (Calm.refl _) (hwake hpc (by simp)) (fun _ => id)
  | timer hpc hput =>
    exact h.step (Fewer.refl rfl) ((calm_putBackPrev hput).1.sleeps h) (fun _ hw => hw) (fun _ _ _ _ hpassed => hpassed)

lemma WaitInv.calm (h : WaitInv s) (hpc : s'.pc = s.pc) (hproc : s'.proc = s.proc) (hsmp : Calm s.smp s'.smp) :
    WaitInv s' := by
  refine h.step (Fewer.refl hproc) (hsmp.sleeps h) ?_ ?_ <;> intro t <;> rw [hpc]
  · exact id
  · exact fun _ _ _ hp => hp

lemma WaitInv.op (h : WaitInv s) {op : LifeOp} (htime : LifeOp.WakeInTime s op) (hrun : op.run s = some (.ok s')) :
    WaitInv s' := by
  obtain ⟨hact, hcase⟩ := LifeOp.cases_of_run hrun
  cases hcase with
  | task hphase hnext =>
    have huser : s.pc (s.smp.current op.cpu) = .user → WaitInv s' := by
      intro hpc
      refine h.next hnext rfl (fun hwake => ?_)
      rw [hpc] at hwake
      cases hwake
    cases op with
    | go c copied => exact h.next hnext rfl htime
    | wait4 c => exact huser (LifeOp.pc_of_act hact (.inl ⟨c, rfl⟩))
    | exit c status => exact huser (LifeOp.pc_of_act hact (.inr (.inl ⟨c, status, rfl⟩)))
    | finish c => exact huser (LifeOp.pc_of_act hact (.inr (.inr ⟨c, rfl⟩)))
    | timer c =>
      obtain ⟨smp, hput, rfl⟩ := LifeOp.timer_of_act hact
      exact h.calm rfl rfl (calm_putBackPrev hput).1
    | pick c => exact absurd hact (LifeOp.act_ne_of_run hphase (.inl rfl))
    | resume c => exact absurd hact (LifeOp.act_ne_of_run hphase (.inr rfl))
  | pick hphase hswitch =>
    obtain ⟨hcalm, -, -⟩ := schedulerPickNext_effect s.smp op.cpu
    obtain ⟨rfl, -, -⟩ := switchTo_ok hswitch
    have hcalm' : Calm (s.smp.schedulerPickNext op.cpu).2
      ((s.smp.schedulerPickNext op.cpu).2.setState (s.smp.schedulerPickNext op.cpu).1 .RUNNING) :=
        calm_setState (by decide)
    exact h.calm rfl rfl (hcalm.trans
      ⟨hcalm'.cpu, hcalm'.process, hcalm'.waitingOn, rfl, rfl, rfl, rfl, hcalm'.blocked⟩)
  | resume => exact h.calm rfl rfl (Calm.refl _)

/-- Before the first system call nobody waits, and a child has its parent on whose list it is. -/
structure WaitStart (s : Life) : Prop where
  tree : ∀ p, ∀ q ∈ (s.proc p).children, (s.proc q).parent = p
  nobody : ∀ t, (s.smp.task t).waitingOn = 0
  pc : ∀ t, s.pc t = .user ∨ s.pc t = .find

lemma WaitStart.inv (h : WaitStart s) : WaitInv s := by
  refine ⟨h.tree, fun t hne => absurd (h.nobody t) hne, ?_, ?_⟩
  · intro t q _ _ hp
    rcases h.pc t with hpc | hpc <;> rw [hpc] at hp <;> exact absurd hp id
  · intro t _ hne hwait
    exact absurd (hwait.symm.trans (h.nobody t)) hne

/-- **No parent sleeps on a zombie** in a run in which every child wakes its parent in time. -/
theorem wait4_never_sleeps_on_zombie {cpus : Nat → Prop} (hstart : WaitStart s)
    (hrun : Relation.ReflTransGen (LifeStep cpus LifeOp.WakeInTime) s s') : ¬SleepsOnZombie s' := by
  have hinv : WaitInv s' := by
    induction hrun with
    | refl => exact hstart.inv
    | tail _ hstep ih =>
      obtain ⟨op, -, htime, hop⟩ := hstep
      exact ih.op htime hop
  exact hinv.not_sleepsOnZombie

lemma family_waitStart : WaitStart family := by
  refine ⟨?_, ?_, family_pc⟩
  · intro p q hq
    rcases family_proc p with ⟨rfl, hp⟩ | ⟨-, hp⟩ | hp <;> rw [hp] at hq
    · obtain rfl := List.mem_singleton.mp hq
      rfl
    · cases hq
    · cases hq
  · intro t
    rcases family_task t with ⟨-, ht⟩ | ⟨-, ht⟩ | ⟨-, -, -, ht, -⟩
    · rw [ht]
    · rw [ht]
    · exact ht

/-- The parent starts to wait and looks at its child. -/
def parentScans : List LifeOp := [.wait4 1, .go 1 true, .go 1 true, .go 1 true]

/-- The child exits after the scan of its parent and wakes nobody; then the parent goes to sleep. -/
def exitInWindow : List LifeOp := parentScans ++ [.exit 2 0, .go 2 true, .go 1 true, .go 1 true]

/-- The race of `exitInWindow`. -/
theorem wait4_sleeps_on_zombie : WaitStart family ∧
    ∃ s, Relation.ReflTransGen (LifeStep OneOrTwo fun _ _ => True) family s ∧ SleepsOnZombie s := by
  refine ⟨family_waitStart, ?_⟩
  have hend : (runOps family exitInWindow).any (fun s => (s.smp.task 11).state = .BLOCKED ∧
      (s.smp.task 11).process = 0x700 ∧ (s.smp.task 11).waitingOn = 0x700 ∧ 0x800 ∈ (s.proc 0x700).children ∧
      (s.proc 0x800).state = .ZOMBIE ∧ s.pc 11 = .switch ∧ s.pc 12 = .exit) = true := by
    decide +kernel
  obtain ⟨s, hs, hend⟩ := (Option.any_eq_true _ _).mp hend
  obtain ⟨hst, hprocess, hwait, hchild, hz, hpc₁, hpc₂⟩ := of_decide_eq_true hend
  have hsteps : Relation.ReflTransGen (LifeStep OneOrTwo fun _ _ => True) family s :=
    runOps_steps (fun _ op => onTwoCpus op) (fun _ _ hop => ⟨oneOrTwo_of_onTwoCpus hop, trivial⟩) (by decide +kernel) hs
  refine ⟨s, hsteps, 11, hst, by rw [hprocess]; decide, by rw [hwait, hprocess], ?_, ?_⟩
  · rw [hprocess]
    exact ⟨0x800, hchild, hz⟩
  · -- the two tasks that have run are past their wake-up, and no other task has run
    rintro q - ⟨u, -, hpc⟩
    rcases eq_or_ne u 11 with rfl | h₁
    · exact absurd (hpc₁.symm.trans hpc) (by decide)
    rcases eq_or_ne u 12 with rfl | h₂
    · exact absurd (hpc₂.symm.trans hpc) (by decide)
    rcases family_pc_of_run (by decide +kernel) hs h₁ h₂ with h | h <;> rw [h] at hpc <;> cases hpc

/-- The child exits when its parent sleeps. -/
def exitAfterBlock : List LifeOp := parentScans ++ [.go 1 true, .go 1 true, .exit 2 0]

/-- The child of `exitAfterBlock` wakes its parent. -/
theorem wait4_never_sleeps_on_zombie_woken : WaitStart family ∧
    ∃ s s', Relation.ReflTransGen (LifeStep OneOrTwo LifeOp.WakeInTime) family s ∧
      LifeStep OneOrTwo LifeOp.WakeInTime s s' ∧ (s.smp.task 11).state = .BLOCKED ∧
      (s'.smp.task 11).state = .READY ∧ (s'.proc 0x800).state = .ZOMBIE ∧ ¬SleepsOnZombie s' := by
  refine ⟨family_waitStart, ?_⟩
  have hend : (runOps family exitAfterBlock).any (fun s => (s.smp.task 11).state = .BLOCKED ∧ s.pc 11 = .switch ∧
      s.pc 12 = .wake ∧ (LifeOp.run s (.go 2 true)).any (fun r => r.toOption.any (fun s' =>
        (s'.smp.task 11).state = .READY ∧ (s'.proc 0x800).state = .ZOMBIE))) = true := by
    decide +kernel
  obtain ⟨s, hs, hend⟩ := (Option.any_eq_true _ _).mp hend
  obtain ⟨hst, hpc₁, hpc₂, hlast⟩ := of_decide_eq_true hend
  obtain ⟨r, hr, hlast⟩ := (Option.any_eq_true _ _).mp hlast
  obtain ⟨s', hs', hlast⟩ := (Option.any_eq_true _ _).mp hlast
  obtain ⟨hready, hz⟩ := of_decide_eq_true hlast
  have hsteps : Relation.ReflTransGen (LifeStep OneOrTwo LifeOp.WakeInTime) family s := by
    refine runOps_steps (fun s op => onTwoCpus op && decide (s.pc (s.smp.current op.cpu) ≠ .wake)) ?_
      (by decide +kernel) hs
    intro s op hop
    obtain ⟨hcpu, hpc⟩ := (Bool.and_eq_true _ _).mp hop
    refine ⟨oneOrTwo_of_onTwoCpus hcpu, ?_⟩
    cases op with
    | go c copied => exact fun hwake => absurd hwake (of_decide_eq_true hpc)
    | _ => trivial
  have hstep : LifeStep OneOrTwo LifeOp.WakeInTime s s' := by
    refine ⟨.go 2 true, .inr rfl, ?_, ?_⟩
    · intro _ t _ hp
      rcases eq_or_ne t 11 with rfl | h₁
      · rw [hpc₁] at hp
        exact hp
      rcases eq_or_ne t 12 with rfl | h₂
      · rw [hpc₂] at hp
        exact hp
      rcases family_pc_of_run (by decide +kernel) hs h₁ h₂ with h | h <;> rw [h] at hp <;> exact hp
    · rw [hr]
      cases r with
      | error e => cases hs'
      | ok s₁ => rw [show s₁ = s' from Option.some.inj hs']
  exact ⟨s, s', hsteps, hstep, hst, hready, hz, wait4_never_sleeps_on_zombie family_waitStart (hsteps.tail hstep)⟩

end KaworuOS.Proofs
