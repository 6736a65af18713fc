import KaworuOS.Proofs.ProcessTree
import KaworuOS.Proofs.Spawning

/-!
# The creations as the tree of processes sees them

`ProcessTree` has the creations with the results of the calls inside of them as parameters. A creation that returns is
one of these, for the results that its calls have had.
-/

namespace KaworuOS.Proofs
open Lib

variable {s s' : Spawning} {tree : ProcessTree}

/-- What of the state belongs to the tree of processes. -/
structure Shows (s : Spawning) (tree : ProcessTree) : Prop where
  proc : tree.proc = s.proc
  processes : tree.processes = s.processes
  pidCount : tree.pidCount = s.pidCount

/-- The same process, or two errors. -/
def SameOutcome : Except Nat Nat → Except Errno Nat → Prop
  | .ok p, .ok q => p = q
  | .error _, .error _ => True
  | _, _ => False

lemma SameTree.trans {s'' : Spawning} (h : SameTree s s') (h' : SameTree s' s'') : SameTree s s'' :=
  ⟨h'.processes.trans h.processes, h'.proc.trans h.proc, h'.pidCount.trans h.pidCount⟩

lemma Shows.same (h : Shows s tree) (hsame : SameTree s s') : Shows s' tree :=
  ⟨h.proc.trans hsame.proc.symm, h.processes.trans hsame.processes.symm, h.pidCount.trans hsame.pidCount.symm⟩

lemma Shows.kfree (h : Shows s tree) (p : Nat) : Shows s (tree.kfree p) := ⟨h.proc, h.processes, h.pidCount⟩

/-- The block of a new process holds what it has held. -/
lemma Shows.kalloc (h : Shows s tree) (p : Nat) : Shows s (tree.kalloc p (s.proc p)) := by
  refine ⟨?_, h.processes, h.pidCount⟩
  show Function.update tree.proc p (s.proc p) = s.proc
  rw [h.proc, Function.update_eq_self]

lemma Shows.setProc (h : Shows s tree) (p : Nat) (f : Process → Process) :
    Shows (s.setProc p (f (s.proc p))) (tree.setProc p (f (tree.proc p))) := by
  refine ⟨?_, h.processes, h.pidCount⟩
  show Function.update tree.proc p (f (tree.proc p)) = Function.update s.proc p (f (s.proc p))
  rw [h.proc]

open Classical in
/-- One for the states with the same tree as `s₀`. -/
noncomputable def likeTree (s₀ s : Spawning) : Nat := if SameTree s₀ s then 1 else 0

instance (s₀ : Spawning) : Tally (likeTree s₀) := ⟨fun {s s'} hsame _ => by
  unfold likeTree
  by_cases h : SameTree s₀ s
  · rw [if_pos h, if_pos (h.trans hsame)]
  · rw [if_neg h]
    exact Nat.zero_le _⟩

/-- Code that makes no tally smaller leaves the tree of processes alone. -/
lemma ends_sameTree {α : Type} {x : SpawnCall α} (h : ∀ (m : Spawning → Nat) [Tally m], Call.Mono m x) (s : Spawning) :
    Call.Ends (fun _ _ => True) x s (fun _ s' => SameTree s s') := by
  apply ((h (likeTree s)).ends s).mono
  intro _ s' hle
  unfold likeTree at hle
  rw [if_pos ⟨rfl, rfl, rfl⟩] at hle
  by_contra hnot
  rw [if_neg hnot] at hle
  exact Nat.not_succ_le_zero 0 hle

lemma sameTree_withMm {α : Type} (x : Kernel α) (s : Spawning) :
    Call.Ends (fun _ _ => True) (Spawning.withMm x) s (fun _ s' => SameTree s s') := by
  apply (ends_withMm (Call.ends_true x s.mm)).mono
  rintro _ s' ⟨-, hs'⟩
  rw [hs']
  exact ⟨rfl, rfl, rfl⟩

lemma sameTree_withFiles {α : Type} (x : FileCall α) (s : Spawning) :
    Call.Ends (fun _ _ => True) (Spawning.withFiles x) s (fun _ s' => SameTree s s') := by
  rcases hx : x s.files with ⟨e | a, f⟩
  · exact Call.ends_of_error (withFiles_error hx) trivial
  · exact Call.ends_of_ok (withFiles_ok hx) ⟨rfl, rfl, rfl⟩

lemma sameTree_drop (p t : Nat) (s : Spawning) :
    Call.Ends (fun _ _ => True) (Spawning.dropProcessAndTable p t) s (fun _ s' => SameTree s s') := by
  apply (sameTree_withMm (kfree p) s).bind
  intro _ s₁ h1
  apply (sameTree_withFiles (fdtableDestroy t) s₁).bind
  intro _ s₂ h2
  exact h1.trans h2

lemma giveUp_ends (p as : Nat) (s : Spawning) :
    Call.Ends (fun _ _ => True) (Spawning.giveUp p as) s (fun r s' => (∃ err, r = .error err) ∧ SameTree s s') := by
  apply Call.ends_bind_ok (x := Call.read _) rfl
  apply (sameTree_withMm (addressSpaceDestroy (s.space as)) s).bind
  intro _ s₁ h1
  apply (sameTree_withMm (kfree p) s₁).bind
  intro _ s₂ h2
  exact ⟨⟨_, rfl⟩, h1.trans h2⟩

lemma mono_schedulerEnqueue {m : Spawning → Nat} [Tally m] (task : Nat) :
    Call.Mono m (Spawning.schedulerEnqueue task) := by
  apply Call.mono_bind (Call.mono_read _)
  intro smp
  apply Call.mono_bind (Call.mono_lift _)
  intro smp
  exact mono_same (fun _ => ⟨rfl, rfl, rfl⟩) (fun _ => rfl)

lemma Shows.startTask (h : Shows s tree) (p task : Nat) :
    Call.Ends (fun _ _ => True) (Spawning.startTask p task) s
      (fun r s' => r = .ok p ∧ Shows s' (tree.addThread p task)) := by
  apply Call.ends_bind_ok (x := Call.update _) rfl
  have hadd := h.setProc p (fun proc => proc.addThread task)
  apply (ends_sameTree (fun _ => mono_schedulerEnqueue task) _).bind
  intro _ s' hsame
  exact ⟨rfl, hadd.same hsame⟩

lemma Shows.init (h : Shows s tree) (hpid : s.pidCount + 1 < wordSize) (p as t : Nat) :
    Call.Ends (fun _ _ => True) (Spawning.processInit p as t) s (fun _ s' => Shows s' (tree.init p as t)) := by
  apply Call.ends_bind_ok (x := Call.read _) rfl
  refine ⟨?_, h.processes, ?_⟩
  · show Function.update tree.proc p ((tree.proc p).init tree.pidCount as t) =
      Function.update s.proc p ((s.proc p).init s.pidCount as t)
    rw [h.proc, h.pidCount]
  · show tree.pidCount + 1 = wadd s.pidCount 1
    rw [h.pidCount, wadd_of_lt hpid]

lemma Shows.insert (h : Shows s tree) (p : Nat) :
    Call.Ends (fun _ _ => True) (Spawning.insertProcess p) s (fun _ s' => Shows s' (tree.insert p)) := by
  refine ⟨h.proc, ?_, h.pidCount⟩
  show tree.processes ++ [p] = s.processes ++ [p]
  rw [h.processes]

lemma kalloc_head (s : Spawning) : Call.Ends (fun _ _ => True) (Spawning.withMm kalloc) s
    (fun b s' => SameTree s s' ∧ (isErrValue b = false → s.mm.heap.blocks.head? = some b)) := by
  apply ((sameTree_withMm kalloc s).and (ends_withMm (Q := fun b _ => isErrValue b = false →
    s.mm.heap.blocks.head? = some b) ?_)).mono (fun _ _ h => ⟨h.1, h.2.1⟩)
  rcases hb : s.mm.heap.blocks with _ | ⟨b, rest⟩
  · refine Call.ends_of_ok (kalloc_nil hb) ?_
    rw [isErrValue_errToPtr]
    exact fun h => absurd h (by decide)
  · exact Call.ends_of_ok (kalloc_cons hb) (fun _ => rfl)

/-- The process of the creation is in the next block of the heap, with what that has held. -/
def Creation.On (s : Spawning) (a : Creation) : Prop :=
  ∀ b, a.proc = .ok b → s.mm.heap.blocks.head? = some b ∧ a.old = s.proc b

/-- A creation for which `kalloc` gives the block `b`, and nothing else is given. -/
def Creation.inBlock (s : Spawning) (b : Nat) : Creation where
  proc := .ok b
  old := s.proc b
  table := .error .ENOMEM
  attached := .EOK
  tableFree := true
  space := .error .ENOMEM
  stack := .error .ENOMEM
  mapped := .EOK
  task := .error .ENOMEM

/-- A creation in `tree` for the call that has returned `r` in the state `s'`. -/
def ShownBy (create : Creation → ProcessTree → Except Halt (Except Errno Nat × ProcessTree)) (s : Spawning)
    (tree : ProcessTree) (r : Except Nat Nat) (s' : Spawning) : Prop :=
  ∃ a r' tree', Creation.On s a ∧ create a tree = .ok (r', tree') ∧ SameOutcome r r' ∧ Shows s' tree'

/-- A creation in `tree` that gets a block and a table does the rest of the call, and without one of them it gives up. -/
lemma takeTwo_shown {create : FileCall (Except Errno Nat)} {rest : Nat → Nat → SpawnCall (Except Nat Nat)}
    {run : Creation → ProcessTree → Except Halt (Except Errno Nat × ProcessTree)} (h : Shows s tree)
    (hproc : ∀ a : Creation, a.proc = .error .ENOMEM → run a tree = .ok (.error .ENOMEM, tree))
    (htable : ∀ (a : Creation) b, a.proc = .ok b → a.table = .error .ENOMEM →
      run a tree = .ok (.error .ENOMEM, (tree.kalloc b a.old).kfree b))
    (hrest : ∀ b t s₂, (∀ a : Creation, a.proc = .ok b → a.old = s.proc b → Creation.On s a) → SameTree s s₂ →
      Shows s₂ (tree.kalloc b (s.proc b)) → Call.Ends (fun _ _ => True) (rest b t) s₂ (ShownBy run s tree)) :
    Call.Ends (fun _ _ => True) (takeTwo create rest) s (ShownBy run s tree) := by
  apply (kalloc_head s).bind
  rintro b s₁ ⟨h1, hhead⟩
  split
  case isTrue =>
    let a := { Creation.inBlock s b with proc := .error .ENOMEM }
    have hon : Creation.On s a := fun _ hb' => nomatch hb'
    exact ⟨a, .error .ENOMEM, tree, hon, hproc a rfl, trivial, h.same h1⟩
  case isFalse herr =>
  have hon : ∀ a : Creation, a.proc = .ok b → a.old = s.proc b → Creation.On s a := by
    intro a hb hold b' hb'
    rw [hb] at hb'
    obtain rfl := Except.ok.inj hb'
    exact ⟨hhead (by simpa using herr), hold⟩
  have hs₁ : Shows s₁ (tree.kalloc b (s.proc b)) := (h.kalloc b).same h1
  apply (sameTree_withFiles create s₁).bind
  rintro (e | t) s₂ h2
  · apply (sameTree_withMm (kfree b) s₂).bind
    intro _ s₃ h3
    let a := Creation.inBlock s b
    exact ⟨a, .error .ENOMEM, _, hon a rfl rfl, htable a b rfl rfl, trivial, ((hs₁.same h2).same h3).kfree b⟩
  · exact hrest b t s₂ hon (h1.trans h2) (hs₁.same h2)

lemma SameTree.pid_lt (h : SameTree s s') (hpid : s.pidCount + 1 < wordSize) : s'.pidCount + 1 < wordSize := by
  rw [h.pidCount]
  exact hpid

theorem createImpl_shown (h : Shows s tree) (hpid : s.pidCount + 1 < wordSize) :
    Call.Ends (fun _ _ => True) Spawning.procManagerCreateImpl s (ShownBy procManagerCreateImpl s tree) := by
  rw [procManagerCreateImpl_eq]
  refine takeTwo_shown h (fun a ha => ?_) (fun a b hb ht => ?_) ?_
  · rw [procManagerCreateImpl, ha]
  · rw [procManagerCreateImpl, hb]
    dsimp only
    rw [ht]
  intro b t s₂ hon h2 hs₂
  apply (sameTree_withFiles (fdtableAttachStdFiles t) s₂).bind
  intro err s₃ h3
  split
  case isTrue hne =>
    apply (sameTree_drop b t s₃).bind
    intro _ s₄ h4
    refine ⟨{ Creation.inBlock s b with table := .ok t, attached := err },
      .error .EMFILE, _, hon _ rfl rfl, ?_, trivial, ((hs₂.same h3).same h4).kfree b⟩
    unfold procManagerCreateImpl Creation.inBlock
    dsimp only
    rw [if_pos hne]
    rfl
  case isFalse heq =>
  obtain rfl := not_not.mp heq
  apply (sameTree_withMm addressSpaceCreate s₃).bind
  rintro (e | as) s₄ h4
  · apply (sameTree_drop b t s₄).bind
    intro _ s₅ h5
    exact ⟨{ Creation.inBlock s b with table := .ok t },
      .error .ENOMEM, _, hon _ rfl rfl, rfl, trivial, (((hs₂.same h3).same h4).same h5).kfree b⟩
  dsimp only
  have h5 : SameTree s₂ (s₄.setSpace as.self as) := (h3.trans h4).trans ⟨rfl, rfl, rfl⟩
  apply Call.ends_bind_ok (x := Call.update _) rfl
  apply ((hs₂.same h5).init ((h2.trans h5).pid_lt hpid) b as.self t).bind
  intro _ s₆ hs₆
  apply (hs₆.insert b).bind
  intro _ s₇ hs₇
  exact ⟨{ Creation.inBlock s b with table := .ok t, space := .ok as.self },
    .ok b, _, hon _ rfl rfl, rfl, rfl, hs₇⟩

/-- `proc_manager_create_impl` does not depend on what is called after it. -/
lemma createImpl_congr (a : Creation) (tree : ProcessTree) (stack task : Except Errno Nat) (mapped : Errno) :
    procManagerCreateImpl { a with stack := stack, mapped := mapped, task := task } tree =
      procManagerCreateImpl a tree :=
  rfl

theorem createExec_shown (h : Shows s tree) (hpid : s.pidCount + 1 < wordSize) (programPa programSize entry : Nat) :
    Call.Ends (fun _ _ => True) (Spawning.procManagerCreateExec programPa programSize entry) s
      (ShownBy procManagerCreateExec s tree) := by
  apply (createImpl_shown h hpid).bind
  rintro (err | p) s₁ ⟨a, r', tree', hon, hcreate, hout, hs₁⟩
  · cases r' with
    | ok q => exact hout.elim
    | error e =>
      refine ⟨a, .error e, tree', hon, ?_, trivial, hs₁⟩
      unfold procManagerCreateExec
      rw [hcreate]
      rfl
  cases r' with
  | error e => exact hout.elim
  | ok q =>
  obtain rfl : p = q := hout
  have hrun : ∀ stack task mapped,
      procManagerCreateImpl { a with stack := stack, mapped := mapped, task := task } tree = .ok (.ok p, tree') := by
    intro stack task mapped
    rw [createImpl_congr, hcreate]
  have hgive : ∀ {s₂ : Spawning} (as : Nat) (a' : Creation), SameTree s₁ s₂ → Creation.On s a' →
      procManagerCreateExec a' tree = .ok (.error .ENOMEM, tree'.kfree p) →
      Call.Ends (fun _ _ => True) (Spawning.giveUp p as) s₂ (ShownBy procManagerCreateExec s tree) := by
    intro s₂ as a' h2 hon' hrun'
    apply (giveUp_ends p as s₂).mono
    rintro _ s₃ ⟨⟨err, rfl⟩, h3⟩
    exact ⟨a', _, _, hon', hrun', trivial, ((hs₁.same h2).same h3).kfree p⟩
  apply Call.ends_bind_ok (x := Call.read _) rfl
  set as := (s₁.proc p).addressSpace
  apply (ends_sameTree (fun _ => mono_withSpace as (fun _ => mono_addressSpaceAlloc _ _ _ _)) s₁).bind
  intro ustack s₂ h2
  split
  · refine hgive as { a with stack := .error .ENOMEM } h2 hon ?_
    have hcreate' := hrun (.error .ENOMEM) a.task a.mapped
    unfold procManagerCreateExec
    rw [hcreate']
    rfl
  apply (ends_sameTree (fun _ => mono_withSpace as (fun _ => mono_addressSpaceMapOwned _ _ _ _ _ _)) s₂).bind
  intro err s₃ h3
  split
  · refine hgive as { a with stack := .ok ustack, mapped := .ENOMEM } (h2.trans h3) hon ?_
    have hcreate' := hrun (.ok ustack) a.task .ENOMEM
    unfold procManagerCreateExec
    rw [hcreate']
    rfl
  apply (ends_sameTree (fun _ => mono_taskManagerCreateUser _ _ _) s₃).bind
  rintro (err | task) s₄ h4
  · refine hgive as { a with stack := .ok ustack, mapped := .EOK, task := .error .ENOMEM }
      ((h2.trans h3).trans h4) hon ?_
    have hcreate' := hrun (.ok ustack) (.error .ENOMEM) .EOK
    unfold procManagerCreateExec
    rw [hcreate']
    rfl
  have hs₄ : Shows s₄ tree' := ((hs₁.same h2).same h3).same h4
  apply (hs₄.startTask p task).mono
  rintro _ s₅ ⟨rfl, hs₅⟩
  refine ⟨{ a with stack := .ok ustack, mapped := .EOK, task := .ok task }, .ok p, tree'.addThread p task, hon,
    ?_, rfl, hs₅⟩
  have hcreate' := hrun (.ok ustack) (.ok task) .EOK
  unfold procManagerCreateExec
  rw [hcreate']
  rfl

theorem createExecFrom_shown (h : Shows s tree) (hpid : s.pidCount + 1 < wordSize) (src srcTask srcFrame : Nat) :
    Call.Ends (fun _ _ => True) (Spawning.procManagerCreateExecFrom src srcTask srcFrame) s
      (ShownBy procManagerCreateExecFrom s tree) := by
  rw [Call.Ends, procManagerCreateExecFrom_eq]
  refine takeTwo_shown h (fun a ha => ?_) (fun a b hb ht => ?_) ?_
  · rw [procManagerCreateExecFrom, ha]
  · rw [procManagerCreateExecFrom, hb]
    dsimp only
    rw [ht]
  intro b t s₂ hon h2 hs₂
  apply Call.ends_bind_ok (x := Call.read _) rfl
  apply (sameTree_withMm (addressSpaceCreateFrom (s₂.space (s.proc src).addressSpace)) s₂).bind
  rintro (e | as) s₃ h3
  · apply (sameTree_drop b t s₃).bind
    intro _ s₄ h4
    exact ⟨{ Creation.inBlock s b with table := .ok t },
      .error .ENOMEM, _, hon _ rfl rfl, rfl, trivial, ((hs₂.same h3).same h4).kfree b⟩
  dsimp only
  have h4 : SameTree s₂ (s₃.setSpace as.self as) := h3.trans ⟨rfl, rfl, rfl⟩
  apply Call.ends_bind_ok (x := Call.update _) rfl
  apply ((hs₂.same h4).init ((h2.trans h4).pid_lt hpid) b as.self t).bind
  intro _ s₅ hs₅
  apply (ends_sameTree (fun _ => mono_taskManagerCreateUserFrom b srcTask srcFrame) s₅).bind
  rintro (e | task) s₆ h6
  · apply (giveUp_ends b as.self s₆).mono
    rintro _ s₇ ⟨⟨err, rfl⟩, h7⟩
    exact ⟨{ Creation.inBlock s b with table := .ok t, space := .ok as.self },
      .error .ENOMEM, _, hon _ rfl rfl, rfl, trivial, ((hs₅.same h6).same h7).kfree b⟩
  apply ((hs₅.same h6).insert b).bind
  intro _ s₇ hs₇
  apply (hs₇.startTask b task).mono
  rintro _ s₈ ⟨rfl, hs₈⟩
  exact ⟨{ Creation.inBlock s b with table := .ok t, space := .ok as.self, task := .ok task },
    .ok b, _, hon _ rfl rfl, rfl, rfl, hs₈⟩

/-- A fork that returns is one of the tree. -/
theorem createExecChildFrom_shown (h : Shows s tree) (hpid : s.pidCount + 1 < wordSize) (parent task frame : Nat) :
    Call.Ends (fun _ _ => True) (Spawning.procManagerCreateExecChildFrom parent task frame) s (fun r s' =>
      ∃ a child tree', Creation.On s a ∧ procManagerCreateExecChildFrom parent a tree = .ok (child, tree') ∧
        r = .ok child ∧ Shows s' tree') := by
  apply (createExecFrom_shown h hpid parent task frame).bind
  rintro (err | child) s₁ ⟨a, r', tree', hon, hcreate, hout, hs₁⟩
  · exact trivial
  cases r' with
  | error e => exact hout.elim
  | ok q =>
  obtain rfl : child = q := hout
  apply Call.ends_bind_ok (x := Call.update _) rfl
  apply Call.ends_bind_ok (x := Call.update _) rfl
  have hs₂ := hs₁.setProc parent (fun proc => proc.addChild child)
  have hs₃ := hs₂.setProc child (fun proc => proc.setParent parent)
  refine ⟨a, child, _, hon, ?_, rfl, hs₃⟩
  unfold procManagerCreateExecChildFrom
  rw [hcreate]
  rfl

/-- The next block of the heap is a new one for the tree. -/
def NextFresh (s : Spawning) (tree : ProcessTree) : Prop :=
  ∀ b, s.mm.heap.blocks.head? = some b → b ≠ 0 ∧ b ∉ tree.live

lemma Creation.On.fresh {a : Creation} (h : Creation.On s a) (hfresh : NextFresh s tree) : Creation.Fresh tree a :=
  fun b hb => hfresh b (h b hb).1

/-- A fork keeps the tree intact, and so does a creation in a block that holds no parent. -/
theorem creations_keep_tree (h : Shows s tree) (hpid : s.pidCount + 1 < wordSize) (htree : TreeInv tree)
    (hfresh : NextFresh s tree) :
    ((∀ b, s.mm.heap.blocks.head? = some b → (s.proc b).parent = 0) →
      Call.Ends (fun _ _ => True) Spawning.procManagerCreate s (fun _ s' => ∃ tree', Shows s' tree' ∧ TreeInv tree')) ∧
    ∀ parent task frame, parent ∈ s.processes →
      Call.Ends (fun _ _ => True) (Spawning.procManagerCreateExecChildFrom parent task frame) s
        (fun _ s' => ∃ tree', Shows s' tree' ∧ TreeInv tree') := by
  constructor
  · intro hparent
    apply (createImpl_shown h hpid).mono
    rintro r s' ⟨a, r', tree', hon, hcall, -, hs'⟩
    refine ⟨tree', hs', htree.create (hon.fresh hfresh) ?_ hcall⟩
    rintro ⟨⟨b, hb⟩, -⟩
    obtain ⟨hhead, hold⟩ := hon b hb
    rw [hold]
    exact hparent b hhead
  · intro parent task frame hp
    apply (createExecChildFrom_shown h hpid parent task frame).mono
    rintro r s' ⟨a, child, tree', hon, hcall, -, hs'⟩
    rw [← h.processes] at hp
    exact ⟨tree', hs', htree.fork hp (hon.fresh hfresh) hcall⟩

end KaworuOS.Proofs
