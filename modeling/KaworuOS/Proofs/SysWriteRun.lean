import KaworuOS.Proofs.SpaceIsolation
import KaworuOS.Proofs.SysWrite

/-!
# System calls in any order

What a call of `write` does is a function of the state before it: of the user's bytes, of the file and of what the heap
has left. In a run of such calls other processes change their memory, and the kernel uses its heap and prints. The
console is given what the calls wrote and what they printed to the log, in their order.
-/

namespace KaworuOS.Proofs
open Lib

variable {s s' : Io} {mm : Mm} {mem' : Mem} {vm : HeapVm} {table p n events messages count : Nat} {live : List Live}
  {pools : List Block} {written : List Shown} {user : Nat → Prop} {proc : Caller} {fd buf : Nat} {log : Logger}
  {callees : CalleeLines}

/-- The state in which `sys_write` calls `kalloc`. -/
def beforeKalloc (log : Logger) (callees : CalleeLines) (s : Io) (fd buf count : Nat) : Io :=
  logged log callees.kalloc (logged log [writeLine fd buf count] s)

/-- What a call of `write` does: it stops, or it returns and has given something to the console. -/
def writeSpec (log : Logger) (callees : CalleeLines) (vm : HeapVm) (s : Io) (proc : Caller) (fd buf count : Nat) :
    Except Halt (Left SyscallReturn) :=
  Except.map (Left.after (linesShown log [writeLine fd buf count]))
    (if count = 0 then .ok ⟨⟨0, false⟩, [], s.files⟩
    else Except.map (Left.after (linesShown log callees.kalloc))
      (match (beforeKalloc log callees s fd buf count).heap.kalloc vm count with
      | .error e => .error e
      | .ok (.error _, _) => .ok ⟨⟨-(Errno.code .ENOMEM : Int), false⟩, linesShown log [noMemoryLine log count],
          s.files⟩
      | .ok (.ok _, heap) => Except.map (Left.after (linesShown log callees.copyFromUser))
        (copyOutcome log callees heap.freelist s proc fd buf count)))

/-- The pools after a call of `write` that makes its `kalloc` in the state `s`. -/
def poolsAfter (vm : HeapVm) (s : Io) (pools : List Block) (count : Nat) : List Block :=
  if count = 0 then pools else if grows s.heap count then newPool vm s.heap count :: pools else pools

/-- What every call relies on: the heap has a free block, and the memory of the user, the buffers of the log, the storage of
the console and the heap lie apart. -/
structure KernelReady (events messages : Nat) (user : Nat → Prop) (log : Logger) (s : Io) (pools : List Block) :
    Prop where
  head : s.freelist.head ≠ 0
  layout : Layout events messages user log
  pools : HeapApart user log pools

/-- What a call of `write` relies on besides. The heap can be extended when it has to grow, the range of the user is one
of which `copy_from_user` may be asked, the references to files are counted, and the lines of the callees fit. -/
structure WriteReady (events messages : Nat) (user : Nat → Prop) (log : Logger) (callees : CalleeLines) (vm : HeapVm)
    (s : Io) (live : List Live) (pools : List Block) (proc : Caller) (fd buf count : Nat) : Prop where
  room : count + 4096 < 2 ^ 64
  pages : grows (beforeKalloc log callees s fd buf count).heap count = true →
    NewPages events messages user log vm (beforeKalloc log callees s fd buf count) live pools count
  side : UserSide user proc.table s.mm
  safe : UserCopySafe false true s.mm proc.table buf count
  files : FilesReady s.files proc.files
  callees : CalleesFit log callees

lemma userRangeValid_quiet (table p n : Nat) (mm : Mm) : (userRangeValid table p n false true mm).2 = mm := by
  by_cases hin : isWithinUserVmRange p n = true
  · rw [userRangeValid_eq false true hin mm]
  · rw [userRangeValid, if_neg hin]
    rfl

/-- The check of a range sees only memory of the user. -/
lemma UserSide.checked (h : UserSide user table mm) (hmem : ∀ x, user x → mem' x = mm.mem x) {r : Except Halt Bool}
    (hr : userRangeValid table p n false true mm = (r, mm)) :
    userRangeValid table p n false true { mm with mem := mem' } = (r, { mm with mem := mem' }) := by
  have hvalue := h.check mem' hmem p n
  rw [hr] at hvalue
  exact Prod.ext hvalue (userRangeValid_quiet ..)

/-- What the files and the user's bytes decide is the same after the buffer has been taken. -/
lemma copyOutcome_congr {s₁ : Io} {fl : FreeList} (hside : UserSide user proc.table s.mm)
    (hsame : SameForeign user live s.mm s₁.mm) (hfiles : s₁.files = s.files) :
    copyOutcome log callees fl s₁ proc fd buf count = copyOutcome log callees fl s proc fd buf count := by
  have hcheck := hside.check s₁.mm.mem hsame.user buf count
  have hbytes := hside.userBytes hsame.user buf count
  rw [← hsame.rest] at hcheck hbytes
  unfold copyOutcome textOf Call.valueD
  rw [hcheck, hbytes, hfiles]

/-- The part of a call after a `kalloc` that has been served. -/
lemma IoInv.served {a : Live} {s₁ : Io} (h : IoInv events messages s₁ (a :: live) pools written)
    (hlayout : Layout events messages user log) (hpools : HeapApart user log pools) (hcallees : CalleesFit log callees)
    (hreq : 1 ≤ a.req) (hside : UserSide user proc.table s.mm)
    (hsafe : UserCopySafe false true s.mm proc.table buf a.req) (hready : FilesReady s.files proc.files)
    (hsame : SameForeign user live s.mm s₁.mm) (hfiles : s₁.files = s.files) (fd : Nat) :
    CallLeaves events messages user live pools written s.mm (copyOutcome log callees s₁.freelist s proc fd buf a.req)
      (copyThenFile log callees proc fd buf a.req (a.entry + 16) s₁) := by
  obtain ⟨ok, hcheck, hrange⟩ := hsafe.checked
  have hcheck₁ := hside.checked hsame.user hcheck
  have hside₁ := hside.setMem hsame.user
  have htranslate := hside.translate s₁.mm.mem hsame.user
  rw [← hsame.rest] at hcheck₁ hside₁ htranslate
  rw [← hfiles] at hready
  rw [← copyOutcome_congr hside hsame hfiles]
  refine (h.afterAlloc hlayout hpools hcallees hreq hready hside₁ hcheck₁ ?_).trans hsame
  intro hok
  refine ⟨(hrange hok).end_lt, fun x h1 h2 => ?_⟩
  rw [htranslate]
  exact (hrange hok).translates h1 h2

/-- The part of a call from the `kalloc` on, where `s` is the state in which `sys_write` has been called. -/
lemma IoInv.allocated {s₀ : Io} (h : IoInv events messages s live pools written) (hcount : count ≠ 0)
    (hroom : count + 4096 < 2 ^ 64) (hhead : s.freelist.head ≠ 0) (hlayout : Layout events messages user log)
    (hpools : HeapApart user log pools) (hcallees : CalleesFit log callees)
    (hpages : grows s.heap count = true → NewPages events messages user log vm s live pools count)
    (hside : UserSide user proc.table s₀.mm) (hsafe : UserCopySafe false true s₀.mm proc.table buf count)
    (hfilesReady : FilesReady s₀.files proc.files) (hsame : SameForeign user live s₀.mm s.mm)
    (hfiles : s.files = s₀.files)
    (fd : Nat) :
    CallLeaves events messages user live (poolsAfter vm s pools count) written s₀.mm
      (match s.heap.kalloc vm count with
      | .error e => .error e
      | .ok (.error _, _) => .ok ⟨⟨-(Errno.code .ENOMEM : Int), false⟩, linesShown log [noMemoryLine log count],
          s₀.files⟩
      | .ok (.ok _, heap) => Except.map (Left.after (linesShown log callees.copyFromUser))
        (copyOutcome log callees heap.freelist s₀ proc fd buf count))
      (allocThenCopy log callees vm proc fd buf count s) := by
  obtain ⟨r, heap', hcall, hhead', hheap, hinv, hpools'⟩ := h.kalloc hhead (by omega) hroom hpools hpages
  have hkalloc : Io.kalloc vm count s = (.ok r, s.setHeap heap') := by
    unfold Io.kalloc
    rw [hcall]
  have hboth := hsame.trans hheap
  unfold allocThenCopy
  rw [poolsAfter, if_neg hcount, hcall, Call.bind_ok hkalloc]
  cases r with
  | error e =>
    have hlines : LinesShow events messages user log [noMemoryLine log count] live
        (if grows s.heap count then newPool vm s.heap count :: pools else pools) written (s.setHeap heap') :=
      IoInv.logs hinv hlayout hpools' (by simp [fits_noMemoryLine])
    dsimp only
    rw [Call.bind_ok hlines.run]
    refine ⟨rfl, hlines.inv, ?_, hboth.trans hlines.same, hlines.files.trans hfiles⟩
    show (logged _ _ _).freelist.head ≠ 0
    rw [hlines.freelist]
    exact hhead' e rfl
  | ok ptr =>
    have hptr : 16 ≤ ptr := by
      obtain ⟨free, hfree⟩ := h.heap
      have hvm : grows (heapState s live pools).heap count = true → Provides vm (heapState s live pools) count :=
        fun htrue => (hpages htrue).provides
      obtain ⟨_, _, -, -, -, -, hk⟩ :=
        hfree.kalloc (Nat.pos_of_ne_zero hcount) (show count + 16 < 2 ^ 64 by omega) hvm hcall
      rcases hk.result with ⟨hr, -⟩ | ⟨c, -, -, hr, -⟩
      · cases hr
      · obtain rfl := Except.ok.inj hr
        omega
    have hlines := hinv.logs hlayout hpools' hcallees.copyFromUser
    have hall := hboth.trans (hlines.same.mono (List.subset_cons_self _ live))
    have hrest := hlines.inv.served hlayout hpools' hcallees (Nat.pos_of_ne_zero hcount) hside hsafe hfilesReady hall
      (hlines.files.trans hfiles) fd
    rw [hlines.freelist] at hrest
    simp only [Nat.sub_add_cancel hptr] at hrest
    exact hlines.before hrest

/-- `sys_write` does what is specified. -/
lemma IoInv.sysWrite (h : IoInv events messages s live pools written)
    (hkernel : KernelReady events messages user log s pools)
    (hready : WriteReady events messages user log callees vm s live pools proc fd buf count) :
    CallLeaves events messages user live
      (poolsAfter vm (beforeKalloc log callees s fd buf count) pools count) written s.mm
      (writeSpec log callees vm s proc fd buf count) (sysWrite log callees vm proc fd buf count s) := by
  have hentry : LinesShow events messages user log [writeLine fd buf count] live pools written s :=
    h.logs hkernel.layout hkernel.pools (by simp [fits_writeLine])
  rw [sysWrite_eq]
  refine hentry.before ?_
  by_cases hzero : count = 0
  · rw [if_pos hzero, if_pos hzero, poolsAfter, if_pos hzero]
    refine ⟨rfl, ?_, ?_, hentry.same, hentry.files⟩
    · rw [List.append_nil]
      exact hentry.inv
    · show (logged _ _ _).freelist.head ≠ 0
      rw [hentry.freelist]
      exact hkernel.head
  · have hlines := hentry.inv.logs hkernel.layout hkernel.pools hready.callees.kalloc
    have hfree : (beforeKalloc log callees s fd buf count).freelist = s.freelist :=
      hlines.freelist.trans hentry.freelist
    have hhead : (beforeKalloc log callees s fd buf count).freelist.head ≠ 0 := by
      rw [hfree]
      exact hkernel.head
    rw [if_neg hzero, if_neg hzero]
    exact hlines.before (hlines.inv.allocated hzero hready.room hhead hkernel.layout hkernel.pools hready.callees
      hready.pages hready.side hready.safe hready.files (hentry.same.trans hlines.same)
        (hlines.files.trans hentry.files) fd)

/-- The number of the call is not that of a function that manages processes. -/
def NoProcessCall (frame : ExceptionFrame) : Prop :=
  ∀ c, syscallTableRetrieve (frame 8) = some c → c = .SYS_WRITE ∨ c = .SYS_YIELD

/-- The state in which the function of a call is entered. -/
def dispatched (log : Logger) (s : Io) (frame : ExceptionFrame) : Io := logged log [dispatchLine (frame 8)] s

/-- What a call of `write` or `yield`, or of a number that is not in the table, does to the registers, and what the console
is given by it. -/
def svcSpec (log : Logger) (callees : CalleeLines) (vm : HeapVm) (s : Io) (proc : Caller) (frame : ExceptionFrame) :
    Except Halt (Left (Bool × ExceptionFrame)) :=
  Except.map (Left.after (linesShown log [dispatchLine (frame 8)]))
    (match syscallTableRetrieve (frame 8) with
    | none =>
      .ok ⟨(false, Function.update frame 0 (toU64 (-(ENOSYS : Int)))), linesShown log [unknownLine log (frame 8)],
        s.files⟩
    | some .SYS_WRITE => do
      let left ← writeSpec log callees vm (dispatched log s frame) proc (frame 0) (frame 1) (frame 2)
      .ok ⟨(left.ret.shouldResched, Function.update frame 0 (toU64 left.ret.ret)), left.shown, left.files⟩
    | some _ => .ok ⟨(true, Function.update frame 0 0), linesShown log [yieldLine], s.files⟩)

/-- The pools after such a call. -/
def svcPools (log : Logger) (callees : CalleeLines) (vm : HeapVm) (s : Io) (pools : List Block)
    (frame : ExceptionFrame) :
    List Block :=
  if syscallTableRetrieve (frame 8) = some .SYS_WRITE then
    poolsAfter vm (beforeKalloc log callees (dispatched log s frame) (frame 0) (frame 1) (frame 2)) pools (frame 2)
  else pools

/-- What such a call relies on. -/
structure SvcReady (events messages : Nat) (user : Nat → Prop) (log : Logger) (callees : CalleeLines)
    (vm : HeapVm) (s : Io)
    (live : List Live) (pools : List Block) (proc : Caller) (frame : ExceptionFrame) : Prop where
  call : NoProcessCall frame
  kernel : KernelReady events messages user log s pools
  write : syscallTableRetrieve (frame 8) = some .SYS_WRITE →
    WriteReady events messages user log callees vm (dispatched log s frame) live pools proc (frame 0) (frame 1)
      (frame 2)

/-- `syscall_dispatch` does what is specified. -/
lemma IoInv.svc {frame : ExceptionFrame} (h : IoInv events messages s live pools written)
    (hready : SvcReady events messages user log callees vm s live pools proc frame)
    (others : Syscall → ExceptionFrame → IoCall SyscallReturn) :
    CallLeaves events messages user live (svcPools log callees vm s pools frame) written s.mm
      (svcSpec log callees vm s proc frame)
      (syscallDispatch log (ioSyscall log callees vm proc others) frame s) := by
  obtain ⟨hhead, hlayout, hpools⟩ := hready.kernel
  have hentry : LinesShow events messages user log [dispatchLine (frame 8)] live pools written s :=
    h.logs hlayout hpools (by simp [fits_dispatchLine])
  have hhead' : (dispatched log s frame).freelist.head ≠ 0 := by
    unfold dispatched
    rw [hentry.freelist]
    exact hhead
  -- a call that only prints a line
  have hline : ∀ {line : LogLine} {x : IoCall (Bool × ExceptionFrame)} {r : Bool × ExceptionFrame}, LineFits log line →
      (∀ s', Io.logs log [line] (dispatched log s frame) = (.ok (), s') → x (dispatched log s frame) = (.ok r, s')) →
      CallLeaves events messages user live pools (written ++ linesShown log [dispatchLine (frame 8)]) s.mm
        (.ok ⟨r, linesShown log [line], s.files⟩) (x (dispatched log s frame)) := by
    intro line x r hfits hx
    have hlines : LinesShow events messages user log [line] live pools
        (written ++ linesShown log [dispatchLine (frame 8)]) (dispatched log s frame) :=
      hentry.inv.logs hlayout hpools (by simpa using hfits)
    rw [hx _ hlines.run]
    refine ⟨rfl, hlines.inv, ?_, hentry.same.trans hlines.same, hlines.files.trans hentry.files⟩
    show (logged _ _ _).freelist.head ≠ 0
    rw [hlines.freelist]
    exact hhead'
  unfold svcSpec svcPools syscallDispatch
  refine hentry.before ?_
  cases hcall : syscallTableRetrieve (frame 8) with
  | none => exact hline (fits_unknownLine log (frame 8)) fun s' hrun => Call.bind_ok hrun
  | some c =>
    rcases hready.call c hcall with rfl | rfl
    · have hwrite := (hentry.inv.sysWrite ⟨hhead', hlayout, hpools⟩ (hready.write hcall)).trans hentry.same
      dsimp only
      rw [if_pos rfl]
      cases hspec : writeSpec log callees vm (dispatched log s frame) proc (frame 0) (frame 1) (frame 2) with
      | error e =>
        rw [show writeSpec log callees vm (logged _ _ _) proc (frame 0) (frame 1) (frame 2) = _ from hspec] at hwrite
        rw [Call.bind_error (x := ioSyscall log callees vm proc others .SYS_WRITE frame) (Call.eq_of_fst hwrite)]
        exact rfl
      | ok left =>
        rw [show writeSpec log callees vm (logged _ _ _) proc (frame 0) (frame 1) (frame 2) = _ from hspec] at hwrite
        obtain ⟨hret, hrest⟩ := hwrite
        rw [Call.bind_ok (x := ioSyscall log callees vm proc others .SYS_WRITE frame) (Call.eq_of_fst hret)]
        exact ⟨rfl, hrest⟩
    · have hyield : ∀ s', Io.logs log [yieldLine] (dispatched log s frame) = (.ok (), s') →
          ioSyscall log callees vm proc others .SYS_YIELD frame (dispatched log s frame) = (.ok ⟨0, true⟩, s') :=
        fun s' hrun => Call.bind_ok hrun
      exact hline (fits_yieldLine log) fun s' hrun => Call.bind_ok (hyield s' hrun)

/-- The state of a run. -/
structure IoState where
  io : Io
  live : List Live
  pools : List Block

/-- One step of a run, and what it writes to the console. The processes make calls. The kernel allocates, frees and uses
its buffers, prints, and flushes what it has printed. Everything else, such as a process that runs, a file that is opened
and the page tables, leaves the heap and the console alone. -/
inductive IoStep (events messages : Nat) : IoState → List Shown → IoState → Prop
  | svc {x : IoState} {user : Nat → Prop} {log : Logger} {callees : CalleeLines} {vm : HeapVm} {proc : Caller}
      {frame : ExceptionFrame} {io' : Io} {left : Left (Bool × ExceptionFrame)}
      (others : Syscall → ExceptionFrame → IoCall SyscallReturn)
      (hready : SvcReady events messages user log callees vm x.io x.live x.pools proc frame)
      (hspec : svcSpec log callees vm x.io proc frame = .ok left)
      (h : syscallDispatch log (ioSyscall log callees vm proc others) frame x.io = (.ok left.ret, io')) :
      IoStep events messages x left.shown ⟨io', x.live, svcPools log callees vm x.io x.pools frame⟩
  | heap {x : IoState} {st : HeapState} (h : KHeapStep RoomForHeader (heapState x.io x.live x.pools) st)
      (hmem : ∀ y, ConsoleBytes events messages y → st.mem y = x.io.mm.mem y)
      (hapart : ∀ q ∈ st.pools, ∀ y, q.Has y → ¬ConsoleBytes events messages y) :
      IoStep events messages x [] ⟨x.io.setHeap st.heap, st.live, st.pools⟩
  | print {x : IoState} {io' : Io} {err : Errno} (ev : IOEvent) (hlen : ev.len ≤ IO_EVENT_MSG_BUFFER_SIZE)
      (hev : MessageApart events messages ev) (h : Io.withConsole (consoleWrite ev) x.io = (.ok err, io')) :
      IoStep events messages x [ev.shown x.io.mm.mem] { x with io := io' }
  | flush {x : IoState} {io' : Io} {err : Errno} (h : Io.withConsole consoleFlush x.io = (.ok err, io')) :
      IoStep events messages x [] { x with io := io' }
  | other {x : IoState} (mm : Mm) (files : Files) (hheap : ∀ q ∈ x.pools, ∀ y, q.Has y → mm.mem y = x.io.mm.mem y)
      (hconsole : ∀ y, ConsoleBytes events messages y → mm.mem y = x.io.mm.mem y) :
      IoStep events messages x [] { x with io := { x.io with mm := mm, files := files } }

/-- A run, and all that it writes to the console. -/
inductive IoRun (events messages : Nat) : IoState → List Shown → IoState → Prop
  | nil (x : IoState) : IoRun events messages x [] x
  | snoc {x y z : IoState} {log shown : List Shown} (h : IoRun events messages x log y)
      (hstep : IoStep events messages y shown z) : IoRun events messages x (log ++ shown) z

/-- The invariant of a run. -/
abbrev IoState.Inv (events messages : Nat) (x : IoState) (written : List Shown) : Prop :=
  IoInv events messages x.io x.live x.pools written

/-- The invariant survives one step. -/
lemma IoStep.inv {x y : IoState} {shown : List Shown} (h : x.Inv events messages written)
    (hstep : IoStep events messages x shown y) : y.Inv events messages (written ++ shown) := by
  cases hstep with
  | svc others hready hspec hcall =>
    have hleaves := IoInv.svc h hready others
    rw [hspec, hcall] at hleaves
    exact hleaves.2.1
  | @heap st hstep hmem hapart =>
    obtain ⟨free, hheap⟩ := IoInv.heap h
    obtain ⟨free', hheap'⟩ := hheap.stepRoom hstep
    have hview := IoInv.view_setMem h hmem
    rw [List.append_nil]
    exact ⟨⟨free', hheap'⟩, hview, IoInv.shape h, hapart⟩
  | print ev hlen hev hcall =>
    obtain ⟨ev', c', hrun, hinv, hsame⟩ := (IoInv.console h).write (IoInv.shape h) hlen hev
    obtain ⟨-, rfl⟩ := Prod.mk.inj (hcall.symm.trans (io_consoleWrite hrun))
    exact IoInv.withConsole h hinv fun q hq y hy => hsame.outside y (IoInv.apart h q hq y hy)
  | flush hcall =>
    obtain ⟨c', hrun, hinv, -, -, hmem, -⟩ := (IoInv.console h).flush (IoInv.shape h)
    have hflush : consoleFlush x.io.view = (.ok .EOK, c') := by
      rw [consoleFlush, Call.bind_ok hrun]
      rfl
    obtain ⟨-, rfl⟩ := Prod.mk.inj (hcall.symm.trans (io_withConsole hflush))
    rw [List.append_nil]
    exact IoInv.withConsole h hinv fun _ _ y _ => congrFun hmem y
  | other mm files hheap hconsole =>
    obtain ⟨free, hinv⟩ := IoInv.heap h
    have hview := IoInv.view_setMem h hconsole
    rw [List.append_nil]
    exact ⟨⟨free, hinv.heap.outside fun q hq y h1 h2 => hheap q hq y ⟨h1, h2⟩, hinv.pages⟩, hview, IoInv.shape h,
      IoInv.apart h⟩

/-- The invariant holds along a run. -/
lemma IoRun.inv {x y : IoState} {log : List Shown} (h : x.Inv events messages written)
    (hrun : IoRun events messages x log y) : y.Inv events messages (written ++ log) := by
  induction hrun with
  | nil =>
    rw [List.append_nil]
    exact h
  | snoc _ hstep ih =>
    rw [← List.append_assoc]
    exact hstep.inv ih

/-- The tables and pages of a process, and the free frames. -/
def ProcessBytes (hhdm : Nat) (T : Tree) (free : List Nat) (x : Nat) : Prop :=
  ∃ f, (T.Uses f ∨ f ∈ free) ∧ InPage hhdm f x

section ProcessBytes

variable {T : Tree} {free : List Nat} {root va last : Nat} (h : TableInv mm root T free)
include h

/-- The check of a range reads one descriptor of the tree. -/
lemma TableInv.verdict_eq :
    lastPageVerdict (root + mm.hhdm) last false true mm =
      match T.node 3 (pageOf (roundDown last) / 512) with
      | none => .error .fault
      | some _ =>
        .ok (decide (PageDescriptor.outputAddress.get (leafRaw (T.leaf (pageOf (roundDown last)))) ≠ 0) &&
          permits false true (leafRaw (T.leaf (pageOf (roundDown last))))) := by
  rw [lastPageVerdict, pagingLookupDesc, walk_lookup h]
  dsimp only
  cases hf : T.node 3 (pageOf (roundDown last) / 512) with
  | none => rw [descPtr, hf, isErrValue_errToPtr, if_pos rfl]
  | some f =>
    rw [descPtr, hf]
    dsimp only
    rw [h.tree.leafEntry hf, h.entry_not_isErr hf, if_neg Bool.false_ne_true]

/-- Whoever leaves the tables and pages of a process alone leaves its side of the system calls alone. -/
lemma TableInv.userSide (hpage : ∀ {q l}, T.leaf q = some l → IsFrame mm.hhdm l.pa) :
    UserSide (ProcessBytes mm.hhdm T free) (root + mm.hhdm) mm := by
  have hagain : ∀ m : Mem, (∀ x, ProcessBytes mm.hhdm T free x → m x = mm.mem x) →
      TableInv { mm with mem := m } root T free := by
    intro m hm
    refine ⟨h.pmm.congr rfl rfl ?_, h.tree.congr ?_, h.apart⟩
    · exact fun f hf x h1 h2 => hm x ⟨f, .inr hf, h1, h2⟩
    · exact fun f hf x h1 h2 => hm x ⟨f, .inl (.inl hf), h1, h2⟩
  refine ⟨fun m hm va => ?_, fun m hm p n => ?_, fun va pa htr => ?_⟩
  · have h' := hagain m hm
    cases hl : T.leaf (pageOf va) with
    | none => rw [h.translate_none hl, ← h'.translate_none hl]
    | some l => rw [h.translate_eq hl, ← h'.translate_eq hl]
  · have h' := hagain m hm
    by_cases hin : isWithinUserVmRange p n = true
    · rw [userRangeValid_eq false true hin mm, userRangeValid_eq false true hin { mm with mem := m }]
      exact h'.verdict_eq.trans h.verdict_eq.symm
    · rw [userRangeValid, if_neg hin]
      rfl
  · cases hl : T.leaf (pageOf va) with
    | none =>
      rw [h.translate_none hl] at htr
      cases htr
    | some l =>
      rw [h.translate_eq hl] at htr
      obtain rfl := Option.some.inj htr
      have htop := (hpage hl).top
      refine ⟨l.pa, .inl (.inr ⟨_, l, hl, rfl⟩), ?_⟩
      rw [wadd_of_lt (by omega)]
      constructor <;> omega

end ProcessBytes

/-- The state after `kheap_init` and `console_init`. -/
structure BootIo (events messages pool : Nat) (s : Io) : Prop where
  heap : ∃ mem, BootPool mem pool ∧ s.heap = KHeap.kheapInit mem pool
  console : ∃ c buffering, Fresh c ∧ consoleInit events messages buffering c = (.ok .EOK, s.view)
  shape : ConsoleShape events messages
  apart : ∀ x, (⟨pool, INITIAL_HEAP_SIZE⟩ : Block).Has x → ¬ConsoleBytes events messages x

lemma BootIo.inv {pool : Nat} (h : BootIo events messages pool s) :
    IoInv events messages s [] [⟨pool, INITIAL_HEAP_SIZE⟩] [] := by
  obtain ⟨mem, hpool, hheap⟩ := h.heap
  obtain ⟨c, buffering, hfresh, hinit⟩ := h.console
  refine ⟨⟨[⟨pool, INITIAL_HEAP_SIZE⟩], ?_⟩, init_inv hfresh buffering hinit, h.shape, ?_⟩
  · have hstate : heapState s [] [⟨pool, INITIAL_HEAP_SIZE⟩] = bootState mem pool := by
      unfold heapState bootState
      rw [← hheap]
      rfl
    rw [hstate]
    exact hpool.inv
  · intro q hq x hx
    obtain rfl := List.mem_singleton.mp hq
    exact h.apart x hx

/-- **The system calls that write**, among everything else that goes on. In every run from `kheap_init` and `console_init`
on, each backend of the console has been given what was written before the last flush, in order and nothing else, and the
next flush hands over the rest. The next call does what is specified, leaves the buffers of the heap and the memory of
the user alone, and keeps the heap and the console in order. -/
theorem writes_are_shown_in_order {pool : Nat} {y : IoState} (hboot : BootIo events messages pool s)
    (hrun : IoRun events messages ⟨s, [], [⟨pool, INITIAL_HEAP_SIZE⟩]⟩ written y) :
    ConsoleRun.Faithful events messages ⟨y.io.view, written⟩ ∧
      ∀ {user : Nat → Prop} {log : Logger} {callees : CalleeLines} {vm : HeapVm} {proc : Caller} {frame : ExceptionFrame}
        (others : Syscall → ExceptionFrame → IoCall SyscallReturn),
        SvcReady events messages user log callees vm y.io y.live y.pools proc frame →
        CallLeaves events messages user y.live (svcPools log callees vm y.io y.pools frame) written y.io.mm
          (svcSpec log callees vm y.io proc frame)
          (syscallDispatch log (ioSyscall log callees vm proc others) frame y.io) := by
  have hinv := IoRun.inv (x := ⟨s, [], [⟨pool, INITIAL_HEAP_SIZE⟩]⟩) hboot.inv hrun
  rw [List.nil_append] at hinv
  exact ⟨(IoInv.console hinv).faithful hboot.shape, fun others hready => IoInv.svc hinv hready others⟩

/-- Four frames, and `hi` in the frame `0x80000`. -/
def writerFrames : Mm :=
  { bootMm 0x100000 [0x1000, 0x2000, 0x3000, 0x4000] with
    mem := ((bootMm 0x100000 [0x1000, 0x2000, 0x3000, 0x4000]).mem.set 0x180000 0x68).set 0x180001 0x69 }

/-- The frame is mapped at `0x10000`. -/
def writerMm : Mm :=
  (PagingOp.runAll 0x101000 [.map 0x10000 0x80000 0x1000 userAttrs] (createTable writerFrames 0x1000)).2

/-- The memory with zeroes in the range of the kernel. -/
def writerMem : Mem := fun x => if KERNEL_VM_RANGE_BASE ≤ x then 0 else writerMm.mem x

/-- The kernel after its start, with a process whose descriptor 1 is the console. -/
def writerIo : Io :=
  let heap := KHeap.kheapInit writerMem KERNEL_VM_RANGE_BASE
  { mm := { writerMm with mem := heap.mem }
    freelist := heap.freelist
    files := ⟨⟨[], [1, 2]⟩, fun _ => ⟨STDWRITE_OPS, FILE_MODE_WRITE, 0, 1, 0⟩,
      fun _ => ⟨fun _ => 1, fun fd => if fd = 1 then .INSTALLED else .FREE, fun _ => false⟩, []⟩
    console := { consoleReady.console with mem := heap.mem } }

/-- The log of the default configuration, which prints no `DEBUG`. -/
def writerLog : Logger := ⟨4, 4, 0x3000, 0x4000, fun _ b => .ok b⟩

/-- `write(1, 0x10000, 2)`. -/
def writerFrame : ExceptionFrame := fun n => [1, 0x10000, 2, 0, 0, 0, 0, 0, 1].getD n 0

lemma bootIo_writerIo : BootIo 0x1000 0x2000 KERNEL_VM_RANGE_BASE writerIo := by
  refine ⟨⟨_, ⟨⟨by decide, by decide, by decide, by decide⟩, fun x h1 _ => if_pos h1⟩, rfl⟩,
    ⟨{ consoleBoot with mem := writerIo.mm.mem }, true, ⟨rfl, rfl, rfl, rfl, fresh_consoleBoot.received⟩, rfl⟩,
    ⟨by decide, by decide⟩, ?_⟩
  intro x hx hc
  simp only [Block.Has, KERNEL_VM_RANGE_BASE] at hx
  simp only [ConsoleBytes, IO_EVENT_BUFFER_SIZE, IO_EVENT_SIZE, IO_EVENT_MSG_BUFFER_SIZE] at hc
  omega

lemma writerMm_table : ∃ T free, TableInv writerMm 0x1000 T free ∧ writerMm.hhdm = 0x100000 ∧
    ∀ {q l}, T.leaf q = some l → IsFrame writerMm.hhdm l.pa := by
  have hboot : PmmInv (bootMm 0x100000 [0x1000, 0x2000, 0x3000, 0x4000]) [0x1000, 0x2000, 0x3000, 0x4000] :=
    bootMm_inv ⟨by decide, by decide⟩ (by decide) (by decide)
  have hpmm : PmmInv writerFrames [0x1000, 0x2000, 0x3000, 0x4000] := by
    refine hboot.congr rfl rfl fun f hf x h1 h2 => ?_
    have hbound : ∀ g ∈ [0x1000, 0x2000, 0x3000, 0x4000], g ≤ 0x4000 := by decide
    have hle := hbound f hf
    have h2' : x < f + 0x100000 + 4096 := h2
    show (Mem.set _ 0x180001 0x69) x = _
    rw [Mem.set_other _ _ (by omega), Mem.set_other _ _ (by omega)]
  have hops : ∀ op ∈ [PagingOp.map 0x10000 0x80000 0x1000 userAttrs], op.InHalf 0 := by
    intro op hop
    obtain rfl := List.mem_singleton.mp hop
    exact ⟨⟨by decide, by decide, by decide⟩, by decide, by decide, by decide, by decide⟩
  have hrun : PagingOp.runAll (0x1000 + (createTable writerFrames 0x1000).hhdm)
      [.map 0x10000 0x80000 0x1000 userAttrs] (createTable writerFrames 0x1000) = (.ok (), writerMm) :=
    Call.eq_of_fst (by decide +kernel)
  obtain ⟨T, free, hT, hhdm, hleaf⟩ := runAll_inv (.inl rfl) hpmm.createTable hops hrun (by decide +kernel)
  refine ⟨T, free, hT, hhdm, ?_⟩
  intro q l hl
  have hone : mapRange (fun _ => none) 0x10 1 0x80000 userAttrs q = some l := by
    rw [← hl, hleaf]
    rfl
  unfold mapRange at hone
  split at hone
  · rename_i hq
    obtain rfl := Option.some.inj hone
    have hq : q = 0x10 := by omega
    subst hq
    exact ⟨by decide, by decide, by rw [hhdm]; decide⟩
  · cases hone

/-- A call whose number is not in the table. -/
def unknownFrame : ExceptionFrame := fun n => if n = 8 then 500 else 0

lemma logReady_writerLog : LogReady 0x1000 0x2000 writerLog := by
  refine ⟨by decide, by decide, fun x h1 h2 => ?_, fun x hx hc => ?_⟩
  · simp only [writerLog, LEVEL_BUFFER_SIZE, INDIVIDUAL_BUFFER_SIZES] at *
    omega
  · simp only [LogBytes, writerLog, LEVEL_BUFFER_SIZE, INDIVIDUAL_BUFFER_SIZES] at hx
    simp only [ConsoleBytes, IO_EVENT_BUFFER_SIZE, IO_EVENT_SIZE, IO_EVENT_MSG_BUFFER_SIZE] at hc
    omega

lemma dispatched_writerIo : dispatched writerLog writerIo writerFrame = writerIo := rfl

lemma beforeKalloc_writerIo : beforeKalloc writerLog ⟨[], [], []⟩ writerIo 1 0x10000 2 = writerIo := rfl

lemma svcReady_writerIo : ∃ user, SvcReady 0x1000 0x2000 user writerLog ⟨[], [], []⟩ nextPages writerIo []
    [⟨KERNEL_VM_RANGE_BASE, INITIAL_HEAP_SIZE⟩] ⟨0x101000, 2⟩ writerFrame := by
  obtain ⟨T, free, hT, hhdm, hpage⟩ := writerMm_table
  have hside := hT.userSide hpage
  have hbytes : ∀ x, ProcessBytes writerMm.hhdm T free x → 0x100000 ≤ x ∧ x < 2 ^ 63 := by
    rintro x ⟨f, hf, h1, h2⟩
    rw [hhdm] at h1 h2
    have hframe : IsFrame writerMm.hhdm f := by
      rcases hf with (⟨l, k, hnode⟩ | ⟨q, l, hl, rfl⟩) | hf
      · exact hT.tree.frame hnode
      · exact hpage hl
      · exact hT.pmm.frames f hf
    have hbound := hframe.bound
    omega
  have hmem : ∀ x, ProcessBytes writerMm.hhdm T free x → writerIo.mm.mem x = writerMm.mem x := by
    intro x hx
    obtain ⟨-, hlt⟩ := hbytes x hx
    have hlt : x < KERNEL_VM_RANGE_BASE := Nat.lt_trans hlt (by decide)
    have hstore : writerMem.EqOn (writerMem.store64 KERNEL_VM_RANGE_BASE INITIAL_HEAP_SIZE) x 1 :=
      Mem.store64_eqOn writerMem (.inl hlt)
    exact (hstore x (Nat.le_refl x) (Nat.lt_succ_self x)).trans (if_neg (Nat.not_le_of_lt hlt))
  have hside' := hside.setMem hmem
  rw [hhdm] at hside'
  have hgrows : grows writerIo.heap 2 = false := by decide +kernel
  have hkernel : KernelReady 0x1000 0x2000 (ProcessBytes 0x100000 T free) writerLog writerIo
      [⟨KERNEL_VM_RANGE_BASE, INITIAL_HEAP_SIZE⟩] := by
    rw [hhdm] at hbytes
    refine ⟨by decide, ⟨logReady_writerLog, fun x hu hc => ?_, fun x hu hl => ?_⟩,
      fun q hq x hx => ⟨fun hu => ?_, fun hl => ?_⟩⟩
    · obtain ⟨hle, -⟩ := hbytes x hu
      simp only [ConsoleBytes, IO_EVENT_BUFFER_SIZE, IO_EVENT_SIZE, IO_EVENT_MSG_BUFFER_SIZE] at hc
      omega
    · obtain ⟨hle, -⟩ := hbytes x hu
      simp only [LogBytes, writerLog, LEVEL_BUFFER_SIZE, INDIVIDUAL_BUFFER_SIZES] at hl
      omega
    · obtain rfl := List.mem_singleton.mp hq
      obtain ⟨-, hlt⟩ := hbytes x hu
      simp only [Block.Has, KERNEL_VM_RANGE_BASE] at hx
      omega
    · obtain rfl := List.mem_singleton.mp hq
      simp only [Block.Has, KERNEL_VM_RANGE_BASE] at hx
      simp only [LogBytes, writerLog, LEVEL_BUFFER_SIZE, INDIVIDUAL_BUFFER_SIZES] at hl
      omega
  refine ⟨_, ?_, hkernel, fun _ => ?_⟩
  · intro c hc
    left
    exact (Option.some.inj hc).symm
  · rw [dispatched_writerIo]
    refine ⟨by decide, ?_, hside', ?_, ?_, ⟨by simp, by simp, by simp⟩⟩
    · intro hgrow
      rw [show grows (beforeKalloc writerLog ⟨[], [], []⟩ writerIo (writerFrame 0) (writerFrame 1) (writerFrame 2)).heap
        (writerFrame 2) = false from hgrows] at hgrow
      cases hgrow
    · refine .inr ⟨0x104080, Prod.ext (by decide +kernel) (quiet_pagingLookupDesc _ _ _), by decide, .inr (.inr ?_)⟩
      refine ⟨by decide, by decide, fun q h1 h2 => ?_⟩
      have hpage : 0x10 ≤ q := h1
      have hlast : q * 4096 < 0x10002 := h2
      obtain rfl : q = 0x10 := by omega
      have hdesc : (validDesc 0x101000 0x10000 writerIo.mm).any (permits false true) = true := by decide +kernel
      exact (Option.any_eq_true _ _).mp hdesc
    · exact ⟨List.mem_cons_of_mem _ List.mem_cons_self,
        fun fd _ => ⟨List.mem_cons_self, Nat.one_pos, show 1 ≠ UINT_MAX by decide⟩⟩

/-- What the console is given by a call of `write`. -/
def hiShown : List Shown := [⟨IO_DEFAULT_COLOR_FG, IO_DEFAULT_COLOR_BG, 2, [0x68, 0x69]⟩]

/-- What it is given by the call with the number 500. -/
def unknownShown : List Shown :=
  [⟨IO_DEFAULT_COLOR_BG, IO_COLOR_YELLOW_BRIGHT, 8, (CString.ofString "[ WARN ]").bytes⟩,
    ⟨IO_DEFAULT_COLOR_FG, IO_DEFAULT_COLOR_BG, 23, (CString.ofString " unknown syscall: 500\n\r").bytes⟩]

lemma dispatchLine_hidden (x8 : Nat) : linesShown writerLog [dispatchLine x8] = [] := by
  rw [linesShown, List.flatMap_singleton, dispatchLine, DEBUG, lineShown, if_pos (by decide)]

lemma hi_step : ∃ user io', IoStep 0x1000 0x2000 ⟨writerIo, [], [⟨KERNEL_VM_RANGE_BASE, INITIAL_HEAP_SIZE⟩]⟩ hiShown
    ⟨io', [], [⟨KERNEL_VM_RANGE_BASE, INITIAL_HEAP_SIZE⟩]⟩ ∧
      KernelReady 0x1000 0x2000 user writerLog io' [⟨KERNEL_VM_RANGE_BASE, INITIAL_HEAP_SIZE⟩] := by
  obtain ⟨user, hready⟩ := svcReady_writerIo
  have hwrite : Except.map Left.shown (writeSpec writerLog ⟨[], [], []⟩ nextPages writerIo ⟨0x101000, 2⟩ 1 0x10000 2) =
      .ok hiShown := by decide +kernel
  have hspec : ∃ left, svcSpec writerLog ⟨[], [], []⟩ nextPages writerIo ⟨0x101000, 2⟩ writerFrame = .ok left ∧
      left.shown = hiShown := by
    unfold svcSpec
    rw [show syscallTableRetrieve (writerFrame 8) = some .SYS_WRITE from rfl, dispatched_writerIo]
    dsimp only
    rw [show writerFrame 0 = 1 from rfl, show writerFrame 1 = 0x10000 from rfl, show writerFrame 2 = 2 from rfl]
    cases hleft : writeSpec writerLog ⟨[], [], []⟩ nextPages writerIo ⟨0x101000, 2⟩ 1 0x10000 2 with
    | error e =>
      rw [hleft] at hwrite
      cases hwrite
    | ok left =>
      rw [hleft] at hwrite
      refine ⟨_, rfl, ?_⟩
      show linesShown writerLog [dispatchLine (writerFrame 8)] ++ left.shown = hiShown
      rw [dispatchLine_hidden, List.nil_append]
      exact Except.ok.inj hwrite
  obtain ⟨left, hspec, hshown⟩ := hspec
  let others : Syscall → ExceptionFrame → IoCall SyscallReturn := fun _ _ => sysYield writerLog
  have hleaves := bootIo_writerIo.inv.svc hready others
  rcases hrun : syscallDispatch writerLog (ioSyscall writerLog ⟨[], [], []⟩ nextPages ⟨0x101000, 2⟩ others) writerFrame
    writerIo with ⟨r, io'⟩
  rw [hspec, hrun] at hleaves
  obtain ⟨hret, -, hhead, -⟩ := hleaves
  obtain rfl : r = .ok left.ret := hret
  have hpools : svcPools writerLog ⟨[], [], []⟩ nextPages writerIo
    [⟨KERNEL_VM_RANGE_BASE, INITIAL_HEAP_SIZE⟩] writerFrame =
      [⟨KERNEL_VM_RANGE_BASE, INITIAL_HEAP_SIZE⟩] := by decide +kernel
  have hstep : IoStep 0x1000 0x2000 ⟨writerIo, [], [⟨KERNEL_VM_RANGE_BASE, INITIAL_HEAP_SIZE⟩]⟩ left.shown
      ⟨io', [], svcPools writerLog ⟨[], [], []⟩ nextPages writerIo
        [⟨KERNEL_VM_RANGE_BASE, INITIAL_HEAP_SIZE⟩] writerFrame⟩ :=
    .svc others hready hspec hrun
  rw [hshown, hpools] at hstep
  exact ⟨user, io', hstep, hhead, hready.kernel.layout, hready.kernel.pools⟩

/-- A process writes `hi` and makes a call that does not exist, whose line in the log flushes the console. -/
theorem writes_are_shown_in_order_hi : ∃ y,
    IoRun 0x1000 0x2000 ⟨writerIo, [], [⟨KERNEL_VM_RANGE_BASE, INITIAL_HEAP_SIZE⟩]⟩ (hiShown ++ unknownShown) y ∧
    ConsoleRun.Faithful 0x1000 0x2000 ⟨y.io.view, hiShown ++ unknownShown⟩ := by
  obtain ⟨user, io', hstep, hkernel⟩ := hi_step
  have hrun := IoRun.snoc (.nil _) hstep
  obtain ⟨-, hnext⟩ := writes_are_shown_in_order bootIo_writerIo hrun
  have hready : SvcReady 0x1000 0x2000 user writerLog ⟨[], [], []⟩ nextPages io' []
      [⟨KERNEL_VM_RANGE_BASE, INITIAL_HEAP_SIZE⟩] ⟨0x101000, 2⟩ unknownFrame := by
    refine ⟨fun c hc => ?_, hkernel, fun hc => ?_⟩
    · cases hc
    · cases hc
  have hleaves := hnext (fun _ _ => sysYield writerLog) hready
  have hshown : linesShown writerLog [unknownLine writerLog 500] = unknownShown := by decide +kernel
  have hspec : svcSpec writerLog ⟨[], [], []⟩ nextPages io' ⟨0x101000, 2⟩ unknownFrame =
      .ok ⟨(false, Function.update unknownFrame 0 (toU64 (-(ENOSYS : Int)))), unknownShown, io'.files⟩ := by
    rw [← hshown, svcSpec, dispatchLine_hidden]
    rfl
  rw [hspec] at hleaves
  obtain ⟨hret, -⟩ := hleaves
  have hrun₂ := hrun.snoc (.svc _ hready hspec (Call.eq_of_fst hret))
  exact ⟨_, hrun₂, (writes_are_shown_in_order bootIo_writerIo hrun₂).1⟩

end KaworuOS.Proofs
