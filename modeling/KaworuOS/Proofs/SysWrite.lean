import KaworuOS.Proofs.SysIo

/-!
# What `write` does

A call of `write` gives back what it takes on every path. What is left of it is its result, the offset of the file and
what the console has been given: the bytes of the user among the lines of the log.
-/

namespace KaworuOS.Proofs
open Lib

variable {s s' : Io} {mm : Mm} {mem' : Mem} {vm : HeapVm} {a : Live} {table count events messages : Nat}
  {live : List Live}
  {pools : List Block} {written : List Shown} {user : Nat → Prop} {log : Logger} {callees : CalleeLines}

/-- What is left of a call: its result, what the console has been given and the files. -/
structure Left (α : Type) where
  ret : α
  shown : List Shown
  files : Files

/-- The same after `shown` has been given to the console. -/
def Left.after {α : Type} (shown : List Shown) (left : Left α) : Left α := { left with shown := shown ++ left.shown }

/-- The call stops or leaves what is given, the heap and the console in order, and foreign memory as it was. -/
def CallLeaves {α : Type} (events messages : Nat) (user : Nat → Prop) (live : List Live) (pools : List Block)
    (written : List Shown) (mm : Mm) : Except Halt (Left α) → Except Halt α × Io → Prop
  | .error e, r => r.1 = .error e
  | .ok left, r => r.1 = .ok left.ret ∧ IoInv events messages r.2 live pools (written ++ left.shown) ∧
      r.2.freelist.head ≠ 0 ∧ SameForeign user live mm r.2.mm ∧ r.2.files = left.files

lemma CallLeaves.trans {α : Type} {outcome : Except Halt (Left α)} {m : Mm} {r : Except Halt α × Io}
    (hsame : SameForeign user live m mm) (h : CallLeaves events messages user live pools written mm outcome r) :
    CallLeaves events messages user live pools written m outcome r := by
  cases outcome with
  | error e => exact h
  | ok left =>
    obtain ⟨hret, hinv, hhead, hrest, hfiles⟩ := h
    exact ⟨hret, hinv, hhead, hsame.trans hrest, hfiles⟩

/-- Lines of the log in front of a call. -/
lemma LinesShow.before {α : Type} {live₀ : List Live} {pools' : List Block} {lines : List LogLine} {rest : IoCall α}
    {outcome : Except Halt (Left α)} (h : LinesShow events messages user log lines live₀ pools' written s)
    (hrest : CallLeaves events messages user live pools (written ++ linesShown log lines) mm outcome
      (rest (logged log lines s))) :
    CallLeaves events messages user live pools written mm (outcome.map (Left.after (linesShown log lines)))
      ((Io.logs log lines >>= fun _ => rest) s) := by
  rw [Call.bind_ok h.run]
  cases outcome with
  | error e => exact hrest
  | ok left =>
    obtain ⟨hret, hinv, hhead, hsame, hfiles⟩ := hrest
    rw [List.append_assoc] at hinv
    exact ⟨hret, hinv, hhead, hsame, hfiles⟩

section Lines

variable (log : Logger)

lemma fits_DEBUG {file func fmt : String} {line : Nat} {args : List VaArg} (blanks : List VaArg)
    (hplace : (pieces (CString.ofString " %s:%s:%d: ").bytes
      [.str (some (.ofString file)), .str (some (.ofString func)), .i32 0]).any (fitsIn INDIVIDUAL_BUFFER_SIZES) = true)
    (hblanks : args.map blankArg = blanks)
    (htext : (pieces (CString.ofString (fmt ++ "\n")).bytes blanks).any (fitsIn INDIVIDUAL_BUFFER_SIZES) = true) :
    LineFits log (DEBUG file func line fmt args) := by
  refine fun _ => ⟨?_, ?_, ?_⟩
  · exact formatFits_of_blank _ rfl (by decide +kernel)
  · exact formatFits_of_blank _ rfl hplace
  · exact formatFits_of_blank blanks hblanks htext

lemma fits_WARN {file func fmt : String} {line : Nat} {args : List VaArg} (blanks : List VaArg)
    (hplace : (pieces (CString.ofString " %s:%s:%d: ").bytes
      [.str (some (.ofString file)), .str (some (.ofString func)), .i32 0]).any (fitsIn INDIVIDUAL_BUFFER_SIZES) = true)
    (hblanks : args.map blankArg = blanks)
    (htext : (pieces (CString.ofString (fmt ++ "\n")).bytes blanks).any (fitsIn INDIVIDUAL_BUFFER_SIZES) = true)
    (huser : (pieces (CString.ofString (" " ++ fmt ++ "\n")).bytes blanks).any (fitsIn INDIVIDUAL_BUFFER_SIZES) = true) :
    LineFits log (WARN log file func line fmt args) := by
  unfold WARN
  split
  · refine ⟨?_, formatFits_of_blank blanks hblanks huser⟩
    exact formatFits_of_blank _ rfl (by decide +kernel)
  · refine fun _ => ⟨?_, ?_, ?_⟩
    · exact formatFits_of_blank _ rfl (by decide +kernel)
    · exact formatFits_of_blank _ rfl hplace
    · exact formatFits_of_blank blanks hblanks htext

lemma fits_writeLine (fd buf count : Nat) : LineFits log (writeLine fd buf count) :=
  fits_DEBUG log [.i32 0, .i64 0, .i32 0] (by decide +kernel) rfl (by decide +kernel)

lemma fits_noMemoryLine (count : Nat) : LineFits log (noMemoryLine log count) :=
  fits_WARN log [.i32 0] (by decide +kernel) rfl (by decide +kernel) (by decide +kernel)

lemma fits_noCopyLine (buf : Nat) : LineFits log (noCopyLine log buf) :=
  fits_WARN log [.i64 0] (by decide +kernel) rfl (by decide +kernel) (by decide +kernel)

lemma fits_noFileLine (fd : Nat) : LineFits log (noFileLine log fd) :=
  fits_WARN log [.i32 0] (by decide +kernel) rfl (by decide +kernel) (by decide +kernel)

lemma fits_yieldLine : LineFits log yieldLine := fits_DEBUG log [] (by decide +kernel) rfl (by decide +kernel)

lemma fits_unknownLine (x8 : Nat) : LineFits log (unknownLine log x8) :=
  fits_WARN log [.i32 0] (by decide +kernel) rfl (by decide +kernel) (by decide +kernel)

/-- The names of the calls are short. -/
lemma fits_dispatchLine (x8 : Nat) : LineFits log (dispatchLine x8) := by
  have hnames : ∀ name ∈ (none :: some (.ofString "nil") :: SYSCALL_LIST.map fun x => some (CString.ofString x.1)),
      (pieces (CString.ofString ("dispatching: %s (%d)" ++ "\n")).bytes [.str name, .i32 0]).any
        (fitsIn INDIVIDUAL_BUFFER_SIZES) = true := by
    decide +kernel
  refine fits_DEBUG log [.str (syscallToStr x8), .i32 0] (by decide +kernel) rfl (hnames _ ?_)
  unfold syscallToStr
  split
  · exact List.mem_cons_of_mem _ List.mem_cons_self
  · cases hfind : SYSCALL_LIST.find? fun x => x.2 = x8 with
    | none => exact List.mem_cons_self
    | some x =>
      have hmem := List.mem_of_find?_eq_some hfind
      exact List.mem_cons_of_mem _ (List.mem_cons_of_mem _ (List.mem_map_of_mem hmem))

end Lines

/-- The lines that the callees of `sys_write` print fit in the buffers. -/
structure CalleesFit (log : Logger) (callees : CalleeLines) : Prop where
  kalloc : ∀ line ∈ callees.kalloc, LineFits log line
  copyFromUser : ∀ line ∈ callees.copyFromUser, LineFits log line
  kfree : ∀ line ∈ callees.kfree, LineFits log line

/-- What comes of the end of a call, with lines in front of the `kfree` and behind it. An empty free list is not
survived. -/
def endOutcome (log : Logger) (before after : List LogLine) (fl : FreeList) (ret : Int) (shown : List Shown)
    (f : Files) :
    Except Halt (Left SyscallReturn) :=
  if fl.head = 0 then .error .panic
  else .ok ⟨⟨ret, false⟩, shown ++ linesShown log before ++ linesShown log after, f⟩

/-- The files after `n` bytes have been written to `x`. -/
def advance (f : Files) (x n : Nat) : Files := f.setFile x { f.file x with offset := (f.file x).offset + n }

/-- What comes of a buffer that would be shown as `ev` and is written to the file `x`. -/
def writeOutcome (log : Logger) (callees : CalleeLines) (fl : FreeList) (f : Files) (x : Nat) (ev : Shown) :
    Except Halt (Left SyscallReturn) :=
  if fileModeIsWritable (f.file x) = false then endOutcome log callees.kfree [] fl (-(Errno.code .EBADF : Int)) [] f
  else if (f.file x).ops ≠ STDWRITE_OPS then endOutcome log callees.kfree [] fl (-(ENOSYS : Int)) [] f
  else if IO_EVENT_MSG_BUFFER_SIZE < ev.len then .error .panic
  else endOutcome log callees.kfree [] fl ev.len [ev] (advance f x ev.len)

/-- The file that the process has open at the descriptor. -/
def openFile (f : Files) (proc : Caller) (fd : Nat) : Option Nat :=
  if notOpen (f.table proc.files) fd then none else some ((f.table proc.files).files fd)

/-- The same for a descriptor of the process. -/
def fileOutcome (log : Logger) (callees : CalleeLines) (fl : FreeList) (f : Files) (proc : Caller) (fd : Nat)
    (ev : Shown) :
    Except Halt (Left SyscallReturn) :=
  match openFile f proc fd with
  | none => endOutcome log callees.kfree [noFileLine log fd] fl (-(Errno.code .EBADF : Int)) [] f
  | some x => writeOutcome log callees fl f x ev

/-- The end of `sys_write`. -/
def endWrite (log : Logger) (before after : List LogLine) (kernelBuf : Nat) (ret : Int) : IoCall SyscallReturn := do
  Io.logs log before
  Io.kfree kernelBuf
  Io.logs log after
  return ⟨ret, false⟩

/-- `sys_write` with the file. -/
def fileThenEnd (log : Logger) (callees : CalleeLines) (file kernelBuf count : Nat) : IoCall SyscallReturn := do
  let written ← fileWrite file kernelBuf count
  let _ ← Io.withFiles (filePut file)
  endWrite log callees.kfree [] kernelBuf written

/-- `sys_write` after the copy. -/
def copiedThenFile (log : Logger) (callees : CalleeLines) (proc : Caller) (fd kernelBuf count : Nat) :
    IoCall SyscallReturn := do
  match ← Io.withFiles (fdtableGetFile proc.files fd) with
  | .error err => endWrite log callees.kfree [noFileLine log fd] kernelBuf (-(err.code : Int))
  | .ok file => fileThenEnd log callees file kernelBuf count

/-- `sys_write` from the copy on. -/
def copyThenFile (log : Logger) (callees : CalleeLines) (proc : Caller) (fd buf count kernelBuf : Nat) :
    IoCall SyscallReturn := do
  let ret ← Io.withMm (copyFromUser proc.table kernelBuf buf count)
  if ret ≠ Errno.code .EOK then do
    Io.logs log [noCopyLine log buf]
    endWrite log callees.kfree [] kernelBuf (-(ret : Int))
  else copiedThenFile log callees proc fd kernelBuf count

/-- `sys_write` from the allocation on. -/
def allocThenCopy (log : Logger) (callees : CalleeLines) (vm : HeapVm) (proc : Caller) (fd buf count : Nat) :
    IoCall SyscallReturn := do
  match ← Io.kalloc vm count with
  | .error _ => do
    Io.logs log [noMemoryLine log count]
    return ⟨-(Errno.code .ENOMEM : Int), false⟩
  | .ok kernelBuf => do
    Io.logs log callees.copyFromUser
    copyThenFile log callees proc fd buf count kernelBuf

lemma sysWrite_eq (log : Logger) (callees : CalleeLines) (vm : HeapVm) (proc : Caller) (fd buf count : Nat) :
    sysWrite log callees vm proc fd buf count = (do
      Io.logs log [writeLine fd buf count]
      if count = 0 then return ⟨0, false⟩
      else do
        Io.logs log callees.kalloc
        allocThenCopy log callees vm proc fd buf count) := by
  rfl

lemma io_withFiles {α : Type} {x : FileCall α} {r : α} {f : Files} (h : x s.files = (.ok r, f)) :
    Io.withFiles x s = (.ok r, { s with files := f }) := by
  unfold Io.withFiles
  rw [h]

lemma io_withMm {α : Type} {x : Kernel α} {r : α} {mm' : Mm} (h : x s.mm = (.ok r, mm')) :
    Io.withMm x s = (.ok r, { s with mm := mm' }) := by
  unfold Io.withMm
  rw [h]

lemma IoInv.setFiles (h : IoInv events messages s live pools written) (f : Files) :
    IoInv events messages { s with files := f } live pools written :=
  ⟨h.heap, h.console, h.shape, h.apart⟩

section FileWrite

variable {x buf : Nat} (hlive : x ∈ s.files.heap.live)
include hlive

lemma fileWrite_refused (hmode : fileModeIsWritable (s.files.file x) = false) :
    fileWrite x buf count s = (.ok (-(Errno.code .EBADF : Int)), s) := by
  rw [fileWrite, Call.bind_ok (io_withFiles (deref_of_live Files.file hlive)), if_pos hmode]
  rfl

lemma fileWrite_nosys (hmode : fileModeIsWritable (s.files.file x) = true)
    (hops : (s.files.file x).ops ≠ STDWRITE_OPS) :
    fileWrite x buf count s = (.ok (-(ENOSYS : Int)), s) := by
  rw [fileWrite, Call.bind_ok (io_withFiles (deref_of_live Files.file hlive)), hmode,
    if_neg (show ¬(true = false) by decide), KaworuOS.writeOp, if_neg hops]
  rfl

variable (hmode : fileModeIsWritable (s.files.file x) = true) (hops : (s.files.file x).ops = STDWRITE_OPS)
include hmode hops

lemma fileWrite_std (hcount : 1 ≤ count)
    (hprint : Io.withConsole (consoleWrite (ioEventDefault buf count)) s = (.ok .EOK, s')) :
    fileWrite x buf count s = (.ok (count : Int), { s' with
      files := s'.files.setFile x { s'.files.file x with offset := (s'.files.file x).offset + count } }) := by
  have hop : stdWriteOp buf count s = (.ok (count : Int), s') := by
    rw [stdWriteOp, Call.bind_ok hprint]
    rfl
  rw [fileWrite, Call.bind_ok (io_withFiles (deref_of_live Files.file hlive)), hmode,
    if_neg (show ¬(true = false) by decide), KaworuOS.writeOp, if_pos hops]
  dsimp only
  rw [Call.bind_ok hop, if_pos (by omega)]
  rfl

lemma fileWrite_stops {e : Halt} (hprint : (Io.withConsole (consoleWrite (ioEventDefault buf count)) s).1 = .error e) :
    (fileWrite x buf count s).1 = .error e := by
  have hop : stdWriteOp buf count s = _ := Call.bind_error (Call.eq_of_fst hprint)
  rw [fileWrite, Call.bind_ok (io_withFiles (deref_of_live Files.file hlive)), hmode,
    if_neg (show ¬(true = false) by decide), KaworuOS.writeOp, if_pos hops]
  dsimp only
  rw [Call.bind_error hop]

end FileWrite

/-- The files after `file_get`. -/
def fileTaken (f : Files) (x : Nat) : Files := f.setFile x { f.file x with count := (f.file x).count + 1 }

lemma filePut_fileTaken {f f' : Files} {x : Nat} (hlive : x ∈ f.heap.live) (hpos : 0 < (f.file x).count) {offset : Int}
    (hf : f' = f.setFile x { f.file x with count := (f.file x).count + 1, offset := offset }) :
    filePut x f' = (.ok (.ok (f.file x).count), f.setFile x { f.file x with offset := offset }) := by
  have hfile : f'.file x = { f.file x with count := (f.file x).count + 1, offset := offset } := by
    rw [hf]
    exact setFile_file
  have hput := filePut_shared (f := f') (x := x) (by rw [hf]; exact hlive) (by
    rw [hfile]
    show 2 ≤ (f.file x).count + 1
    omega)
  rw [hput, hfile, hf, setFile_setFile]
  rfl

/-- The end of a call gives the buffer back. -/
lemma IoInv.givesBack {shown : List Shown} {f : Files} {before after : List LogLine}
    (h : IoInv events messages s (a :: live) pools (written ++ shown)) (hlayout : Layout events messages user log)
    (hpools : HeapApart user log pools) (hbefore : ∀ line ∈ before, LineFits log line)
    (hafter : ∀ line ∈ after, LineFits log line) (hsame : SameForeign user live mm s.mm) (hfiles : s.files = f)
    (ret : Int) :
    CallLeaves events messages user live pools written mm (endOutcome log before after s.freelist ret shown f)
      (endWrite log before after (a.entry + 16) ret s) := by
  have hlines := h.logs hlayout hpools hbefore
  rw [endWrite, Call.bind_ok hlines.run, endOutcome, ← hlines.freelist]
  by_cases hhead : (logged log before s).freelist.head = 0
  · rw [if_pos hhead, Call.bind_error (kfree_head_zero hhead)]
    exact rfl
  · obtain ⟨s', hrun, hinv, hhead', hfree, hkept⟩ := hlines.inv.kfree hpools hhead
    have hrest := hinv.logs hlayout hpools hafter
    rw [if_neg hhead, Call.bind_ok hrun, Call.bind_ok hrest.run]
    have hend := hrest.inv
    rw [List.append_assoc, List.append_assoc, ← List.append_assoc shown] at hend
    have hbuffers := hlines.same.mono (List.subset_cons_self a live)
    refine ⟨rfl, hend, ?_, hsame.trans (hbuffers.trans (hfree.trans hrest.same)), ?_⟩
    · show (logged log after s').freelist.head ≠ 0
      rw [hrest.freelist]
      exact hhead'
    · show (logged log after s').files = f
      rw [hrest.files, hkept, hlines.files, hfiles]

section Call

variable (h : IoInv events messages s (a :: live) pools written) (hlayout : Layout events messages user log)
  (hpools : HeapApart user log pools) (hcallees : CalleesFit log callees)
include h hlayout hpools hcallees

/-- The end of a call with the lines of `kfree` only. -/
lemma IoInv.endsQuietly (ret : Int) :
    CallLeaves events messages user live pools written s.mm
      (endOutcome log callees.kfree [] s.freelist ret [] s.files)
      (endWrite log callees.kfree [] (a.entry + 16) ret s) := by
  have hinv : IoInv events messages s (a :: live) pools (written ++ []) := by
    rw [List.append_nil]
    exact h
  exact hinv.givesBack hlayout hpools hcallees.kfree (by simp) (.refl ..) rfl ret

/-- The call from the file on. -/
lemma IoInv.withFile (hreq : 1 ≤ a.req) {f : Files} {x : Nat} (hfiles : s.files = fileTaken f x)
    (hlive : x ∈ f.heap.live)
    (hpos : 0 < (f.file x).count) :
    CallLeaves events messages user live pools written s.mm
      (writeOutcome log callees s.freelist f x ((ioEventDefault (a.entry + 16) a.req).shown s.mm.mem))
      (fileThenEnd log callees x (a.entry + 16) a.req s) := by
  have hlive' : x ∈ s.files.heap.live := by
    rw [hfiles]
    exact hlive
  have hfile : s.files.file x = { f.file x with count := (f.file x).count + 1 } := by
    rw [hfiles]
    exact setFile_file
  -- a write that is refused leaves the files to `file_put`
  have hrefused : ∀ {ret : Int}, fileWrite x (a.entry + 16) a.req s = (.ok ret, s) →
      CallLeaves events messages user live pools written s.mm (endOutcome log callees.kfree [] s.freelist ret [] f)
        (fileThenEnd log callees x (a.entry + 16) a.req s) := by
    intro ret hwrite
    have hput : filePut x s.files = (.ok (.ok (f.file x).count), f) := by
      refine (filePut_fileTaken hlive hpos hfiles).trans ?_
      exact congrArg _ setFile_self
    rw [fileThenEnd, Call.bind_ok hwrite, Call.bind_ok (io_withFiles hput)]
    exact (h.setFiles f).endsQuietly hlayout hpools hcallees ret
  unfold writeOutcome
  cases hmode : fileModeIsWritable (f.file x) with
  | false =>
    rw [if_pos rfl]
    apply hrefused
    apply fileWrite_refused hlive'
    rw [hfile]
    exact hmode
  | true =>
    rw [if_neg (show ¬(true = false) by decide)]
    have hmode' : fileModeIsWritable (s.files.file x) = true := by
      rw [hfile]
      exact hmode
    by_cases hops : (f.file x).ops = STDWRITE_OPS
    · have hops' : (s.files.file x).ops = STDWRITE_OPS := by
        rw [hfile]
        exact hops
      rw [if_neg (not_not.mpr hops)]
      by_cases hlen : IO_EVENT_MSG_BUFFER_SIZE < a.req
      · have hstop := fileWrite_stops hlive' hmode' hops' (h.print_panics (Nat.not_le_of_lt hlen))
        rw [if_pos (by exact hlen), fileThenEnd, Call.bind_error (Call.eq_of_fst hstop)]
        exact rfl
      · obtain ⟨s', hprint, hinv', hsame, hfiles', hfree⟩ := h.print hlayout.console hreq (Nat.le_of_not_lt hlen)
        have hwrite := fileWrite_std hlive' hmode' hops' hreq hprint
        rw [hfiles'] at hwrite
        have hadvanced : s.files.setFile x { s.files.file x with offset := (s.files.file x).offset + a.req } =
            f.setFile x { f.file x with
              count := (f.file x).count + 1
              offset := (f.file x).offset + a.req } := by
          rw [hfile, hfiles, fileTaken, setFile_setFile]
        have hput := filePut_fileTaken hlive hpos hadvanced
        rw [if_neg (by exact hlen), fileThenEnd, Call.bind_ok hwrite, Call.bind_ok (io_withFiles hput), ← hfree]
        exact (hinv'.setFiles (advance f x a.req)).givesBack hlayout hpools hcallees.kfree (by simp) hsame rfl _
    · rw [if_pos hops]
      apply hrefused
      apply fileWrite_nosys hlive' hmode'
      rw [hfile]
      exact hops

/-- The call from the descriptor on. -/
lemma IoInv.afterCopy (hreq : 1 ≤ a.req) {proc : Caller} (hfiles : FilesReady s.files proc.files) (fd : Nat) :
    CallLeaves events messages user live pools written s.mm
      (fileOutcome log callees s.freelist s.files proc fd ((ioEventDefault (a.entry + 16) a.req).shown s.mm.mem))
      (copiedThenFile log callees proc fd (a.entry + 16) a.req s) := by
  unfold copiedThenFile fileOutcome openFile
  cases hopen : notOpen (s.files.table proc.files) fd with
  | true =>
    have hinv : IoInv events messages s (a :: live) pools (written ++ []) := by
      rw [List.append_nil]
      exact h
    rw [Call.bind_ok (io_withFiles (getFile_closed hfiles hopen))]
    refine hinv.givesBack hlayout hpools hcallees.kfree ?_ (.refl ..) rfl _
    simp [fits_noFileLine]
  | false =>
    obtain ⟨hlive, hpos, -⟩ := hfiles.file fd hopen
    rw [Call.bind_ok (io_withFiles (getFile_open hfiles hopen rfl))]
    exact (h.setFiles _).withFile hlayout hpools hcallees hreq rfl hlive hpos

end Call

/-- The walks of a process read only memory for which `user` holds, and so do its loads. -/
structure UserSide (user : Nat → Prop) (table : Nat) (mm : Mm) : Prop where
  translate : ∀ mem', (∀ x, user x → mem' x = mm.mem x) →
    ∀ va, translate table va { mm with mem := mem' } = translate table va mm
  check : ∀ mem', (∀ x, user x → mem' x = mm.mem x) →
    ∀ p n, (userRangeValid table p n false true { mm with mem := mem' }).1 = (userRangeValid table p n false true mm).1
  pages : ∀ va pa, KaworuOS.translate table va mm = some pa → user (wadd pa mm.hhdm)

lemma UserSide.userByte (h : UserSide user table mm) (hmem : ∀ x, user x → mem' x = mm.mem x) (va : Nat) :
    userByte table { mm with mem := mem' } va = userByte table mm va := by
  unfold Proofs.userByte
  rw [h.translate mem' hmem]
  cases htr : KaworuOS.translate table va mm with
  | none => rfl
  | some pa =>
    rw [Option.map_some, Option.map_some]
    exact congrArg some (hmem _ (h.pages va pa htr))

lemma UserSide.userBytes (h : UserSide user table mm) (hmem : ∀ x, user x → mem' x = mm.mem x) (src n : Nat) :
    userBytes table { mm with mem := mem' } src n = userBytes table mm src n := by
  unfold Proofs.userBytes
  apply List.map_congr_left
  intro i _
  rw [h.userByte hmem]

lemma UserSide.setMem (h : UserSide user table mm) (hmem : ∀ x, user x → mem' x = mm.mem x) :
    UserSide user table { mm with mem := mem' } := by
  have hboth : ∀ m : Mem, (∀ x, user x → m x = mem' x) → ∀ x, user x → m x = mm.mem x :=
    fun m hm x hx => (hm x hx).trans (hmem x hx)
  refine ⟨fun m hm va => ?_, fun m hm p n => ?_, fun va pa htr => ?_⟩
  · rw [h.translate mem' hmem]
    exact h.translate m (hboth m hm) va
  · rw [h.check mem' hmem]
    exact h.check m (hboth m hm) p n
  · rw [h.translate mem' hmem] at htr
    exact h.pages va pa htr

/-- The text that a buffer of the user is shown as. -/
def textOf (table : Nat) (mm : Mm) (buf count : Nat) : Shown :=
  ⟨IO_DEFAULT_COLOR_FG, IO_DEFAULT_COLOR_BG, count, userBytes table mm buf count⟩

/-- What comes of a write that gets its buffer. -/
def copyOutcome (log : Logger) (callees : CalleeLines) (fl : FreeList) (s : Io) (proc : Caller) (fd buf count : Nat) :
    Except Halt (Left SyscallReturn) :=
  if (userRangeValid proc.table buf count false true).valueD s.mm false then
    fileOutcome log callees fl s.files proc fd (textOf proc.table s.mm buf count)
  else
    (endOutcome log callees.kfree [] fl (-(Errno.code .EFAULT : Int)) [] s.files).map
      (Left.after (linesShown log [noCopyLine log buf]))

/-- The call from the copy on. -/
lemma IoInv.afterAlloc (h : IoInv events messages s (a :: live) pools written)
    (hlayout : Layout events messages user log)
    (hpools : HeapApart user log pools) (hcallees : CalleesFit log callees) (hreq : 1 ≤ a.req) {proc : Caller}
    (hfiles : FilesReady s.files proc.files) {fd buf : Nat} (hside : UserSide user proc.table s.mm) {ok : Bool}
    (hcheck : userRangeValid proc.table buf a.req false true s.mm = (.ok ok, s.mm))
    (hrange : ok = true → buf + a.req < 2 ^ 64 ∧ ∀ x, buf ≤ x → x < buf + a.req → translate proc.table x s.mm ≠ none) :
    CallLeaves events messages user live pools written s.mm (copyOutcome log callees s.freelist s proc fd buf a.req)
      (copyThenFile log callees proc fd buf a.req (a.entry + 16) s) := by
  have hvalue : (userRangeValid proc.table buf a.req false true).valueD s.mm false = ok := by
    unfold Call.valueD
    rw [hcheck]
  unfold copyThenFile copyOutcome
  rw [hvalue]
  cases ok with
  | false =>
    have hlines : LinesShow events messages user log [noCopyLine log buf] (a :: live) pools written s :=
      h.logs hlayout hpools (by simp [fits_noCopyLine])
    rw [if_neg Bool.false_ne_true, Call.bind_ok (io_withMm (copyFromUser_false hreq hcheck)), if_pos (by decide)]
    refine hlines.before (.trans (hlines.same.mono (List.subset_cons_self a live)) ?_)
    rw [← hlines.freelist, ← hlines.files]
    exact hlines.inv.endsQuietly hlayout hpools hcallees _
  | true =>
    obtain ⟨hend, hmmu⟩ := hrange rfl
    have htop := h.payload_top hreq
    simp only [KERNEL_VM_RANGE_BASE, KERNEL_VM_RANGE_SIZE] at htop
    have hapart : PagesApart proc.table s.mm (a.entry + 16) a.req := by
      rintro va pa htr ⟨h1, h2⟩
      obtain ⟨q, hq, hqx⟩ := h.payload_pool List.mem_cons_self h1 h2
      exact (hpools q hq _ hqx).1 (hside.pages va pa htr)
    have hcopy := copyFromUser_true hreq hcheck hend hmmu (by omega) hapart
    have hblit : ∀ x, ¬(a.entry + 16 ≤ x ∧ x < a.entry + 16 + a.req) →
        userBlit proc.table s.mm (a.entry + 16) buf a.req x = s.mm.mem x := fun x hx => if_neg hx
    obtain ⟨hinv, hsame⟩ := h.fill hpools hblit
    have hshown : (ioEventDefault (a.entry + 16) a.req).shown (userBlit proc.table s.mm (a.entry + 16) buf a.req) =
        textOf proc.table s.mm buf a.req := by
      unfold IOEvent.shown textOf
      rw [← bytes_userBlit proc.table s.mm (a.entry + 16) buf a.req]
      rfl
    rw [if_pos rfl, ← hshown, Call.bind_ok (io_withMm hcopy), if_neg (by decide)]
    exact (hinv.afterCopy hlayout hpools hcallees hreq hfiles fd).trans hsame

end KaworuOS.Proofs
