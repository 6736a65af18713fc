import KaworuOS.Elf
import KaworuOS.Proofs.Pmm

/-!
# What the loader reads of a file

The header and the table of program headers are read without a look at the size of the file. The
segments are checked, but the size of a copy wraps in the pages behind the last byte of the file.
-/

namespace KaworuOS.Proofs
open Lib

variable {α β : Type} {file : Mem} {n va page : Nat} {ph : ElfProgramHeader} {as : AddressSpace} {s : Loading}

/-- The call works on the memory only, and adds its reads to those before. -/
def LogsReads (x : Loader α) : Prop :=
  ∀ mm reads, x ⟨mm, reads⟩ = ((x ⟨mm, []⟩).1, ⟨(x ⟨mm, []⟩).2.mm, (x ⟨mm, []⟩).2.reads ++ reads⟩)

lemma logsReads_pure (a : α) : LogsReads (pure a) := fun _ _ => rfl

lemma logsReads_onMm (x : Kernel α) : LogsReads (onMm x) := fun _ _ => rfl

lemma logsReads_readFile (offset size : Nat) : LogsReads (readFile file offset size) := fun _ _ => rfl

lemma logsReads_memcpyFile (dest offset size : Nat) : LogsReads (memcpyFile file dest offset size) := fun _ _ => rfl

lemma logsReads_bind {x : Loader α} {f : α → Loader β} (hx : LogsReads x) (hf : ∀ a, LogsReads (f a)) :
    LogsReads (x >>= f) := by
  intro mm reads
  rcases hrun : x ⟨mm, []⟩ with ⟨r, s'⟩
  have hreads := hx mm reads
  rw [hrun] at hreads
  cases r with
  | error e =>
    rw [Call.bind_error hrun, Call.bind_error hreads]
  | ok a =>
    rw [Call.bind_ok hrun, Call.bind_ok hreads, hf a s'.mm (s'.reads ++ reads), hf a s'.mm s'.reads,
      List.append_assoc]

lemma logsReads_ite {c : Prop} [Decidable c] {x y : Loader α} (hx : LogsReads x) (hy : LogsReads y) :
    LogsReads (if c then x else y) := by
  split
  · exact hx
  · exact hy

lemma LogsReads.mem {x : Loader α} (hx : LogsReads x) {s : Loading} {r : FileRead} (hr : r ∈ s.reads) :
    r ∈ (x s).2.reads := by
  rw [show x s = _ from hx s.mm s.reads]
  exact List.mem_append_right _ hr

lemma mem_reads_bind {x : Loader α} {f : α → Loader β} {s : Loading} {r : FileRead} (hr : r ∈ (x s).2.reads)
    (hf : ∀ a, LogsReads (f a)) : r ∈ ((x >>= f) s).2.reads := by
  rcases hrun : x s with ⟨res, s'⟩
  rw [hrun] at hr
  cases res with
  | error e =>
    rw [Call.bind_error hrun]
    exact hr
  | ok a =>
    rw [Call.bind_ok hrun]
    exact (hf a).mem hr

/-- The numbers of a header that has been verified. -/
structure Verified (ph : ElfProgramHeader) (n : Nat) : Prop where
  filesz_le : ph.filesz ≤ ph.memsz
  inside : ph.offset + ph.filesz ≤ n
  fits : ph.vaddr + ph.memsz ≤ USER_VM_RANGE_END

lemma verifyProgramHeader_ne (h : verifyProgramHeader ph n ≠ .EOK) :
    verifyProgramHeader ph n = .EINVAL := by
  unfold verifyProgramHeader at h ⊢
  split
  · rfl
  · rename_i hnot
    rw [if_neg hnot] at h
    exact absurd rfl h

lemma verifyProgramHeader_eq_EOK (hn : n < 2 ^ 64) : verifyProgramHeader ph n = .EOK ↔ Verified ph n := by
  unfold verifyProgramHeader
  have hend : USER_VM_RANGE_END < 2 ^ 64 := by decide
  by_cases h1 : n < ph.offset
  · rw [if_pos (.inr (.inl h1))]
    refine ⟨(fun h => nomatch h), fun h => ?_⟩
    have h2 := h.inside
    omega
  by_cases h2 : USER_VM_RANGE_END < ph.vaddr
  · rw [if_pos (.inr (.inr (.inr (.inl h2))))]
    refine ⟨(fun h => nomatch h), fun h => ?_⟩
    have h3 := h.fits
    omega
  rw [wsub_of_le (by omega) hn, wsub_of_le (by omega) hend]
  constructor
  · intro h
    split at h
    · cases h
    · rename_i hnot
      push Not at hnot
      exact ⟨hnot.1, by omega, by omega⟩
  · rintro ⟨h3, h4, h5⟩
    rw [if_neg]
    push Not
    exact ⟨h3, by omega, by omega, by omega, by omega⟩

lemma Verified.mapEnd_eq (h : Verified ph n) (hpos : 0 < ph.memsz) :
    mapEnd ph = (ph.vaddr + ph.memsz + 4095) / 4096 * 4096 := by
  have h1 := h.fits
  simp only [USER_VM_RANGE_END, USER_VM_RANGE_BASE, USER_VM_RANGE_SIZE] at h1
  rw [mapEnd, wadd_of_lt (by omega), roundUp_eq (by omega) (by omega)]

lemma Verified.mapStart_eq (h : Verified ph n) : mapStart ph = ph.vaddr - ph.vaddr % 4096 := by
  have h1 := h.fits
  simp only [USER_VM_RANGE_END, USER_VM_RANGE_BASE, USER_VM_RANGE_SIZE] at h1
  exact roundDown_eq (by omega)

lemma Verified.pages_eq (h : Verified ph n) (hpos : 0 < ph.memsz) :
    (mapEnd ph - mapStart ph) / 4096 * 4096 + mapStart ph = mapEnd ph := by
  rw [h.mapEnd_eq hpos, h.mapStart_eq]
  omega

lemma Verified.mapEnd_le (h : Verified ph n) (hpos : 0 < ph.memsz) : mapEnd ph ≤ USER_VM_RANGE_END := by
  have h1 := h.fits
  rw [h.mapEnd_eq hpos]
  simp only [USER_VM_RANGE_END, USER_VM_RANGE_BASE, USER_VM_RANGE_SIZE] at *
  omega

lemma Verified.copyStart_eq (h : Verified ph n) (va : Nat) : copyStart ph va = ph.vaddr - va := by
  have h1 := h.fits
  simp only [USER_VM_RANGE_END, USER_VM_RANGE_BASE, USER_VM_RANGE_SIZE] at h1
  unfold copyStart
  split
  · exact wsub_of_le (by omega) (by omega)
  · omega

lemma Verified.fileEnd (h : Verified ph n) : wadd ph.vaddr ph.filesz = ph.vaddr + ph.filesz := by
  have h1 := h.fits
  have h2 := h.filesz_le
  simp only [USER_VM_RANGE_END, USER_VM_RANGE_BASE, USER_VM_RANGE_SIZE] at h1
  exact wadd_of_lt (by omega)

lemma Verified.copyEnd_eq (h : Verified ph n) (hva : va ≤ ph.vaddr + ph.filesz) :
    copyEnd ph va = min 4096 (ph.vaddr + ph.filesz - va) := by
  have h1 := h.fits
  have h2 := h.filesz_le
  simp only [USER_VM_RANGE_END, USER_VM_RANGE_BASE, USER_VM_RANGE_SIZE] at h1
  unfold copyEnd
  rw [h.fileEnd, wadd_of_lt (by simp only [PAGE_SIZE]; omega), wsub_of_le hva (by omega)]
  simp only [PAGE_SIZE]
  split
  · omega
  · omega

lemma Verified.fileOffset_eq (h : Verified ph n) (hn : n < 2 ^ 64) (hva : va ≤ ph.vaddr + ph.filesz) :
    wadd ph.offset (wsub (wadd va (copyStart ph va)) ph.vaddr) = ph.offset + (va + copyStart ph va - ph.vaddr) := by
  have h1 := h.fits
  have h2 := h.filesz_le
  have h3 := h.inside
  simp only [USER_VM_RANGE_END, USER_VM_RANGE_BASE, USER_VM_RANGE_SIZE] at h1
  rw [h.copyStart_eq, wadd_of_lt (by omega : va + (ph.vaddr - va) < 2 ^ 64), wsub_of_le (by omega) (by omega),
    wadd_of_lt (by omega)]

/-- The bytes that `elf_verify_header` asks for. -/
def identBytes : List UInt8 := [0x7f, 0x45, 0x4c, 0x46, 2, 1]

/-- The first `k` bytes from offset `o` on are those of the list. -/
def Matches (file : Mem) (l : List UInt8) (o k : Nat) : Prop := ∀ i < k, file (o + i) = l.getD i 0

lemma matches_zero (l : List UInt8) (o : Nat) : Matches file l o 0 := fun i hi => absurd hi (Nat.not_lt_zero i)

lemma matches_succ {l : List UInt8} {o k : Nat} :
    Matches file l o (k + 1) ↔ Matches file l o k ∧ file (o + k) = l.getD k 0 := by
  constructor
  · exact fun h => ⟨fun i hi => h i (by omega), h k (by omega)⟩
  · rintro ⟨h1, h2⟩ i hi
    rcases Nat.lt_succ_iff_lt_or_eq.mp hi with hi | rfl
    · exact h1 i hi
    · exact h2

lemma matches_cons {b : UInt8} {l : List UInt8} {o k : Nat} :
    Matches file (b :: l) o (k + 1) ↔ file o = b ∧ Matches file l (o + 1) k := by
  constructor
  · intro h
    refine ⟨h 0 (by omega), fun i hi => ?_⟩
    have h1 := h (i + 1) (by omega)
    rwa [show o + (i + 1) = o + 1 + i by omega] at h1
  · rintro ⟨h1, h2⟩ i hi
    cases i with
    | zero => exact h1
    | succ i =>
      rw [show o + (i + 1) = o + 1 + i by omega]
      exact h2 i (by omega)

lemma loadBytes_one (m : Mem) (a : Nat) : m.loadBytes a 1 = (m a).toNat := by
  simp [Mem.loadBytes]

/-- `memcmp` reads up to the first difference. -/
lemma memcmpFile_spec (file : Mem) (l : List UInt8) (o : Nat) (s : Loading) :
    ∃ diff reads, memcmpFile file l o s = (.ok diff, ⟨s.mm, reads ++ s.reads⟩) ∧
      (diff = 0 ↔ Matches file l o l.length) ∧
      ∀ r, r ∈ reads ↔ ∃ i < l.length, Matches file l o i ∧ r = ⟨o + i, 1⟩ := by
  induction l generalizing o s with
  | nil => exact ⟨0, [], rfl, by simp [matches_zero], by simp⟩
  | cons b l ih =>
    have hread : readFile file o 1 s = (.ok (file.loadBytes o 1), ⟨s.mm, ⟨o, 1⟩ :: s.reads⟩) := rfl
    rw [memcmpFile, Call.bind_ok hread, loadBytes_one]
    by_cases hdiff : file o = b
    · obtain ⟨diff, reads, hrun, hzero, hreads⟩ := ih (o + 1) ⟨s.mm, ⟨o, 1⟩ :: s.reads⟩
      refine ⟨diff, reads ++ [⟨o, 1⟩], ?_, ?_, ?_⟩
      · rw [if_neg (by rw [hdiff]; simp), hrun, List.append_assoc]
        rfl
      · rw [hzero, List.length_cons, matches_cons]
        exact ⟨fun h => ⟨hdiff, h⟩, fun h => h.2⟩
      · intro r
        rw [List.mem_append, hreads, List.mem_singleton]
        constructor
        · rintro (⟨i, hi, hm, rfl⟩ | rfl)
          · refine ⟨i + 1, by simpa using hi, matches_cons.mpr ⟨hdiff, hm⟩, ?_⟩
            rw [show o + (i + 1) = o + 1 + i by omega]
          · exact ⟨0, by simp, matches_zero _ _, rfl⟩
        · rintro ⟨i, hi, hm, rfl⟩
          cases i with
          | zero => exact .inr rfl
          | succ i =>
            refine .inl ⟨i, by simpa using hi, (matches_cons.mp hm).2, ?_⟩
            rw [show o + (i + 1) = o + 1 + i by omega]
    · refine ⟨(b.toNat : Int) - (file o).toNat, [⟨o, 1⟩], ?_, ?_, ?_⟩
      · rw [if_pos]
        · rfl
        · intro hzero
          exact hdiff (UInt8.toNat_inj.mp (by omega))
      · rw [List.length_cons, matches_cons]
        constructor
        · intro hzero
          exact absurd (UInt8.toNat_inj.mp (by omega)) hdiff
        · exact fun h => absurd h.1 hdiff
      · intro r
        rw [List.mem_singleton]
        constructor
        · rintro rfl
          exact ⟨0, by simp, matches_zero _ _, rfl⟩
        · rintro ⟨i, hi, hm, rfl⟩
          cases i with
          | zero => rfl
          | succ i => exact absurd (matches_cons.mp hm).1 hdiff

/-- `elf_verify_header` asks for six bytes and reads each of them if those before are right. -/
lemma elfVerifyHeader_spec (file : Mem) (s : Loading) :
    ∃ valid reads, elfVerifyHeader file s = (.ok valid, ⟨s.mm, reads ++ s.reads⟩) ∧
      (valid = true ↔ Matches file identBytes 0 6) ∧
      ∀ r, r ∈ reads ↔ ∃ i < 6, Matches file identBytes 0 i ∧ r = ⟨i, 1⟩ := by
  obtain ⟨diff, reads, hrun, hzero, hreads⟩ := memcmpFile_spec file KNOWN_HEADER_MAGIC 0 s
  have hmagic : elfVerifyHeaderMagic file s = (.ok (decide (diff = 0)), ⟨s.mm, reads ++ s.reads⟩) := by
    rw [elfVerifyHeaderMagic, Call.bind_ok hrun]
    rfl
  have hident : ∀ k ≤ 4, (Matches file KNOWN_HEADER_MAGIC 0 k ↔ Matches file identBytes 0 k) := by
    have hget : ∀ i < 4, KNOWN_HEADER_MAGIC.getD i 0 = identBytes.getD i 0 := by decide
    intro k hk
    constructor
    · exact fun h i hi => (h i hi).trans (hget i (by omega))
    · exact fun h i hi => (h i hi).trans (hget i (by omega)).symm
  have hlen : KNOWN_HEADER_MAGIC.length = 4 := rfl
  rw [hlen, hident 4 (Nat.le_refl _)] at hzero
  have hreads' : ∀ r, r ∈ reads ↔ ∃ i < 4, Matches file identBytes 0 i ∧ r = ⟨i, 1⟩ := by
    intro r
    rw [hreads, hlen]
    refine exists_congr (fun i => and_congr_right (fun hi => ?_))
    rw [hident i (by omega), Nat.zero_add]
  have hfive : Matches file identBytes 0 5 ↔ Matches file identBytes 0 4 ∧ file 4 = 2 := matches_succ
  have hsix : Matches file identBytes 0 6 ↔ Matches file identBytes 0 5 ∧ file 5 = 1 := matches_succ
  have hall : ∀ r, (∃ i < 6, Matches file identBytes 0 i ∧ r = ⟨i, 1⟩) ↔
      r ∈ reads ∨ (Matches file identBytes 0 4 ∧ r = ⟨4, 1⟩) ∨ (Matches file identBytes 0 5 ∧ r = ⟨5, 1⟩) := by
    intro r
    rw [hreads']
    constructor
    · rintro ⟨i, hi, hm⟩
      rcases (by omega : i < 4 ∨ i = 4 ∨ i = 5) with hi | rfl | rfl
      · exact .inl ⟨i, hi, hm⟩
      · exact .inr (.inl hm)
      · exact .inr (.inr hm)
    · rintro (⟨i, hi, hm⟩ | hm | hm)
      · exact ⟨i, by omega, hm⟩
      · exact ⟨4, by omega, hm⟩
      · exact ⟨5, by omega, hm⟩
  have hclass : ∀ s, readFile file 4 1 s = (.ok (file 4).toNat, ⟨s.mm, ⟨4, 1⟩ :: s.reads⟩) := by
    intro s
    rw [readFile, loadBytes_one]
  have hdata : ∀ s, readFile file 5 1 s = (.ok (file 5).toNat, ⟨s.mm, ⟨5, 1⟩ :: s.reads⟩) := by
    intro s
    rw [readFile, loadBytes_one]
  simp only [hall]
  rw [elfVerifyHeader, Call.bind_ok hmagic]
  by_cases h4 : Matches file identBytes 0 4
  case neg =>
    refine ⟨false, reads, ?_, by simp [hsix, hfive, h4], fun r => by simp [hfive, h4]⟩
    rw [if_pos (decide_eq_false (fun hd => h4 (hzero.mp hd)))]
    rfl
  rw [decide_eq_true (hzero.mpr h4), if_neg (by decide), Call.bind_ok (hclass _)]
  by_cases h5 : file 4 = 2
  case neg =>
    refine ⟨false, ⟨4, 1⟩ :: reads, ?_, by simp [hsix, hfive, h5], fun r => by simp [hfive, h4, h5, or_comm]⟩
    have hne : (file 4).toNat ≠ ELF_HEADER_IDENT_CLASS_CLASS64 := fun hcode => h5 (UInt8.toNat_inj.mp hcode)
    rw [if_pos hne]
    rfl
  rw [if_neg (by simp [h5]), Call.bind_ok (hdata _)]
  refine ⟨decide (file 5 = 1), ⟨5, 1⟩ :: ⟨4, 1⟩ :: reads, ?_, by simp [hsix, hfive, h4, h5],
    fun r => by simp [hfive, h4, h5]; tauto⟩
  by_cases h6 : file 5 = 1
  · rw [if_neg (by simp [h6]), decide_eq_true h6]
    rfl
  · have hne : (file 5).toNat ≠ ELF_HEADER_IDENT_DATA_LSB := fun hcode => h6 (UInt8.toNat_inj.mp hcode)
    rw [if_pos hne, decide_eq_false h6]
    rfl

lemma logsReads_copySegment (va page : Nat) : LogsReads (copySegment file ph va page) :=
  logsReads_ite (logsReads_pure _) (logsReads_memcpyFile _ _ _)

lemma logsReads_mapSectionPages (perms : PagePerms) (uxn : ExecPerms) (m va : Nat) (as : AddressSpace) :
    LogsReads (mapSectionPages file ph perms uxn m va as) := by
  induction m generalizing va as with
  | zero => exact logsReads_pure _
  | succ m ih =>
    apply logsReads_bind (logsReads_onMm _)
    intro pa
    apply logsReads_ite (logsReads_pure _)
    apply logsReads_bind (logsReads_onMm _)
    rintro ⟨ret, as⟩
    apply logsReads_ite (logsReads_bind (logsReads_onMm _) (fun _ => logsReads_pure _))
    apply logsReads_bind (logsReads_onMm _)
    intro page
    exact logsReads_bind (logsReads_copySegment _ _) (fun _ => ih _ _)

lemma logsReads_mapSectionFromHeader (elfSize : Nat) (as : AddressSpace) :
    LogsReads (mapSectionFromHeader file elfSize ph as) :=
  logsReads_ite (logsReads_pure _) (logsReads_ite (logsReads_pure _) (logsReads_mapSectionPages _ _ _ _ _))

lemma logsReads_readProgramHeader (start : Nat) : LogsReads (readProgramHeader file start) := fun _ _ => rfl

lemma logsReads_elfLoadHeaders (fileSize off : Nat) (l : List Nat) (as : AddressSpace) :
    LogsReads (elfLoadHeaders file fileSize off l as) := by
  induction l generalizing as with
  | nil => exact logsReads_pure _
  | cons i l ih =>
    apply logsReads_bind (logsReads_readFile _ _)
    intro type
    refine logsReads_ite (logsReads_bind (logsReads_readProgramHeader _) (fun ph => ?_)) (ih _)
    apply logsReads_bind (logsReads_mapSectionFromHeader _ _)
    rintro ⟨ret, as⟩
    exact logsReads_ite (logsReads_pure _) (ih _)

/-- Where the program header with the number `i` begins. -/
def headerStart (file : Mem) (i : Nat) : Nat := file.loadBytes 32 8 + i * ELF_PROGRAM_HEADER_SIZE

/-- `program_header_table_entry_count`. -/
def headerCount (file : Mem) : Nat := file.loadBytes 56 2

/-- The program header with the number `i` is one that `elf_load` maps. -/
def IsLoad (file : Mem) (i : Nat) : Prop := file.loadBytes (headerStart file i) 4 = ELF_PROGRAM_HEADER_TYPE_LOAD

/-- The header with the number `i`. -/
abbrev headerAt (file : Mem) (i : Nat) : ElfProgramHeader := programHeader file (headerStart file i)

/-- The loop of `elf_load` over some headers of the file. -/
abbrev loadHeaders (file : Mem) (n : Nat) (l : List Nat) (as : AddressSpace) : Loader (Nat × AddressSpace) :=
  elfLoadHeaders file n (file.loadBytes 32 8) l as

/-- What the loop of `elf_load` does with the headers `l` when it has gone through those before. -/
def headersRest (file : Mem) (n : Nat) (l : List Nat) : Nat × AddressSpace → Loader (Nat × AddressSpace)
  | (ret, as) => do
    if ret ≠ 0 then return (ret, as)
    loadHeaders file n l as

/-- The rest of `elf_load` behind the check of the header. -/
def loadRest (file : Mem) (n : Nat) (as : AddressSpace) : Loader (Except Nat Nat × AddressSpace) := do
  let (ret, as) ← loadHeaders file n (List.range (headerCount file)) as
  if ret ≠ 0 then return (.error ret, as)
  let entry ← readFile file 24 8
  return (.ok entry, as)

lemma elfLoad_eq (file : Mem) (n : Nat) (as : AddressSpace) (s : Loading) :
    ∃ reads, (∀ r, r ∈ reads ↔ ∃ i < 6, Matches file identBytes 0 i ∧ r = ⟨i, 1⟩) ∧
      (¬Matches file identBytes 0 6 →
        elfLoad file n as s = (.ok (.error (Errno.code .EINVAL), as), ⟨s.mm, reads ++ s.reads⟩)) ∧
      (Matches file identBytes 0 6 →
        elfLoad file n as s = loadRest file n as ⟨s.mm, ⟨56, 2⟩ :: ⟨32, 8⟩ :: (reads ++ s.reads)⟩) := by
  obtain ⟨valid, reads, hrun, hvalid, hreads⟩ := elfVerifyHeader_spec file s
  refine ⟨reads, hreads, fun hno => ?_, fun hyes => ?_⟩
  · rw [elfLoad, Call.bind_ok hrun, if_pos (Bool.eq_false_iff.mpr (fun hv => hno (hvalid.mp hv)))]
    rfl
  · rw [elfLoad, Call.bind_ok hrun, hvalid.mpr hyes, if_neg (by decide)]
    rfl

lemma logsReads_loadHeaders (file : Mem) (n : Nat) (l : List Nat) (as : AddressSpace) :
    LogsReads (loadHeaders file n l as) :=
  logsReads_elfLoadHeaders _ _ _ _

lemma logsReads_headersRest (file : Mem) (n : Nat) (l : List Nat) (r : Nat × AddressSpace) :
    LogsReads (headersRest file n l r) :=
  logsReads_ite (logsReads_pure _) (logsReads_loadHeaders _ _ _ _)

lemma logsReads_loadRest (n : Nat) (as : AddressSpace) : LogsReads (loadRest file n as) := by
  apply logsReads_bind (logsReads_loadHeaders _ _ _ _)
  rintro ⟨ret, as⟩
  exact logsReads_ite (logsReads_pure _) (logsReads_bind (logsReads_readFile _ _) (fun _ => logsReads_pure _))

/-- The state after the type of a header has been read, and after the rest of it. -/
def typeRead (file : Mem) (i : Nat) (s : Loading) : Loading := ⟨s.mm, ⟨headerStart file i, 4⟩ :: s.reads⟩

def headerRead (file : Mem) (i : Nat) (s : Loading) : Loading :=
  ⟨s.mm, ⟨headerStart file i + 40, 8⟩ :: ⟨headerStart file i + 32, 8⟩ :: ⟨headerStart file i + 16, 8⟩ ::
    ⟨headerStart file i + 8, 8⟩ :: ⟨headerStart file i + 4, 4⟩ :: ⟨headerStart file i, 4⟩ :: s.reads⟩

lemma loadHeaders_skip {i : Nat} {l : List Nat} (h : ¬IsLoad file i) :
    loadHeaders file n (i :: l) as s = loadHeaders file n l as (typeRead file i s) := by
  have htype : ¬file.loadBytes (headerStart file i) 4 = ELF_PROGRAM_HEADER_TYPE_LOAD := h
  have hread : readFile file (headerStart file i) 4 s =
      (.ok (file.loadBytes (headerStart file i) 4), typeRead file i s) := rfl
  show (readFile file (headerStart file i) 4 >>= _) s = _
  rw [Call.bind_ok hread, if_neg htype]

lemma loadHeaders_load {i : Nat} {l : List Nat} (h : IsLoad file i) :
    loadHeaders file n (i :: l) as s =
      (mapSectionFromHeader file n (headerAt file i) as >>= headersRest file n l) (headerRead file i s) := by
  have htype : file.loadBytes (headerStart file i) 4 = ELF_PROGRAM_HEADER_TYPE_LOAD := h
  have hread : readFile file (headerStart file i) 4 s =
      (.ok (file.loadBytes (headerStart file i) 4), typeRead file i s) := rfl
  have hph : readProgramHeader file (headerStart file i) (typeRead file i s) =
      (.ok (headerAt file i), headerRead file i s) := rfl
  show (readFile file (headerStart file i) 4 >>= _) s = _
  rw [Call.bind_ok hread, if_pos htype]
  exact Call.bind_ok hph

lemma loadHeaders_load_ok {i ret : Nat} {l : List Nat} (h : IsLoad file i) {as₁ : AddressSpace} {s₁ : Loading}
    (hmap : mapSectionFromHeader file n (headerAt file i) as (headerRead file i s) = (.ok (ret, as₁), s₁)) :
    loadHeaders file n (i :: l) as s =
      if ret ≠ 0 then (.ok (ret, as₁), s₁) else loadHeaders file n l as₁ s₁ := by
  rw [loadHeaders_load h, Call.bind_ok hmap, headersRest]
  split
  · rfl
  · rfl

lemma loadHeaders_append (l₁ l₂ : List Nat) (as : AddressSpace) (s : Loading) :
    loadHeaders file n (l₁ ++ l₂) as s = (loadHeaders file n l₁ as >>= headersRest file n l₂) s := by
  induction l₁ generalizing as s with
  | nil => rfl
  | cons i l₁ ih =>
    rw [List.cons_append]
    by_cases hload : IsLoad file i
    case neg =>
      rw [loadHeaders_skip hload, ih]
      show Call.next _ _ = Call.next _ (loadHeaders file n (i :: l₁) as s)
      rw [loadHeaders_skip hload]
    rcases hmap : mapSectionFromHeader file n (headerAt file i) as (headerRead file i s) with ⟨e | ⟨ret, as₁⟩, s₁⟩
    · have hrun : ∀ l, loadHeaders file n (i :: l) as s = (.error e, s₁) := by
        intro l
        rw [loadHeaders_load hload, Call.bind_error hmap]
      rw [hrun, Call.bind_error (hrun l₁)]
    · have hrun : ∀ l, loadHeaders file n (i :: l) as s =
          if ret ≠ 0 then (.ok (ret, as₁), s₁) else loadHeaders file n l as₁ s₁ :=
        fun _ => loadHeaders_load_ok hload hmap
      rw [hrun]
      show _ = Call.next _ (loadHeaders file n (i :: l₁) as s)
      rw [hrun]
      by_cases hret : ret ≠ 0
      · rw [if_pos hret, if_pos hret, Call.next, headersRest, if_pos hret]
        rfl
      · rw [if_neg hret, if_neg hret, ih]
        rfl

lemma loadRest_error {err : Nat} {as₁ : AddressSpace} {s₁ : Loading} (herr : err ≠ 0)
    (h : loadHeaders file n (List.range (headerCount file)) as s = (.ok (err, as₁), s₁)) :
    loadRest file n as s = (.ok (.error err, as₁), s₁) := by
  rw [loadRest, Call.bind_ok h]
  dsimp only
  rw [if_pos herr]
  rfl

lemma range_split {k m : Nat} (hk : k < m) : ∃ rest, List.range m = List.range k ++ k :: rest := by
  refine ⟨List.range' (k + 1) (m - (k + 1)), ?_⟩
  rw [List.range_eq_range', List.range_eq_range', ← List.range'_succ, show m - (k + 1) + 1 = m - k by omega]
  have happend := @List.range'_append 0 k (m - k) 1
  rw [Nat.one_mul, Nat.zero_add, Nat.add_sub_cancel' (Nat.le_of_lt hk)] at happend
  exact happend.symm

lemma mem_reads_type {i : Nat} (l : List Nat) (as : AddressSpace) (s : Loading) :
    ⟨headerStart file i, 4⟩ ∈ (loadHeaders file n (i :: l) as s).2.reads := by
  by_cases hload : IsLoad file i
  · rw [loadHeaders_load hload]
    exact LogsReads.mem (logsReads_bind (logsReads_mapSectionFromHeader _ _) (logsReads_headersRest _ _ _))
      (by simp [headerRead])
  · rw [loadHeaders_skip hload]
    exact (logsReads_loadHeaders _ _ _ _).mem (by simp [typeRead])

/-- The `n` bytes of a number, the least first. -/
def numBytes (v n : Nat) : List UInt8 := (List.range n).map (fun i => UInt8.ofNat (v / 256 ^ i))

/-- A file with one segment of four bytes behind the headers, which take 120 bytes. -/
def smallElf (vaddr memsz : Nat) : List UInt8 :=
  identBytes ++ numBytes 0 18 ++ numBytes 0x400000 8 ++ numBytes 64 8 ++ numBytes 0 16 ++ numBytes 1 2 ++
    numBytes 0 6 ++
    (numBytes ELF_PROGRAM_HEADER_TYPE_LOAD 4 ++ numBytes PF_X 4 ++ numBytes 120 8 ++ numBytes vaddr 8 ++ numBytes 0 8 ++
      numBytes 4 8 ++ numBytes memsz 8 ++ numBytes 0 8) ++ [1, 2, 3, 4]

/-- The memory from the beginning of a file on, with zeroes behind it. -/
def fileMem (bytes : List UInt8) : Mem := fun i => bytes.getD i 0

end KaworuOS.Proofs
