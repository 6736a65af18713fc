import KaworuOS.Block

/-!
# Where a write to a block device goes

Reading and writing are loops over the sectors of a range. The read loop counts the place in the buffer
from the first sector of the range, the write loop from the first sector of the device, so a write
goes where it should when the range begins with the first sector.
-/

namespace KaworuOS.Proofs
open Lib

variable {δ : Type} {device : Device δ} {content : δ → Nat → List UInt8} {s : BlockState δ} {sector count buf : Nat}

/-- The sector is on the device and its buffer ends inside the address space. -/
structure OnDevice (device : Device δ) (sector buf : Nat) : Prop where
  sector : sector < device.blockOps.capacity / device.blockOps.sectorSize
  buf : buf + device.blockOps.sectorSize ≤ wordSize

/-- The operation succeeds and stores one sector. -/
def Stores (device : Device δ) (content : δ → Nat → List UInt8) (op : SectorOp δ) : Prop :=
  ∀ {sector buf : Nat} (mem : Mem) (d : δ), OnDevice device sector buf →
    ∃ d', op sector buf (mem, d) = (.EOK, mem, d') ∧
      content d' = Function.update (content d) sector (mem.bytes buf device.blockOps.sectorSize)

/-- The operation succeeds and fetches one sector. -/
def Fetches (device : Device δ) (content : δ → Nat → List UInt8) (op : SectorOp δ) : Prop :=
  ∀ {sector buf : Nat} (mem : Mem) (d : δ), OnDevice device sector buf →
    ∃ mem' d', op sector buf (mem, d) = (.EOK, mem', d') ∧ content d' = content d ∧
      mem'.bytes buf device.blockOps.sectorSize = content d sector ∧
      ∀ x, x < buf ∨ buf + device.blockOps.sectorSize ≤ x → mem' x = mem x

/-- A block device whose operations store and fetch sectors. `content` is what the sectors hold. -/
structure SectorDevice (device : Device δ) (content : δ → Nat → List UInt8) : Prop where
  cls : device.cls = .block
  sectorSize : device.blockOps.sectorSize < wordSize
  capacity : device.blockOps.capacity < wordSize
  read : Fetches device content device.blockOps.read
  readSync : Fetches device content device.blockOps.readSync
  write : Stores device content device.blockOps.write
  writeSync : Stores device content device.blockOps.writeSync

/-- The range is one that reads and writes of the device do not refuse. -/
def Accepted (device : Device δ) (sector count : Nat) : Prop :=
  count = 0 ∨ verifySectorRange sector count device.blockOps.capacity device.blockOps.sectorSize = .EOK

/-- Between `s` and `s'` the buffer has been written to the range, from which it can be read back. -/
structure Placed (device : Device δ) (content : δ → Nat → List UInt8) (sector count buf : Nat)
    (s s' : BlockState δ) : Prop where
  stored : ∀ i < count, content s'.data (sector + i) =
    s.mem.bytes (buf + i * device.blockOps.sectorSize) device.blockOps.sectorSize
  others : ∀ n, n < sector ∨ sector + count ≤ n → content s'.data n = content s.data n
  inside : ∀ req ∈ s'.issued.drop s.issued.length, buf ≤ req.buf ∧
    req.buf + device.blockOps.sectorSize ≤ buf + count * device.blockOps.sectorSize
  back : ∀ (mem : Mem) (dest : Nat) (block : Bool), dest + count * device.blockOps.sectorSize ≤ wordSize →
    ∃ s'', internalBlockRead device sector count dest block { s' with mem := mem } = (.ok .EOK, s'') ∧
      s''.mem.bytes dest (count * device.blockOps.sectorSize) =
        s.mem.bytes buf (count * device.blockOps.sectorSize) ∧
      ∀ x, x < dest ∨ dest + count * device.blockOps.sectorSize ≤ x → s''.mem x = mem x

/-- Whatever the buffer holds, writing it to the range returns and places it there. -/
def WritePlaces (device : Device δ) (content : δ → Nat → List UInt8) (sector count buf : Nat) (block : Bool)
    (d : δ) : Prop :=
  ∀ (mem : Mem) (issued : List SectorRequest),
    ∃ s', internalBlockWrite device sector count buf block ⟨mem, d, issued⟩ = (.ok .EOK, s') ∧
      Placed device content sector count buf ⟨mem, d, issued⟩ s'

lemma verify_ok {capacity sectorSize : Nat} (h : verifySectorRange sector count capacity sectorSize = .EOK) :
    0 < sectorSize ∧ sector < capacity / sectorSize ∧ wadd sector count < capacity / sectorSize := by
  unfold verifySectorRange at h
  split at h
  · cases h
  · split at h
    · cases h
    · split at h
      · cases h
      · omega

lemma each_issue (op : SectorOp δ) (addr : Nat → Nat) (l : List Nat) (s : BlockState δ) :
    ∃ s', Call.each (fun sect => issue op sect (addr sect)) l s = (.ok (), s') ∧
      s'.issued = s.issued ++ l.map (fun sect => ⟨sect, addr sect⟩) := by
  induction l generalizing s with
  | nil => exact ⟨s, rfl, by simp⟩
  | cons sect l ih =>
    obtain ⟨s', hrun, hissued⟩ := ih (issue op sect (addr sect) s).2
    refine ⟨s', ?_, ?_⟩
    · rw [Call.each, Call.bind_ok (Call.eq_of_fst rfl)]
      exact hrun
    · rw [hissued, List.map_cons]
      exact List.append_assoc _ [_] _

lemma each_stores {op : SectorOp δ} (hop : Stores device content op) (addr : Nat → Nat) (l : List Nat)
    (hl : ∀ sect ∈ l, OnDevice device sect (addr sect)) (s : BlockState δ) :
    ∃ s', Call.each (fun sect => issue op sect (addr sect)) l s = (.ok (), s') ∧ s'.mem = s.mem ∧
      ∀ n, content s'.data n =
        if n ∈ l then s.mem.bytes (addr n) device.blockOps.sectorSize else content s.data n := by
  induction l generalizing s with
  | nil => exact ⟨s, rfl, rfl, fun _ => rfl⟩
  | cons sect l ih =>
    obtain ⟨d', hstore, hcontent⟩ := hop s.mem s.data (hl sect List.mem_cons_self)
    let s₁ : BlockState δ := ⟨s.mem, d', s.issued ++ [⟨sect, addr sect⟩]⟩
    have hfirst : issue op sect (addr sect) s = (.ok (), s₁) := by
      rw [issue, Call.update, hstore]
    obtain ⟨s', hrun, hmem, hrest⟩ := ih (fun n hn => hl n (List.mem_cons_of_mem sect hn)) s₁
    refine ⟨s', ?_, hmem, ?_⟩
    · rw [Call.each, Call.bind_ok hfirst, hrun]
    · intro n
      rw [hrest n]
      by_cases hn : n ∈ l
      · rw [if_pos hn, if_pos (List.mem_cons_of_mem sect hn)]
      · rw [if_neg hn]
        show content d' n = _
        by_cases heq : n = sect
        · rw [if_pos (heq ▸ List.mem_cons_self), hcontent, heq, Function.update_self]
        · rw [if_neg (by simp [heq, hn]), hcontent, Function.update_of_ne heq]

lemma each_fetches {op : SectorOp δ} (hop : Fetches device content op) (sector dest j k : Nat)
    (hl : ∀ i < j + k, OnDevice device (sector + i) (dest + i * device.blockOps.sectorSize)) (s : BlockState δ) :
    ∃ s', Call.each (fun sect => issue op sect (dest + (sect - sector) * device.blockOps.sectorSize))
        (List.range' (sector + j) k) s = (.ok (), s') ∧
      content s'.data = content s.data ∧
      (∀ i, j ≤ i → i < j + k → s'.mem.bytes (dest + i * device.blockOps.sectorSize) device.blockOps.sectorSize =
        content s.data (sector + i)) ∧
      ∀ x, x < dest + j * device.blockOps.sectorSize ∨ dest + (j + k) * device.blockOps.sectorSize ≤ x →
        s'.mem x = s.mem x := by
  set e := device.blockOps.sectorSize with he
  induction k generalizing j s with
  | zero => exact ⟨s, rfl, rfl, fun i h1 h2 => absurd h1 (by omega), fun _ _ => rfl⟩
  | succ k ih =>
    obtain ⟨mem', d', hfetch, hcontent, hbytes, hmem⟩ := hop s.mem s.data (hl j (by omega))
    let s₁ : BlockState δ := ⟨mem', d', s.issued ++ [⟨sector + j, dest + j * e⟩]⟩
    have hfirst : issue op (sector + j) (dest + (sector + j - sector) * e) s = (.ok (), s₁) := by
      rw [Nat.add_sub_cancel_left, issue, Call.update, hfetch]
    obtain ⟨s', hrun, hcontent', hbytes', hmem'⟩ := ih (j + 1) s₁ (fun i hi => hl i (by omega))
    have hnext : (j + 1) * e = j * e + e := Nat.succ_mul j e
    have hlast : (j + (k + 1)) * e = j * e + (k + 1) * e := Nat.add_mul j (k + 1) e
    have hlast' : (j + 1 + k) * e = (j + (k + 1)) * e := by rw [Nat.add_assoc j 1 k, Nat.add_comm 1 k]
    have hk : e ≤ (k + 1) * e := Nat.le_mul_of_pos_left e (Nat.succ_pos k)
    refine ⟨s', ?_, hcontent'.trans hcontent, ?_, ?_⟩
    · rw [List.range'_succ, Call.each, Call.bind_ok hfirst]
      exact hrun
    · intro i h1 h2
      by_cases hi : i = j
      · subst hi
        -- the later sectors lie behind this one
        have hsame : s'.mem.bytes (dest + i * e) e = mem'.bytes (dest + i * e) e :=
          Mem.bytes_congr (fun x hx hx' => hmem' x (.inl (by omega)))
        rw [hsame, hbytes]
      · rw [hbytes' i (by omega) (by omega)]
        exact congrFun hcontent _
    · intro x hx
      rw [hmem' x (by omega)]
      exact hmem x (by omega)

/-- A range that does not wrap around and is not refused. -/
structure OnRange (device : Device δ) (sector count : Nat) : Prop where
  pos : 0 < device.blockOps.sectorSize
  range : sector + count < device.blockOps.capacity / device.blockOps.sectorSize
  bytes : (sector + count) * device.blockOps.sectorSize < wordSize

/-- The operation that the reads use. -/
def readOp (device : Device δ) (block : Bool) : SectorOp δ :=
  if block then device.blockOps.readSync else device.blockOps.read

/-- The operation that the writes use. -/
def writeOp (device : Device δ) (block : Bool) : SectorOp δ :=
  if block then device.blockOps.writeSync else device.blockOps.write

lemma sectors_of_lt (hwrap : sector + count < wordSize) : sectors sector count = List.range' sector count := by
  rw [sectors, wadd_of_lt hwrap, Nat.add_sub_cancel_left]

lemma sectors_of_wrap (hcount : count < wordSize) (hsector : sector < wordSize) (hwrap : wordSize ≤ sector + count) :
    sectors sector count = [] := by
  have h1 : wadd sector count - sector = 0 := by
    unfold wadd wordSize at *
    omega
  rw [sectors, h1, List.range'_zero]

lemma slot_addr {e i : Nat} (he : 0 < e) (hi : i < count) (hbuf : buf + count * e ≤ wordSize) :
    wadd buf (wmul i e) = buf + i * e ∧ i * e + e ≤ count * e := by
  have h1 : (i + 1) * e ≤ count * e := Nat.mul_le_mul_right e hi
  rw [Nat.succ_mul] at h1
  have h2 : buf + count * e ≤ 2 ^ 64 := hbuf
  refine ⟨?_, h1⟩
  rw [wmul_of_lt (by omega), wadd_of_lt (by omega)]

section Range

variable (hdev : SectorDevice device content) (haccepted : Accepted device sector count)
include hdev

lemma SectorDevice.fetches (block : Bool) : Fetches device content (readOp device block) := by
  cases block with
  | true => exact hdev.readSync
  | false => exact hdev.read

lemma SectorDevice.stores (block : Bool) : Stores device content (writeOp device block) := by
  cases block with
  | true => exact hdev.writeSync
  | false => exact hdev.write

include haccepted

lemma SectorDevice.onRange (hcount : count ≠ 0) (hwrap : sector + count < wordSize) : OnRange device sector count := by
  obtain ⟨hpos, -, hrange⟩ := verify_ok (haccepted.resolve_left hcount)
  rw [wadd_of_lt hwrap] at hrange
  refine ⟨hpos, hrange, ?_⟩
  have h1 := Nat.mul_le_mul_right device.blockOps.sectorSize (Nat.le_of_lt hrange)
  exact Nat.lt_of_le_of_lt (Nat.le_trans h1 (Nat.div_mul_le_self _ _)) hdev.capacity

lemma SectorDevice.write_eq (hcount : count ≠ 0) (buf : Nat) (block : Bool) (s : BlockState δ) :
    internalBlockWrite device sector count buf block s =
      (do
        Call.each (fun sect => issue (writeOp device block) sect (wadd buf (wmul sect device.blockOps.sectorSize)))
          (sectors sector count)
        return .EOK : BlockCall δ Errno) s := by
  have hverify := haccepted.resolve_left hcount
  unfold internalBlockWrite
  rw [assertThat_true hdev.cls, Call.lift_ok_bind, if_neg hcount]
  dsimp only
  rw [if_neg (by rw [hverify]; decide)]
  cases block <;> rfl

lemma SectorDevice.read_eq (hcount : count ≠ 0) (buf : Nat) (block : Bool) (s : BlockState δ) :
    internalBlockRead device sector count buf block s =
      (do
        Call.each (fun sect =>
          issue (readOp device block) sect (wadd buf (wmul (wsub sect sector) device.blockOps.sectorSize)))
          (sectors sector count)
        return .EOK : BlockCall δ Errno) s := by
  have hverify := haccepted.resolve_left hcount
  unfold internalBlockRead
  rw [assertThat_true hdev.cls, Call.lift_ok_bind, if_neg hcount]
  dsimp only
  rw [if_neg (by rw [hverify]; decide)]
  cases block <;> rfl

/-- A read fetches the sectors of the range into the buffer, one after the other. -/
lemma SectorDevice.read_spec (hcount : count ≠ 0) (hwrap : sector + count < wordSize) (dest : Nat) (block : Bool)
    (hdest : dest + count * device.blockOps.sectorSize ≤ wordSize) (s : BlockState δ) :
    ∃ s', internalBlockRead device sector count dest block s = (.ok .EOK, s') ∧
      (∀ i < count, s'.mem.bytes (dest + i * device.blockOps.sectorSize) device.blockOps.sectorSize =
        content s.data (sector + i)) ∧
      ∀ x, x < dest ∨ dest + count * device.blockOps.sectorSize ≤ x → s'.mem x = s.mem x := by
  have hrange := hdev.onRange haccepted hcount hwrap
  have hcap := hrange.range
  have hloop : Call.each (fun sect => issue (readOp device block) sect
        (wadd dest (wmul (wsub sect sector) device.blockOps.sectorSize))) (List.range' sector count) =
      Call.each (fun sect => issue (readOp device block) sect (dest + (sect - sector) * device.blockOps.sectorSize))
        (List.range' (sector + 0) count) := by
    apply Call.each_congr
    intro sect hsect
    obtain ⟨h1, h2⟩ := List.mem_range'_1.mp hsect
    rw [wsub_of_le h1 (Nat.lt_trans h2 hwrap), (slot_addr hrange.pos (by omega) hdest).1]
  have hon : ∀ i < 0 + count, OnDevice device (sector + i) (dest + i * device.blockOps.sectorSize) := by
    intro i hi
    have h1 := (slot_addr hrange.pos (show i < count by omega) hdest).2
    exact ⟨by omega, by omega⟩
  obtain ⟨s', hrun, -, hbytes, hmem⟩ := each_fetches (hdev.fetches block) sector dest 0 count hon s
  refine ⟨s', ?_, fun i hi => hbytes i (Nat.zero_le i) (by omega), fun x hx => hmem x ?_⟩
  · rw [hdev.read_eq haccepted hcount, sectors_of_lt hwrap, hloop, Call.bind_ok hrun]
    rfl
  · rw [Nat.zero_mul, Nat.zero_add]
    exact hx

lemma SectorDevice.write_first (hsector : sector = 0) (hcount : count ≠ 0) (hwrap : count < wordSize)
    (hbuf : buf + count * device.blockOps.sectorSize ≤ wordSize) (block : Bool) (s : BlockState δ) :
    ∃ s', internalBlockWrite device sector count buf block s = (.ok .EOK, s') ∧
      Placed device content sector count buf s s' := by
  subst hsector
  have hwrap : 0 + count < wordSize := by omega
  have hrange := hdev.onRange haccepted hcount hwrap
  have hcap := hrange.range
  have hslot : ∀ i < count, _ := fun i hi => slot_addr hrange.pos hi hbuf
  have hon : ∀ sect ∈ List.range' 0 count,
      OnDevice device sect (wadd buf (wmul sect device.blockOps.sectorSize)) := by
    intro sect hsect
    obtain ⟨-, h2⟩ := List.mem_range'_1.mp hsect
    obtain ⟨h3, h4⟩ := hslot sect (by omega)
    rw [h3]
    exact ⟨by omega, by omega⟩
  obtain ⟨s', hrun, -, hcontent⟩ := each_stores (hdev.stores block) _ _ hon s
  obtain ⟨s₁, hrun₁, hissued⟩ := each_issue (writeOp device block)
    (fun sect => wadd buf (wmul sect device.blockOps.sectorSize)) (List.range' 0 count) s
  obtain ⟨-, rfl⟩ := Prod.mk.inj (hrun.symm.trans hrun₁)
  have hstored : ∀ i < count, content s'.data (0 + i) =
      s.mem.bytes (buf + i * device.blockOps.sectorSize) device.blockOps.sectorSize := by
    intro i hi
    rw [Nat.zero_add, hcontent i, if_pos (List.mem_range'_1.mpr ⟨Nat.zero_le i, by omega⟩), (hslot i hi).1]
  refine ⟨s', ?_, hstored, ?_, ?_, ?_⟩
  · rw [hdev.write_eq haccepted hcount, sectors_of_lt hwrap, Call.bind_ok hrun]
    rfl
  · intro n hn
    rw [hcontent n, if_neg]
    intro hmem
    obtain ⟨-, h2⟩ := List.mem_range'_1.mp hmem
    omega
  · intro req hreq
    rw [hissued, List.drop_left] at hreq
    obtain ⟨sect, hsect, rfl⟩ := List.mem_map.mp hreq
    obtain ⟨-, h2⟩ := List.mem_range'_1.mp hsect
    obtain ⟨h3, h4⟩ := hslot sect (by omega)
    dsimp only
    rw [h3]
    exact ⟨by omega, by omega⟩
  · intro mem dest block' hdest
    obtain ⟨s'', hback, hbytes, hother⟩ :=
      hdev.read_spec haccepted hcount hwrap dest block' hdest { s' with mem := mem }
    refine ⟨s'', hback, Mem.bytes_eq_of_slots count ?_, hother⟩
    intro i hi
    rw [hbytes i hi]
    exact hstored i hi

lemma SectorDevice.write_later (hsector : sector ≠ 0) (hcount : count ≠ 0) (hwrap : sector + count < wordSize)
    (hbuf : buf + count * device.blockOps.sectorSize ≤ wordSize) (block : Bool) {s' : BlockState δ}
    (hrun : internalBlockWrite device sector count buf block s = (.ok .EOK, s')) :
    ∃ req ∈ s'.issued.drop s.issued.length,
      ¬(buf ≤ req.buf ∧ req.buf + device.blockOps.sectorSize ≤ buf + count * device.blockOps.sectorSize) := by
  have hrange := hdev.onRange haccepted hcount hwrap
  have hpos := hrange.pos
  have hbytes : (sector + count) * device.blockOps.sectorSize < 2 ^ 64 := hrange.bytes
  have hbuf : buf + count * device.blockOps.sectorSize ≤ 2 ^ 64 := hbuf
  obtain ⟨s₁, hrun₁, hissued⟩ := each_issue (writeOp device block)
    (fun sect => wadd buf (wmul sect device.blockOps.sectorSize)) (List.range' sector count) s
  rw [hdev.write_eq haccepted hcount, sectors_of_lt hwrap, Call.bind_ok hrun₁] at hrun
  obtain ⟨-, rfl⟩ := Prod.mk.inj hrun
  refine ⟨⟨sector + count - 1, wadd buf (wmul (sector + count - 1) device.blockOps.sectorSize)⟩, ?_, ?_⟩
  · rw [hissued, List.drop_left]
    exact List.mem_map.mpr ⟨sector + count - 1, List.mem_range'_1.mpr ⟨by omega, by omega⟩, rfl⟩
  · have hlast : (sector + count - 1) * device.blockOps.sectorSize + device.blockOps.sectorSize =
        (sector + count) * device.blockOps.sectorSize := by
      rw [← Nat.succ_mul]
      congr 1
      omega
    have hbehind : count * device.blockOps.sectorSize ≤ (sector + count - 1) * device.blockOps.sectorSize :=
      Nat.mul_le_mul_right _ (by omega)
    have haddr : wmul (sector + count - 1) device.blockOps.sectorSize =
        (sector + count - 1) * device.blockOps.sectorSize := wmul_of_lt (by omega)
    rw [haddr]
    show ¬(buf ≤ (buf + _) % 2 ^ 64 ∧ (buf + _) % 2 ^ 64 + _ ≤ _)
    omega

lemma SectorDevice.write_wraps (hsector : sector < wordSize) (hlt : count < wordSize) (hcount : count ≠ 0)
    (hwrap : wordSize ≤ sector + count) (block : Bool) :
    internalBlockWrite device sector count buf block s = (.ok .EOK, s) := by
  rw [hdev.write_eq haccepted hcount, sectors_of_wrap hlt hsector hwrap]
  rfl

end Range

/-- **Block writes.** On a device that stores and fetches sectors, a write of an accepted range places the
buffer in the range exactly when the range begins with the first sector or is empty. -/
theorem block_write_places_iff (hdev : SectorDevice device content) (hsector : sector < wordSize)
    (hcount : count < wordSize) (haccepted : Accepted device sector count)
    (hbuf : buf + count * device.blockOps.sectorSize ≤ wordSize) (block : Bool) (d : δ) :
    WritePlaces device content sector count buf block d ↔ sector = 0 ∨ count = 0 := by
  constructor
  · intro h
    by_contra hne
    push Not at hne
    obtain ⟨hfirst, hsome⟩ := hne
    by_cases hwrap : sector + count < wordSize
    · obtain ⟨s', hrun, hplaced⟩ := h (fun _ => 0) []
      obtain ⟨req, hreq, hout⟩ := hdev.write_later haccepted hfirst hsome hwrap hbuf block hrun
      exact hout (hplaced.inside req hreq)
    · -- nothing is written, so the first sector cannot follow the buffer
      have hpos := (verify_ok (haccepted.resolve_left hsome)).1
      have hstays : ∀ mem : Mem, content d sector = mem.bytes buf device.blockOps.sectorSize := by
        intro mem
        obtain ⟨s', hrun, hplaced⟩ := h mem []
        rw [hdev.write_wraps haccepted hsector hcount hsome (by omega) block] at hrun
        obtain ⟨-, rfl⟩ := Prod.mk.inj hrun
        have hstored := hplaced.stored 0 (by omega)
        rwa [Nat.add_zero, Nat.zero_mul, Nat.add_zero] at hstored
      have heq := congrArg List.head? ((hstays (fun _ => 0)).symm.trans (hstays (fun _ => 1)))
      obtain ⟨e, he⟩ := Nat.exists_eq_succ_of_ne_zero (Nat.ne_of_gt hpos)
      rw [he, Mem.bytes, Mem.bytes, List.range_succ_eq_map, List.map_cons, List.map_cons, List.head?_cons,
        List.head?_cons] at heq
      exact absurd heq (by decide)
  · intro h mem issued
    by_cases hempty : count = 0
    · subst hempty
      refine ⟨⟨mem, d, issued⟩, ?_, fun i hi => absurd hi (Nat.not_lt_zero i), fun _ _ => rfl, ?_, ?_⟩
      · unfold internalBlockWrite
        rw [assertThat_true hdev.cls, Call.lift_ok_bind]
        rfl
      · intro req hreq
        rw [List.drop_length] at hreq
        cases hreq
      · intro mem' dest block' _
        refine ⟨⟨mem', d, issued⟩, ?_, ?_, fun _ _ => rfl⟩
        · unfold internalBlockRead
          rw [assertThat_true hdev.cls, Call.lift_ok_bind]
          rfl
        · rw [Nat.zero_mul]
          rfl
    · exact hdev.write_first haccepted (h.resolve_right hempty) hempty hcount hbuf block ⟨mem, d, issued⟩

/-- A device of four sectors of one byte. -/
def ramDisk : Device (Nat → UInt8) where
  cls := .block
  blockOps :=
    { readSync := fun sector buf p => (.EOK, p.1.set buf (p.2 sector), p.2)
      read := fun sector buf p => (.EOK, p.1.set buf (p.2 sector), p.2)
      writeSync := fun sector buf p => (.EOK, p.1, Function.update p.2 sector (p.1 buf))
      write := fun sector buf p => (.EOK, p.1, Function.update p.2 sector (p.1 buf))
      sectorSize := 1
      capacity := 4 }

/-- What a sector of `ramDisk` holds. -/
def ramContent (d : Nat → UInt8) (n : Nat) : List UInt8 := [d n]

lemma sectorDevice_ramDisk : SectorDevice ramDisk ramContent := by
  have hread : Fetches ramDisk ramContent ramDisk.blockOps.read := by
    intro sector buf mem d _
    refine ⟨mem.set buf (d sector), d, rfl, rfl, ?_, ?_⟩
    · show [mem.set buf (d sector) buf] = [d sector]
      rw [Mem.set_same]
    · intro x hx
      change x < buf ∨ buf + 1 ≤ x at hx
      exact Mem.set_other mem _ (by omega)
  have hwrite : Stores ramDisk ramContent ramDisk.blockOps.write := by
    intro sector buf mem d _
    refine ⟨Function.update d sector (mem buf), rfl, ?_⟩
    funext n
    by_cases hn : n = sector
    · subst hn
      rw [ramContent, Function.update_self, Function.update_self]
      rfl
    · rw [ramContent, Function.update_of_ne hn, Function.update_of_ne hn]
      rfl
  exact ⟨rfl, by decide, by decide, hread, hread, hwrite, hwrite⟩

/-- Two sectors from the first one on are written as they should. -/
theorem block_write_places_iff_first :
    SectorDevice ramDisk ramContent ∧ Accepted ramDisk 0 2 ∧
      WritePlaces ramDisk ramContent 0 2 0x100 false (fun _ => 0) := by
  have haccepted : Accepted ramDisk 0 2 := .inr (by decide)
  exact ⟨sectorDevice_ramDisk, haccepted,
    (block_write_places_iff sectorDevice_ramDisk (by decide) (by decide) haccepted (by decide) false _).mpr (.inl rfl)⟩

/-- One byte written to the second sector is the byte behind the buffer. -/
theorem block_write_misplaces_second_sector :
    SectorDevice ramDisk ramContent ∧ Accepted ramDisk 1 1 ∧
      (∃ s', blockWrite ramDisk 1 1 0x100 ⟨fun a => UInt8.ofNat a, fun _ => 7, []⟩ = (.ok .EOK, s') ∧
        s'.issued = [⟨1, 0x101⟩] ∧ s'.data 1 = 1) ∧
      ¬WritePlaces ramDisk ramContent 1 1 0x100 false (fun _ => 7) ∧
      ¬WritePlaces ramDisk ramContent 1 1 0x100 true (fun _ => 7) := by
  refine ⟨sectorDevice_ramDisk, .inr (by decide), ⟨_, rfl, rfl, rfl⟩, ?_, ?_⟩
  · intro h
    obtain ⟨s', hrun, hplaced⟩ := h (fun a => UInt8.ofNat a) []
    obtain ⟨-, rfl⟩ := Prod.mk.inj hrun
    exact absurd (hplaced.stored 0 (by decide)) (by decide)
  · intro h
    obtain ⟨s', hrun, hplaced⟩ := h (fun a => UInt8.ofNat a) []
    obtain ⟨-, rfl⟩ := Prod.mk.inj hrun
    exact absurd (hplaced.stored 0 (by decide)) (by decide)

end KaworuOS.Proofs
