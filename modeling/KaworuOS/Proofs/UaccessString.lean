import KaworuOS.Lib.Outcome
import KaworuOS.Proofs.Uaccess

/-!
# Strings of the user

For every byte, `copy_from_user_string` checks the `max_len` bytes that begin there, and of these
`user_range_valid` looks at the page of the last one only. The check for the byte at `index` is thus
about the page of the byte at `index + max_len - 1`.
-/

namespace KaworuOS.Proofs
open Lib

variable {s : Mm} {table src n : Nat}

/-- What `user_range_valid` makes of the `n` bytes from `p` on. -/
def rangeVerdict (table p n : Nat) (writable readable : Bool) (s : Mm) : Except Halt Bool :=
  if isWithinUserVmRange p n then lastPageVerdict table (wsub (wadd p n) 1) writable readable s else .ok false

lemma userRangeValid_run (table p n : Nat) (writable readable : Bool) (s : Mm) :
    userRangeValid table p n writable readable s = (rangeVerdict table p n writable readable s, s) := by
  unfold rangeVerdict
  by_cases hin : isWithinUserVmRange p n = true
  · rw [if_pos hin, userRangeValid_eq writable readable hin s]
  · rw [if_neg hin, userRangeValid, if_neg hin]
    rfl

/-- The byte that the hardware reads for the user address `x`. -/
def userByte (table : Nat) (s : Mm) (x : Nat) : Option UInt8 :=
  (translate table x s).map fun pa => s.mem (wadd pa s.hhdm)

/-- The address lies in the user range, in a mapped page that the user may read. -/
def UserReadable (table : Nat) (s : Mm) (x : Nat) : Prop :=
  USER_VM_RANGE_BASE ≤ x ∧ x < USER_VM_RANGE_END ∧
    (validDesc table (x / 4096 * 4096) s).any (permits false true) = true

instance : Decidable (UserReadable table s x) := inferInstanceAs (Decidable (_ ∧ _ ∧ _))

lemma UserReadable.byte {x : Nat} (h : UserReadable table s x) : ∃ c, userByte table s x = some c := by
  have hne : translate table x s ≠ none := by
    apply translate_ne_none
    intro hnone
    have hdesc := h.2.2
    rw [hnone] at hdesc
    cases hdesc
  obtain ⟨pa, hpa⟩ := Option.ne_none_iff_exists'.mp hne
  exact ⟨_, by rw [userByte, hpa]; rfl⟩

section Scan

/-- The loop over the bytes `i`, `i + 1`, …: `check` tells whether a byte may be read, and `byte` reads it. -/
def scan (check : Nat → Except Halt Bool) (byte : Nat → Option UInt8) : Nat → Nat → Except Halt (Nat × List UInt8)
  | 0, _ => .ok (Errno.ENAMETOOLONG.code, [])
  | left + 1, i => do
    if ← check i then
      match byte i with
      | none => .error .fault
      | some c =>
        if c = 0 then .ok (Errno.EOK.code, [c])
        else do
          let (err, bytes) ← scan check byte left (i + 1)
          .ok (err, c :: bytes)
    else .ok (Errno.EFAULT.code, [])

variable {check : Nat → Except Halt Bool} {byte : Nat → Option UInt8}

/-- The loop passes byte `i`. -/
def Passes (check : Nat → Except Halt Bool) (byte : Nat → Option UInt8) (i : Nat) : Prop :=
  check i = .ok true ∧ ∃ c, byte i = some c ∧ c ≠ 0

/-- The bytes from `i` up to `k`. -/
def bytesFrom (byte : Nat → Option UInt8) (i k : Nat) : List UInt8 :=
  (List.range' i (k - i)).map fun m => (byte m).getD 0

/-- How the loop ends with `left` bytes to go from `i` on: at byte `k`, after those before it have passed, or
after all have passed. -/
inductive ScanEnd (check : Nat → Except Halt Bool) (byte : Nat → Option UInt8) (left i : Nat) :
    Except Halt (Nat × List UInt8) → Prop
  | refused {k : Nat} (hi : i ≤ k) (hk : k < i + left) (hpass : ∀ m, i ≤ m → m < k → Passes check byte m)
      (hcheck : check k = .ok false) : ScanEnd check byte left i (.ok (Errno.EFAULT.code, bytesFrom byte i k))
  | nul {k : Nat} (hi : i ≤ k) (hk : k < i + left) (hpass : ∀ m, i ≤ m → m < k → Passes check byte m)
      (hcheck : check k = .ok true) (hnul : byte k = some 0) :
      ScanEnd check byte left i (.ok (Errno.EOK.code, bytesFrom byte i (k + 1)))
  | halt {k : Nat} {e : Halt} (hi : i ≤ k) (hk : k < i + left) (hpass : ∀ m, i ≤ m → m < k → Passes check byte m)
      (hhalt : check k = .error e ∨ check k = .ok true ∧ byte k = none) : ScanEnd check byte left i (.error e)
  | long (hpass : ∀ m, i ≤ m → m < i + left → Passes check byte m) :
      ScanEnd check byte left i (.ok (Errno.ENAMETOOLONG.code, bytesFrom byte i (i + left)))

lemma bytesFrom_self (byte : Nat → Option UInt8) (i : Nat) : bytesFrom byte i i = [] := by
  rw [bytesFrom, Nat.sub_self]
  rfl

lemma bytesFrom_cons {i k : Nat} {c : UInt8} (h : byte i = some c) (hk : i < k) :
    bytesFrom byte i k = c :: bytesFrom byte (i + 1) k := by
  have hlen : k - i = k - (i + 1) + 1 := by omega
  rw [bytesFrom, hlen, List.range'_succ, List.map_cons, h]
  rfl

lemma passes_cons {i j : Nat} (hi : Passes check byte i) (hrest : ∀ m, i + 1 ≤ m → m < j → Passes check byte m) :
    ∀ m, i ≤ m → m < j → Passes check byte m := by
  intro m h1 h2
  by_cases him : m = i
  · rwa [him]
  · exact hrest m (by omega) h2

lemma scan_end (left i : Nat) : ScanEnd check byte left i (scan check byte left i) := by
  induction left generalizing i with
  | zero =>
    have h : ScanEnd check byte 0 i _ := .long fun m h1 h2 => by omega
    rwa [Nat.add_zero, bytesFrom_self] at h
  | succ left ih =>
    have hlt : i < i + (left + 1) := by omega
    have hnone : ∀ m, i ≤ m → m < i → Passes check byte m := fun m h1 h2 => by omega
    rw [scan]
    rcases hcheck : check i with e | ok
    · exact .halt (le_refl i) hlt hnone (.inl hcheck)
    rw [ok_bind]
    cases ok with
    | false =>
      have h := ScanEnd.refused (le_refl i) hlt hnone hcheck
      rwa [bytesFrom_self] at h
    | true =>
      rw [if_pos rfl]
      cases hbyte : byte i with
      | none => exact .halt (le_refl i) hlt hnone (.inr ⟨hcheck, hbyte⟩)
      | some c =>
        dsimp only
        by_cases hc : c = 0
        · subst hc
          have h := ScanEnd.nul (le_refl i) hlt hnone hcheck hbyte
          rwa [bytesFrom_cons hbyte (Nat.lt_succ_self i), bytesFrom_self] at h
        · rw [if_neg hc]
          have hi : Passes check byte i := ⟨hcheck, c, hbyte, hc⟩
          have hrest := ih (i + 1)
          revert hrest
          generalize scan check byte left (i + 1) = r
          intro hrest
          have hlen : i + 1 + left = i + (left + 1) := by omega
          cases hrest with
          | refused h1 h2 hpass hcheck' =>
            have h := ScanEnd.refused (by omega : i ≤ _) (hlen ▸ h2) (passes_cons hi hpass) hcheck'
            rwa [bytesFrom_cons hbyte h1] at h
          | nul h1 h2 hpass hcheck' hnul =>
            have h := ScanEnd.nul (by omega : i ≤ _) (hlen ▸ h2) (passes_cons hi hpass) hcheck' hnul
            rwa [bytesFrom_cons hbyte (by omega)] at h
          | halt h1 h2 hpass hhalt => exact .halt (by omega) (hlen ▸ h2) (passes_cons hi hpass) hhalt
          | long hpass =>
            have h := ScanEnd.long (hlen ▸ passes_cons hi hpass)
            rwa [bytesFrom_cons hbyte hlt, ← hlen] at h

/-- A NUL is reached over readable bytes. -/
def NulFirst (readable : Nat → Prop) (byte : Nat → Option UInt8) (n : Nat) : Prop :=
  ∃ k < n, byte k = some 0 ∧ ∀ i ≤ k, readable i

/-- An unreadable byte comes before any NUL. -/
def UnreadableFirst (readable : Nat → Prop) (byte : Nat → Option UInt8) (n : Nat) : Prop :=
  ∃ k < n, ¬readable k ∧ ∀ i < k, readable i ∧ byte i ≠ some 0

/-- All bytes are readable, and none is NUL. -/
def NoNul (readable : Nat → Prop) (byte : Nat → Option UInt8) (n : Nat) : Prop :=
  ∀ i < n, readable i ∧ byte i ≠ some 0

/-- What the copy of a string of at most `n` bytes should return and store. -/
structure StringOutcome (readable : Nat → Prop) (byte : Nat → Option UInt8) (n err : Nat) (bytes : List UInt8) :
    Prop where
  ok_iff : err = Errno.EOK.code ↔ NulFirst readable byte n
  fault_iff : err = Errno.EFAULT.code ↔ UnreadableFirst readable byte n
  long_iff : err = Errno.ENAMETOOLONG.code ↔ NoNul readable byte n
  stored : err = Errno.EOK.code → ∃ k, byte k = some 0 ∧ (∀ i < k, byte i ≠ some 0) ∧ bytes = bytesFrom byte 0 (k + 1)
  validated : ∀ i < bytes.length, readable i

variable {readable : Nat → Prop} {j : Nat}

lemma NulFirst.not_unreadableFirst (h : NulFirst readable byte n) : ¬UnreadableFirst readable byte n := by
  obtain ⟨k, -, hnul, hread⟩ := h
  rintro ⟨m, -, hm, hbefore⟩
  by_cases hkm : k < m
  · exact (hbefore k hkm).2 hnul
  · exact hm (hread m (by omega))

lemma NulFirst.not_noNul (h : NulFirst readable byte n) : ¬NoNul readable byte n := by
  obtain ⟨k, hk, hnul, -⟩ := h
  exact fun hno => (hno k hk).2 hnul

lemma UnreadableFirst.not_noNul (h : UnreadableFirst readable byte n) : ¬NoNul readable byte n := by
  obtain ⟨k, hk, hread, -⟩ := h
  exact fun hno => hread (hno k hk).1

lemma length_bytesFrom (byte : Nat → Option UInt8) (i k : Nat) : (bytesFrom byte i k).length = k - i := by
  rw [bytesFrom, List.length_map, List.length_range']

/-- Byte `j` decides the copy: it is the first that is NUL or unreadable, or the last. -/
structure Decides (readable : Nat → Prop) (byte : Nat → Option UInt8) (n j : Nat) : Prop where
  lt : j < n
  before : ∀ k < j, readable k ∧ byte k ≠ some 0
  stops : ¬readable j ∨ byte j = some 0 ∨ j + 1 = n

lemma exists_decides [DecidablePred readable] (hn : 1 ≤ n) : ∃ j, Decides readable byte n j := by
  have hex : ∃ j, ¬readable j ∨ byte j = some 0 ∨ j + 1 = n := ⟨n - 1, .inr (.inr (by omega))⟩
  refine ⟨Nat.find hex, ?_, ?_, Nat.find_spec hex⟩
  · have hle := Nat.find_min' hex (.inr (.inr (by omega : n - 1 + 1 = n)))
    omega
  · intro k hk
    have hmin := Nat.find_min hex hk
    rw [not_or, not_not, not_or] at hmin
    exact ⟨hmin.1, hmin.2.1⟩

lemma StringOutcome.of_nul (hd : Decides readable byte n j) (hread : readable j) (hnul : byte j = some 0) :
    StringOutcome readable byte n Errno.EOK.code (bytesFrom byte 0 (j + 1)) := by
  have hall : ∀ i ≤ j, readable i := by
    intro i hi
    by_cases hij : i = j
    · rwa [hij]
    · exact (hd.before i (by omega)).1
  have hfirst : NulFirst readable byte n := ⟨j, hd.lt, hnul, hall⟩
  refine ⟨iff_of_true rfl hfirst, iff_of_false (by decide) hfirst.not_unreadableFirst,
    iff_of_false (by decide) hfirst.not_noNul, fun _ => ⟨j, hnul, fun i hi => (hd.before i hi).2, rfl⟩, ?_⟩
  intro i hi
  rw [length_bytesFrom] at hi
  exact hall i (by omega)

lemma StringOutcome.of_unreadable (hd : Decides readable byte n j) (hread : ¬readable j) {k : Nat} (hk : k ≤ j) :
    StringOutcome readable byte n Errno.EFAULT.code (bytesFrom byte 0 k) := by
  have hfirst : UnreadableFirst readable byte n := ⟨j, hd.lt, hread, hd.before⟩
  refine ⟨iff_of_false (by decide) fun hnul => hnul.not_unreadableFirst hfirst, iff_of_true rfl hfirst,
    iff_of_false (by decide) hfirst.not_noNul, fun herr => absurd herr (by decide), ?_⟩
  intro i hi
  rw [length_bytesFrom] at hi
  exact (hd.before i (by omega)).1

lemma StringOutcome.of_noNul (hno : NoNul readable byte n) :
    StringOutcome readable byte n Errno.ENAMETOOLONG.code (bytesFrom byte 0 n) := by
  refine ⟨iff_of_false (by decide) fun hnul => hnul.not_noNul hno,
    iff_of_false (by decide) fun hun => hun.not_noNul hno,
    iff_of_true rfl hno, fun herr => absurd herr (by decide), ?_⟩
  intro i hi
  rw [length_bytesFrom] at hi
  exact (hno i (by omega)).1

/-- The checks up to byte `j` pass if it is readable, and otherwise one of them refuses, after those before it
have passed. -/
def ChecksDecide (check : Nat → Except Halt Bool) (readable : Nat → Prop) (j : Nat) : Prop :=
  (readable j ∧ ∀ i ≤ j, check i = .ok true) ∨
    (¬readable j ∧ ∃ i ≤ j, check i = .ok false ∧ ∀ m < i, check m = .ok true)

/-- The loop ends at the deciding byte or before it. -/
lemma Decides.stop_le (hd : Decides readable byte n j) (hread : readable j) {k : Nat} (hk : k < n)
    (hpass : ∀ m < k, Passes check byte m) : k ≤ j := by
  by_contra hlt
  obtain ⟨-, c, hc, hne⟩ := hpass j (by omega)
  rcases hd.stops with hun | hnul | hlast
  · exact hun hread
  · rw [hnul] at hc
    exact hne (Option.some.inj hc).symm
  · omega

lemma checksDecide_of_outcome (hd : Decides readable byte n j) {err : Nat} {bytes : List UInt8}
    (hscan : scan check byte n 0 = .ok (err, bytes)) (h : StringOutcome readable byte n err bytes) :
    ChecksDecide check readable j := by
  have hend : ScanEnd check byte n 0 _ := scan_end n 0
  rw [hscan] at hend
  by_cases hread : readable j
  · refine .inl ⟨hread, ?_⟩
    intro i hi
    cases hend with
    | refused =>
      obtain ⟨k, hk, hun, hbefore⟩ := h.fault_iff.mp rfl
      rcases lt_trichotomy k j with hkj | rfl | hkj
      · exact absurd (hd.before k hkj).1 hun
      · exact absurd hread hun
      · rcases hd.stops with hun' | hnul | hlast
        · exact absurd hread hun'
        · exact absurd hnul (hbefore j hkj).2
        · omega
    | @nul k _ hk hpass hcheck hnul =>
      have hjk : j ≤ k := by
        by_contra hlt
        exact (hd.before k (by omega)).2 hnul
      by_cases hik : i = k
      · rwa [hik]
      · exact (hpass i (Nat.zero_le i) (by omega)).1
    | long hpass =>
      have hlt := hd.lt
      exact (hpass i (Nat.zero_le i) (by omega)).1
  · refine .inr ⟨hread, ?_⟩
    have herr := h.fault_iff.mpr ⟨j, hd.lt, hread, hd.before⟩
    cases hend with
    | @refused k _ hk hpass hcheck =>
      refine ⟨k, ?_, hcheck, fun m hm => (hpass m (Nat.zero_le m) hm).1⟩
      by_contra hlt
      exact hread (h.validated j (by rw [length_bytesFrom]; omega))
    | nul _ hk hpass hcheck hnul => exact absurd herr (by decide)
    | long hpass => exact absurd herr (by decide)

lemma Decides.outcome_readable (hbyte : ∀ i, readable i → ∃ c, byte i = some c) (hd : Decides readable byte n j)
    (hread : readable j) (hcheck : ∀ i ≤ j, check i = .ok true) :
    ∃ err bytes, scan check byte n 0 = .ok (err, bytes) ∧ StringOutcome readable byte n err bytes := by
  have hend : ScanEnd check byte n 0 _ := scan_end n 0
  revert hend
  generalize scan check byte n 0 = r
  intro hend
  cases hend with
  | @refused k _ hk hpass hrefuses =>
    have hkj := hd.stop_le hread (by omega) fun m hm => hpass m (Nat.zero_le m) hm
    rw [hcheck k hkj] at hrefuses
    cases hrefuses
  | @nul k _ hk hpass _ hnul =>
    have hkj := hd.stop_le hread (by omega) fun m hm => hpass m (Nat.zero_le m) hm
    obtain rfl : k = j := by
      by_contra hne
      exact (hd.before k (by omega)).2 hnul
    exact ⟨_, _, rfl, .of_nul hd hread hnul⟩
  | @halt k e _ hk hpass hhalt =>
    have hkj := hd.stop_le hread (by omega) fun m hm => hpass m (Nat.zero_le m) hm
    have hk' : readable k := by
      by_cases heq : k = j
      · rwa [heq]
      · exact (hd.before k (by omega)).1
    obtain ⟨c, hc⟩ := hbyte k hk'
    rw [hcheck k hkj, hc] at hhalt
    rcases hhalt with hhalt | ⟨-, hhalt⟩
    · cases hhalt
    · cases hhalt
  | long hpass =>
    have hlt := hd.lt
    rw [Nat.zero_add] at hpass ⊢
    refine ⟨_, _, rfl, .of_noNul ?_⟩
    have hnul : byte j ≠ some 0 := by
      obtain ⟨-, c, hc, hne⟩ := hpass j (Nat.zero_le j) hlt
      rw [hc]
      exact fun heq => hne (Option.some.inj heq)
    have hlast : j + 1 = n := hd.stops.resolve_left (not_not.mpr hread) |>.resolve_left hnul
    intro m hm
    by_cases hmj : m = j
    · rw [hmj]
      exact ⟨hread, hnul⟩
    · exact hd.before m (by omega)

lemma Decides.outcome_refused (hbyte : ∀ i, readable i → ∃ c, byte i = some c) (hd : Decides readable byte n j)
    (hread : ¬readable j) {i : Nat} (hij : i ≤ j) (hrefuses : check i = .ok false)
    (hpasses : ∀ m < i, check m = .ok true) :
    ∃ err bytes, scan check byte n 0 = .ok (err, bytes) ∧ StringOutcome readable byte n err bytes := by
  have hend : ScanEnd check byte n 0 _ := scan_end n 0
  revert hend
  generalize scan check byte n 0 = r
  intro hend
  -- no byte behind the one that is refused is looked at
  have hle : ∀ {k}, (∀ m, 0 ≤ m → m < k → Passes check byte m) → k ≤ i := by
    intro k hpass
    by_contra hlt
    have hi := (hpass i (Nat.zero_le i) (by omega)).1
    rw [hrefuses] at hi
    cases hi
  cases hend with
  | refused _ hk hpass => exact ⟨_, _, rfl, .of_unreadable hd hread ((hle hpass).trans hij)⟩
  | @nul k _ hk hpass hcheck hnul =>
    have hne : k ≠ i := by
      rintro rfl
      rw [hrefuses] at hcheck
      cases hcheck
    have hki := hle hpass
    exact absurd hnul (hd.before k (by omega)).2
  | @halt k e _ hk hpass hhalt =>
    have hki := hle hpass
    by_cases heq : k = i
    · rw [heq, hrefuses] at hhalt
      rcases hhalt with hhalt | ⟨hhalt, -⟩
      · cases hhalt
      · cases hhalt
    · obtain ⟨c, hc⟩ := hbyte k (hd.before k (by omega)).1
      rw [hpasses k (by omega), hc] at hhalt
      rcases hhalt with hhalt | ⟨-, hhalt⟩
      · cases hhalt
      · cases hhalt
  | long hpass =>
    rw [Nat.zero_add] at hpass
    have hni := hle hpass
    have hlt := hd.lt
    omega

lemma outcome_of_checksDecide (hbyte : ∀ i, readable i → ∃ c, byte i = some c) (hd : Decides readable byte n j)
    (h : ChecksDecide check readable j) :
    ∃ err bytes, scan check byte n 0 = .ok (err, bytes) ∧ StringOutcome readable byte n err bytes := by
  rcases h with ⟨hread, hcheck⟩ | ⟨hread, i, hij, hrefuses, hpasses⟩
  · exact hd.outcome_readable hbyte hread hcheck
  · exact hd.outcome_refused hbyte hread hij hrefuses hpasses

end Scan

/-- The loop of the copy is the scan of the user's bytes. -/
lemma copyStringFrom_eq (table src n : Nat) (s : Mm) (left i : Nat) :
    copyStringFrom table src n left i s =
      (scan (fun k => rangeVerdict table (wadd k src) n false true s)
        (fun k => userByte table s (wadd k src)) left i, s) := by
  induction left generalizing i with
  | zero => rfl
  | succ left ih =>
    have hvalid := userRangeValid_run table (wadd i src) n false true s
    rw [copyStringFrom, scan]
    rcases hcheck : rangeVerdict table (wadd i src) n false true s with e | ok
    · rw [hcheck] at hvalid
      rw [Call.bind_error hvalid]
      rfl
    rw [hcheck] at hvalid
    rw [Call.bind_ok hvalid, ok_bind]
    cases ok with
    | false => rfl
    | true =>
      rw [if_pos rfl, if_pos rfl, Call.read_bind, userByte]
      dsimp only
      cases translate table (wadd i src) s with
      | none => rfl
      | some pa =>
        rw [Option.map_some]
        dsimp only
        rw [Call.read_bind]
        by_cases hc : s.mem (wadd pa s.hhdm) = 0
        · rw [if_pos hc, if_pos hc]
          rfl
        · rw [if_neg hc, if_neg hc]
          have hrest := ih (i + 1)
          rcases hscan : scan (fun k => rangeVerdict table (wadd k src) n false true s)
              (fun k => userByte table s (wadd k src)) left (i + 1) with e | r
          · rw [hscan] at hrest
            rw [Call.bind_error hrest]
            rfl
          · rw [hscan] at hrest
            rw [Call.bind_ok hrest]
            rfl

/-- The copy of a string is right if it returns, with the error code that the bytes of the string call for, has
stored the string if this is `EOK`, has read no byte that the user may not read, and changes nothing else. -/
def StringCopyRight (s : Mm) (table src n : Nat) : Prop :=
  ∃ err bytes, copyFromUserString table src n s = (.ok (err, bytes), s) ∧
    StringOutcome (fun i => UserReadable table s (wadd i src)) (fun i => userByte table s (wadd i src)) n err bytes

/-- The copy of a string is right exactly if, for the byte that decides it, the checks up to this byte pass when
the user may read it, and one of them refuses when the user may not. -/
theorem string_copy_right_iff (s : Mm) (table src n : Nat) (hn : 1 ≤ n) :
    StringCopyRight s table src n ↔
      ∀ j, Decides (fun i => UserReadable table s (wadd i src)) (fun i => userByte table s (wadd i src)) n j →
        ChecksDecide (fun i => rangeVerdict table (wadd i src) n false true s)
          (fun i => UserReadable table s (wadd i src)) j := by
  have hcall : copyFromUserString table src n s = (scan (fun i => rangeVerdict table (wadd i src) n false true s)
      (fun i => userByte table s (wadd i src)) n 0, s) := by
    rw [copyFromUserString, if_neg (by omega)]
    exact copyStringFrom_eq table src n s n 0
  unfold StringCopyRight
  rw [hcall]
  constructor
  · rintro ⟨err, bytes, hscan, hout⟩ j hd
    exact checksDecide_of_outcome hd (Prod.mk.inj hscan).1 hout
  · intro hchecks
    obtain ⟨j, hd⟩ : ∃ j, Decides (fun i => UserReadable table s (wadd i src))
      (fun i => userByte table s (wadd i src)) n j := exists_decides hn
    obtain ⟨err, bytes, hscan, hout⟩ := outcome_of_checksDecide (fun i hi => hi.byte) hd (hchecks j hd)
    exact ⟨err, bytes, by rw [hscan], hout⟩

/-- A page of the process at `0x10000` that holds zeros, with nothing behind it. -/
def zeroPage : Mm :=
  (PagingOp.runAll 0x101000 [.map 0x10000 0x80000 0x1000 userAttrs]
    (createTable (bootMm 0x100000 [0x1000, 0x2000, 0x3000, 0x4000]) 0x1000)).2

/-- The empty string at the beginning of the page is copied. -/
theorem string_copy_right_iff_zeroPage : (1 ≤ 2) ∧ StringCopyRight zeroPage 0x101000 0x10000 2 := by
  have hread : UserReadable 0x101000 zeroPage (wadd 0 0x10000) := by decide +kernel
  have hnul : userByte 0x101000 zeroPage (wadd 0 0x10000) = some 0 := by decide +kernel
  have hcheck : rangeVerdict 0x101000 (wadd 0 0x10000) 2 false true zeroPage = .ok true := by decide +kernel
  refine ⟨by decide, (string_copy_right_iff zeroPage 0x101000 0x10000 2 (by decide)).mpr ?_⟩
  intro j hd
  obtain rfl : j = 0 := by
    by_contra hne
    exact (hd.before 0 (by omega)).2 hnul
  refine .inl ⟨hread, ?_⟩
  intro i hi
  obtain rfl : i = 0 := by omega
  exact hcheck

/-- The empty string in the last byte of the page is not: the check of the two bytes that begin there looks at
the next page. -/
theorem string_copy_wrong_zeroPage :
    (∀ x ∈ [0x10fff, 0x11000],
      ((pagingLookupDesc 0x101000 x zeroPage).1.toOption.any fun pde => !isErrValue pde) = true) ∧
    ¬StringCopyRight zeroPage 0x101000 0x10fff 2 := by
  refine ⟨by decide +kernel, ?_⟩
  rintro ⟨err, bytes, hcall, hout⟩
  have hret : (copyFromUserString 0x101000 0x10fff 2 zeroPage).1 = .ok (Errno.EFAULT.code, []) := by decide +kernel
  have hread : UserReadable 0x101000 zeroPage (wadd 0 0x10fff) := by decide +kernel
  have hnul : userByte 0x101000 zeroPage (wadd 0 0x10fff) = some 0 := by decide +kernel
  rw [hcall] at hret
  obtain ⟨rfl, rfl⟩ := Prod.mk.inj (Except.ok.inj hret)
  have hok := hout.ok_iff.mpr ⟨0, by decide, hnul, fun i hi => by rwa [Nat.le_zero.mp hi]⟩
  exact absurd hok (by decide)

end KaworuOS.Proofs
