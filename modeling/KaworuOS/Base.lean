import Mathlib.Data.Nat.Bitwise

/-!
# Machine words, error codes and the page geometry

`usize` and pointers are natural numbers below `2 ^ 64`; arithmetic that can leave this
range is reduced explicitly. An error pointer of the sources (`ERR_TO_PTR`) is the
`error` case of an `Except Errno`, except where the sources go on computing with the
number itself.
-/

namespace KaworuOS

/-- The number of values of a `usize`. -/
abbrev wordSize : Nat := 2 ^ 64

/-- `UINT_MAX`. -/
abbrev UINT_MAX : Nat := 2 ^ 32 - 1

/-- `a - b` in `usize` arithmetic. -/
def wsub (a b : Nat) : Nat := (a + wordSize - b) % wordSize

/-- `a + b` in `usize` arithmetic. -/
def wadd (a b : Nat) : Nat := (a + b) % wordSize

/-- `a * b` in `usize` arithmetic. -/
def wmul (a b : Nat) : Nat := (a * b) % wordSize

/-- The ways in which a call stops without returning. -/
inductive Halt
  /-- `panic` or a failed `ASSERT`. -/
  | panic
  /-- A dereference of an error pointer, or a free of a block that is not allocated. -/
  | fault
  /-- A loop that does not end. -/
  | hang
  deriving DecidableEq, Repr

/-- `ASSERT`. -/
def assertThat (c : Prop) [Decidable c] : Except Halt Unit := if c then .ok () else .error .panic

/-- The error codes that the modelled functions return. -/
inductive Errno
  | EOK
  | ENOENT
  | EBADF
  | ECHILD
  | ENOMEM
  | EFAULT
  | ENODEV
  | EINVAL
  | EMFILE
  | ENAMETOOLONG
  deriving DecidableEq, Repr

/-- The numeric code of `ERR_LIST`. -/
def Errno.code : Errno → Nat
  | EOK => 0
  | ENOENT => 2
  | EBADF => 9
  | ECHILD => 10
  | ENOMEM => 12
  | EFAULT => 14
  | ENODEV => 19
  | EINVAL => 22
  | EMFILE => 24
  | ENAMETOOLONG => 36

/-- `EMAXERR`. -/
def EMAXERR : Nat := 134

/-- `ERR_TO_PTR(-err)` as a number. -/
def errToPtr (err : Errno) : Nat := wordSize - err.code

/-- `IS_ERR_VALUE`. -/
def isErrValue (x : Nat) : Bool := decide (wordSize - EMAXERR ≤ x)

/-- `PAGE_SIZE`. -/
abbrev PAGE_SIZE : Nat := 4096

/-- `USER_VM_RANGE_BASE`. -/
abbrev USER_VM_RANGE_BASE : Nat := 0x10000

/-- `USER_VM_RANGE_SIZE`. -/
abbrev USER_VM_RANGE_SIZE : Nat := 2 ^ 30

/-- `USER_VM_RANGE_END`. -/
abbrev USER_VM_RANGE_END : Nat := USER_VM_RANGE_BASE + USER_VM_RANGE_SIZE

/-- `CONFIG_VM_MAX_USER_ALLOCATIONS`. -/
abbrev CONFIG_VM_MAX_USER_ALLOCATIONS : Nat := 256

/-- `round_down(x, PAGE_SIZE)`: the low bits are masked off. -/
def roundDown (x : Nat) : Nat := x &&& (wordSize - 1 - (PAGE_SIZE - 1))

/-- `round_up(x, PAGE_SIZE)`: `((x - 1) | (PAGE_SIZE - 1)) + 1`. -/
def roundUp (x : Nat) : Nat := wadd (wsub x 1 ||| (PAGE_SIZE - 1)) 1

/-- `IS_PAGE_ALIGNED`. -/
def isPageAligned (x : Nat) : Bool := decide (x % PAGE_SIZE = 0)

lemma assertThat_true {c : Prop} [Decidable c] (h : c) : assertThat c = .ok () := if_pos h

lemma assertThat_ok {c : Prop} [Decidable c] {u : Unit} (h : assertThat c = .ok u) : c := by
  unfold assertThat at h
  split at h
  case isTrue hc => exact hc
  case isFalse => cases h

@[simp] lemma isPageAligned_iff (x : Nat) : isPageAligned x = true ↔ x % 4096 = 0 := by
  simp [isPageAligned]

lemma wadd_of_lt {a b : Nat} (h : a + b < 2 ^ 64) : wadd a b = a + b :=
  Nat.mod_eq_of_lt h

lemma wmul_of_lt {a b : Nat} (h : a * b < 2 ^ 64) : wmul a b = a * b :=
  Nat.mod_eq_of_lt h

lemma wsub_of_le {a b : Nat} (h : b ≤ a) (ha : a < 2 ^ 64) : wsub a b = a - b := by
  unfold wsub wordSize
  omega

lemma wsub_lt (a b : Nat) : wsub a b < 2 ^ 64 := Nat.mod_lt _ (Nat.two_pow_pos 64)

lemma roundDown_eq {x : Nat} (hx : x < 2 ^ 64) : roundDown x = x - x % 4096 := by
  have hmask : wordSize - 1 - (PAGE_SIZE - 1) = (2 ^ 52 - 1) <<< 12 := by decide
  have hshift : x - x % 4096 = (x >>> 12) <<< 12 := by
    rw [Nat.shiftLeft_eq, Nat.shiftRight_eq_div_pow]
    omega
  rw [roundDown, hmask, hshift]
  apply Nat.eq_of_testBit_eq
  intro i
  rw [Nat.testBit_and, Nat.testBit_shiftLeft, Nat.testBit_shiftLeft, Nat.testBit_shiftRight,
    Nat.testBit_two_pow_sub_one]
  by_cases h12 : 12 ≤ i
  · have hi : 12 + (i - 12) = i := by omega
    by_cases h64 : i < 64
    · simp [h12, hi, show i - 12 < 52 by omega]
    · have hbit : x.testBit i = false :=
        Nat.testBit_lt_two_pow (lt_of_lt_of_le hx (Nat.pow_le_pow_right (by omega) (by omega)))
      simp [hi, hbit]
  · simp [h12]

lemma or_page_mask (n : Nat) : n ||| (PAGE_SIZE - 1) = n / 4096 * 4096 + 4095 := by
  have hdiv : n / 4096 * 4096 = (n >>> 12) <<< 12 := by
    rw [Nat.shiftLeft_eq, Nat.shiftRight_eq_div_pow]
  have hor : (n >>> 12) <<< 12 + 4095 = (n >>> 12) <<< 12 ||| 4095 :=
    Nat.shiftLeft_add_eq_or_of_lt (by decide) _
  have hmask : (4095 : Nat) = 2 ^ 12 - 1 := by decide
  have hsize : PAGE_SIZE - 1 = 2 ^ 12 - 1 := by decide
  rw [hdiv, hor, hmask, hsize]
  apply Nat.eq_of_testBit_eq
  intro i
  rw [Nat.testBit_or, Nat.testBit_or, Nat.testBit_shiftLeft, Nat.testBit_shiftRight,
    Nat.testBit_two_pow_sub_one]
  by_cases h12 : 12 ≤ i
  · have hi : 12 + (i - 12) = i := by omega
    simp [h12, hi]
  · simp [h12, show i < 12 by omega]

lemma roundUp_eq {x : Nat} (h0 : 0 < x) (hx : x + 4096 ≤ 2 ^ 64) :
    roundUp x = (x + 4095) / 4096 * 4096 := by
  have hsub : wsub x 1 = x - 1 := wsub_of_le h0 (by omega)
  rw [roundUp, hsub, or_page_mask]
  unfold wadd wordSize
  omega

lemma not_isErrValue_of_lt {p : Nat} (h : p + 4096 ≤ 2 ^ 64) : isErrValue p = false := by
  unfold isErrValue wordSize EMAXERR
  rw [decide_eq_false_iff_not]
  omega

lemma isErrValue_errToPtr : isErrValue (errToPtr .ENOMEM) = true := by decide

end KaworuOS
