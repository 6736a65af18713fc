import Mathlib.Data.Nat.Basic
import Mathlib.Tactic.Ring

/-!
# Byte-addressed memory

A memory maps every address to a byte. Words of eight bytes are read and written in
little-endian order. The lemmas say which bytes an access touches, so that a proof
about one object can ignore writes to every other.
-/

namespace KaworuOS.Lib

/-- A byte-addressed memory. -/
abbrev Mem := Nat → UInt8

namespace Mem

/-- Writes one byte. -/
def set (m : Mem) (a : Nat) (v : UInt8) : Mem :=
  fun x => if x = a then v else m x

@[simp] lemma set_same (m : Mem) (a : Nat) (v : UInt8) : m.set a v a = v := by
  simp [set]

lemma set_other (m : Mem) {a x : Nat} (v : UInt8) (h : x ≠ a) : m.set a v x = m x := by
  simp [set, h]

/-- Reads the little-endian number stored in `n` bytes from `a` on. -/
def loadBytes (m : Mem) (a : Nat) : Nat → Nat
  | 0 => 0
  | n + 1 => (m a).toNat + 256 * loadBytes m (a + 1) n

/-- Reads a 64-bit word. -/
def load64 (m : Mem) (a : Nat) : Nat := m.loadBytes a 8

/-- Writes the low eight bytes of `v`, least significant first. -/
def store64 (m : Mem) (a v : Nat) : Mem :=
  fun x => if a ≤ x ∧ x < a + 8 then UInt8.ofNat (v / 256 ^ (x - a)) else m x

/-- Fills `n` bytes from `a` on with `v`. -/
def fill (m : Mem) (a n : Nat) (v : UInt8) : Mem :=
  fun x => if a ≤ x ∧ x < a + n then v else m x

/-- Overwrites the `n` bytes at `d` by the `n` bytes that were at `s`. -/
def blit (m : Mem) (d s n : Nat) : Mem :=
  fun x => if d ≤ x ∧ x < d + n then m (s + (x - d)) else m x

/-- The two memories agree on the `n` bytes from `a` on. -/
def EqOn (m m' : Mem) (a n : Nat) : Prop := ∀ x, a ≤ x → x < a + n → m' x = m x

lemma EqOn.symm {m m' : Mem} {a n : Nat} (h : EqOn m m' a n) : EqOn m' m a n :=
  fun x h1 h2 => (h x h1 h2).symm

lemma EqOn.trans {m m' m'' : Mem} {a n : Nat} (h : EqOn m m' a n) (h' : EqOn m' m'' a n) :
    EqOn m m'' a n :=
  fun x h1 h2 => (h' x h1 h2).trans (h x h1 h2)

lemma EqOn.mono {m m' : Mem} {a n b k : Nat} (h : EqOn m m' a n) (h1 : a ≤ b)
    (h2 : b + k ≤ a + n) : EqOn m m' b k :=
  fun x hx hx' => h x (by omega) (by omega)

lemma loadBytes_lt (m : Mem) (a n : Nat) : m.loadBytes a n < 256 ^ n := by
  induction n generalizing a with
  | zero => simp [loadBytes]
  | succ n ih =>
    have hb := (m a).toNat_lt
    have hr := ih (a + 1)
    rw [loadBytes, pow_succ]
    omega

lemma load64_lt (m : Mem) (a : Nat) : m.load64 a < 2 ^ 64 := by
  simpa [load64] using loadBytes_lt m a 8

lemma loadBytes_congr {m m' : Mem} {a n : Nat} (h : EqOn m m' a n) :
    m'.loadBytes a n = m.loadBytes a n := by
  induction n generalizing a with
  | zero => rfl
  | succ n ih =>
    rw [loadBytes, loadBytes, h a (by omega) (by omega), ih (h.mono (by omega) (by omega))]

lemma load64_congr {m m' : Mem} {a : Nat} (h : EqOn m m' a 8) : m'.load64 a = m.load64 a :=
  loadBytes_congr h

lemma store64_eqOn (m : Mem) {a v b n : Nat} (h : b + n ≤ a ∨ a + 8 ≤ b) :
    EqOn m (m.store64 a v) b n := by
  intro x h1 h2
  have hx : ¬(a ≤ x ∧ x < a + 8) := by omega
  simp [store64, hx]

lemma load64_store64_of_disjoint (m : Mem) {a v b : Nat} (h : b + 8 ≤ a ∨ a + 8 ≤ b) :
    (m.store64 a v).load64 b = m.load64 b :=
  load64_congr (store64_eqOn m h)

lemma loadBytes_store64 (m : Mem) (a v k n : Nat) (hk : k + n ≤ 8) :
    (m.store64 a v).loadBytes (a + k) n = v / 256 ^ k % 256 ^ n := by
  induction n generalizing k with
  | zero => simp [loadBytes, Nat.mod_one]
  | succ n ih =>
    have hb : (m.store64 a v) (a + k) = UInt8.ofNat (v / 256 ^ k) := by
      have : a ≤ a + k ∧ a + k < a + 8 := by omega
      simp [store64, this]
    have hr := ih (k + 1) (by omega)
    rw [← Nat.add_assoc] at hr
    have hpow : 256 ^ (n + 1) = 256 * 256 ^ n := by rw [pow_succ, Nat.mul_comm]
    rw [loadBytes, hb, hr, UInt8.toNat_ofNat', pow_succ 256 k, ← Nat.div_div_eq_div_mul,
      hpow, Nat.mod_mul]

@[simp] lemma load64_store64_same (m : Mem) (a v : Nat) :
    (m.store64 a v).load64 a = v % 2 ^ 64 := by
  simpa [load64] using loadBytes_store64 m a v 0 8 (by omega)

lemma set_eqOn (m : Mem) {a b n : Nat} (v : UInt8) (h : a < b ∨ b + n ≤ a) :
    EqOn m (m.set a v) b n :=
  fun x _ _ => set_other m v (by omega)

lemma fill_eqOn (m : Mem) {a n b k : Nat} (v : UInt8) (h : b + k ≤ a ∨ a + n ≤ b) :
    EqOn m (m.fill a n v) b k := by
  intro x h1 h2
  have hx : ¬(a ≤ x ∧ x < a + n) := by omega
  simp [fill, hx]

lemma fill_apply (m : Mem) {a n x : Nat} (v : UInt8) (h1 : a ≤ x) (h2 : x < a + n) :
    m.fill a n v x = v := by
  simp [fill, h1, h2]

lemma loadBytes_eq_zero {m : Mem} {a n : Nat} (h : ∀ x, a ≤ x → x < a + n → m x = 0) :
    m.loadBytes a n = 0 := by
  induction n generalizing a with
  | zero => rfl
  | succ n ih =>
    rw [loadBytes, h a (by omega) (by omega), ih (fun x h1 h2 => h x (by omega) (by omega))]
    rfl

lemma load64_fill_zero (m : Mem) {a n b : Nat} (h1 : a ≤ b) (h2 : b + 8 ≤ a + n) :
    (m.fill a n 0).load64 b = 0 :=
  loadBytes_eq_zero (fun x hx hx' => fill_apply m 0 (by omega) (by omega))

lemma blit_eqOn (m : Mem) {d s n b k : Nat} (h : b + k ≤ d ∨ d + n ≤ b) :
    EqOn m (m.blit d s n) b k := by
  intro x h1 h2
  have hx : ¬(d ≤ x ∧ x < d + n) := by omega
  simp [blit, hx]

lemma blit_apply (m : Mem) {d s n i : Nat} (h : i < n) : m.blit d s n (d + i) = m (s + i) := by
  simp [blit, h]

/-- The `n` bytes from `a` on. -/
def bytes (m : Mem) (a n : Nat) : List UInt8 := (List.range n).map (fun i => m (a + i))

lemma bytes_congr {m m' : Mem} {a n : Nat} (h : EqOn m m' a n) : m'.bytes a n = m.bytes a n := by
  apply List.map_congr_left
  intro i hi
  have hlt := List.mem_range.mp hi
  exact h (a + i) (by omega) (by omega)

lemma bytes_blit (m : Mem) (d s n : Nat) : (m.blit d s n).bytes d n = m.bytes s n := by
  apply List.map_congr_left
  intro i hi
  exact blit_apply m (List.mem_range.mp hi)

/-- Writes a list of bytes from `a` on. -/
def write (m : Mem) (a : Nat) (l : List UInt8) : Mem :=
    fun x => if a ≤ x ∧ x < a + l.length then l.getD (x - a) 0 else m x

lemma write_other (m : Mem) {a x : Nat} {l : List UInt8} (h : ¬(a ≤ x ∧ x < a + l.length)) :
    m.write a l x = m x := if_neg h

lemma bytes_write (m : Mem) (a : Nat) {l : List UInt8} {n : Nat} (h : n ≤ l.length) :
    (m.write a l).bytes a n = l.take n := by
  apply List.ext_getElem
  · rw [bytes, List.length_map, List.length_range, List.length_take, Nat.min_eq_left h]
  · intro i h1 h2
    have hi : i < n := by simpa [bytes] using h1
    rw [List.getElem_take]
    simp only [bytes, List.getElem_map, List.getElem_range]
    rw [write, if_pos (by omega), Nat.add_sub_cancel_left, List.getD_eq_getElem?_getD,
      List.getElem?_eq_getElem (show i < l.length by omega), Option.getD_some]

lemma bytes_add (m : Mem) (a n k : Nat) : m.bytes a (n + k) = m.bytes a n ++ m.bytes (a + n) k := by
  rw [bytes, List.range_add, List.map_append, List.map_map]
  congr 1
  apply List.map_congr_left
  intro i _
  show m (a + (n + i)) = m (a + n + i)
  rw [Nat.add_assoc]

lemma bytes_eq_of_slots {m m' : Mem} {a a' e : Nat} (count : Nat)
    (h : ∀ i < count, m'.bytes (a' + i * e) e = m.bytes (a + i * e) e) :
    m'.bytes a' (count * e) = m.bytes a (count * e) := by
  induction count with
  | zero => rw [Nat.zero_mul, bytes, bytes, List.range_zero, List.map_nil, List.map_nil]
  | succ n ih =>
    rw [Nat.succ_mul, bytes_add, bytes_add, ih (fun i hi => h i (by omega)), h n (by omega)]

end Mem

end KaworuOS.Lib
