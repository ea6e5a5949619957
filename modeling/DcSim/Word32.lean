import Mathlib.Data.Nat.Basic
import Mathlib.Data.Int.Notation
import Mathlib.Tactic.NormNum

/-!
Unsigned 32-bit arithmetic on natural numbers.

A `uint32_t` is a natural number below `2 ^ 32`; addition, subtraction and multiplication
wrap around. The lemmas say when they do not. The bits of a number can also be read as an `int`.
-/

namespace DcSim.Word32

def add32 (a b : ℕ) : ℕ := (a + b) % 4294967296
def sub32 (a b : ℕ) : ℕ := (a + (4294967296 - b)) % 4294967296
def mul32 (a b : ℕ) : ℕ := (a * b) % 4294967296

lemma add32_eq {a b : ℕ} (h : a + b < 4294967296) : add32 a b = a + b := Nat.mod_eq_of_lt h

lemma add32_le (a b : ℕ) : add32 a b ≤ a + b := Nat.mod_le _ _

lemma mul32_le (a b : ℕ) : mul32 a b ≤ a * b := Nat.mod_le _ _

lemma sub32_eq {a b : ℕ} (ha : a < 4294967296) (h : b ≤ a) : sub32 a b = a - b := by
  unfold sub32; omega

lemma sub32_add32 {a b : ℕ} (ha : a < 4294967296) (hb : b < 4294967296) :
    sub32 (add32 a b) b = a := by
  unfold sub32 add32; omega

lemma add32_mod (a b : ℕ) : add32 (a % 4294967296) b = (a + b) % 4294967296 := by
  unfold add32; omega

/-- The `int` with the bits of a `uint32_t`. -/
def toInt32 (a : ℕ) : ℤ := if a < 2147483648 then a else a - 4294967296

/-- The `uint32_t` with the bits of an `int`. -/
def ofInt32 (z : ℤ) : ℕ := (z % 4294967296).toNat

lemma ofInt32_lt (z : ℤ) : ofInt32 z < 4294967296 := by
  unfold ofInt32; omega

@[simp] lemma ofInt32_toInt32 {a : ℕ} (ha : a < 4294967296) : ofInt32 (toInt32 a) = a := by
  unfold ofInt32 toInt32
  split_ifs <;> omega

lemma ofInt32_eq {z : ℤ} (h₀ : 0 ≤ z) (h : z < 4294967296) : (ofInt32 z : ℤ) = z := by
  unfold ofInt32; omega

lemma toInt32_le (a : ℕ) : toInt32 a ≤ a := by
  unfold toInt32
  split_ifs <;> omega

lemma toInt32_eq {a : ℕ} (h : a < 2147483648) : toInt32 a = a := if_pos h

lemma toInt32_ofInt32_le {z : ℤ} (h : -2147483648 ≤ z) :
    -2147483648 ≤ toInt32 (ofInt32 z) ∧ toInt32 (ofInt32 z) ≤ z := by
  unfold toInt32 ofInt32
  split_ifs <;> omega

/-! The segments of the examples, and their headers, fit a word. -/

lemma mss_1460_pos : 0 < 1460 := by decide

lemma mss_1460_lt : 1460 < 4294967296 := by decide

lemma size_2920_lt : 2920 < 4294967296 := by decide

lemma hdrSize_40_lt : 40 < 4294967296 := by decide

end DcSim.Word32
