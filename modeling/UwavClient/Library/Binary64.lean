import Mathlib.Data.Nat.Log
import Mathlib.Data.Int.Notation
import Mathlib.Tactic.Ring

/-!
# Products with a double-precision constant, truncated to an integer

A positive double is `mant * 2 ^ (-exp)` with a 53-bit `mant`. The product of such a constant and an
integer below `2 ^ 31` (which a double holds exactly) is the exact product rounded to 53 significant
bits, ties to even. When the constant is the double just above `1 / d`, truncating that product gives
the integer quotient by `d`.
-/

namespace Binary64

/-- A positive double constant `mant * 2 ^ (-exp)`. -/
structure Constant where
  mant : ℕ
  exp : ℕ
  mant_lt : mant < 2 ^ 53

/-- The bits of `p` below its 53 most significant ones. -/
def excess (p : ℕ) : ℕ := p.log2 + 1 - 53

/-- The quotient of `p` by `2 ^ e` rounded to the nearest integer, ties to even. -/
def nearest (p e : ℕ) : ℕ :=
  if 2 * (p % 2 ^ e) < 2 ^ e then p / 2 ^ e
  else if 2 ^ e < 2 * (p % 2 ^ e) then p / 2 ^ e + 1
  else p / 2 ^ e + p / 2 ^ e % 2

def round53 (p : ℕ) : ℕ := nearest p (excess p) * 2 ^ excess p

/-- `static_cast<int>(n * c)` for `0 ≤ n`. -/
def mulTrunc (c : Constant) (n : ℕ) : ℕ := round53 (n * c.mant) / 2 ^ c.exp

/-- The same product for an integer of either sign: truncation is towards zero. -/
def mulTruncInt (c : Constant) (n : ℤ) : ℤ := n.sign * mulTrunc c n.natAbs

theorem nearest_bounds (p e : ℕ) : p / 2 ^ e ≤ nearest p e ∧ nearest p e ≤ p / 2 ^ e + 1 := by
  unfold nearest
  have := Nat.mod_lt (p / 2 ^ e) (by omega : 0 < 2)
  split_ifs <;> omega

theorem excess_le {p b : ℕ} (h : p < 2 ^ (53 + b)) : excess p ≤ b := by
  unfold excess
  by_cases hp : p = 0
  · subst hp
    simp
  · have := (Nat.log2_lt hp).mpr h
    omega

/-- Rounding never falls below a multiple of a coarser power of two. -/
theorem le_round53 {p q k : ℕ} (hk : excess p ≤ k) (h : q * 2 ^ k ≤ p) : q * 2 ^ k ≤ round53 p := by
  obtain ⟨j, rfl⟩ := Nat.exists_eq_add_of_le hk
  have hq : q * 2 ^ j ≤ p / 2 ^ excess p := by
    rw [Nat.le_div_iff_mul_le (Nat.two_pow_pos _)]
    calc q * 2 ^ j * 2 ^ excess p = q * 2 ^ (excess p + j) := by rw [pow_add]; ring
      _ ≤ p := h
  calc q * 2 ^ (excess p + j) = q * 2 ^ j * 2 ^ excess p := by rw [pow_add]; ring
    _ ≤ nearest p (excess p) * 2 ^ excess p :=
      Nat.mul_le_mul_right _ (hq.trans (nearest_bounds p _).1)

theorem round53_le {p b : ℕ} (h : p < 2 ^ (53 + b)) : round53 p ≤ p + 2 ^ b := by
  have hb : 2 ^ excess p ≤ 2 ^ b := Nat.pow_le_pow_right (by omega) (excess_le h)
  calc round53 p ≤ (p / 2 ^ excess p + 1) * 2 ^ excess p :=
        Nat.mul_le_mul_right _ (nearest_bounds p _).2
    _ = p / 2 ^ excess p * 2 ^ excess p + 2 ^ excess p := by ring
    _ ≤ p + 2 ^ b := Nat.add_le_add (Nat.div_mul_le_self _ _) hb

/-- Rounding keeps a number above a power of two. -/
theorem two_pow_le_round53 {p k : ℕ} (h : 2 ^ k ≤ p) : 2 ^ k ≤ round53 p := by
  by_cases hk : excess p ≤ k
  · simpa using le_round53 (q := 1) hk (by simpa using h)
  · have hp : p ≠ 0 := (Nat.two_pow_pos k).trans_le h |>.ne'
    have hlog : excess p ≤ p.log2 := by
      unfold excess
      omega
    have hone : 1 ≤ p / 2 ^ excess p := by
      rw [Nat.le_div_iff_mul_le (Nat.two_pow_pos _), Nat.one_mul]
      exact (Nat.pow_le_pow_right (by omega) hlog).trans (Nat.log2_self_le hp)
    calc 2 ^ k ≤ 1 * 2 ^ excess p := by
          rw [Nat.one_mul]
          exact Nat.pow_le_pow_right (by omega) (by omega)
      _ ≤ nearest p (excess p) * 2 ^ excess p :=
        Nat.mul_le_mul_right _ (hone.trans (nearest_bounds p _).1)

theorem mulTrunc_pos {c : Constant} {n : ℕ} (h : 2 ^ c.exp ≤ n * c.mant) : 0 < mulTrunc c n :=
  Nat.div_pos (two_pow_le_round53 h) (Nat.two_pow_pos _)

/-- Truncated multiplication by the double just above `1 / d` is integer division by `d`. -/
theorem mulTrunc_eq_div {c : Constant} {d δ n : ℕ} (hd : 0 < d) (hc : c.mant * d = 2 ^ c.exp + δ)
    (hk : 31 ≤ c.exp) (hn : n < 2 ^ 31) (hδ : (2 ^ 31 + 1) * δ + 2 ^ 31 < c.mant) :
    mulTrunc c n = n / d := by
  have hp : n * c.mant < 2 ^ (53 + 31) := by
    calc n * c.mant < 2 ^ 31 * 2 ^ 53 := Nat.mul_lt_mul'' hn c.mant_lt
      _ = 2 ^ (53 + 31) := by norm_num
  have hsplit : n * c.mant = n / d * 2 ^ c.exp + n / d * δ + n % d * c.mant := by
    calc n * c.mant = (d * (n / d) + n % d) * c.mant := by rw [Nat.div_add_mod]
      _ = n / d * (c.mant * d) + n % d * c.mant := by ring
      _ = n / d * 2 ^ c.exp + n / d * δ + n % d * c.mant := by rw [hc]; ring
  have hlow : n / d * 2 ^ c.exp ≤ round53 (n * c.mant) :=
    le_round53 ((excess_le hp).trans hk) (by omega)
  have hhigh : round53 (n * c.mant) < (n / d + 1) * 2 ^ c.exp := by
    have hrem : n % d * c.mant + c.mant ≤ 2 ^ c.exp + δ := by
      calc n % d * c.mant + c.mant = c.mant * (n % d + 1) := by ring
        _ ≤ c.mant * d := Nat.mul_le_mul_left _ (Nat.mod_lt n hd)
        _ = 2 ^ c.exp + δ := hc
    have hq : n / d * δ ≤ 2 ^ 31 * δ := Nat.mul_le_mul_right _ ((Nat.div_le_self n d).trans hn.le)
    have hr := round53_le (b := 31) hp
    have he : (2 ^ 31 + 1) * δ = 2 ^ 31 * δ + δ := by ring
    have ht : (n / d + 1) * 2 ^ c.exp = n / d * 2 ^ c.exp + 2 ^ c.exp := by ring
    omega
  unfold mulTrunc
  apply Nat.div_eq_of_lt_le
  · exact hlow
  · exact hhigh

end Binary64
