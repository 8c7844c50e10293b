import Mathlib.Data.Int.GCD
import Mathlib.Logic.Function.Iterate
import Mathlib.Tactic.Ring

/-!
# Reservoirs filled by blocks and emptied by chunks

Blocks of one size enter a store of bounded capacity, whole or not at all; after each of them all
whole chunks of another size are taken out. The levels met are multiples of the greatest common
divisor of the two sizes, and all of those below a chunk are met, so one inequality says whether a
block is ever refused.
-/

namespace Reservoir

def fill (capacity chunk block level : ℕ) : ℕ :=
  (if level + block ≤ capacity then level + block else level) % chunk

/-- The level after `k` blocks, from empty. -/
def level (capacity chunk block k : ℕ) : ℕ := (fill capacity chunk block)^[k] 0

variable {capacity chunk block k : ℕ}

@[simp] theorem level_zero : level capacity chunk block 0 = 0 := rfl

theorem level_succ :
    level capacity chunk block (k + 1) = fill capacity chunk block (level capacity chunk block k) :=
  Function.iterate_succ_apply' _ _ _

theorem level_lt (h : 0 < chunk) : level capacity chunk block k < chunk := by
  cases k with
  | zero => exact h
  | succ k =>
    rw [level_succ]
    exact Nat.mod_lt _ h

/-- While every block fits, the level is what the blocks so far leave modulo the chunk. -/
theorem level_eq_mod (h : ∀ j < k, level capacity chunk block j + block ≤ capacity) :
    level capacity chunk block k = k * block % chunk := by
  induction k with
  | zero => simp
  | succ k ih =>
    have hk := ih fun j hj => h j (by omega)
    rw [level_succ, fill, if_pos (h k (by omega)), hk, Nat.mod_add_mod, Nat.add_mul, Nat.one_mul]

theorem mod_add_gcd_le (block k : ℕ) (h : 0 < chunk) : k * block % chunk + chunk.gcd block ≤ chunk := by
  have hdvd : chunk.gcd block ∣ k * block % chunk :=
    (Nat.dvd_mod_iff (Nat.gcd_dvd_left _ _)).mpr (Dvd.dvd.mul_left (Nat.gcd_dvd_right _ _) k)
  obtain ⟨m, hm⟩ := Nat.gcd_dvd_left chunk block
  obtain ⟨i, hi⟩ := hdvd
  have hlt : k * block % chunk < chunk := Nat.mod_lt _ h
  have him : i < m := by
    rw [hi] at hlt
    exact Nat.lt_of_mul_lt_mul_left (hlt.trans_eq hm)
  calc k * block % chunk + chunk.gcd block = chunk.gcd block * (i + 1) := by rw [hi, Nat.mul_add_one]
    _ ≤ chunk.gcd block * m := Nat.mul_le_mul_left _ him
    _ = chunk := hm.symm

/-- Some number of blocks leaves the largest multiple of the greatest common divisor. -/
theorem exists_mod_add_gcd (block : ℕ) (h : 0 < chunk) :
    ∃ k, k * block % chunk + chunk.gcd block = chunk := by
  have hpos : 0 < chunk.gcd block := Nat.gcd_pos_of_pos_left _ h
  by_cases hg : block.gcd chunk < chunk
  · obtain ⟨m, -, hm⟩ := Nat.exists_mul_mod_eq_gcd hg
    -- `block * m` leaves the divisor, so its negation leaves the rest of a chunk.
    refine ⟨m * (chunk - 1), ?_⟩
    have hsum : m * (chunk - 1) * block + block * m = chunk * (block * m) := by
      obtain ⟨n, rfl⟩ := Nat.exists_eq_add_of_lt h
      simp only [Nat.zero_add, Nat.add_sub_cancel]
      ring
    have hdvd : chunk ∣ m * (chunk - 1) * block % chunk + chunk.gcd block := by
      apply Nat.dvd_of_mod_eq_zero
      rw [Nat.mod_add_mod, Nat.gcd_comm, ← hm, Nat.add_mod_mod, hsum, Nat.mul_mod_right]
    exact le_antisymm (mod_add_gcd_le _ _ h) (Nat.le_of_dvd (by omega) hdvd)
  · refine ⟨0, ?_⟩
    have hle : chunk.gcd block ≤ chunk := Nat.gcd_le_left _ h
    rw [Nat.gcd_comm] at hg
    rw [Nat.zero_mul, Nat.zero_mod]
    omega

/-- No block is ever refused exactly when the fullest level leaves room for one. -/
theorem never_refuses_iff (h : 0 < chunk) :
    (∀ k, level capacity chunk block k + block ≤ capacity) ↔
      chunk + block ≤ capacity + chunk.gcd block := by
  constructor
  · intro hall
    obtain ⟨k, hk⟩ := exists_mod_add_gcd block h
    have hlevel : level capacity chunk block k = k * block % chunk := level_eq_mod fun j _ => hall j
    have := hall k
    omega
  · intro hroom k
    induction k using Nat.strong_induction_on with
    | _ k ih =>
      have hlevel := level_eq_mod ih
      have := mod_add_gcd_le block k h
      omega

end Reservoir
