import Mathlib.Data.List.Basic
import Mathlib.Data.Nat.ModEq

/-!
# Queues stored in circular arrays

`Stored buf t q` says that the array `buf` holds the queue `q` circularly, its first element in cell
`t % buf.length`. Only contiguous copies exist: `slice` copies out of the array and `splice` copies
into it, and a transfer across the end of the array is two of them. A copy that starts at the cell
after the queue's last one appends (`Stored.splice`); a copy that starts at its first cell reads a
prefix (`Stored.slice_eq`).
-/

namespace Circular

variable {α : Type*} {buf q src : List α} {t pos n i : ℕ}

/-- The `n` cells from `pos` on, without wrapping. -/
def slice (buf : List α) (pos n : ℕ) : List α := (buf.drop pos).take n

/-- The array after `src` was copied to the cells from `pos` on, without wrapping. -/
def splice (buf : List α) (pos : ℕ) (src : List α) : List α :=
  buf.take pos ++ src ++ buf.drop (pos + src.length)

theorem length_slice (h : pos + n ≤ buf.length) : (slice buf pos n).length = n := by
  simp only [slice, List.length_take, List.length_drop]
  omega

theorem length_splice (h : pos + src.length ≤ buf.length) :
    (splice buf pos src).length = buf.length := by
  simp only [splice, List.length_append, List.length_take, List.length_drop]
  omega

theorem getElem?_slice (buf : List α) (pos : ℕ) (h : i < n) :
    (slice buf pos n)[i]? = buf[pos + i]? := by
  simp [slice, h]

theorem getElem?_splice_of_mem (h : pos + src.length ≤ buf.length) (hi : i < src.length) :
    (splice buf pos src)[pos + i]? = src[i]? := by
  have hp : (buf.take pos).length = pos := by simp only [List.length_take]; omega
  rw [splice, List.append_assoc, List.getElem?_append_right (by omega), hp, Nat.add_sub_cancel_left,
    List.getElem?_append_left hi]

theorem getElem?_splice_of_notMem (h : pos + src.length ≤ buf.length)
    (hi : i < pos ∨ pos + src.length ≤ i) : (splice buf pos src)[i]? = buf[i]? := by
  have hp : (buf.take pos).length = pos := by simp only [List.length_take]; omega
  rw [splice, List.append_assoc]
  rcases hi with hi | hi
  · rw [List.getElem?_append_left (by omega), List.getElem?_take_of_lt hi]
  · rw [List.getElem?_append_right (by omega), hp, List.getElem?_append_right (by omega),
      List.getElem?_drop]
    congr 1
    omega

/-- The cell of a queue element, seen from a position congruent to the queue's first cell. -/
theorem cell_eq {C : ℕ} (hpos : pos % C = t % C) (h : pos + i < C) : (t + i) % C = pos + i := by
  rw [Nat.add_mod, ← hpos, ← Nat.add_mod, Nat.mod_eq_of_lt h]

/-- Elements less than a full turn apart have different cells. -/
theorem cell_ne {C j : ℕ} (hij : i < j) (hj : j < i + C) : (t + i) % C ≠ (t + j) % C := by
  intro he
  have hd : C ∣ (t + j) - (t + i) := (Nat.modEq_iff_dvd' (by omega)).mp he
  have := Nat.le_of_dvd (by omega) hd
  omega

structure Stored (buf : List α) (t : ℕ) (q : List α) : Prop where
  fits : q.length ≤ buf.length
  cell : ∀ i < q.length, buf[(t + i) % buf.length]? = q[i]?

namespace Stored

theorem nil (buf : List α) (t : ℕ) : Stored buf t [] :=
  ⟨Nat.zero_le _, fun i hi => absurd hi (Nat.not_lt_zero i)⟩

theorem drop (h : Stored buf t q) (n : ℕ) : Stored buf (t + n) (q.drop n) where
  fits := (by simp : (q.drop n).length ≤ q.length).trans h.fits
  cell i hi := by
    have hi' : n + i < q.length := by
      rw [List.length_drop] at hi
      omega
    rw [List.getElem?_drop, Nat.add_assoc, h.cell (n + i) hi']

theorem of_append {q' : List α} (h : Stored buf t (q ++ q')) : Stored buf t q where
  fits := (by simp : q.length ≤ (q ++ q').length).trans h.fits
  cell i hi := by rw [h.cell i (by simp only [List.length_append]; omega),
    List.getElem?_append_left hi]

/-- A contiguous copy from the queue's first cell reads a prefix of the queue. -/
theorem slice_eq (h : Stored buf t q) (hpos : pos % buf.length = t % buf.length)
    (hend : pos + n ≤ buf.length) (hn : n ≤ q.length) : slice buf pos n = q.take n := by
  apply List.ext_getElem?
  intro i
  by_cases hi : i < n
  · rw [getElem?_slice buf pos hi, List.getElem?_take_of_lt hi, ← h.cell i (hi.trans_le hn),
      cell_eq hpos (by omega)]
  · rw [List.getElem?_eq_none, List.getElem?_eq_none]
    · simp only [List.length_take]
      omega
    · rw [length_slice hend]
      omega

/-- A contiguous copy to the cell after the queue's last one appends to the queue. -/
theorem splice (h : Stored buf t q) (hpos : pos % buf.length = (t + q.length) % buf.length)
    (hend : pos + src.length ≤ buf.length) (hroom : q.length + src.length ≤ buf.length) :
    Stored (splice buf pos src) t (q ++ src) where
  fits := by rw [List.length_append, length_splice hend]; exact hroom
  cell i hi := by
    rw [List.length_append] at hi
    rw [length_splice hend]
    by_cases hq : i < q.length
    · rw [List.getElem?_append_left hq, ← h.cell i hq, getElem?_splice_of_notMem hend]
      -- The copied cells belong to elements `q.length + j`, all less than a turn after `i`.
      by_contra! hmem
      obtain ⟨j, hj⟩ := Nat.exists_eq_add_of_le hmem.1
      have hne := cell_ne (t := t) (C := buf.length) (i := i) (j := q.length + j) (by omega)
        (by omega)
      rw [← Nat.add_assoc, cell_eq hpos (by omega)] at hne
      exact hne hj
    · obtain ⟨j, rfl⟩ := Nat.exists_eq_add_of_le (Nat.le_of_not_lt hq)
      rw [List.getElem?_append_right (by omega), Nat.add_sub_cancel_left, ← Nat.add_assoc,
        cell_eq hpos (by omega), getElem?_splice_of_mem hend (by omega)]

end Stored

end Circular
