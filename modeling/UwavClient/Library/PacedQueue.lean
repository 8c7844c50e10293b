import Mathlib.Data.List.Basic

/-!
# Bounded queues that withhold their contents until primed

A queue holds at most `capacity` items. Reading in pace with playback is withheld until `threshold`
items have gathered (the queue is then `primed`) and again from the moment it runs empty; a raw read
ignores that. A write that does not fit is dropped whole.
-/

structure PacedQueue (α : Type) (capacity : ℕ) where
  items : List α
  primed : Bool
  bounded : items.length ≤ capacity

namespace PacedQueue

variable {α : Type} {capacity : ℕ} (q : PacedQueue α capacity) (n : ℕ)

def empty : PacedQueue α capacity := ⟨[], false, Nat.zero_le _⟩

@[ext] theorem ext {p q : PacedQueue α capacity} (hi : p.items = q.items)
    (hp : p.primed = q.primed) : p = q := by
  cases p
  cases q
  simp_all

def write (threshold : ℕ) (block : List α) : PacedQueue α capacity :=
  if h : q.items.length + block.length ≤ capacity then
    ⟨q.items ++ block, q.primed || decide (threshold ≤ q.items.length + block.length), by simpa⟩
  else q

def dropRaw : PacedQueue α capacity :=
  ⟨q.items.drop n, q.primed, Nat.le_trans (List.drop_sublist n q.items).length_le q.bounded⟩

/-- The queue without its first `n` items, no longer primed if none is left. -/
def dropPaced : PacedQueue α capacity :=
  { q.dropRaw n with primed := q.primed && decide (n < q.items.length) }

/-- A read in pace with playback; `none` is silence. -/
def readPaced : Option (List α) × PacedQueue α capacity :=
  if n ≤ q.items.length ∧ q.primed then (some (q.items.take n), q.dropPaced n) else (none, q)

/-- A read that ignores priming; `none` is silence. -/
def readRaw : Option (List α) × PacedQueue α capacity :=
  if n ≤ q.items.length then (some (q.items.take n), q.dropRaw n) else (none, q)

def discard : PacedQueue α capacity :=
  if n ≤ q.items.length then q.dropPaced n else empty

/-- Up to `n` items in pace with playback: nothing until primed, then whatever there is. -/
def play : List α × PacedQueue α capacity :=
  if q.primed then
    (q.items.take (min n q.items.length), q.dropPaced (min n q.items.length))
  else ([], q)

/-- Whether playback goes on once the queue holds `level` items. -/
def resume (threshold : ℕ) (playing : Bool) (level : ℕ) : Bool :=
  decide (level ≠ 0) && (playing || decide (threshold ≤ level))

/-- Priming agrees with the level: a primed queue is not empty, any other one is below the
threshold. -/
structure Settled (threshold : ℕ) (q : PacedQueue α capacity) : Prop where
  nonempty : q.primed → 0 < q.items.length
  waiting : q.primed = false → q.items.length < threshold

variable {q n}

@[simp] theorem empty_items : (empty : PacedQueue α capacity).items = [] := rfl

@[simp] theorem empty_primed : (empty : PacedQueue α capacity).primed = false := rfl

@[simp] theorem dropRaw_items : (q.dropRaw n).items = q.items.drop n := rfl

@[simp] theorem dropRaw_primed : (q.dropRaw n).primed = q.primed := rfl

@[simp] theorem dropPaced_items : (q.dropPaced n).items = q.items.drop n := rfl

@[simp] theorem dropPaced_primed :
    (q.dropPaced n).primed = (q.primed && decide (n < q.items.length)) := rfl

variable (q) (threshold : ℕ) (block : List α)

theorem write_of_le (h : q.items.length + block.length ≤ capacity) :
    (q.write threshold block).items = q.items ++ block ∧
      (q.write threshold block).primed =
        (q.primed || decide (threshold ≤ q.items.length + block.length)) := by
  simp [write, h]

theorem write_of_lt (h : capacity < q.items.length + block.length) :
    q.write threshold block = q := by
  simp [write, Nat.not_le.mpr h]

theorem length_write : (q.write threshold block).items.length =
    if q.items.length + block.length ≤ capacity then q.items.length + block.length
    else q.items.length := by
  split
  next hfit => rw [(q.write_of_le threshold block hfit).1, List.length_append]
  next hfull => rw [q.write_of_lt threshold block (Nat.lt_of_not_le hfull)]

variable {q threshold block}

theorem play_append (q : PacedQueue α capacity) (n : ℕ) :
    (q.play n).1 ++ (q.play n).2.items = q.items := by
  unfold play
  split
  · rw [dropPaced_items, List.take_append_drop]
  · rfl

theorem length_play (q : PacedQueue α capacity) (n : ℕ) :
    (q.play n).1.length = if q.primed then min n q.items.length else 0 := by
  unfold play
  split <;> simp

theorem settled_empty (h : 0 < threshold) : Settled threshold (empty : PacedQueue α capacity) :=
  ⟨fun hp => by simp at hp, fun _ => by simpa⟩

theorem Settled.write (h : Settled threshold q) (ht : 0 < threshold) (block : List α) :
    Settled threshold (q.write threshold block) := by
  by_cases hn : q.items.length + block.length ≤ capacity
  · obtain ⟨hi, hp⟩ := q.write_of_le threshold block hn
    refine ⟨fun hq => ?_, fun hq => ?_⟩ <;> rw [hi, List.length_append] <;> rw [hp] at hq
    · rcases Bool.or_eq_true _ _ ▸ hq with hq | hq
      · have := h.nonempty hq
        omega
      · have := of_decide_eq_true hq
        omega
    · simp only [Bool.or_eq_false_iff, decide_eq_false_iff_not] at hq
      omega
  · rwa [q.write_of_lt threshold block (by omega)]

theorem Settled.play (h : Settled threshold q) (ht : 0 < threshold) (n : ℕ) :
    Settled threshold (q.play n).2 := by
  unfold PacedQueue.play
  split
  · rename_i hprimed
    refine ⟨fun hq => ?_, fun hq => ?_⟩ <;>
      rw [dropPaced_primed, hprimed, Bool.true_and] at hq <;>
      rw [dropPaced_items, List.length_drop]
    · have := of_decide_eq_true hq
      omega
    · have := of_decide_eq_false hq
      omega
  · exact h

/-- A step that primes only at the threshold and unprimes only when empty acts as `resume` says. -/
theorem Settled.primed_eq_resume {q' : PacedQueue α capacity} (h' : Settled threshold q')
    (honly : q'.primed → q.primed ∨ threshold ≤ q'.items.length)
    (hkeep : q.primed → 0 < q'.items.length → q'.primed) :
    q'.primed = resume threshold q.primed q'.items.length := by
  rw [Bool.eq_iff_iff, resume, Bool.and_eq_true, Bool.or_eq_true, decide_eq_true_iff,
    decide_eq_true_iff]
  constructor
  · intro hp
    exact ⟨Nat.ne_of_gt (h'.nonempty hp), honly hp⟩
  · rintro ⟨hn, hp | hp⟩
    · exact hkeep hp (Nat.pos_of_ne_zero hn)
    · by_contra hq
      have := h'.waiting (Bool.eq_false_iff.mpr hq)
      omega

theorem Settled.primed_write (h : Settled threshold q) (ht : 0 < threshold) (block : List α) :
    (q.write threshold block).primed =
      resume threshold q.primed (q.write threshold block).items.length := by
  apply (h.write ht block).primed_eq_resume
  all_goals
    by_cases hn : q.items.length + block.length ≤ capacity
    · obtain ⟨hi, hp⟩ := q.write_of_le threshold block hn
      rw [hi, hp, List.length_append]
      simp_all
    · rw [q.write_of_lt threshold block (by omega)]
      simp_all

theorem Settled.primed_play (h : Settled threshold q) (ht : 0 < threshold) (n : ℕ) :
    (q.play n).2.primed = resume threshold q.primed (q.play n).2.items.length := by
  apply (h.play ht n).primed_eq_resume <;> unfold PacedQueue.play <;> split
  · simp_all
  · simp_all
  · intro _ hn
    simp_all only [dropPaced_items, List.length_drop, dropPaced_primed, Bool.true_and,
      decide_eq_true_eq]
    omega
  · simp_all

end PacedQueue
