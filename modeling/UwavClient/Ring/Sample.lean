import UwavClient.Ring.Buffer

/-!
# Samples as groups of four bytes

The buffer and the blocks exchanged with it are byte arrays; every access moves whole 32-bit samples.
`encode` and `decode` pass between a list of samples and its bytes, and `StoredSamples` is the
circular storage of a queue of samples.
-/

namespace UwavClient

/-- The four bytes of a 32-bit sample, in memory order. -/
structure Sample where
  b0 : UInt8
  b1 : UInt8
  b2 : UInt8
  b3 : UInt8
  deriving DecidableEq, Repr

def Sample.zero : Sample := ⟨0, 0, 0, 0⟩

def encode : List Sample → Bytes
  | [] => []
  | x :: xs => x.b0 :: x.b1 :: x.b2 :: x.b3 :: encode xs

def decode : Bytes → List Sample
  | b0 :: b1 :: b2 :: b3 :: bs => ⟨b0, b1, b2, b3⟩ :: decode bs
  | _ => []

@[simp] theorem length_encode (xs : List Sample) : (encode xs).length = 4 * xs.length := by
  induction xs with
  | nil => rfl
  | cons x xs ih =>
    simp only [encode, List.length_cons, ih]
    omega

@[simp] theorem encode_append (xs ys : List Sample) : encode (xs ++ ys) = encode xs ++ encode ys := by
  induction xs with
  | nil => rfl
  | cons x xs ih => simp only [List.cons_append, encode, ih]

theorem encode_take (xs : List Sample) (n : ℕ) : encode (xs.take n) = (encode xs).take (4 * n) := by
  induction xs generalizing n with
  | nil => simp [encode]
  | cons x xs ih =>
    cases n with
    | zero => rfl
    | succ n => simp [encode, ih, Nat.mul_succ]

theorem encode_drop (xs : List Sample) (n : ℕ) : encode (xs.drop n) = (encode xs).drop (4 * n) := by
  induction xs generalizing n with
  | nil => simp [encode]
  | cons x xs ih =>
    cases n with
    | zero => rfl
    | succ n => simp [encode, ih, Nat.mul_succ]

@[simp] theorem decode_encode (xs : List Sample) : decode (encode xs) = xs := by
  induction xs with
  | nil => rfl
  | cons x xs ih => rw [encode, decode, ih]

theorem encode_decode {bs : Bytes} {n : ℕ} (h : bs.length = 4 * n) : encode (decode bs) = bs := by
  induction n generalizing bs with
  | zero =>
    rw [List.length_eq_zero_iff.mp (by omega : bs.length = 0)]
    rfl
  | succ n ih =>
    match bs, h with
    | b0 :: b1 :: b2 :: b3 :: bs, h =>
      rw [decode, encode, ih (by simp only [List.length_cons] at h; omega)]

theorem length_decode {bs : Bytes} {n : ℕ} (h : bs.length = 4 * n) : (decode bs).length = n := by
  have he := length_encode (decode bs)
  rw [encode_decode h] at he
  omega

theorem encode_replicate_zero (n : ℕ) :
    encode (List.replicate n Sample.zero) = List.replicate (4 * n) 0 := by
  induction n with
  | zero => rfl
  | succ n ih =>
    rw [List.replicate_succ, encode, ih, Nat.mul_succ]
    rfl

/-- The first `n` samples of a caller's block. -/
def blockSamples (src : Bytes) (n : ℕ) : List Sample := decode (sourceBytes src 0 n)

section Blocks

variable {src : Bytes} {n k : ℕ}

theorem length_sourceBytes (h : 4 * n ≤ src.length) : (sourceBytes src 0 n).length = 4 * n := by
  rw [sourceBytes, Circular.length_slice]
  · rfl
  · simpa using h

theorem encode_blockSamples (h : 4 * n ≤ src.length) :
    encode (blockSamples src n) = sourceBytes src 0 n :=
  encode_decode (length_sourceBytes h)

theorem length_blockSamples (h : 4 * n ≤ src.length) : (blockSamples src n).length = n :=
  length_decode (length_sourceBytes h)

/-- The first of the two copies that move a block across the end of the buffer. -/
theorem encode_take_blockSamples (h : 4 * n ≤ src.length) (hk : k ≤ n) :
    encode ((blockSamples src n).take k) = sourceBytes src 0 k := by
  rw [encode_take, encode_blockSamples h, sourceBytes, sourceBytes, Circular.slice, Circular.slice,
    List.take_take, Nat.min_eq_left (by omega)]
  rfl

/-- The second of the two copies that move a block across the end of the buffer. -/
theorem encode_drop_blockSamples (h : 4 * n ≤ src.length) :
    encode ((blockSamples src n).drop k) = sourceBytes src k ((n : ℤ) - k) := by
  rw [encode_drop, encode_blockSamples h, sourceBytes, sourceBytes, Circular.slice, Circular.slice,
    List.drop_take, List.drop_drop]
  congr 1
  · omega
  · simp

end Blocks

/-- The queue `q` of samples lies in the buffer, its first sample in slot `t % slots`. -/
structure StoredSamples (buffer : Bytes) (slots t : ℕ) (q : List Sample) : Prop where
  size : buffer.length = 4 * slots
  stored : Circular.Stored buffer (4 * t) (encode q)

namespace StoredSamples

variable {buffer : Bytes} {slots t t' pos n : ℕ} {q xs : List Sample}

theorem length_le (h : StoredSamples buffer slots t q) : q.length ≤ slots := by
  have := h.stored.fits
  rw [length_encode, h.size] at this
  omega

theorem congr (h : StoredSamples buffer slots t q) (ht : t % slots = t' % slots) :
    StoredSamples buffer slots t' q where
  size := h.size
  stored := by
    refine ⟨h.stored.fits, fun i hi => ?_⟩
    rw [← h.stored.cell i hi, h.size, Nat.add_mod (4 * t'), Nat.mul_mod_mul_left, ← ht,
      ← Nat.mul_mod_mul_left, ← Nat.add_mod]

theorem nil (h : buffer.length = 4 * slots) (t : ℕ) : StoredSamples buffer slots t [] :=
  ⟨h, .nil _ _⟩

theorem drop (h : StoredSamples buffer slots t q) (n : ℕ) :
    StoredSamples buffer slots (t + n) (q.drop n) where
  size := h.size
  stored := by
    rw [encode_drop, Nat.mul_add]
    exact h.stored.drop _

theorem of_append (h : StoredSamples buffer slots t (q ++ xs)) : StoredSamples buffer slots t q :=
  ⟨h.size, Circular.Stored.of_append (by simpa using h.stored)⟩

/-- A copy out of the buffer from the queue's first slot reads a prefix of the queue. -/
theorem slice_eq (h : StoredSamples buffer slots t q) (hpos : pos % slots = t % slots)
    (hend : pos + n ≤ slots) (hn : n ≤ q.length) :
    Circular.slice buffer (4 * pos) (4 * n) = encode (q.take n) := by
  rw [encode_take]
  apply h.stored.slice_eq
  · rw [h.size, Nat.mul_mod_mul_left, Nat.mul_mod_mul_left, hpos]
  · rw [h.size]
    omega
  · rw [length_encode]
    omega

/-- Two copies across the end of the buffer read a prefix of the queue too. -/
theorem slice_wrap_eq (h : StoredSamples buffer slots t q) (hpos : pos % slots = t % slots) {k : ℕ}
    (hk : slots = pos + k) (hkn : k ≤ n) (hn : n ≤ q.length) :
    Circular.slice buffer (4 * pos) (4 * k) ++ Circular.slice buffer (4 * 0) (4 * (n - k)) =
      encode (q.take n) := by
  have hfit := h.length_le
  have hstart : 0 % slots = (t + k) % slots := by
    rw [Nat.add_mod, ← hpos, ← Nat.add_mod, ← hk, Nat.mod_self, Nat.zero_mod]
  have hsecond := (h.drop k).slice_eq hstart (show 0 + (n - k) ≤ slots by omega)
    (by rw [List.length_drop]; omega)
  rw [h.slice_eq hpos hk.ge (hkn.trans hn), hsecond, ← encode_append, ← List.take_add,
    Nat.add_sub_cancel' hkn]

/-- A copy into the buffer from the slot after the queue's last one appends to the queue. -/
theorem splice (h : StoredSamples buffer slots t q) (xs : List Sample)
    (hpos : pos % slots = (t + q.length) % slots) (hend : pos + xs.length ≤ slots)
    (hroom : q.length + xs.length ≤ slots) :
    StoredSamples (Circular.splice buffer (4 * pos) (encode xs)) slots t (q ++ xs) where
  size := by
    rw [Circular.length_splice, h.size]
    rw [length_encode, h.size]
    omega
  stored := by
    rw [encode_append]
    apply h.stored.splice
    · rw [h.size, length_encode, ← Nat.mul_add, Nat.mul_mod_mul_left, Nat.mul_mod_mul_left, hpos]
    · rw [length_encode, h.size]
      omega
    · rw [length_encode, length_encode, h.size]
      omega

end StoredSamples

end UwavClient
