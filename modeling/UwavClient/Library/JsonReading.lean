import UwavClient.Library.Json
import Mathlib.Data.List.Basic
import Mathlib.Tactic.IntervalCases

/-!
# Reading JSON text

The reader takes back the strings and the integers of the writer, and its fuel is enough for every
text.
-/

namespace Json

variable {D : Type} {w : DoubleCodec D}

/-! ## Strings read back -/

@[simp] theorem ok_bind {ε α β : Type} (a : α) (f : α → Except ε β) : (Except.ok a >>= f) = f a := rfl

theorem unescape_of_escapeLetter {c e : Char} (h : escapeLetter c = some e) :
    e ≠ 'u' ∧ unescape e = some c := by
  unfold escapeLetter at h
  split_ifs at h with h₁ h₂ h₃ h₄ h₅ h₆
  · obtain rfl := Option.some.inj h
    rcases h₁ with rfl | rfl <;> decide
  all_goals
    obtain rfl := Option.some.inj h
    subst c
    decide

theorem ne_of_escapeLetter_eq_none {c : Char} (h : escapeLetter c = none) : c ≠ '"' ∧ c ≠ '\\' := by
  constructor <;> rintro rfl <;> cases h

theorem hexValue_hexDigit : ∀ n, n < 16 → hexValue (hexDigit n) = some n := by decide

theorem readHex_hexDigits {n : ℕ} (h : n < 256) (s : List Char) :
    readHex 0 4 ('0' :: '0' :: hexDigit (n / 16) :: hexDigit (n % 16) :: s) = .ok (n, s) := by
  have h₀ : hexValue '0' = some 0 := by decide
  have h₁ := hexValue_hexDigit (n / 16) (by omega)
  have h₂ := hexValue_hexDigit (n % 16) (by omega)
  simp only [readHex, h₀, h₁, h₂]
  rw [show ((0 * 16 + 0) * 16 + 0) * 16 + n / 16 = n / 16 by omega, Nat.div_add_mod']

theorem readEscape_control {c : Char} (h : c.toNat < 32) (s : List Char) :
    readEscape ('u' :: '0' :: '0' :: hexDigit (c.toNat / 16) :: hexDigit (c.toNat % 16) :: s) =
      .ok ([c], s) := by
  have hutf : utf8 c.toNat = [c] := by
    rw [utf8, if_pos (by omega), Char.ofNat_toNat]
  rw [readEscape, if_pos rfl, readHex_hexDigits (by omega), ok_bind]
  dsimp only
  rw [if_neg (by omega), hutf]
  rfl

/-- An escape that reads back costs a round. -/
theorem readString_of_readEscape {s t : List Char} {c : Char} (h : readEscape s = .ok ([c], t))
    (fuel : ℕ) : readString (fuel + 1) false ('\\' :: s) =
      (readString fuel false t).map fun ts => (c :: ts.1, ts.2) := by
  rw [readString]
  simp only [h, if_true, Char.reduceEq, if_false]
  cases readString fuel false t <;> rfl

/-- A round of the reader undoes a character of the writer. -/
theorem readString_writeChar (fuel : ℕ) (c : Char) (s : List Char) :
    readString (fuel + 1) false (writeChar c ++ s) =
      (readString fuel false s).map fun ts => (c :: ts.1, ts.2) := by
  unfold writeChar
  cases h : escapeLetter c with
  | some e =>
    obtain ⟨hu, hc⟩ := unescape_of_escapeLetter h
    exact readString_of_readEscape (show readEscape (e :: s) = _ by rw [readEscape, if_neg hu, hc]) fuel
  | none =>
    obtain ⟨hquote, hback⟩ := ne_of_escapeLetter_eq_none h
    dsimp only
    split
    · exact readString_of_readEscape (readEscape_control ‹_› s) fuel
    · rename_i hge
      rw [List.singleton_append, readString]
      simp only [if_neg hquote, if_neg hback, if_neg hge]
      cases readString fuel false s <;> rfl

theorem length_writeChar_pos (c : Char) : 0 < (writeChar c).length := by
  unfold writeChar
  split
  · exact Nat.two_pos
  · split <;> simp

theorem length_le_flatMap_writeChar (s : List Char) : s.length ≤ (s.flatMap writeChar).length := by
  induction s with
  | nil => exact Nat.zero_le _
  | cons c s ih =>
    have := length_writeChar_pos c
    rw [List.flatMap_cons, List.length_append, List.length_cons]
    omega

theorem readString_flatMap (s rest : List Char) {fuel : ℕ} (h : s.length < fuel) :
    readString fuel false (s.flatMap writeChar ++ '"' :: rest) = .ok (s, rest) := by
  induction s generalizing fuel with
  | nil =>
    obtain ⟨fuel, rfl⟩ := Nat.exists_eq_add_of_lt h
    rfl
  | cons c s ih =>
    obtain ⟨fuel, rfl⟩ : ∃ n, fuel = n + 1 := ⟨fuel - 1, by omega⟩
    rw [List.flatMap_cons, List.append_assoc, readString_writeChar,
      ih (by rw [List.length_cons] at h; omega)]
    rfl

/-- A string that was written reads back, whatever follows it. -/
theorem readString_writeString (s rest : List Char) : ∃ t, writeString s ++ rest = '"' :: t ∧
    readString (t.length + 1) false t = .ok (s, rest) := by
  refine ⟨s.flatMap writeChar ++ '"' :: rest, by simp [writeString], ?_⟩
  apply readString_flatMap
  have := length_le_flatMap_writeChar s
  rw [List.length_append, List.length_cons]
  omega

/-! ## Numbers read back -/

/-- The text does not go on with a number. -/
def Delimits (rest : List Char) : Prop :=
  ∀ c ∈ rest.head?, c.isDigit = false ∧ c ≠ '.' ∧ c ≠ 'e' ∧ c ≠ 'E'

theorem delimits_cons {c : Char} (hc : c = ',' ∨ c = ']' ∨ c = '}') (rest : List Char) :
    Delimits (c :: rest) := by
  rintro d ⟨⟩
  rcases hc with rfl | rfl | rfl <;> decide

theorem delimits_nil : Delimits [] := nofun

theorem Delimits.takeWhile {rest digits : List Char} (h : Delimits rest)
    (hd : ∀ c ∈ digits, c.isDigit) : (digits ++ rest).takeWhile Char.isDigit = digits := by
  rw [List.takeWhile_append_of_pos hd]
  cases rest with
  | nil => exact List.append_nil digits
  | cons c rest =>
    rw [List.takeWhile_cons_of_neg (by rw [(h c rfl).1]; exact Bool.false_ne_true), List.append_nil]

/-- Only zero has a leading zero. -/
theorem head_toDigits {n : ℕ} (h : 0 < n) : (Nat.toDigits 10 n).head? ≠ some '0' := by
  induction n using Nat.strong_induction_on with
  | _ n ih =>
    by_cases hn : n < 10
    · rw [Nat.toDigits_of_lt_base hn]
      interval_cases n <;> decide
    · rw [Nat.toDigits_of_base_le (by omega) (by omega), List.head?_append_of_ne_nil _ Nat.toDigits_ne_nil]
      exact ih (n / 10) (by omega) (by omega)

theorem readDigits_toDigits (n : ℕ) {rest : List Char} (h : Delimits rest) :
    readDigits (Nat.toDigits 10 n ++ rest) = Nat.toDigits 10 n := by
  have hdigits : ∀ c ∈ Nat.toDigits 10 n, c.isDigit := fun c hc =>
    Nat.isDigit_of_mem_toDigits (by omega) (by omega) hc
  unfold readDigits
  rcases Nat.eq_zero_or_pos n with rfl | hn
  · rfl
  · rw [List.head?_append_of_ne_nil _ Nat.toDigits_ne_nil, if_neg (head_toDigits hn)]
    exact h.takeWhile hdigits

theorem Delimits.readFraction {rest : List Char} (h : Delimits rest) : readFraction rest = .ok [] := by
  cases rest with
  | nil => rfl
  | cons c rest => rw [Json.readFraction, if_neg (h c rfl).2.1]

theorem Delimits.readExponent {rest : List Char} (h : Delimits rest) : readExponent rest = .ok [] := by
  cases rest with
  | nil => rfl
  | cons c rest => rw [Json.readExponent, if_neg (not_or.mpr (h c rfl).2.2)]

theorem take_one_filter_minus {c : Char} {s : List Char} (h : c.isDigit) :
    ((c :: s).take 1).filter (· = '-') = [] := by
  have hc : c ≠ '-' := by
    rintro rfl
    cases h
  simp [hc]

/-- Digits that are no larger than the bound are an integer of the sign. -/
theorem readNumber_digits {sign digits rest : List Char} (hsign : sign = [] ∨ sign = ['-'])
    (hne : digits ≠ []) (hall : ∀ c ∈ digits, c.isDigit) (hrest : Delimits rest)
    (hread : readDigits (digits ++ rest) = digits)
    (hle : Nat.ofDigitChars 10 digits 0 ≤ if sign = [] then 2 ^ 64 - 1 else 2 ^ 63) :
    readNumber w (sign ++ digits ++ rest) =
      .ok (.int (if sign = [] then Nat.ofDigitChars 10 digits 0 else -Nat.ofDigitChars 10 digits 0),
        rest) := by
  obtain ⟨c, ds, rfl⟩ := List.exists_cons_of_ne_nil hne
  have htake : ((sign ++ (c :: ds) ++ rest).take 1).filter (· = '-') = sign := by
    rcases hsign with rfl | rfl
    · exact take_one_filter_minus (hall c List.mem_cons_self)
    · rfl
  have hdrop : (sign ++ (c :: ds) ++ rest).drop sign.length = c :: ds ++ rest := by
    rw [List.append_assoc, List.drop_left]
  have hdrop' : (sign ++ (c :: ds) ++ rest).drop (sign ++ (c :: ds)).length = rest := List.drop_left
  unfold readNumber
  simp only [htake, hdrop, hread, hdrop', List.append_nil, hrest.readFraction, hrest.readExponent,
    ok_bind, if_neg hne, true_and, if_pos hle]
  rfl

theorem readNumber_writeInt {n : ℤ} (hlo : -2 ^ 63 ≤ n) (hhi : n < 2 ^ 64) {rest : List Char}
    (hrest : Delimits rest) : readNumber w (writeInt n ++ rest) = .ok (.int n, rest) := by
  have hall : ∀ c ∈ Nat.toDigits 10 n.natAbs, c.isDigit := fun c hc =>
    Nat.isDigit_of_mem_toDigits (by omega) (by omega) hc
  have hvalue : Nat.ofDigitChars 10 (Nat.toDigits 10 n.natAbs) 0 = n.natAbs :=
    Nat.ofDigitChars_ten_toDigits
  have hread := readDigits_toDigits n.natAbs hrest
  unfold writeInt
  split
  next hneg =>
    have h := readNumber_digits (w := w) (.inr rfl) Nat.toDigits_ne_nil hall hrest hread
      (by rw [hvalue, if_neg (List.cons_ne_nil _ _)]; omega)
    rw [hvalue, if_neg (List.cons_ne_nil _ _)] at h
    refine h.trans ?_
    congr 3
    omega
  next hpos =>
    have h := readNumber_digits (w := w) (.inl rfl) Nat.toDigits_ne_nil hall hrest hread
      (by rw [hvalue, if_pos rfl]; omega)
    rw [hvalue, if_pos rfl] at h
    refine h.trans ?_
    congr 3
    omega

/-! ## The fuel is enough

What is read is shorter than the text, so that two rounds for each character are never used up. -/

/-- Fewer than `n` characters are left. -/
def Leaves {ε α : Type} (n : ℕ) (r : Except ε (α × List Char)) : Prop :=
  ∀ a t, r = .ok (a, t) → t.length < n

section Leaves

variable {ε α β : Type} {n k : ℕ} {s t : List Char}

theorem leaves_ok {a : α} (h : t.length < n) : Leaves (ε := ε) n (.ok (a, t)) := by
  rintro _ _ ⟨⟩
  exact h

theorem leaves_error (e : ε) : Leaves (α := α) n (.error e) := nofun

theorem Leaves.bind {r : Except ε (α × List Char)} {f : α × List Char → Except ε (β × List Char)}
    (hr : Leaves k r) (hf : ∀ a t, t.length < k → Leaves n (f (a, t))) : Leaves n (r >>= f) := by
  cases r with
  | error e => exact leaves_error e
  | ok at' => exact hf at'.1 at'.2 (hr _ _ rfl)

theorem length_skipWhitespace_le (s : List Char) : (skipWhitespace s).length ≤ s.length :=
  (List.dropWhile_suffix _).length_le

theorem leaves_skipWord {word : List Char} {f : List Char → Except Failure (β × List Char)}
    (hf : ∀ t, t.length + word.length = s.length → Leaves n (f t)) :
    Leaves n (skipWord word s >>= f) := by
  unfold skipWord
  split
  next hprefix =>
    apply hf
    rw [List.length_drop]
    have := hprefix.length_le
    omega
  next => exact leaves_error _

theorem leaves_readHex (n count : ℕ) (s : List Char) : Leaves (s.length + 1) (readHex n count s) := by
  induction count generalizing n s with
  | zero => exact leaves_ok (Nat.lt_succ_self _)
  | succ count ih =>
    cases s with
    | nil => exact leaves_error _
    | cons c s =>
      rw [readHex]
      split
      · exact fun a t h => (ih _ s a t h).trans (Nat.lt_succ_self _)
      · exact leaves_error _

theorem leaves_readLowSurrogate (s : List Char) : Leaves (s.length + 1) (readLowSurrogate s) := by
  unfold readLowSurrogate
  split
  next =>
    split
    next n t ht =>
      have := leaves_readHex _ _ _ _ _ ht
      rw [List.length_drop] at this
      split
      · exact leaves_ok (by omega)
      · exact leaves_error _
    next => exact leaves_error _
  next => exact leaves_error _

theorem leaves_readEscape (s : List Char) : Leaves (s.length + 1) (readEscape s) := by
  cases s with
  | nil => exact leaves_error _
  | cons c s =>
    rw [readEscape]
    split
    · refine (leaves_readHex 0 4 s).bind fun n t ht => ?_
      dsimp only
      split
      · exact (leaves_readLowSurrogate t).bind fun low u hu => leaves_ok (by simp; omega)
      · exact leaves_ok (by simp; omega)
    · split
      · exact leaves_ok (by rw [List.length_cons]; omega)
      · exact leaves_error _

/-- A bad digit has been taken. -/
theorem length_of_readHex_digit {count : ℕ} (h : readHex n count s = .error (.digit t)) :
    t.length < s.length := by
  induction count generalizing n s with
  | zero => cases h
  | succ count ih =>
    cases s with
    | nil => cases h
    | cons c s =>
      rw [readHex] at h
      split at h
      · exact (ih h).trans (Nat.lt_succ_self _)
      · cases h
        exact Nat.lt_succ_self _

theorem readLowSurrogate_ne_digit : readLowSurrogate s ≠ .error (.digit t) := by
  unfold readLowSurrogate
  split
  · split
    · split <;> nofun
    · nofun
  · nofun

theorem length_of_readEscape_digit (h : readEscape s = .error (.digit t)) : t.length < s.length := by
  cases s with
  | nil => cases h
  | cons c s =>
    rw [readEscape] at h
    split at h
    · cases hx : readHex 0 4 s with
      | error e =>
        rw [hx] at h
        cases h
        exact (length_of_readHex_digit hx).trans (Nat.lt_succ_self _)
      | ok value =>
        obtain ⟨n, u⟩ := value
        rw [hx, ok_bind] at h
        dsimp only at h
        split at h
        · cases hl : readLowSurrogate u with
          | error e =>
            rw [hl] at h
            cases h
            exact absurd hl readLowSurrogate_ne_digit
          | ok low =>
            rw [hl] at h
            cases h
        · cases h
    · split at h <;> cases h

theorem leaves_readString (fuel : ℕ) (failed : Bool) (s : List Char) :
    Leaves s.length (readString fuel failed s) := by
  induction fuel generalizing failed s with
  | zero => exact leaves_error _
  | succ fuel ih =>
    cases s with
    | nil => exact leaves_error _
    | cons c s =>
      rw [readString]
      dsimp only
      split
      · split
        · exact leaves_error _
        · exact leaves_ok (Nat.lt_succ_self _)
      · split
        · split
          next cs t ht =>
            have hlt := leaves_readEscape s cs t ht
            exact (ih failed t).bind fun u v hv => leaves_ok (hv.trans (by rw [List.length_cons]; omega))
          next => exact leaves_error _
          next t ht =>
            have hlt := length_of_readEscape_digit ht
            split
            · exact leaves_error _
            · exact fun a v hv => (ih true t a v hv).trans (hlt.trans (Nat.lt_succ_self _))
          next => exact leaves_error _
        · split
          · exact leaves_error _
          · exact (ih failed s).bind fun u v hv => leaves_ok (hv.trans (Nat.lt_succ_self _))

theorem leaves_bind {γ : Type} {r : Except ε γ} {f : γ → Except ε (β × List Char)}
    (hf : ∀ c, Leaves n (f c)) : Leaves n (r >>= f) := by
  cases r with
  | error e => exact leaves_error e
  | ok c => exact hf c

/-- A digit has been read. -/
theorem leaves_readNumber (s : List Char) : Leaves s.length (readNumber w s) := by
  unfold readNumber
  extract_lets sign digits
  split
  · exact leaves_error _
  next hne =>
    have hs : 0 < s.length := by
      rw [List.length_pos_iff]
      rintro rfl
      exact hne rfl
    have hdrop : ∀ t, (s.drop (sign ++ digits ++ t).length).length < s.length := by
      intro t
      have := List.length_pos_iff.mpr hne
      rw [List.length_drop, List.length_append, List.length_append]
      omega
    refine leaves_bind fun fraction => leaves_bind fun exponent => ?_
    have hrest := hdrop (fraction ++ exponent)
    rw [← List.append_assoc] at hrest
    extract_lets
    split
    · exact leaves_ok hrest
    · split
      · exact leaves_ok hrest
      · exact leaves_error _

theorem length_tail_skipWhitespace_lt {s : List Char} {c : Char}
    (h : (skipWhitespace s).head? = some c) : (skipWhitespace s).tail.length < s.length := by
  have hle := length_skipWhitespace_le s
  cases hs : skipWhitespace s with
  | nil =>
    rw [hs] at h
    cases h
  | cons d t =>
    rw [hs] at hle
    exact hle

/-- What may follow an item or a member. -/
theorem length_lt_of_skipWhitespace_cons {s t : List Char} {c : Char} (h : skipWhitespace s = c :: t) :
    t.length < s.length := by
  have hle := length_skipWhitespace_le s
  rw [h] at hle
  exact hle

theorem leaves_values (fuel : ℕ) (s : List Char) : Leaves s.length (readValue w fuel s) ∧
    Leaves s.length (readItems w fuel s) ∧ Leaves s.length (readMembers w fuel s) := by
  induction fuel generalizing s with
  | zero => exact ⟨leaves_error _, leaves_error _, leaves_error _⟩
  | succ fuel ih =>
    have hmore : ∀ t, (skipWhitespace t).length ≤ t.length := length_skipWhitespace_le
    refine ⟨?_, ?_, ?_⟩
    · unfold readValue
      split
      · exact leaves_skipWord fun t ht => leaves_ok (by rw [List.length_cons]; omega)
      · exact leaves_skipWord fun t ht => leaves_ok (by rw [List.length_cons]; omega)
      · exact leaves_skipWord fun t ht => leaves_ok (by rw [List.length_cons]; omega)
      · exact (leaves_readString _ _ _).bind fun t u hu => leaves_ok (by rw [List.length_cons]; omega)
      · dsimp only
        split
        next hhead =>
          exact leaves_ok ((length_tail_skipWhitespace_lt hhead).trans (Nat.lt_succ_self _))
        next =>
          exact (ih _).2.1.bind fun vs u hu => leaves_ok (hu.trans_le ((hmore _).trans (Nat.le_succ _)))
      · dsimp only
        split
        next hhead =>
          exact leaves_ok ((length_tail_skipWhitespace_lt hhead).trans (Nat.lt_succ_self _))
        next =>
          exact (ih _).2.2.bind fun ms u hu => leaves_ok (hu.trans_le ((hmore _).trans (Nat.le_succ _)))
      · exact leaves_readNumber _
    · unfold readItems
      refine (ih s).1.bind fun v t ht => ?_
      dsimp only
      split
      next u hu =>
        have hlt := length_lt_of_skipWhitespace_cons hu
        have hle := hmore u
        exact (ih _).2.1.bind fun vs x hx => leaves_ok (by dsimp only; omega)
      next u hu => exact leaves_ok ((length_lt_of_skipWhitespace_cons hu).trans ht)
      next => exact leaves_error _
    · unfold readMembers
      refine leaves_skipWord fun t ht => (leaves_readString _ _ t).bind fun k t' ht' => ?_
      dsimp only
      refine leaves_skipWord fun u hu => (ih _).1.bind fun v x hx => ?_
      have hle := hmore t'
      have hle' := hmore u
      simp only [List.length_cons, List.length_nil] at ht hu
      dsimp only
      split
      next y hy =>
        have hlt := length_lt_of_skipWhitespace_cons hy
        have hle := hmore y
        exact (ih _).2.2.bind fun ms z hz => leaves_ok (by dsimp only; omega)
      next y hy =>
        have hlt := length_lt_of_skipWhitespace_cons hy
        exact leaves_ok (by omega)
      next => exact leaves_error _

end Leaves

/-- The bind of two fuels is the same if the first half is and the second half is on what it leaves. -/
theorem bind_congr_of_leaves {ε α β : Type} {n : ℕ} {r r' : Except ε (α × List Char)}
    {f f' : α × List Char → Except ε β} (hr : r = r') (hn : Leaves n r)
    (hf : ∀ a t, t.length < n → f (a, t) = f' (a, t)) : (r >>= f) = (r' >>= f') := by
  subst hr
  cases r with
  | error e => rfl
  | ok p => exact hf p.1 p.2 (hn _ _ rfl)

theorem bind_congr_skipWord {β : Type} {word s : List Char} {f f' : List Char → Except Failure β}
    (hf : ∀ t, t.length + word.length = s.length → f t = f' t) :
    (skipWord word s >>= f) = (skipWord word s >>= f') := by
  unfold skipWord
  split
  next hprefix =>
    apply hf
    rw [List.length_drop]
    have := hprefix.length_le
    omega
  next => rfl

/-- The readers with two amounts of fuel agree on a text. -/
structure Agree (w : DoubleCodec D) (s : List Char) : Prop where
  value : ∀ f g, 2 * s.length + 1 ≤ f → 2 * s.length + 1 ≤ g → readValue w f s = readValue w g s
  items : ∀ f g, 2 * s.length + 2 ≤ f → 2 * s.length + 2 ≤ g → readItems w f s = readItems w g s
  members : ∀ f g, 2 * s.length + 2 ≤ f → 2 * s.length + 2 ≤ g →
    readMembers w f s = readMembers w g s

/-- Two rounds for each character are enough; more change nothing. -/
theorem agree (s : List Char) : Agree w s := by
  induction hn : s.length using Nat.strong_induction_on generalizing s with
  | _ n ih =>
    subst hn
    have hmore := length_skipWhitespace_le
    have hvalue : ∀ f g, 2 * s.length + 1 ≤ f → 2 * s.length + 1 ≤ g →
        readValue w f s = readValue w g s := by
      intro f g hf hg
      obtain ⟨f, rfl⟩ : ∃ k, f = k + 1 := ⟨f - 1, by omega⟩
      obtain ⟨g, rfl⟩ : ∃ k, g = k + 1 := ⟨g - 1, by omega⟩
      unfold readValue
      split <;> try rfl
      next t =>
        have hle := hmore t
        rw [List.length_cons] at hf hg ih
        dsimp only
        rw [(ih _ (by omega) (skipWhitespace t) rfl).items f g (by omega) (by omega)]
      next t =>
        have hle := hmore t
        rw [List.length_cons] at hf hg ih
        dsimp only
        rw [(ih _ (by omega) (skipWhitespace t) rfl).members f g (by omega) (by omega)]
    refine ⟨hvalue, fun f g hf hg => ?_, fun f g hf hg => ?_⟩
    · obtain ⟨f, rfl⟩ : ∃ k, f = k + 1 := ⟨f - 1, by omega⟩
      obtain ⟨g, rfl⟩ : ∃ k, g = k + 1 := ⟨g - 1, by omega⟩
      unfold readItems
      refine bind_congr_of_leaves (hvalue f g (by omega) (by omega)) (leaves_values f s).1 ?_
      intro v t ht
      dsimp only
      split <;> try rfl
      next u hu =>
        have hlt := length_lt_of_skipWhitespace_cons hu
        have hle := hmore u
        rw [(ih _ (by omega) (skipWhitespace u) rfl).items f g (by omega) (by omega)]
    · obtain ⟨f, rfl⟩ : ∃ k, f = k + 1 := ⟨f - 1, by omega⟩
      obtain ⟨g, rfl⟩ : ∃ k, g = k + 1 := ⟨g - 1, by omega⟩
      unfold readMembers
      refine bind_congr_skipWord fun t ht => bind_congr_of_leaves rfl (leaves_readString _ _ t) ?_
      intro k u hu
      dsimp only
      refine bind_congr_skipWord fun x hx => ?_
      have hle := hmore u
      have hle' := hmore x
      simp only [List.length_cons, List.length_nil] at ht hx
      refine bind_congr_of_leaves
        ((ih _ (by omega) (skipWhitespace x) rfl).value f g (by omega) (by omega))
        (leaves_values f _).1 ?_
      intro v y hy
      dsimp only
      split <;> try rfl
      next z hz =>
        have hlt := length_lt_of_skipWhitespace_cons hz
        have hle := hmore z
        rw [(ih _ (by omega) (skipWhitespace z) rfl).members f g (by omega) (by omega)]

end Json
