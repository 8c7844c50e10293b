import UwavClient.Library.JsonReading

/-!
# JSON text reads back

What the writer writes is read as the value it was written for, if its integers have 64 bits and its
other numbers read back themselves.
-/

namespace Json

variable {D : Type} {w : DoubleCodec D}

/-! ## Values read back -/

/-- The text of a number stands for the number, wherever it stands. -/
structure ReadsBack (w : DoubleCodec D) (d : D) : Prop where
  reads : ∀ rest, Delimits rest → readNumber w (w.write d ++ rest) = .ok (.double d, rest)
  terminator : '\x00' ∉ w.write d

/-- A value whose numbers read back. -/
inductive Readable (w : DoubleCodec D) : Value D → Prop where
  | null : Readable w .null
  | bool (b : Bool) : Readable w (.bool b)
  | int {n : ℤ} (hlo : -2 ^ 63 ≤ n) (hhi : n < 2 ^ 64) : Readable w (.int n)
  | double {d : D} (h : ReadsBack w d) : Readable w (.double d)
  | string (s : List Char) : Readable w (.string s)
  | array {items : List (Value D)} (h : ∀ v ∈ items, Readable w v) : Readable w (.array items)
  | object {members : List (List Char × Value D)} (h : ∀ m ∈ members, Readable w m.2) :
    Readable w (.object members)

/-- A literal with a decimal point reads back if its value does. -/
theorem readsBack_of_fraction {d : D} {sign digits fraction : List Char}
    (hwrite : w.write d = sign ++ digits ++ '.' :: fraction) (hsign : sign = [] ∨ sign = ['-'])
    (hdigits : digits ≠ []) (hall : ∀ c ∈ digits, c.isDigit)
    (hzero : digits.head? = some '0' → digits = ['0'])
    (hfraction : fraction ≠ []) (hall' : ∀ c ∈ fraction, c.isDigit)
    (hread : w.read (w.write d) = some d) : ReadsBack w d where
  reads := by
    intro rest hrest
    obtain ⟨c, ds, rfl⟩ := List.exists_cons_of_ne_nil hdigits
    have htext : w.write d ++ rest = sign ++ (c :: ds ++ '.' :: (fraction ++ rest)) := by
      rw [hwrite]
      simp only [List.append_assoc, List.cons_append]
    have htake : ((w.write d ++ rest).take 1).filter (· = '-') = sign := by
      rw [htext]
      rcases hsign with rfl | rfl
      · exact take_one_filter_minus (hall c List.mem_cons_self)
      · rfl
    have hdrop : (w.write d ++ rest).drop sign.length = c :: ds ++ '.' :: (fraction ++ rest) := by
      rw [htext, List.drop_left]
    have hreadDigits : readDigits (c :: ds ++ '.' :: (fraction ++ rest)) = c :: ds := by
      have hdelim : (c :: ds ++ '.' :: (fraction ++ rest)).takeWhile Char.isDigit = c :: ds := by
        rw [List.takeWhile_append_of_pos hall, List.takeWhile_cons_of_neg (by decide), List.append_nil]
      unfold readDigits
      split
      next h => rw [hzero h]
      next => exact hdelim
    have hdrop' : (w.write d ++ rest).drop (sign ++ (c :: ds)).length = '.' :: (fraction ++ rest) := by
      rw [htext, ← List.append_assoc, List.drop_left]
    have hreadFraction : readFraction ('.' :: (fraction ++ rest)) = .ok ('.' :: fraction) := by
      rw [readFraction, if_pos rfl, hrest.takeWhile hall', if_neg hfraction]
    have hdrop'' : (w.write d ++ rest).drop (sign ++ (c :: ds) ++ '.' :: fraction).length = rest := by
      rw [hwrite, List.drop_left]
    rw [hwrite] at hread
    unfold readNumber
    simp only [htake, hdrop, hreadDigits, hdrop', hreadFraction, ok_bind, if_neg hdigits, hdrop'',
      hrest.readExponent, List.append_nil, hread]
    rfl
  terminator := by
    rw [hwrite]
    intro h
    simp only [List.mem_append, List.mem_cons] at h
    obtain (h | h) | h | h := h
    · rcases hsign with rfl | rfl
      · cases h
      · exact absurd (List.mem_singleton.mp h) (by decide)
    · exact absurd (hall _ h) (by decide)
    · exact absurd h (by decide)
    · exact absurd (hall' _ h) (by decide)

/-- A number starts with a sign or a digit. -/
theorem head_of_readNumber {s : List Char} {r : Value D × List Char} (h : readNumber w s = .ok r) :
    ∃ c t, s = c :: t ∧ (c = '-' ∨ c.isDigit) := by
  cases s with
  | nil => cases h
  | cons c t =>
    refine ⟨c, t, rfl, ?_⟩
    by_contra hc
    obtain ⟨hminus, hdigit⟩ := not_or.mp hc
    have htake : ((c :: t).take 1).filter (· = '-') = [] := by simp [hminus]
    have hdigits : readDigits (c :: t) = [] := by
      have hzero : c ≠ '0' := by
        rintro rfl
        exact hdigit rfl
      rw [readDigits, if_neg (by simpa using hzero), List.takeWhile_cons_of_neg hdigit]
    unfold readNumber at h
    simp only [htake, List.length_nil, List.drop_zero, hdigits, if_true] at h
    cases h

/-- Where a value starts there is neither a blank nor the end of a list. -/
def Starts (s : List Char) : Prop := ∃ c t, s = c :: t ∧ isWhitespace c = false ∧ c ≠ ']'

theorem starts_of_number {s : List Char} {c : Char} {t : List Char} (hs : s = c :: t)
    (hc : c = '-' ∨ c.isDigit) : Starts s := by
  refine ⟨c, t, hs, ?_, ?_⟩
  · rcases hc with rfl | hc
    · rfl
    · rw [← Bool.not_eq_true]
      intro hw
      simp only [isWhitespace, Bool.or_eq_true, decide_eq_true_eq] at hw
      obtain ((rfl | rfl) | rfl) | rfl := hw <;> cases hc
  · rintro rfl
    rcases hc with hc | hc <;> cases hc

theorem writeInt_head (n : ℤ) : ∃ c t, writeInt n = c :: t ∧ (c = '-' ∨ c.isDigit) := by
  unfold writeInt
  split
  · exact ⟨_, _, rfl, .inl rfl⟩
  · obtain ⟨c, t, h⟩ := List.exists_cons_of_ne_nil (Nat.toDigits_ne_nil (n := n.natAbs) (b := 10))
    exact ⟨c, t, h, .inr (Nat.isDigit_of_mem_toDigits (by omega) (by omega) (h ▸ List.mem_cons_self))⟩

theorem ReadsBack.head {d : D} (h : ReadsBack w d) :
    ∃ c t, w.write d = c :: t ∧ (c = '-' ∨ c.isDigit) := by
  have := h.reads [] delimits_nil
  rw [List.append_nil] at this
  exact head_of_readNumber this

theorem Readable.starts {v : Value D} (h : Readable w v) : Starts (write w v) := by
  cases h with
  | null => exact ⟨_, _, by rw [write], rfl, by decide⟩
  | bool b => cases b <;> exact ⟨_, _, by rw [write], rfl, by decide⟩
  | @int n hlo hhi =>
    obtain ⟨c, t, hs, hc⟩ := writeInt_head n
    exact starts_of_number (by rw [write]; exact hs) hc
  | double h =>
    obtain ⟨c, t, hs, hc⟩ := h.head
    exact starts_of_number (by rw [write]; exact hs) hc
  | string s => exact ⟨_, _, by rw [write, writeString], rfl, by decide⟩
  | array h => exact ⟨_, _, by rw [write], rfl, by decide⟩
  | object h => exact ⟨_, _, by rw [write], rfl, by decide⟩

theorem skipWhitespace_cons {c : Char} (h : isWhitespace c = false) (s : List Char) :
    skipWhitespace (c :: s) = c :: s :=
  List.dropWhile_cons_of_neg (by rw [h]; exact Bool.false_ne_true)

theorem Starts.skipWhitespace {s : List Char} (h : Starts s) (rest : List Char) :
    skipWhitespace (s ++ rest) = s ++ rest := by
  obtain ⟨c, t, rfl, hc, -⟩ := h
  exact skipWhitespace_cons hc _

theorem skipWord_append (word rest : List Char) : skipWord word (word ++ rest) = .ok rest := by
  rw [skipWord, if_pos (List.prefix_append _ _), List.drop_left]

/-- Anything that is a number is read as one. -/
theorem readValue_number {s rest : List Char} {v : Value D} {c : Char} {t : List Char}
    (hs : s = c :: t) (hc : c = '-' ∨ c.isDigit) (h : readNumber w (s ++ rest) = .ok (v, rest))
    (fuel : ℕ) : readValue w (fuel + 1) (s ++ rest) = .ok (v, rest) := by
  subst hs
  rw [← h, List.cons_append]
  unfold readValue
  split <;> first | rfl | skip
  all_goals
    rename_i heq
    obtain ⟨rfl, -⟩ := List.cons.inj heq
    rcases hc with hc | hc <;> cases hc

/-- With enough fuel the value is read off its text. -/
def ReadsValue (w : DoubleCodec D) (v : Value D) : Prop :=
  ∃ n, ∀ fuel, n ≤ fuel → ∀ rest, Delimits rest → readValue w fuel (write w v ++ rest) = .ok (v, rest)

theorem readItems_comma {fuel : ℕ} {s u : List Char} {v : Value D}
    (h : readValue w fuel s = .ok (v, ',' :: u)) : readItems w (fuel + 1) s =
      (readItems w fuel (skipWhitespace u)).map fun p => (v :: p.1, p.2) := by
  rw [readItems, h, ok_bind]
  rfl

theorem readItems_close {fuel : ℕ} {s u : List Char} {v : Value D}
    (h : readValue w fuel s = .ok (v, ']' :: u)) : readItems w (fuel + 1) s = .ok ([v], u) := by
  rw [readItems, h]
  rfl

/-- The key and the colon of a member. -/
theorem readMembers_writeString (fuel : ℕ) (k text : List Char) :
    readMembers w (fuel + 1) (writeString k ++ ':' :: text) =
      (readValue w fuel (skipWhitespace text)).bind fun p =>
        match skipWhitespace p.2 with
        | ',' :: s => (readMembers w fuel (skipWhitespace s)).map fun q => ((k, p.1) :: q.1, q.2)
        | '}' :: s => .ok ([(k, p.1)], s)
        | _ => .error .syntaxError := by
  obtain ⟨t, ht, hread⟩ := readString_writeString k (':' :: text)
  rw [ht, readMembers, show '"' :: t = ['"'] ++ t from rfl, skipWord_append, ok_bind]
  dsimp only
  rw [hread, ok_bind]
  dsimp only
  rw [skipWhitespace_cons rfl, show ':' :: text = [':'] ++ text from rfl, skipWord_append, ok_bind]
  rfl

theorem Readable.starts_writeItems {v : Value D} (h : Readable w v) (vs : List (Value D)) :
    Starts (writeItems w (v :: vs)) := by
  obtain ⟨c, t, hs, hc⟩ := h.starts
  cases vs <;> rw [writeItems, hs] <;> exact ⟨c, _, rfl, hc⟩

theorem writeMembers_head (m : List Char × Value D) (ms : List (List Char × Value D)) :
    ∃ t, writeMembers w (m :: ms) = '"' :: t := by
  cases ms <;> exact ⟨_, rfl⟩

theorem readItems_writeItems {vs : List (Value D)} (hne : vs ≠ [])
    (h : ∀ v ∈ vs, Readable w v ∧ ReadsValue w v) : ∃ n, ∀ fuel, n ≤ fuel → ∀ rest,
    readItems w fuel (writeItems w vs ++ ']' :: rest) = .ok (vs, rest) := by
  induction vs with
  | nil => exact absurd rfl hne
  | cons v vs ih =>
    obtain ⟨-, n, hn⟩ := h v List.mem_cons_self
    cases vs with
    | nil =>
      refine ⟨n + 1, fun fuel hfuel rest => ?_⟩
      obtain ⟨fuel, rfl⟩ := Nat.exists_eq_add_of_le' (Nat.le_of_add_left_le hfuel)
      exact readItems_close (hn fuel (by omega) _ (delimits_cons (by decide) rest))
    | cons u us =>
      obtain ⟨m, hm⟩ := ih (List.cons_ne_nil _ _) fun x hx => h x (List.mem_cons_of_mem _ hx)
      refine ⟨max n m + 1, fun fuel hfuel rest => ?_⟩
      obtain ⟨fuel, rfl⟩ := Nat.exists_eq_add_of_le' (Nat.le_of_add_left_le hfuel)
      have hstart := (h u (by simp)).1.starts_writeItems us
      rw [writeItems, List.append_assoc, List.cons_append,
        readItems_comma (hn fuel (by omega) _ (delimits_cons (by decide) _)), hstart.skipWhitespace,
        hm fuel (by omega)]
      rfl

theorem readMembers_writeMembers {ms : List (List Char × Value D)} (hne : ms ≠ [])
    (h : ∀ m ∈ ms, Readable w m.2 ∧ ReadsValue w m.2) : ∃ n, ∀ fuel, n ≤ fuel → ∀ rest,
    readMembers w fuel (writeMembers w ms ++ '}' :: rest) = .ok (ms, rest) := by
  induction ms with
  | nil => exact absurd rfl hne
  | cons m ms ih =>
    obtain ⟨k, v⟩ := m
    obtain ⟨hv, n, hn⟩ := h (k, v) List.mem_cons_self
    cases ms with
    | nil =>
      refine ⟨n + 1, fun fuel hfuel rest => ?_⟩
      obtain ⟨fuel, rfl⟩ := Nat.exists_eq_add_of_le' (Nat.le_of_add_left_le hfuel)
      rw [writeMembers, List.append_assoc, List.cons_append, readMembers_writeString,
        hv.starts.skipWhitespace, hn fuel (by omega) _ (delimits_cons (by decide) rest)]
      rfl
    | cons m ms =>
      obtain ⟨j, hj⟩ := ih (List.cons_ne_nil _ _) fun x hx => h x (List.mem_cons_of_mem _ hx)
      refine ⟨max n j + 1, fun fuel hfuel rest => ?_⟩
      obtain ⟨fuel, rfl⟩ := Nat.exists_eq_add_of_le' (Nat.le_of_add_left_le hfuel)
      obtain ⟨t, ht⟩ := writeMembers_head (w := w) m ms
      have hmore := hj fuel (by omega) rest
      rw [ht, List.cons_append] at hmore
      rw [writeMembers, List.append_assoc, List.cons_append, readMembers_writeString, List.append_assoc,
        hv.starts.skipWhitespace, List.cons_append, hn fuel (by omega) _ (delimits_cons (by decide) _),
        Except.bind, ht, List.cons_append]
      dsimp only
      rw [skipWhitespace_cons rfl]
      exact congrArg (Except.map _) ((congrArg _ (skipWhitespace_cons rfl _)).trans hmore)

theorem readValue_bracket (fuel : ℕ) (s : List Char) : readValue w (fuel + 1) ('[' :: s) =
    if (skipWhitespace s).head? = some ']' then .ok (.array [], (skipWhitespace s).tail)
    else (readItems w fuel (skipWhitespace s)).bind fun p => .ok (.array p.1, p.2) := rfl

theorem readValue_brace (fuel : ℕ) (s : List Char) : readValue w (fuel + 1) ('{' :: s) =
    if (skipWhitespace s).head? = some '}' then .ok (.object [], (skipWhitespace s).tail)
    else (readMembers w fuel (skipWhitespace s)).bind fun p => .ok (.object p.1, p.2) := rfl

theorem Readable.readsValue {v : Value D} (h : Readable w v) : ReadsValue w v := by
  induction h with
  | null =>
    refine ⟨1, fun fuel hfuel rest _ => ?_⟩
    obtain ⟨fuel, rfl⟩ := Nat.exists_eq_add_of_le' hfuel
    exact congrArg (· >>= _) (skipWord_append ['u', 'l', 'l'] rest)
  | bool b =>
    refine ⟨1, fun fuel hfuel rest _ => ?_⟩
    obtain ⟨fuel, rfl⟩ := Nat.exists_eq_add_of_le' hfuel
    cases b
    · exact congrArg (· >>= _) (skipWord_append ['a', 'l', 's', 'e'] rest)
    · exact congrArg (· >>= _) (skipWord_append ['r', 'u', 'e'] rest)
  | @int n hlo hhi =>
    refine ⟨1, fun fuel hfuel rest hrest => ?_⟩
    obtain ⟨fuel, rfl⟩ := Nat.exists_eq_add_of_le' hfuel
    obtain ⟨c, t, hs, hc⟩ := writeInt_head n
    rw [write]
    exact readValue_number hs hc (readNumber_writeInt hlo hhi hrest) fuel
  | double h =>
    refine ⟨1, fun fuel hfuel rest hrest => ?_⟩
    obtain ⟨fuel, rfl⟩ := Nat.exists_eq_add_of_le' hfuel
    obtain ⟨c, t, hs, hc⟩ := h.head
    rw [write]
    exact readValue_number hs hc (h.reads rest hrest) fuel
  | string s =>
    refine ⟨1, fun fuel hfuel rest _ => ?_⟩
    obtain ⟨fuel, rfl⟩ := Nat.exists_eq_add_of_le' hfuel
    obtain ⟨t, ht, hread⟩ := readString_writeString s rest
    rw [write, ht]
    exact congrArg (· >>= _) hread
  | @array vs hvs ih =>
    cases vs with
    | nil =>
      refine ⟨1, fun fuel hfuel rest _ => ?_⟩
      obtain ⟨fuel, rfl⟩ := Nat.exists_eq_add_of_le' hfuel
      rfl
    | cons v vs =>
      obtain ⟨n, hn⟩ := readItems_writeItems (List.cons_ne_nil v vs) fun u hu => ⟨hvs u hu, ih u hu⟩
      refine ⟨n + 1, fun fuel hfuel rest _ => ?_⟩
      obtain ⟨fuel, rfl⟩ := Nat.exists_eq_add_of_le' (Nat.le_of_add_left_le hfuel)
      have hstart := (hvs v List.mem_cons_self).starts_writeItems vs
      have hhead : ¬(writeItems w (v :: vs) ++ ']' :: rest).head? = some ']' := by
        obtain ⟨c, t, hs, -, hbracket⟩ := hstart
        rw [hs]
        simpa using hbracket
      rw [write, List.cons_append, List.append_assoc, List.singleton_append, readValue_bracket,
        hstart.skipWhitespace, if_neg hhead, hn fuel (by omega)]
      rfl
  | @object ms hms ih =>
    cases ms with
    | nil =>
      refine ⟨1, fun fuel hfuel rest _ => ?_⟩
      obtain ⟨fuel, rfl⟩ := Nat.exists_eq_add_of_le' hfuel
      rfl
    | cons m ms =>
      obtain ⟨n, hn⟩ := readMembers_writeMembers (List.cons_ne_nil m ms) fun u hu => ⟨hms u hu, ih u hu⟩
      refine ⟨n + 1, fun fuel hfuel rest _ => ?_⟩
      obtain ⟨fuel, rfl⟩ := Nat.exists_eq_add_of_le' (Nat.le_of_add_left_le hfuel)
      obtain ⟨t, ht⟩ := writeMembers_head (w := w) m ms
      have hspace : skipWhitespace (writeMembers w (m :: ms) ++ '}' :: rest) =
          writeMembers w (m :: ms) ++ '}' :: rest := by
        rw [ht]
        exact skipWhitespace_cons rfl _
      have hhead : ¬(writeMembers w (m :: ms) ++ '}' :: rest).head? = some '}' := by
        rw [ht]
        simp
      rw [write, List.cons_append, List.append_assoc, List.singleton_append, readValue_brace, hspace,
        if_neg hhead, hn fuel (by omega)]
      rfl

/-! ## The whole text -/

theorem terminator_not_mem_writeChar (c : Char) : '\x00' ∉ writeChar c := by
  unfold writeChar
  cases h : escapeLetter c with
  | some e =>
    have he : '\x00' ≠ e := by
      unfold escapeLetter at h
      split_ifs at h with h₁
      · obtain rfl := Option.some.inj h
        rcases h₁ with rfl | rfl <;> decide
      all_goals
        obtain rfl := Option.some.inj h
        decide
    simp only [List.mem_cons, List.not_mem_nil, Char.reduceEq, or_false, he, not_false_eq_true]
  | none =>
    have hdigit : ∀ n, n < 16 → '\x00' ≠ hexDigit n := by decide
    dsimp only
    split
    · have hhigh := hdigit (c.toNat / 16) (by omega)
      have hlow := hdigit (c.toNat % 16) (by omega)
      simp only [List.mem_cons, List.not_mem_nil, Char.reduceEq, or_false, hhigh, hlow,
        not_false_eq_true]
    · rename_i hge
      intro hc
      obtain rfl := List.mem_singleton.mp hc
      exact hge (by decide)

theorem terminator_not_mem_writeString (s : List Char) : '\x00' ∉ writeString s := by
  simp only [writeString, List.mem_cons, List.mem_append, List.mem_flatMap, List.not_mem_nil, or_false,
    Char.reduceEq, false_or]
  rintro ⟨c, -, hc⟩
  exact terminator_not_mem_writeChar c hc

theorem terminator_not_mem_writeInt (n : ℤ) : '\x00' ∉ writeInt n := by
  have hdigits : '\x00' ∉ Nat.toDigits 10 n.natAbs := fun h =>
    absurd (Nat.isDigit_of_mem_toDigits (by omega) (by omega) h) (by decide)
  unfold writeInt
  split
  · rw [List.mem_cons]
    exact not_or.mpr ⟨by decide, hdigits⟩
  · exact hdigits

theorem terminator_not_mem_writeItems {vs : List (Value D)} (h : ∀ v ∈ vs, '\x00' ∉ write w v) :
    '\x00' ∉ writeItems w vs := by
  induction vs with
  | nil => exact List.not_mem_nil
  | cons v vs ih =>
    have hv := h v List.mem_cons_self
    have hvs := ih fun u hu => h u (List.mem_cons_of_mem _ hu)
    cases vs with
    | nil => rwa [writeItems]
    | cons u us =>
      rw [writeItems, List.mem_append, List.mem_cons]
      exact not_or.mpr ⟨hv, not_or.mpr ⟨by decide, hvs⟩⟩

theorem terminator_not_mem_writeMembers {ms : List (List Char × Value D)}
    (h : ∀ m ∈ ms, '\x00' ∉ write w m.2) : '\x00' ∉ writeMembers w ms := by
  induction ms with
  | nil => exact List.not_mem_nil
  | cons m ms ih =>
    have hk := terminator_not_mem_writeString m.1
    have hv := h m List.mem_cons_self
    have hms := ih fun u hu => h u (List.mem_cons_of_mem _ hu)
    cases ms with
    | nil =>
      rw [writeMembers, List.mem_append, List.mem_cons]
      exact not_or.mpr ⟨hk, not_or.mpr ⟨by decide, hv⟩⟩
    | cons u us =>
      rw [writeMembers, List.mem_append, List.mem_cons, List.mem_append, List.mem_cons]
      exact not_or.mpr ⟨hk, not_or.mpr ⟨by decide, not_or.mpr ⟨hv, not_or.mpr ⟨by decide, hms⟩⟩⟩⟩

theorem Readable.terminator {v : Value D} (h : Readable w v) : '\x00' ∉ write w v := by
  induction h with
  | null =>
    rw [write]
    decide
  | bool b => cases b <;> rw [write] <;> decide
  | int =>
    rw [write]
    exact terminator_not_mem_writeInt _
  | double h =>
    rw [write]
    exact h.terminator
  | string s =>
    rw [write]
    exact terminator_not_mem_writeString s
  | array _ ih =>
    rw [write, List.mem_cons, List.mem_append, List.mem_singleton]
    exact not_or.mpr ⟨by decide, not_or.mpr ⟨terminator_not_mem_writeItems ih, by decide⟩⟩
  | object _ ih =>
    rw [write, List.mem_cons, List.mem_append, List.mem_singleton]
    exact not_or.mpr ⟨by decide, not_or.mpr ⟨terminator_not_mem_writeMembers ih, by decide⟩⟩

/-- What was written is read back. -/
theorem read_write {v : Value D} (h : Readable w v) : read w (write w v) = .ok v := by
  obtain ⟨n, hn⟩ := h.readsValue
  have hstart := h.starts.skipWhitespace []
  have hcut : (write w v).takeWhile (· ≠ '\x00') = write w v := by
    rw [List.takeWhile_eq_self_iff]
    intro c hc
    simp only [ne_eq, decide_not, Bool.not_eq_true', decide_eq_false_iff_not]
    rintro rfl
    exact h.terminator hc
  have hfuel : readValue w (2 * (write w v).length + 1) (write w v) = .ok (v, []) := by
    have hread := hn (max n (2 * (write w v).length + 1)) (le_max_left _ _) [] delimits_nil
    rw [List.append_nil] at hread
    rw [← hread]
    exact (agree _).value _ _ le_rfl (le_max_right _ _)
  rw [List.append_nil] at hstart
  rw [read, hcut]
  dsimp only
  rw [hstart, hfuel, ok_bind]
  rfl

end Json
