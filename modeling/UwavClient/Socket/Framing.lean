import UwavClient.Socket.Payload

/-!
# The header of a packet reads back

`parse` finds the parts of a header by the first hyphen, the first comma and the first bracket, quote
or slash. These are the ones that `accept` wrote if the namespace is a path without a comma, and if
the message, where there is one, starts with a bracket or a quote.
-/

namespace UwavClient

open Json (Value DoubleCodec)

/-! ## Searching -/

/-- The first character of a set, after others that are not in it. -/
theorem findFirstOf_append {set : List Char} (before between rest : Text) {c : Char}
    (hbetween : ∀ d ∈ between, d ∉ set) (hc : c ∈ set) :
    findFirstOf set before.length (before ++ (between ++ c :: rest)) =
      some (before.length + between.length) := by
  have hfind : (between ++ c :: rest).findIdx? (· ∈ set) = some between.length := by
    rw [List.findIdx?_append, List.findIdx?_eq_none_iff.mpr fun d hd => decide_eq_false (hbetween d hd),
      List.findIdx?_cons, if_pos (decide_eq_true hc), Option.none_or, Option.map_some, Nat.zero_add]
  rw [findFirstOf, List.drop_left, hfind]
  rfl

theorem findFirstOf_eq_none {set : List Char} (before rest : Text) (h : ∀ d ∈ rest, d ∉ set) :
    findFirstOf set before.length (before ++ rest) = none := by
  rw [findFirstOf, List.drop_left, List.findIdx?_eq_none_iff.mpr fun d hd => decide_eq_false (h d hd)]
  rfl

theorem substr_append (before between rest : Text) :
    substr before.length (before.length + between.length) (before ++ (between ++ rest)) = between := by
  rw [substr, if_neg (by omega), ← List.append_assoc, ← List.length_append, List.take_left,
    List.drop_left]

theorem charAt_append (before rest : Text) (c : Char) :
    charAt (before ++ c :: rest) before.length = charAt [c] 0 := by
  unfold charAt
  rw [List.getElem?_append_right le_rfl, Nat.sub_self]
  rfl

/-! ## Numbers of the header -/

theorem isDigit_of_mem_toDigits {n : ℕ} {c : Char} (h : c ∈ Nat.toDigits 10 n) : c.isDigit :=
  Nat.isDigit_of_mem_toDigits (by omega) (by omega) h

theorem stoul_toDigits {n : ℕ} (h : n < 2 ^ 64) : stoul (Nat.toDigits 10 n) = .ok n := by
  have hall : ∀ c ∈ Nat.toDigits 10 n, c.isDigit := fun c => isDigit_of_mem_toDigits
  have hvalue : Nat.ofDigitChars 10 (Nat.toDigits 10 n) 0 = n := Nat.ofDigitChars_ten_toDigits
  obtain ⟨c, s, hs⟩ := List.exists_cons_of_ne_nil (Nat.toDigits_ne_nil (n := n) (b := 10))
  rw [hs] at hall hvalue ⊢
  have hc := hall c List.mem_cons_self
  have hspace : ¬isSpace c := by
    simp only [isSpace, Bool.or_eq_true, decide_eq_true_eq]
    rintro (((((rfl | rfl) | rfl) | rfl) | rfl) | rfl) <;> cases hc
  have hsign : ((c :: s).take 1).filter (fun c => c = '+' || c = '-') = [] := by
    have hplus : c ≠ '+' := by
      rintro rfl
      cases hc
    have hminus : c ≠ '-' := by
      rintro rfl
      cases hc
    simp [hplus, hminus]
  have htrim : removeLeading (c :: s) = c :: s := List.dropWhile_cons_of_neg hspace
  have hdigits : (c :: s).takeWhile Char.isDigit = c :: s := List.takeWhile_eq_self_iff.mpr hall
  unfold stoul
  simp only [htrim, hsign, List.length_nil, List.drop_zero, hdigits, hvalue]
  rw [if_neg (not_or.mpr ⟨List.cons_ne_nil _ _, by omega⟩), if_neg (List.cons_ne_nil _ _).symm]

theorem stoi_toDigits {n : ℕ} (h : n < 2 ^ 31) : stoi (Nat.toDigits 10 n) = .ok n := by
  have hvalue : Nat.ofDigitChars 10 (Nat.toDigits 10 n) 0 = n := Nat.ofDigitChars_ten_toDigits
  rw [stoi, hvalue]
  exact if_neg (by omega)

/-! ## The parts of the text -/

def packIdText (packId : ℤ) : Text := if 0 ≤ packId then Nat.toDigits 10 packId.toNat else []

/-- A packet without a number has the number -1. -/
def IsPackId (packId : ℤ) : Prop := -1 ≤ packId ∧ packId < 2 ^ 31

theorem isDigit_of_mem_packIdText {packId : ℤ} {c : Char} (h : c ∈ packIdText packId) : c.isDigit := by
  unfold packIdText at h
  split at h
  · exact isDigit_of_mem_toDigits h
  · cases h

/-- The namespace as it is written before more text. -/
inductive NspText : Text → Text → Prop where
  | root : NspText ['/'] []
  | path {rest : Text} (h : ',' ∉ rest) : NspText ('/' :: rest) ('/' :: (rest ++ [',']))

/-- Where the text of a message can start. -/
def jsonStarts : List Char := ['"', '[', '{']

theorem mem_jsonStarts {c : Char} : c ∈ jsonStarts ↔ c = '"' ∨ c = '[' ∨ c = '{' := by
  simp [jsonStarts]

variable (w : DoubleCodec UInt64)

def withText (json : Text) (p : Packet) : Except Crash (Packet × Bool) :=
  if p.frame = Packet.frameMessage ∧ p.hasBinaryType then .ok ({ p with buffers := [json] }, true)
  else (parseDocument w json).bind fun doc =>
    (fromJson [] doc).bind fun message => .ok ({ p with message }, false)

variable {w}

theorem parsePackId_text (before json : Text) {packId : ℤ} (h : IsPackId packId) :
    Packet.parsePackId (before ++ (packIdText packId ++ json)) before.length
      (before.length + (packIdText packId).length) = .ok packId := by
  rw [Packet.parsePackId, substr_append]
  by_cases hsign : 0 ≤ packId
  · have htext : packIdText packId = Nat.toDigits 10 packId.toNat := if_pos hsign
    have hall : (packIdText packId).all Char.isDigit :=
      List.all_eq_true.mpr fun c => isDigit_of_mem_packIdText
    have hlength : 0 < (packIdText packId).length := by
      rw [htext]
      exact List.length_pos_iff.mpr Nat.toDigits_ne_nil
    have hlt := h.2
    rw [if_pos ⟨by omega, hall⟩, htext, stoi_toDigits (by omega), Int.toNat_of_nonneg hsign]
  · have htext : packIdText packId = [] := if_neg hsign
    have hlo := h.1
    rw [if_neg (by rw [htext]; simp), show packId = -1 by omega]

theorem parseMessage_text (before json : Text) {packId : ℤ} (h : IsPackId packId) (p : Packet) :
    Packet.parseMessage w (before ++ (packIdText packId ++ json)) before.length
        (before.length + (packIdText packId).length) p = withText w json { p with packId } := by
  have hdrop : (before ++ (packIdText packId ++ json)).drop
      (before.length + (packIdText packId).length) = json := by
    rw [← List.append_assoc, ← List.length_append, List.drop_left]
  rw [Packet.parseMessage, parsePackId_text before json h, Json.ok_bind]
  dsimp only
  rw [hdrop, withText]
  rfl

theorem parseNamespace_text (json : Text) {before nsp nspText : Text} {packId : ℤ} {c : Char}
    (hcomma : ',' ∉ before) (hnsp : NspText nsp nspText) (hid : IsPackId packId)
    (hc : c ∈ jsonStarts) (p : Packet) :
    Packet.parseNamespace w (before ++ (nspText ++ (packIdText packId ++ c :: json))) before.length p =
      withText w (c :: json) { p with nsp, packId } := by
  have hdigit : ∀ set : List Char, (∀ d ∈ set, d.isDigit = false) → ∀ d ∈ packIdText packId, d ∉ set := by
    intro set hset d hd hmem
    have := isDigit_of_mem_packIdText hd
    rw [hset d hmem] at this
    cases this
  cases hnsp with
  | root =>
    have hset : c ∈ ['{', '[', '"', '/'] := by
      rcases mem_jsonStarts.mp hc with rfl | rfl | rfl <;> decide
    have hslash : charAt [c] 0 ≠ charAt ['/'] 0 := by
      rcases mem_jsonStarts.mp hc with rfl | rfl | rfl <;> decide
    have hat : charAt (before ++ (packIdText packId ++ c :: json))
        (before.length + (packIdText packId).length) = charAt [c] 0 := by
      rw [← List.append_assoc, ← List.length_append, charAt_append]
    rw [Packet.parseNamespace, List.nil_append, findFirstOf_append _ _ _ (hdigit _ (by simp [Char.isDigit])) hset]
    dsimp only
    rw [hat, if_neg hslash, parseMessage_text _ _ hid]
  | @path rest hrest =>
    have htext : before ++ ('/' :: (rest ++ [',']) ++ (packIdText packId ++ c :: json)) =
        before ++ '/' :: rest ++ ',' :: (packIdText packId ++ c :: json) := by
      simp only [List.append_assoc, List.cons_append, List.nil_append]
    have hset : c ∈ ['"', '[', '{'] := hc
    have hcons : ∀ s : Text, before ++ '/' :: rest ++ [','] ++ s = before ++ '/' :: rest ++ ',' :: s :=
      fun s => by rw [List.append_assoc, List.singleton_append]
    have hlength : (before ++ '/' :: rest ++ [',']).length = (before ++ '/' :: rest).length + 1 := by
      rw [List.length_append, List.length_singleton]
    have hpath : ∀ d ∈ before ++ '/' :: rest, d ∉ [','] := by
      intro d hd hmem
      obtain rfl := List.mem_singleton.mp hmem
      rcases List.mem_append.mp hd with hd | hd
      · exact hcomma hd
      · exact (List.mem_cons.mp hd).elim (by decide) hrest
    have hstart : findFirstOf ['{', '[', '"', '/'] before.length
        (before ++ '/' :: rest ++ ',' :: (packIdText packId ++ c :: json)) = some before.length := by
      rw [List.append_assoc]
      exact findFirstOf_append before [] _ nofun (by decide)
    have hslash : charAt (before ++ '/' :: rest ++ ',' :: (packIdText packId ++ c :: json)) before.length =
        charAt ['/'] 0 := by
      rw [List.append_assoc]
      exact charAt_append _ _ _
    have hend : findFirstOf [','] 0 (before ++ '/' :: rest ++ ',' :: (packIdText packId ++ c :: json)) =
        some (before ++ '/' :: rest).length := by
      have h := findFirstOf_append [] (before ++ '/' :: rest) (packIdText packId ++ c :: json) hpath
        (List.mem_singleton_self ',')
      rwa [List.length_nil, Nat.zero_add, List.nil_append] at h
    have hnsp : substr before.length (before ++ '/' :: rest).length
        (before ++ '/' :: rest ++ ',' :: (packIdText packId ++ c :: json)) = '/' :: rest := by
      rw [List.length_append, List.append_assoc, substr_append]
    have hjson : findFirstOf ['"', '[', '{'] ((before ++ '/' :: rest).length + 1)
        (before ++ '/' :: rest ++ ',' :: (packIdText packId ++ c :: json)) =
          some ((before ++ '/' :: rest).length + 1 + (packIdText packId).length) := by
      have h := findFirstOf_append (before ++ '/' :: rest ++ [',']) (packIdText packId) json
        (hdigit ['"', '[', '{'] (by simp [Char.isDigit])) hset
      rwa [hcons, hlength] at h
    rw [htext, Packet.parseNamespace, hstart]
    dsimp only
    rw [hslash, if_pos rfl, hend]
    dsimp only
    rw [hjson, hnsp]
    dsimp only
    have h := parseMessage_text (w := w) (before ++ '/' :: rest ++ [',']) (c :: json) hid
      { p with nsp := '/' :: rest }
    rwa [hcons, hlength] at h

/-- The text may also end with the namespace. -/
inductive LastText : Text → Text → Prop where
  | root : LastText ['/'] []
  | path {rest : Text} (h : ',' ∉ rest) : LastText ('/' :: rest) ('/' :: rest)

theorem parseNamespace_last {before nsp text : Text} (hcomma : ',' ∉ before) (h : LastText nsp text)
    (p : Packet) : Packet.parseNamespace w (before ++ text) before.length p = .ok ({ p with nsp }, false) := by
  cases h with
  | root =>
    rw [Packet.parseNamespace, findFirstOf_eq_none before [] nofun]
  | @path rest hrest =>
    have hstart : findFirstOf ['{', '[', '"', '/'] before.length (before ++ '/' :: rest) =
        some before.length := findFirstOf_append before [] rest nofun (by decide)
    have hend : findFirstOf [','] 0 (before ++ '/' :: rest) = none := by
      refine findFirstOf_eq_none [] _ fun d hd hmem => ?_
      obtain rfl := List.mem_singleton.mp hmem
      rcases List.mem_append.mp hd with hd | hd
      · exact hcomma hd
      · exact (List.mem_cons.mp hd).elim (by decide) hrest
    rw [Packet.parseNamespace, hstart]
    dsimp only
    rw [charAt_append, if_pos rfl, hend]
    dsimp only
    rw [List.drop_left]

/-! ## The header -/

def countText (n : ℕ) : Text := if n = 0 then [] else Nat.toDigits 10 n ++ ['-']

def headerText (type : ℤ) (n : ℕ) : Text := '4' :: (Json.writeInt type ++ countText n)

/-- Only the binary types have buffers. -/
def IsHeader (type : ℤ) (n : ℕ) : Prop :=
  Packet.typeMin ≤ type ∧ type ≤ Packet.typeMax ∧ n < 2 ^ 32 ∧
    (n ≠ 0 ↔ type = Packet.typeBinaryEvent ∨ type = Packet.typeBinaryAck)

/-- The digit of a type. -/
theorem writeInt_type {type : ℤ} (hlo : Packet.typeMin ≤ type) (hhi : type ≤ Packet.typeMax) :
    ∃ c, Json.writeInt type = [c] ∧ charAt [c] 0 - charAt ['0'] 0 = type ∧ c ≠ ',' ∧ c ≠ '-' := by
  have hall : ∀ n, n < 7 → ∃ c, Json.writeInt (n : ℕ) = [c] ∧ charAt [c] 0 - charAt ['0'] 0 = (n : ℕ) ∧
      c ≠ ',' ∧ c ≠ '-' := by
    intro n hn
    interval_cases n <;> exact ⟨_, rfl, by decide, by decide, by decide⟩
  unfold Packet.typeMin at hlo
  unfold Packet.typeMax at hhi
  obtain ⟨n, rfl⟩ := Int.eq_ofNat_of_zero_le hlo
  exact hall n (by omega)

theorem comma_not_mem_headerText {type : ℤ} {n : ℕ} (h : IsHeader type n) : ',' ∉ headerText type n := by
  obtain ⟨c, hc, -, hcomma, -⟩ := writeInt_type h.1 h.2.1
  have hcount : ',' ∉ countText n := by
    unfold countText
    split
    · exact List.not_mem_nil
    · rw [List.mem_append]
      exact not_or.mpr ⟨fun hd => absurd (isDigit_of_mem_toDigits hd) (by decide), by decide⟩
  rw [headerText, hc, List.mem_cons, List.mem_append, List.mem_singleton]
  exact not_or.mpr ⟨by decide, not_or.mpr ⟨hcomma.symm, hcount⟩⟩

/-- A packet of which the header has been read. -/
def headerPacket (type : ℤ) (n : ℕ) : Packet :=
  { frame := Packet.frameMessage, type, nsp := [], packId := -1, message := .nullptr,
    pendingBuffers := n, buffers := [] }

/-- `parse` as far as the end of the header. -/
theorem parse_headerText {type : ℤ} {n : ℕ} (h : IsHeader type n) (rest : Text) :
    Packet.parse w (headerText type n ++ rest) .empty =
      Packet.parseNamespace w (headerText type n ++ rest) (headerText type n).length
        (headerPacket type n) := by
  obtain ⟨c, hc, htype, -, hhyphen⟩ := writeInt_type h.1 h.2.1
  obtain ⟨hlo, hhi, hn, hbinary⟩ := h
  have htext : headerText type n ++ rest = '4' :: c :: (countText n ++ rest) := by
    rw [headerText, hc]
    rfl
  have hmessage : Packet.isBinaryMessage (headerText type n ++ rest) = false := by
    rw [htext]
    rfl
  have hframe : charAt (headerText type n ++ rest) 0 - charAt ['0'] 0 = Packet.frameMessage := by
    rw [htext]
    rfl
  have hat : charAt (headerText type n ++ rest) 1 - charAt ['0'] 0 = type := by
    rw [htext]
    exact htype
  have hrange : ¬(type < Packet.typeMin ∨ Packet.typeMax < type) := by omega
  unfold Packet.parse
  rw [hmessage]
  simp only [Bool.false_eq_true, if_false, hframe, hat, ne_eq, not_true_eq_false, hrange]
  by_cases hzero : n = 0
  · have hplain : ¬(type = Packet.typeBinaryEvent ∨ type = Packet.typeBinaryAck) := by
      rw [← hbinary]
      exact not_not.mpr hzero
    have hlength : (headerText type n).length = 2 := by
      rw [headerText, hc, countText, if_pos hzero]
      rfl
    have htype : ¬(decide (type = Packet.typeBinaryEvent ∨ type = Packet.typeBinaryAck)) = true := by
      rwa [decide_eq_true_eq]
    rw [Packet.hasBinaryType]
    dsimp only
    rw [if_neg htype, hlength, hzero]
    rfl
  · have hbinary' : decide (type = Packet.typeBinaryEvent ∨ type = Packet.typeBinaryAck) = true := by
      rwa [decide_eq_true_eq, ← hbinary]
    have hcount : countText n = Nat.toDigits 10 n ++ ['-'] := if_neg hzero
    have htext' : headerText type n ++ rest = ['4', c] ++ (Nat.toDigits 10 n ++ '-' :: rest) := by
      rw [htext, hcount, List.append_assoc]
      rfl
    have hhead : ∀ d ∈ ['4', c] ++ Nat.toDigits 10 n, d ∉ ['-'] := by
      intro d hd hmem
      obtain rfl := List.mem_singleton.mp hmem
      rcases List.mem_append.mp hd with hd | hd
      · simp only [List.mem_cons, List.not_mem_nil, or_false] at hd
        exact hd.elim (by decide) hhyphen.symm
      · exact absurd (isDigit_of_mem_toDigits hd) (by decide)
    have hscore : findFirstOf ['-'] 0 (headerText type n ++ rest) =
        some (2 + (Nat.toDigits 10 n).length) := by
      have h := findFirstOf_append [] (['4', c] ++ Nat.toDigits 10 n) rest hhead
        (List.mem_singleton_self '-')
      rw [htext', ← List.append_assoc]
      rwa [List.length_nil, Nat.zero_add, List.nil_append, List.length_append] at h
    have hdigits : substr 2 (2 + (Nat.toDigits 10 n).length) (headerText type n ++ rest) =
        Nat.toDigits 10 n := by
      rw [htext']
      exact substr_append ['4', c] (Nat.toDigits 10 n) ('-' :: rest)
    have hlength : 2 + (Nat.toDigits 10 n).length + 1 = (headerText type n).length := by
      rw [headerText, hc, hcount]
      simp only [List.length_cons, List.length_append, List.length_nil]
      omega
    rw [Packet.hasBinaryType]
    dsimp only
    rw [if_pos hbinary', hscore]
    simp only [Option.elim]
    rw [hdigits, stoul_toDigits (by omega), Json.ok_bind, Nat.mod_eq_of_lt hn, hlength]
    rfl

theorem withText_headerPacket {type : ℤ} {n : ℕ} (h : IsHeader type n) (hn : n ≠ 0)
    (nsp json : Text) (packId : ℤ) : withText w json { headerPacket type n with nsp, packId } =
      .ok ({ headerPacket type n with nsp, packId, buffers := [json] }, true) :=
  if_pos ⟨rfl, decide_eq_true (h.2.2.2.mp hn)⟩

theorem withText_headerPacket_zero {type : ℤ} (h : IsHeader type 0) {json : Text} {v : Value UInt64}
    {m : Message} (hdocument : parseDocument w json = .ok v) (hmessage : fromJson [] v = .ok m)
    (nsp : Text) (packId : ℤ) : withText w json { headerPacket type 0 with nsp, packId } =
      .ok ({ headerPacket type 0 with nsp, packId, message := m }, false) := by
  have hplain : ¬(type = Packet.typeBinaryEvent ∨ type = Packet.typeBinaryAck) :=
    mt h.2.2.2.mpr (not_not.mpr rfl)
  rw [withText, if_neg fun hand => hplain (of_decide_eq_true hand.2), hdocument, Except.bind, hmessage]
  rfl

end UwavClient
