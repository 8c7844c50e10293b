import UwavClient.Library.JsonRoundTrip
import UwavClient.Socket.Packet

/-!
# A message keeps its meaning on the wire

`accept_message` takes the binary buffers out of a message, in the order in which they stand in it, and
`from_json` puts them back. An object with a member `_placeholder` that is no `false` is lost: it would
be read as a buffer.
-/

namespace UwavClient

open Json (Value DoubleCodec Readable)

theorem toNat_ofNat_of_lt {n : ℕ} (h : n < 256) : (Char.ofNat n).toNat = n := by
  have hvalid : n.isValidChar := .inl (by omega)
  rw [Char.ofNat, dif_pos hvalid]
  rfl

theorem textBytes_bytesText (b : Bytes) : textBytes (bytesText b) = b := by
  have hbyte : ∀ x : UInt8, UInt8.ofNat (Char.ofNat x.toNat).toNat = x := by
    intro x
    rw [toNat_ofNat_of_lt x.toNat_lt, UInt8.ofNat_toNat]
  unfold textBytes bytesText
  rw [List.map_map]
  exact (List.map_congr_left fun x _ => hbyte x).trans (List.map_id b)

mutual

def attachments : Message → List Text
  | .binary v => [bytesText v]
  | .array items => itemAttachments items
  | .object fields => fieldAttachments fields
  | _ => []

def itemAttachments : List Message → List Text
  | [] => []
  | m :: items => attachments m ++ itemAttachments items

def fieldAttachments : List (String × Message) → List Text
  | [] => []
  | (_, m) :: fields => attachments m ++ fieldAttachments fields

end

/-- A message with nothing in it that JSON or the placeholders cannot carry. The keys of an object are
in the order of its `std::map`. -/
inductive Writable (w : DoubleCodec UInt64) : Message → Prop where
  | null : Writable w .null
  | boolean (v : Bool) : Writable w (.boolean v)
  | integer {v : ℤ} (hlo : -2 ^ 63 ≤ v) (hhi : v < 2 ^ 63) : Writable w (.integer v)
  | double {bits : UInt64} (h : Json.ReadsBack w bits) : Writable w (.double bits)
  | string (v : String) : Writable w (.string v)
  | binary (v : Bytes) : Writable w (.binary v)
  | array {items : List Message} (h : ∀ m ∈ items, Writable w m) : Writable w (.array items)
  | object {fields : List (String × Message)} (h : ∀ f ∈ fields, Writable w f.2)
    (sorted : fields.Pairwise fun f g => keyLt f.1.toList g.1.toList)
    (plain : ∀ f ∈ fields, f.1 = String.ofList binPlaceHolder → f.2 = .boolean false) :
    Writable w (.object fields)

/-! ## Objects are maps -/

theorem keyLt_asymm {s t : Text} (h : keyLt s t) : keyLt t s = false := by
  induction s, t using keyLt.induct with
  | case1 s => cases s <;> cases h
  | case2 d t => rfl
  | case3 c s t ih =>
    rw [keyLt, if_pos rfl] at h ⊢
    exact ih h
  | case4 c s d t hne =>
    rw [keyLt, if_neg hne, decide_eq_true_eq] at h
    rw [keyLt, if_neg (Ne.symm hne), decide_eq_false_iff_not]
    exact Nat.not_lt_of_lt h

/-- A key that is greater than all others goes to the end. -/
theorem insertField_of_lt {key : String} {fields : List (String × Message)}
    (h : ∀ f ∈ fields, keyLt f.1.toList key.toList) (m : Message) :
    insertField key m fields = fields ++ [(key, m)] := by
  induction fields with
  | nil => rfl
  | cons f fields ih =>
    obtain ⟨k, v⟩ := f
    have hk : keyLt k.toList key.toList := h (k, v) List.mem_cons_self
    have hback := keyLt_asymm hk
    have hne : key ≠ k := by
      rintro rfl
      rw [hk] at hback
      cases hback
    rw [insertField, if_neg (by rw [hback]; exact Bool.false_ne_true), if_neg hne,
      ih fun g hg => h g (List.mem_cons_of_mem _ hg)]
    rfl

/-! ## The round trip -/

/-- What `accept_message` makes of a message, after the buffers of others: a value that can be read,
and that stands for the message once its buffers are there. -/
def Conveys (w : DoubleCodec UInt64) (buffers : List Text) (m : Message) (v : Value UInt64) : Prop :=
  acceptMessage m buffers = .ok (v, buffers ++ attachments m) ∧ Readable w v ∧
    ∀ all, buffers ++ attachments m <+: all → all.length ≤ 2 ^ 31 → fromJson all v = .ok m

variable {w : DoubleCodec UInt64}

/-- A message without buffers. -/
theorem conveys_of_attachments_eq_nil {buffers : List Text} {m : Message} {v : Value UInt64}
    (hm : attachments m = []) (haccept : acceptMessage m buffers = .ok (v, buffers))
    (hreadable : Readable w v) (hback : ∀ all, fromJson all v = .ok m) : Conveys w buffers m v :=
  ⟨by rw [haccept, hm, List.append_nil], hreadable, fun all _ _ => hback all⟩

theorem conveys_binary (buffers : List Text) (v : Bytes) :
    Conveys w buffers (.binary v) (acceptBinaryMessage v buffers).1 := by
  refine ⟨rfl, .object fun m hm => ?_, fun all hprefix hall => ?_⟩
  · simp only [List.mem_cons, List.not_mem_nil, or_false] at hm
    rcases hm with rfl | rfl
    · exact .bool true
    · have hlo := Int.le_bmod (x := buffers.length) (m := 2 ^ 32) (by decide)
      have hhi := Int.bmod_lt (x := buffers.length) (m := 2 ^ 32) (by decide)
      exact .int (by omega) (by omega)
  · obtain ⟨later, rfl⟩ := hprefix
    rw [attachments] at hall ⊢
    have hlt : buffers.length < 2 ^ 31 := by
      simp only [List.length_append, List.length_cons] at hall
      omega
    have hnum : (buffers.length : ℤ).bmod (2 ^ 32) = buffers.length :=
      Int.bmod_eq_of_le (by omega) (by omega)
    have hget : (buffers ++ [bytesText v] ++ later)[buffers.length]? = some (bytesText v) := by
      rw [List.append_assoc, List.getElem?_append_right le_rfl, Nat.sub_self]
      rfl
    let members : List (Text × Value UInt64) :=
      [(binPlaceHolder, .bool true), (numKey, .int buffers.length)]
    have hlookup : members.lookup numKey = some (.int buffers.length) := rfl
    have hplace : isPlaceHolder members = .ok true := rfl
    have hbuffer : placeHolderBuffer (buffers ++ [bytesText v] ++ later) members =
        .ok (.binary v) := by
      rw [placeHolderBuffer, hlookup]
      dsimp only
      rw [if_pos (by omega), if_pos (by omega), Int.toNat_natCast, hget, Option.elim,
        textBytes_bytesText]
    have hvalue : (acceptBinaryMessage v buffers).1 = .object members := by
      rw [acceptBinaryMessage, hnum]
    rw [hvalue, fromJson, hplace, Json.ok_bind, if_pos rfl, hbuffer]

/-- What comes first keeps its place in a longer list. -/
theorem prefix_of_append {buffers these others all : List Text}
    (h : buffers ++ (these ++ others) <+: all) : buffers ++ these <+: all := by
  rw [← List.append_assoc] at h
  exact (List.prefix_append _ _).trans h

theorem conveys_items {items : List Message} (h : ∀ m ∈ items, ∀ buffers, ∃ v, Conveys w buffers m v)
    (buffers : List Text) : ∃ vs, acceptItems items buffers = .ok (vs, buffers ++ itemAttachments items) ∧
      (∀ v ∈ vs, Readable w v) ∧ ∀ all, buffers ++ itemAttachments items <+: all →
        all.length ≤ 2 ^ 31 → fromItems all vs = .ok items := by
  induction items generalizing buffers with
  | nil => exact ⟨[], by rw [acceptItems, itemAttachments, List.append_nil], nofun, fun _ _ _ => rfl⟩
  | cons m items ih =>
    obtain ⟨v, hv, hreadable, hback⟩ := h m List.mem_cons_self buffers
    obtain ⟨vs, hvs, hreadables, hbacks⟩ :=
      ih (fun u hu => h u (List.mem_cons_of_mem _ hu)) (buffers ++ attachments m)
    refine ⟨v :: vs, ?_, List.forall_mem_cons.mpr ⟨hreadable, hreadables⟩, fun all hall hlen => ?_⟩
    · rw [acceptItems, hv, Json.ok_bind]
      dsimp only
      rw [hvs, itemAttachments, List.append_assoc]
      rfl
    · rw [itemAttachments] at hall
      have hrest : buffers ++ attachments m ++ itemAttachments items <+: all := by
        rwa [List.append_assoc]
      rw [fromItems, hback all (prefix_of_append hall) hlen, Json.ok_bind, hbacks all hrest hlen]
      rfl

theorem conveys_fields {fields : List (String × Message)}
    (h : ∀ f ∈ fields, ∀ buffers, ∃ v, Conveys w buffers f.2 v)
    (sorted : fields.Pairwise fun f g => keyLt f.1.toList g.1.toList)
    (plain : ∀ f ∈ fields, f.1 = String.ofList binPlaceHolder → f.2 = .boolean false)
    (buffers : List Text) :
    ∃ ms, acceptFields fields buffers = .ok (ms, buffers ++ fieldAttachments fields) ∧
      (∀ m ∈ ms, Readable w m.2) ∧ isPlaceHolder ms = .ok false ∧
      ∀ all, buffers ++ fieldAttachments fields <+: all → all.length ≤ 2 ^ 31 →
        ∀ done, (∀ d ∈ done, ∀ f ∈ fields, keyLt d.1.toList f.1.toList) →
          fromMembers all ms done = .ok (done ++ fields) := by
  induction fields generalizing buffers with
  | nil =>
    refine ⟨[], by rw [acceptFields, fieldAttachments, List.append_nil], nofun, rfl, fun _ _ _ done _ => ?_⟩
    rw [fromMembers, List.append_nil]
  | cons f fields ih =>
    obtain ⟨key, m⟩ := f
    obtain ⟨hfirst, hsorted⟩ := List.pairwise_cons.mp sorted
    obtain ⟨v, hv, hreadable, hback⟩ := h (key, m) List.mem_cons_self buffers
    obtain ⟨ms, hms, hreadables, hplace, hbacks⟩ := ih (fun u hu => h u (List.mem_cons_of_mem _ hu))
      hsorted (fun u hu => plain u (List.mem_cons_of_mem _ hu)) (buffers ++ attachments m)
    refine ⟨(key.toList, v) :: ms, ?_, List.forall_mem_cons.mpr ⟨hreadable, hreadables⟩, ?_, ?_⟩
    · rw [acceptFields, hv, Json.ok_bind]
      dsimp only
      rw [hms, fieldAttachments, List.append_assoc]
      rfl
    · by_cases hkey : key = String.ofList binPlaceHolder
      · obtain rfl : m = .boolean false := plain (key, m) List.mem_cons_self hkey
        obtain ⟨rfl, -⟩ := Prod.mk.inj (Except.ok.inj hv)
        subst key
        rfl
      · have hne : (binPlaceHolder == key.toList) = false := by
          rw [beq_eq_false_iff_ne]
          intro heq
          exact hkey (by rw [heq, String.ofList_toList])
        rw [isPlaceHolder, List.lookup_cons, hne]
        exact hplace
    · intro all hall hlen done hdone
      rw [fieldAttachments] at hall
      have hrest : buffers ++ attachments m ++ fieldAttachments fields <+: all := by
        rwa [List.append_assoc]
      have hlast : insertField key m done = done ++ [(key, m)] :=
        insertField_of_lt (fun d hd => hdone d hd _ List.mem_cons_self) m
      have hnext : ∀ d ∈ done ++ [(key, m)], ∀ f ∈ fields, keyLt d.1.toList f.1.toList := by
        intro d hd f hf
        rcases List.mem_append.mp hd with hd | hd
        · exact hdone d hd f (List.mem_cons_of_mem _ hf)
        · obtain rfl := List.mem_singleton.mp hd
          exact hfirst f hf
      rw [fromMembers, hback all (prefix_of_append hall) hlen, Json.ok_bind, String.ofList_toList, hlast,
        hbacks all hrest hlen _ hnext, List.append_assoc]
      rfl

/-- A writable message comes back from the JSON text and the buffers it is split into. -/
theorem Writable.conveys {m : Message} (h : Writable w m) (buffers : List Text) :
    ∃ v, Conveys w buffers m v := by
  induction h generalizing buffers with
  | null => exact ⟨.null, conveys_of_attachments_eq_nil rfl rfl .null fun _ => rfl⟩
  | boolean b => exact ⟨.bool b, conveys_of_attachments_eq_nil rfl rfl (.bool b) fun _ => rfl⟩
  | @integer n hlo hhi =>
    refine ⟨.int n, conveys_of_attachments_eq_nil rfl rfl (.int hlo (by omega)) fun all => ?_⟩
    rw [fromJson, if_pos ⟨hlo, hhi⟩]
  | @double bits h =>
    exact ⟨.double bits, conveys_of_attachments_eq_nil rfl rfl (.double h) fun _ => rfl⟩
  | string s =>
    refine ⟨.string s.toList, conveys_of_attachments_eq_nil rfl rfl (.string _) fun all => ?_⟩
    rw [fromJson, String.ofList_toList]
  | binary v => exact ⟨_, conveys_binary buffers v⟩
  | @array items _ ih =>
    obtain ⟨vs, hvs, hreadable, hback⟩ := conveys_items ih buffers
    refine ⟨.array vs, ?_, .array hreadable, fun all hall hlen => ?_⟩
    · rw [acceptMessage, hvs, attachments]
      rfl
    · rw [attachments] at hall
      rw [fromJson, hback all hall hlen]
      rfl
  | @object fields _ sorted plain ih =>
    obtain ⟨ms, hms, hreadable, hplace, hback⟩ := conveys_fields ih sorted plain buffers
    refine ⟨.object ms, ?_, .object hreadable, fun all hall hlen => ?_⟩
    · rw [acceptMessage, hms, attachments]
      rfl
    · rw [attachments] at hall
      rw [fromJson, hplace, Json.ok_bind, if_neg Bool.false_ne_true, hback all hall hlen [] nofun]
      rfl

end UwavClient
