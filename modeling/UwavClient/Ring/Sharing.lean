import UwavClient.Ring.Producer
import UwavClient.Ring.Consumer

/-!
# Safety of the shared ring buffer

The producer's and the consumer's calls fit together: whatever the interleaving, copies of the two
threads never meet, no slot is read before it is filled, and what is taken is a prefix of what was
accepted.
-/

namespace UwavClient

open Program Interleaving

variable {l : RingLayout} {slots : ℕ} {s : Recorded Traffic} {R T r n : ℕ}

/-- The consumer between two calls: a length it has loaded is still there. -/
def Attending (slots : ℕ) (s : Recorded Traffic) : Prop :=
  Waiting slots s ∧ ∀ v, s.hist.seen = some v → v ≤ s.ring.writeAheadWindow

theorem stable_seen : Stable (TrafficInv l slots) (trafficContract slots .consumer)
    fun s => ∀ v, s.hist.seen = some v → v ≤ s.ring.writeAheadWindow := by
  intro s t _ _ h hs v hv
  obtain ⟨xs, -, hw⟩ := h.accepted
  have := hs v (h.seen ▸ hv)
  omega

/-- What a read would copy are the next samples of the history. -/
theorem ahead_eq (hi : TrafficInv l slots s) (hl : l.bufferSize = slots) (hs : Reading R T r n s)
    (hle : r ≤ slots) (hmod : r % slots = R % slots) :
    s.ring.ahead n = (s.hist.accepted.drop R).take n := by
  have hra := hi.released_add
  have hahead := hs.ahead
  have hfit := hi.window_le_slots
  have hsize : s.ring.bufferSize = slots := by rw [hi.layout, hl]
  have hstored := hi.stored
  rw [hs.released] at hstored hra
  have hlen : n ≤ (s.hist.accepted.drop R).length := by
    rw [List.length_drop]
    omega
  unfold URingBuffer.ahead
  rw [hs.readPos, hsize]
  split
  · rw [Ring.run_takeStraight, hs.readPos]
    dsimp only
    rw [Int.toNat_natCast, Int.toNat_natCast, hstored.slice_eq hmod (by omega) hlen, decode_encode]
  · obtain ⟨k, hk⟩ := Nat.exists_eq_add_of_le hle
    rw [Ring.run_takeWrapped s.ring _ n (show (k : ℤ) = s.ring.bufferSize - s.ring.readPos by
      rw [hsize, hs.readPos]; omega), hs.readPos, show ((n : ℤ) - k).toNat = n - k by omega]
    dsimp only
    rw [Int.toNat_natCast, Int.toNat_natCast]
    exact (congrArg decode (hstored.slice_wrap_eq hmod hk (by omega) hlen)).trans (decode_encode _)

/-- Recording the samples of a finished call as taken. -/
theorem waiting_of_taken {t : Recorded Traffic} {xs : List Sample}
    (hs : Reading (T + n) T r 0 s) (hle : r ≤ slots) (hmod : r % slots = (T + n) % slots)
    (hx : xs = (s.hist.accepted.drop T).take n) (hring : t.ring = s.ring)
    (hacc : t.hist.accepted = s.hist.accepted) (htaken : t.hist.taken = s.hist.taken ++ xs) :
    Waiting slots t := by
  refine ⟨T + n, r, ⟨by rw [hring]; exact hs.readPos, ?_, ?_, le_refl _, ?_⟩, hle, hmod⟩
  · rw [Recorded.released, hring, hacc]
    exact hs.released
  · rw [htaken, hs.taken, hx, hacc, List.take_add]
  · rw [hring]
    exact hs.ahead

theorem trafficInv_of_taken {t : Recorded Traffic} (hi : TrafficInv l slots s)
    (hw : Waiting slots t) (hring : t.ring = s.ring)
    (hacc : t.hist.accepted = s.hist.accepted) : TrafficInv l slots t := by
  have hrel : t.released = s.released := by
    rw [Recorded.released, hring, hacc]
    rfl
  obtain ⟨R, r, hr, -, -⟩ := hw
  refine ⟨by rw [hring]; exact hi.layout, by rw [hring]; exact hi.window_nonneg,
    by rw [hring, hacc]; exact hi.window_le, by rw [hring, hacc, hrel]; exact hi.stored, ?_, ?_⟩
  · rw [hr.taken]
    exact List.take_prefix _ _
  · rw [hr.taken, hr.released, List.length_take]
    omega

/-- What the return of a call must establish. -/
def Returns (l : RingLayout) (slots : ℕ) (i : Party) (idle : Recorded Traffic → Prop)
    (a : CallResult) (s : Recorded Traffic) : Prop :=
  (trafficContract slots i).guar s (trafficSystem.finish i a s) ∧
    TrafficInv l slots (trafficSystem.finish i a s) ∧ idle (trafficSystem.finish i a s)

theorem producer_call (hl : l.bufferSize = slots) (h0 : 0 < slots) {c : RingCall} (hc : c.Valid)
    {h : Traffic} (hmay : trafficRecorder.may .producer c h) (hi : TrafficInv l slots s)
    (hs : Resting slots s) (hp : s.hist.pending = c.block) :
    CallSafe l slots .producer (c.program l) (Returns l slots .producer (Resting slots)) s := by
  have hreturn : ∀ t, TrafficInv l slots t → Resting slots t → CallSafe l slots .producer
      (.ret .done) (Returns l slots .producer (Resting slots)) t := by
    intro t hit ht u hu hiu
    exact ⟨.of_private rfl rfl rfl, hiu, stable_resting t u hit hiu hu ht⟩
  cases c with
  | writeAudioData src count =>
    lift count to ℕ using hc.1
    exact safe_bind hi (safe_writeAudioData hl h0 (by exact_mod_cast hc.2) hi ⟨hp, rfl, hs⟩)
      fun _ => hreturn
  | writeRawData src count =>
    lift count to ℕ using hc.1
    exact safe_bind hi (safe_writeRawData hl h0 (by exact_mod_cast hc.2) hi ⟨hp, rfl, hs⟩)
      fun _ => hreturn
  | _ => exact hmay.elim

theorem stable_seen_none : Stable (TrafficInv l slots) (trafficContract slots .consumer)
    fun s => s.hist.seen = none :=
  fun _ _ _ _ h hs => h.seen.trans hs

theorem stable_skipped : Stable (TrafficInv l slots) (trafficContract slots .consumer)
    fun s => Copied T n (encode s.hist.skipped) s.hist := by
  intro s t hs ht h hc
  rw [h.skipped]
  exact stable_copied s t hs ht h hc

theorem attending_of_silence (hs : Waiting slots s) (hseen : s.hist.seen = none) :
    Attending slots s :=
  ⟨hs, fun v hv => by rw [hseen] at hv; cases hv⟩

theorem returns_block {b : ReadBlock} (hi : TrafficInv l slots s) (hs : Answered slots b s)
    (hseen : s.hist.seen = none) :
    Returns l slots .consumer (Attending slots) (.block b) s := by
  cases b with
  | silence count => exact ⟨.refl s, hi, attending_of_silence hs hseen⟩
  | samples bytes =>
    obtain ⟨T, n, ⟨r, hr, hle, hmod⟩, hc⟩ := hs
    have hw : Waiting slots (trafficSystem.finish .consumer (.block (.samples bytes)) s) :=
      waiting_of_taken hr hle hmod (by rw [hc.1, decode_encode]) rfl rfl rfl
    exact ⟨⟨rfl, rfl, le_refl _, rfl, rfl⟩, trafficInv_of_taken hi hw rfl rfl,
      attending_of_silence hw hseen⟩

theorem returns_length {v : ℤ} (hi : TrafficInv l slots s) (hs : Waiting slots s)
    (hv : v ≤ s.ring.writeAheadWindow) :
    Returns l slots .consumer (Attending slots) (.length v) s := by
  obtain ⟨R, r, hr, hrest⟩ := hs
  have hw : Waiting slots (trafficSystem.finish .consumer (.length v) s) :=
    ⟨R, r, ⟨hr.readPos, hr.released, hr.taken, hr.le, hr.ahead⟩, hrest⟩
  refine ⟨⟨rfl, rfl, le_refl _, rfl, rfl⟩, trafficInv_of_taken hi hw rfl rfl, hw, ?_⟩
  rintro _ ⟨⟩
  exact hv

theorem returns_discard (hi : TrafficInv l slots s)
    (hs : ∃ r, Reading (T + n) T r 0 s ∧ r ≤ slots ∧ r % slots = (T + n) % slots)
    (hc : Copied T n (encode s.hist.skipped) s.hist) (hseen : s.hist.seen = none) :
    Returns l slots .consumer (Attending slots) .done s := by
  obtain ⟨r, hr, hle, hmod⟩ := hs
  have hx : s.hist.skipped = (s.hist.accepted.drop T).take n := by
    rw [← decode_encode s.hist.skipped, hc.1, decode_encode]
  have hw : Waiting slots (trafficSystem.finish .consumer .done s) :=
    waiting_of_taken hr hle hmod hx rfl rfl rfl
  exact ⟨⟨rfl, rfl, le_refl _, rfl, rfl⟩, trafficInv_of_taken hi hw rfl rfl,
    attending_of_silence hw hseen⟩

theorem consumer_call (hl : l.bufferSize = slots) {c : RingCall} (hc : c.Valid) {h : Traffic}
    (hmay : trafficRecorder.may .consumer c h) (hi : TrafficInv l slots s) (hs : Waiting slots s)
    (hseen : s.hist.seen = none)
    (hdiscard : ∀ count, c = .discardSamples count →
      count ≤ s.ring.writeAheadWindow ∧ s.hist.skipped = s.ring.ahead count) :
    CallSafe l slots .consumer (c.program l) (Returns l slots .consumer (Attending slots)) s := by
  have hreads : ∀ p : RingProgram ReadBlock, CallSafe l slots .consumer p (Answered slots) s →
      CallSafe l slots .consumer (p >>= fun b => pure (.block b))
        (Returns l slots .consumer (Attending slots)) s := by
    intro p hp
    refine safe_bind hi (safe_carry (P := fun h => h.seen = none) stable_seen_none hi hp hseen) ?_
    rintro b t hit ⟨hb, ht⟩ u hu hiu
    exact returns_block hiu (stable_answered b t u hit hiu hu hb)
      (stable_seen_none t u hit hiu hu ht)
  cases c with
  | readAudioData count =>
    lift count to ℕ using hc
    exact hreads _ (safe_readAudioData hl hi hs count)
  | readRawData count =>
    lift count to ℕ using hc
    exact hreads _ (safe_readRawData hl hi hs count)
  | getWriteAheadLength =>
    obtain ⟨R, r, hr, hrest⟩ := hs
    refine safe_bind hi (safe_loadWindow_read hi hr) ?_
    rintro v t hit ⟨ht, hv⟩ u hu hiu
    have hvu : v ≤ u.ring.writeAheadWindow := by
      obtain ⟨xs, -, hw⟩ := ProducerMoves.accepted hu
      omega
    exact returns_length hiu ⟨R, r, stable_reading t u hit hiu hu ht, hrest⟩ hvu
  | discardSamples count =>
    lift count to ℕ using hc
    obtain ⟨hle, hskip⟩ := hdiscard _ rfl
    obtain ⟨R, r, hr, hr', hmod⟩ := hs
    have hrn : Reading R R r count s := hr.seen le_rfl hle
    have hra := hi.released_add
    rw [hr.released] at hra
    have hcopied : Copied R count (encode s.hist.skipped) s.hist :=
      ⟨by rw [hskip, ahead_eq hi hl hrn hr' hmod], by omega⟩
    refine safe_bind hi (safe_carry (P := fun h => h.seen = none ∧ Copied R count (encode h.skipped) h)
      (stable_seen_none.and stable_skipped) hi (safe_discardSamples hl hi hrn hr' hmod)
      ⟨hseen, hcopied⟩) ?_
    rintro _ t hit ⟨⟨r', ht, hrest⟩, hts, htc⟩ u hu hiu
    exact returns_discard hiu ⟨r', stable_reading t u hit hiu hu ht, hrest⟩
      (stable_skipped t u hit hiu hu htc) (stable_seen_none t u hit hiu hu hts)
  | _ => exact hmay.elim

/-- The start of a call touches neither the object nor the accepted and taken samples. -/
theorem trafficInv_congr {t : Recorded Traffic} (hi : TrafficInv l slots s) (hring : t.ring = s.ring)
    (hacc : t.hist.accepted = s.hist.accepted) (htaken : t.hist.taken = s.hist.taken) :
    TrafficInv l slots t := by
  have hrel : t.released = s.released := by rw [Recorded.released, hring, hacc]; rfl
  refine ⟨by rw [hring]; exact hi.layout, by rw [hring]; exact hi.window_nonneg,
    by rw [hring, hacc]; exact hi.window_le, by rw [hring, hacc, hrel]; exact hi.stored,
    by rw [hacc, htaken]; exact hi.taken_prefix, by rw [htaken, hrel]; exact hi.taken_le⟩

theorem waiting_congr {t : Recorded Traffic} (hs : Waiting slots s) (hring : t.ring = s.ring)
    (hacc : t.hist.accepted = s.hist.accepted) (htaken : t.hist.taken = s.hist.taken) :
    Waiting slots t := by
  obtain ⟨R, r, hr, hrest⟩ := hs
  refine ⟨R, r, ⟨by rw [hring]; exact hr.readPos, ?_, by rw [htaken, hacc]; exact hr.taken, hr.le,
    by rw [hring]; exact hr.ahead⟩, hrest⟩
  rw [Recorded.released, hring, hacc]
  exact hr.released

theorem consumer_start {c : RingCall} (h : Traffic) (rb : URingBuffer) :
    (trafficRecorder.onStart .consumer c rb h).pending = h.pending ∧
      (trafficRecorder.onStart .consumer c rb h).accepted = h.accepted ∧
      (trafficRecorder.onStart .consumer c rb h).taken = h.taken ∧
      (trafficRecorder.onStart .consumer c rb h).seen = none := by
  cases c <;> exact ⟨rfl, rfl, rfl, rfl⟩

def trafficSpec (hl : l.bufferSize = slots) (h0 : 0 < slots) :
    Spec trafficSystem (fun _ _ _ => True) where
  inv := TrafficInv l slots
  contract := trafficContract slots
  idle
    | .producer => Resting slots
    | .consumer => Attending slots
  compatible := by
    intro i j s t hij hg
    cases i <;> cases j <;> first | exact absurd rfl hij | exact hg
  stable i := by
    cases i with
    | producer => exact stable_resting
    | consumer =>
      intro s t hs ht h ⟨hw, hv⟩
      exact ⟨stable_waiting s t hs ht h hw, stable_seen s t hs ht h hv⟩
  call := by
    rintro i s p t hi hs ⟨c, hc, hmay, rfl, rfl⟩
    rw [hi.layout]
    cases i with
    | producer =>
      have hit := trafficInv_congr (t := ⟨s.ring, { s.hist with pending := c.block }⟩) hi rfl rfl rfl
      exact ⟨⟨rfl, rfl, rfl, rfl, [], by simp [trafficRecorder], by simp⟩, hit,
        producer_call hl h0 hc hmay hit hs rfl⟩
    | consumer =>
      obtain ⟨hpending, hacc, htaken, hseen⟩ := consumer_start (c := c) s.hist s.ring
      have hit := trafficInv_congr
        (t := ⟨s.ring, trafficRecorder.onStart .consumer c s.ring s.hist⟩) hi rfl hacc htaken
      refine ⟨⟨rfl, rfl, le_refl _, hpending, hacc⟩, hit,
        consumer_call hl hc hmay hit (waiting_congr hs.1 rfl hacc htaken) hseen ?_⟩
      rintro count rfl
      obtain ⟨v, hv, hle⟩ := hmay
      exact ⟨hle.trans (hs.2 v hv), rfl⟩

/-- A slot that holds, in place, a sample accepted and not yet taken. -/
def Filled (slots : ℕ) (s : Recorded Traffic) (slot : ℤ) : Prop :=
  ∃ i x, s.hist.taken.length ≤ i ∧ s.hist.accepted[i]? = some x ∧ slot = (i % slots : ℕ) ∧
    Circular.slice s.ring.buffer (4 * slot.toNat) 4 = encode [x]

theorem filled_of_occupied (hi : TrafficInv l slots s) {slot : ℤ} (h : Occupied slots s slot) :
    Filled slots s slot := by
  obtain ⟨i, hri, hia, rfl⟩ := h
  have hfit := hi.stored.length_le
  rw [List.length_drop] at hfit
  obtain ⟨j, rfl⟩ := Nat.exists_eq_add_of_le hri
  have hlt := Nat.mod_lt (s.released + j) (show 0 < slots by omega)
  have hslice := (hi.stored.drop j).slice_eq (Nat.mod_mod (s.released + j) slots)
    (show (s.released + j) % slots + 1 ≤ slots by omega)
    (by rw [List.length_drop, List.length_drop]; omega)
  refine ⟨s.released + j, s.hist.accepted[s.released + j], hi.taken_le.trans hri,
    List.getElem?_eq_getElem hia, rfl, ?_⟩
  rw [List.drop_drop, List.drop_eq_getElem_cons hia] at hslice
  exact hslice

/-- Single-producer single-consumer safety, in every interleaving: two copies about to happen never
overlap, every copy out reads filled slots only, and what was taken is a prefix of what was
accepted. -/
theorem ring_spsc_safe {sampleRate : ℤ} (hrate : 2 ≤ sampleRate)
    {c : RingConfig Traffic}
    (run : Reaches trafficSystem (fun _ _ _ => True)
      (.initial ⟨.ofSampleRate sampleRate, .empty⟩) c) :
    (∀ pos src off n k pos' n' k', c.thread .producer = some (.op (.copyIn pos src off n) k) →
      c.thread .consumer = some (.op (.copyOut pos' n') k') →
      ∀ slot, pos ≤ slot → slot < pos + n → pos' ≤ slot → ¬ slot < pos' + n') ∧
    (∀ pos n k, c.thread .consumer = some (.op (.copyOut pos n) k) →
      ∀ slot, pos ≤ slot → slot < pos + n →
        Filled (URingBuffer.slotsFor sampleRate) c.shared slot) ∧
    c.shared.hist.taken <+: c.shared.hist.accepted := by
  have hl := (URingBuffer.slotsFor_eq (show 0 ≤ sampleRate by omega)).symm
  have hinv := trafficInv_init hrate
  have hidle : ∀ i, (trafficSpec hl (URingBuffer.slotsFor_pos hrate)).Holds i none
      ⟨.ofSampleRate sampleRate, .empty⟩ := by
    intro i
    cases i with
    | producer =>
      change (0 : ℤ) = (0 % URingBuffer.slotsFor sampleRate : ℕ)
      rw [Nat.zero_mod]
      rfl
    | consumer =>
      exact ⟨⟨0, 0, ⟨rfl, rfl, rfl, le_refl _, le_refl _⟩, Nat.zero_le _, rfl⟩,
        fun v hv => by cases hv⟩
  have hnext := fun i e k => Spec.claim_of_next _ hinv hidle run (i := i) (e := e) (k := k)
  have hsound := (Spec.sound _ hinv hidle run).1
  refine ⟨fun pos src off n k pos' n' k' hp hc slot hlo hhi hlo' hhi' => ?_,
    fun pos n k hc slot hlo hhi => ?_, hsound.taken_prefix⟩
  · exact hnext _ _ _ hp slot hlo hhi (hnext _ _ _ hc slot hlo' hhi')
  · exact filled_of_occupied hsound (hnext _ _ _ hc slot hlo hhi)

instance (i : Party) (c : RingCall) (h : Traffic) : Decidable (trafficRecorder.may i c h) :=
  match i, c with
  | .consumer, .discardSamples count =>
    decidable_of_iff (h.seen.any (count ≤ ·)) (by cases hs : h.seen <;> simp [trafficRecorder, hs])
  | .producer, .writeAudioData _ _ | .producer, .writeRawData _ _ => isTrue trivial
  | .consumer, .readAudioData _ | .consumer, .readRawData _ => isTrue trivial
  | .consumer, .getWriteAheadLength => isTrue trivial
  | .producer, .readAudioData _ | .producer, .readRawData _ => isFalse id
  | .producer, .discardSamples _ | .producer, .getWriteAheadLength => isFalse id
  | .consumer, .writeAudioData _ _ | .consumer, .writeRawData _ _ => isFalse id

/-- The producer is about to copy its second block while the consumer copies its first one. -/
def meetingSchedule : List (Move Party RingCall) :=
  .call .producer (.writeRawData [1, 2, 3, 4] 1) :: List.replicate 12 (.step .producer) ++
    .call .consumer (.readRawData 1) :: List.replicate 4 (.step .consumer) ++
    .call .producer (.writeRawData [5, 6, 7, 8] 1) :: List.replicate 4 (.step .producer)

def bothCopy (c : RingConfig Traffic) : Bool :=
  match c.thread .producer, c.thread .consumer with
  | some (.op (.copyIn _ _ _ _) _), some (.op (.copyOut _ _) _) => true
  | _, _ => false

theorem ring_spsc_safe_when_copies_meet : ∃ c : RingConfig Traffic,
    bothCopy c ∧ c.shared.hist.accepted = [⟨1, 2, 3, 4⟩] ∧
      c.shared.hist.taken <+: c.shared.hist.accepted := by
  have hrun : ∃ c : RingConfig Traffic, Reaches trafficSystem (fun _ _ _ => True)
      (.initial ⟨.ofSampleRate 200, .empty⟩) c ∧
      (bothCopy c && decide (c.shared.hist.accepted = [⟨1, 2, 3, 4⟩])) :=
    reaches_of_schedule (L := ringLauncher trafficRecorder) meetingSchedule (by decide)
  obtain ⟨c, run, hgood⟩ := hrun
  obtain ⟨hcopy, hacc⟩ := Bool.and_eq_true _ _ ▸ hgood
  exact ⟨c, hcopy, of_decide_eq_true hacc, (ring_spsc_safe (by decide) run).2.2⟩

end UwavClient
