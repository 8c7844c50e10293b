import UwavClient.Audio.Provider

/-!
# What the main thread does to the provider

Creating, destroying and swapping streams and selecting devices leave the device lists alone, and the
only signal they may post is that a stream stopped.
-/

namespace UwavClient

namespace AudioProvider

variable {a b c : AudioProvider} {dir : Direction} {pw : PipeWireAnswers}

/-- The two states have the same device lists; only the end of streams was signalled. -/
structure ListsKept (a b : AudioProvider) : Prop where
  list : ∀ dir, (b.endpoint dir).deviceList = (a.endpoint dir).deviceList
  posted : ∃ n, b.posted = a.posted ++ List.replicate n .streamStopped
  firstRun : b.firstRun = a.firstRun

structure DevicesKept (a b : AudioProvider) : Prop extends ListsKept a b where
  current : ∀ dir, (b.endpoint dir).currentDevice = (a.endpoint dir).currentDevice

namespace ListsKept

theorem refl (a : AudioProvider) : ListsKept a a := ⟨fun _ => rfl, ⟨0, by simp⟩, rfl⟩

theorem trans (hab : ListsKept a b) (hbc : ListsKept b c) : ListsKept a c := by
  obtain ⟨m, hm⟩ := hab.posted
  obtain ⟨n, hn⟩ := hbc.posted
  refine ⟨fun dir => (hbc.list dir).trans (hab.list dir), ⟨m + n, ?_⟩,
    hbc.firstRun.trans hab.firstRun⟩
  rw [hn, hm, List.append_assoc, List.replicate_append_replicate]

end ListsKept

namespace DevicesKept

theorem refl (a : AudioProvider) : DevicesKept a a := ⟨.refl a, fun _ => rfl⟩

theorem trans (hab : DevicesKept a b) (hbc : DevicesKept b c) : DevicesKept a c :=
  ⟨hab.toListsKept.trans hbc.toListsKept, fun dir => (hbc.current dir).trans (hab.current dir)⟩

theorem streamStopped (h : DevicesKept a b) : DevicesKept a (b.post .streamStopped) := by
  obtain ⟨n, hn⟩ := h.posted
  refine ⟨⟨fun dir => ?_, ⟨n + 1, ?_⟩, h.firstRun⟩, fun dir => ?_⟩
  · rw [endpoint_post]
    exact h.list dir
  · rw [List.replicate_succ', ← List.append_assoc, ← hn]
    rfl
  · rw [endpoint_post]
    exact h.current dir

theorem deref (h : DevicesKept a b) : (b.endpoint dir).deref = (a.endpoint dir).deref := by
  unfold Endpoint.deref
  rw [h.list dir, h.current dir]

end DevicesKept

theorem listsKept_update {f : Endpoint → Endpoint}
    (hf : ∀ e, (f e).deviceList = e.deviceList) : ListsKept a (a.update f dir) := by
  refine ⟨fun dir' => ?_, ⟨0, by simp⟩, by cases dir <;> rfl⟩
  by_cases h : dir' = dir
  · subst h
    rw [endpoint_update]
    exact hf _
  · rw [endpoint_update_of_ne a f h]

theorem devicesKept_update {f : Endpoint → Endpoint}
    (hf : ∀ e, (f e).deviceList = e.deviceList ∧ (f e).currentDevice = e.currentDevice) :
    DevicesKept a (a.update f dir) := by
  refine ⟨listsKept_update fun e => (hf e).1, fun dir' => ?_⟩
  by_cases h : dir' = dir
  · subst h
    rw [endpoint_update]
    exact (hf _).2
  · rw [endpoint_update_of_ne a f h]

theorem devicesKept_setConnected (v : Bool) : DevicesKept a (a.setConnected dir v) :=
  devicesKept_update fun _ => ⟨rfl, rfl⟩

theorem devicesKept_disconnect : DevicesKept a (disconnect pw dir a) := by
  unfold disconnect
  split
  · have h : DevicesKept a (a.setConnected dir false) := devicesKept_setConnected false
    cases dir with
    | input => exact h.streamStopped
    | output => exact h
  · exact .refl a

theorem devicesKept_withoutStream : DevicesKept a ((disconnect pw dir a).update (·.withoutStream) dir) :=
  devicesKept_disconnect.trans (devicesKept_update fun _ => ⟨rfl, rfl⟩)

theorem devicesKept_destroyStream : DevicesKept a (destroyStream pw dir a) := by
  unfold destroyStream
  split
  · exact devicesKept_withoutStream.trans (devicesKept_setConnected false)
  · exact devicesKept_setConnected false

/-- A destroyed stream leaves no stream, and no buffer if there was a stream. -/
theorem endpoint_destroyStream (h : (a.endpoint dir).stream) :
    ((destroyStream pw dir a).endpoint dir).stream = false ∧
      ((destroyStream pw dir a).endpoint dir).data.buffer = none := by
  simp only [destroyStream, h, if_true, setConnected, endpoint_update]
  exact ⟨rfl, rfl⟩

section Create

variable (pw : PipeWireAnswers) (bufferRate : InterfaceDescriptor → ℤ)
  (setFormat : InterfaceDescriptor → AudioProvider → AudioProvider)

theorem createStream_of_device {device : InterfaceDescriptor}
    (hs : (a.endpoint dir).stream = false) (hb : (a.endpoint dir).data.buffer = none)
    (hd : (a.endpoint dir).deref = .ok (some device)) :
    createStream pw dir bufferRate setFormat a =
      let a := setFormat device (a.update (·.withBuffer (bufferRate device)) dir)
      .ok (if !(pw dir).newStream then a
        else if !(pw dir).connect then (disconnect pw dir a).update (·.withoutStream) dir
        else a.update (fun e => { e with stream := true }) dir) := by
  have hn : (a.endpoint dir).currentDevice.isNone = false := by
    cases hc : (a.endpoint dir).currentDevice with
    | none => simp [Endpoint.deref, hc] at hd
    | some slot => rfl
  simp only [createStream, hs, hb, hn, hd]
  cases (pw dir).newStream <;> cases (pw dir).connect <;> rfl

variable {pw bufferRate setFormat}

theorem devicesKept_createStream (hfmt : ∀ device a, DevicesKept a (setFormat device a))
    (h : createStream pw dir bufferRate setFormat a = .ok b) : DevicesKept a b := by
  by_cases hskip : (a.endpoint dir).stream ∨ (a.endpoint dir).currentDevice.isNone
  · rw [createStream, if_pos hskip] at h
    cases h
    exact .refl a
  · obtain ⟨hs, hc⟩ := not_or.mp hskip
    cases hb : (a.endpoint dir).data.buffer with
    | some rb =>
      rw [createStream, if_neg hskip, hb] at h
      cases h
    | none =>
      cases hd : (a.endpoint dir).deref with
      | error f =>
        rw [createStream, if_neg hskip, hb, hd] at h
        cases h
      | ok found =>
        cases found with
        | none =>
          rw [createStream, if_neg hskip, hb, hd] at h
          cases h
          exact .refl a
        | some device =>
          rw [createStream_of_device pw bufferRate setFormat (by simpa using hs) hb hd] at h
          have hbuf : DevicesKept a (a.update (·.withBuffer (bufferRate device)) dir) :=
            devicesKept_update fun _ => ⟨rfl, rfl⟩
          replace hbuf := hbuf.trans (hfmt device _)
          dsimp only at h
          split_ifs at h <;> cases h
          · exact hbuf
          · exact hbuf.trans devicesKept_withoutStream
          · exact hbuf.trans (devicesKept_update fun _ => ⟨rfl, rfl⟩)

/-- A stream swap with a current device in the list cannot fault. -/
theorem createStream_destroyStream (hfmt : ∀ device a, DevicesKept a (setFormat device a))
    (hs : (a.endpoint dir).stream) {device : InterfaceDescriptor}
    (hd : (a.endpoint dir).deref = .ok (some device)) :
    ∃ b, createStream pw dir bufferRate setFormat (destroyStream pw dir a) = .ok b ∧
      DevicesKept a b := by
  have hkept : DevicesKept a (destroyStream pw dir a) := devicesKept_destroyStream
  obtain ⟨hs', hb'⟩ := endpoint_destroyStream hs
  have heq := createStream_of_device pw bufferRate setFormat hs' hb' (hkept.deref.trans hd)
  exact ⟨_, heq, hkept.trans (devicesKept_createStream hfmt heq)⟩

end Create

/-! ## Selecting a device -/

def swapStream (pw : PipeWireAnswers) : Direction → AudioProvider → Except Fault AudioProvider
  | .input => swapInputStream pw
  | .output => swapOutputStream pw

theorem setActiveDevice_eq (pw : PipeWireAnswers) (dir : Direction) :
    setActiveDevice pw dir = setActive pw dir (swapStream pw dir) := by
  cases dir <;> rfl

theorem devicesKept_setRate (rate : ℤ) : DevicesKept a { a with pwInputAudioRate := rate } :=
  ⟨⟨fun dir => by cases dir <;> rfl, ⟨0, by simp⟩, rfl⟩, fun dir => by cases dir <;> rfl⟩

theorem swapStream_ok (pw : PipeWireAnswers) (hs : (a.endpoint dir).stream)
    {device : InterfaceDescriptor}
    (hd : (a.endpoint dir).deref = .ok (some device)) :
    ∃ b, swapStream pw dir a = .ok b ∧ DevicesKept a b := by
  cases dir with
  | input =>
    unfold swapStream swapInputStream createInputStream destroyInputStream
    exact createStream_destroyStream (fun _ _ => devicesKept_setRate _) hs hd
  | output =>
    unfold swapStream swapOutputStream createOutputStream destroyOutputStream
    exact createStream_destroyStream (fun _ a => .refl a) hs hd

theorem devicesKept_createInputStream {rate : ℤ} (h : createInputStream pw rate a = .ok b) :
    DevicesKept a b :=
  devicesKept_createStream (fun _ _ => devicesKept_setRate _) h

theorem devicesKept_createOutputStream {rate : ℤ} (h : createOutputStream pw rate a = .ok b) :
    DevicesKept a b :=
  devicesKept_createStream (fun _ a => .refl a) h

theorem devicesKept_swapStream (h : swapStream pw dir a = .ok b) : DevicesKept a b := by
  refine devicesKept_destroyStream.trans (b := destroyStream pw dir a) ?_
  cases dir with
  | input => exact devicesKept_createInputStream h
  | output => exact devicesKept_createOutputStream h

theorem devicesKept_stopAudio (pw : PipeWireAnswers) (a : AudioProvider) :
    DevicesKept a (stopAudio pw a) := by
  have hdestroy : ∀ dir a, DevicesKept a (destroyStream pw dir a) :=
    fun _ _ => devicesKept_destroyStream
  exact (hdestroy .input a).trans (hdestroy .output _)

theorem bind_eq_ok {ε α β : Type} {x : Except ε α} {f : α → Except ε β} {y : β}
    (h : (x >>= f) = .ok y) : ∃ v, x = .ok v ∧ f v = .ok y := by
  cases x with
  | error e => cases h
  | ok v => exact ⟨v, rfl, h⟩

theorem devicesKept_startAudio (h : startAudio pw a = .ok b) : DevicesKept a b := by
  have hout : ∀ (v : AudioProvider) (usable : Option InterfaceDescriptor → Bool),
      (do if usable (← v.output.deref) then createOutputStream pw 0 v else return v) = .ok b →
      DevicesKept v b := by
    intro v usable hv
    obtain ⟨d, -, hd⟩ := bind_eq_ok hv
    split at hd
    · exact devicesKept_createOutputStream hd
    · cases hd
      exact .refl _
  unfold startAudio at h
  split at h
  · cases h
    exact .refl a
  · obtain ⟨d, -, hd⟩ := bind_eq_ok h
    split at hd
    · obtain ⟨v, hv, hrest⟩ := bind_eq_ok hd
      exact (devicesKept_createInputStream hv).trans (hout v _ hrest)
    · exact hout a _ hd

theorem setActiveDevice_of_deref {index : ℤ} {found : Option InterfaceDescriptor}
    (hd : (a.endpoint dir).deref = .ok found) :
    setActiveDevice pw dir index a =
      if index < 0 ∨ ((a.endpoint dir).deviceList.length : ℤ) ≤ index then
        .ok (if found.isNone then a
          else
            let unset := a.update (fun e => { e with currentDevice := none }) dir
            if (a.endpoint dir).stream then destroyStream pw dir unset else unset)
      else if found.map (·.internalId) = some index then .ok a
      else
        let selected := a.update (fun e => { e with currentDevice := some index.toNat }) dir
        if (a.endpoint dir).stream then swapStream pw dir selected else .ok selected := by
  rw [setActiveDevice_eq, setActive]
  dsimp only
  rw [hd]
  cases found <;> rfl

/-- Selecting never changes a device list. -/
theorem listsKept_setActiveDevice {index : ℤ} (h : setActiveDevice pw dir index a = .ok b) :
    ListsKept a b := by
  have hkeep := ListsKept.refl a
  have hsel (slot : Option ℕ) :
      ListsKept a (a.update (fun e => { e with currentDevice := slot }) dir) :=
    listsKept_update fun _ => rfl
  cases hd : (a.endpoint dir).deref with
  | error f =>
    rw [setActiveDevice_eq, setActive] at h
    dsimp only at h
    rw [hd] at h
    split at h <;> cases h
  | ok found =>
    rw [setActiveDevice_of_deref hd] at h
    dsimp only at h
    split_ifs at h with hout hnone hs hsame hs
    · cases h
      exact hkeep
    · cases h
      exact (hsel none).trans devicesKept_destroyStream.toListsKept
    · cases h
      exact hsel none
    · cases h
      exact hkeep
    · exact (hsel _).trans (devicesKept_swapStream h).toListsKept
    · cases h
      exact hsel _

theorem listsKept_setInputGateTail (h : setInputGateTail a = .ok b) : ListsKept a b := by
  obtain ⟨d, -, hd⟩ := bind_eq_ok h
  cases d with
  | none => cases hd
  | some device =>
    cases hd
    exact ⟨fun dir => by cases dir <;> rfl, ⟨0, by simp⟩, rfl⟩

end AudioProvider

end UwavClient
