import Mathlib.Data.List.Nodup
import UwavClient.Audio.Selection
import UwavClient.Audio.Pairing

/-!
# Unplugging another device than the current one

A device that leaves takes its slot with it and the later devices move down, while the current device
stays the slot it was. So the device in use is kept by removals behind it and lost by those ahead of
it.
-/

namespace UwavClient

/-! ## A slot of a list with distinct keys -/

section Slot

variable {α κ : Type*} {key : α → κ} {l : List α} {slot i : ℕ}

/-- What a slot holds has another key than what the next slot holds. -/
theorem key_ne_of_getElem?_succ (hnodup : (l.map key).Nodup) (hs : slot < l.length) {x : α}
    (hx : l[slot + 1]? = some x) : key x ≠ key l[slot] := by
  obtain ⟨hlt, rfl⟩ := List.getElem?_eq_some_iff.mp hx
  have hpair : l.Pairwise fun x y => key x ≠ key y := List.pairwise_map.mp hnodup
  exact (List.pairwise_iff_getElem.mp hpair slot (slot + 1) hs hlt (Nat.lt_succ_self slot)).symm

/-- A slot keeps its key exactly if the element erased was behind it. -/
theorem key_getElem?_eraseIdx_iff (hnodup : (l.map key).Nodup) (hs : slot < l.length) :
    (∃ x, (l.eraseIdx i)[slot]? = some x ∧ key x = key l[slot]) ↔ slot < i := by
  rw [List.getElem?_eraseIdx]
  split
  next hlt =>
    rw [List.getElem?_eq_getElem hs]
    exact ⟨fun _ => hlt, fun _ => ⟨l[slot], rfl, rfl⟩⟩
  next hge =>
    refine ⟨fun h => ?_, fun hlt => absurd hlt hge⟩
    obtain ⟨x, hx, heq⟩ := h
    exact absurd heq (key_ne_of_getElem?_succ hnodup hs hx)

end Slot

theorem Endpoint.deref_eq_some {e : Endpoint} {d : InterfaceDescriptor} (h : e.deref = .ok (some d)) :
    ∃ slot, ∃ hs : slot < e.deviceList.length, e.currentDevice = some slot ∧ e.deviceList[slot] = d := by
  unfold Endpoint.deref at h
  split at h
  next => cases h
  next slot hc =>
    split at h
    next => cases h
    next found hfound =>
      cases h
      obtain ⟨hs, hd⟩ := List.getElem?_eq_some_iff.mp hfound
      exact ⟨slot, hs, hc, hd⟩

/-! ## Everything that happens to the provider -/

inductive ProviderEvent where
  | device (ev : DeviceEvent)
  | call (c : AudioProvider.AudioCall × PipeWireAnswers)
  | coreDone (id : ℕ) (seq : ℤ)

namespace ProviderEvent

def apply : ProviderEvent → AudioProvider → Except Fault AudioProvider
  | .device ev, a => ev.apply a
  | .call c, a => AudioProvider.callStep c a
  | .coreDone id seq, a => .ok (a.onCoreDone id seq)

/-- Announced objects have ids of their own. -/
def Distinct : ProviderEvent → AudioProvider → Prop
  | .device ev, a => ev.Distinct a
  | _, _ => True

end ProviderEvent

namespace AudioProvider

variable {a₀ a b : AudioProvider} {dir : Direction} {id : ℕ}

def IdsDistinct (a : AudioProvider) : Prop :=
  ∀ dir, ((a.endpoint dir).deviceList.map (·.pwDeviceId)).Nodup

/-- The object with this id is no device of the list, or one behind the current device. -/
def RemovedBehind (a : AudioProvider) (dir : Direction) (id : ℕ) : Prop :=
  ∀ slot i, (a.endpoint dir).currentDevice = some slot → a.removalOf id = some (dir, i) → slot < i

/-- The event does not select in this direction, and removes nothing at or ahead of the current
device. -/
def LeavesCurrent (dir : Direction) : ProviderEvent → AudioProvider → Prop
  | .device (.registryRemove id), a => a.RemovedBehind dir id
  | .device (.setActive _ dir' _), _ => dir ≠ dir'
  | .call (.setActive dir' _, _), _ => dir ≠ dir'
  | _, _ => True

theorem pwDeviceId_ofProps (id : ℕ) (props : List (String × String)) :
    (InterfaceDescriptor.ofProps id props).pwDeviceId = id := by
  have hdescribe (d : InterfaceDescriptor) (item : String × String) :
      (d.describe item).pwDeviceId = d.pwDeviceId := by
    unfold InterfaceDescriptor.describe
    split_ifs <;> rfl
  have hfold (d : InterfaceDescriptor) :
      (props.foldl InterfaceDescriptor.describe d).pwDeviceId = d.pwDeviceId := by
    induction props generalizing d with
    | nil => rfl
    | cons item props ih => exact (ih _).trans (hdescribe d item)
  exact hfold _

/-- An announcement adds nothing, or one device with the announced id at the end of one list. -/
theorem endpoint_onRegistryAdd (a : AudioProvider) (id : ℕ) (type : String)
    (props : List (String × String)) (dir : Direction) :
    (a.onRegistryAdd id type props).endpoint dir = a.endpoint dir ∨
      ∃ d, d.pwDeviceId = id ∧ (a.onRegistryAdd id type props).endpoint dir =
        { a.endpoint dir with deviceList := (a.endpoint dir).deviceList ++ [d] } := by
  have hadd (dir' : Direction) : (a.addDevice dir' (.ofProps id props)).endpoint dir =
      a.endpoint dir ∨ ∃ d, d.pwDeviceId = id ∧
        (a.addDevice dir' (.ofProps id props)).endpoint dir =
          { a.endpoint dir with deviceList := (a.endpoint dir).deviceList ++ [d] } := by
    rw [endpoint_addDevice]
    split
    next heq =>
      subst heq
      refine .inr ⟨_, ?_, rfl⟩
      exact pwDeviceId_ofProps id props
    next => exact .inl rfl
  unfold onRegistryAdd
  dsimp only
  split_ifs
  · exact hadd .input
  · exact hadd .output
  · exact .inl rfl
  · exact .inl rfl

/-- A removal erases one slot of the list the object is in. -/
theorem endpoint_onRegistryRemove {i : ℕ} (h : a.removalOf id = some (dir, i)) :
    (a.onRegistryRemove id).endpoint dir =
      { a.endpoint dir with deviceList := (a.endpoint dir).deviceList.eraseIdx i } := by
  rw [onRegistryRemove, h]
  dsimp only
  rw [endpoint_removeDevice, if_pos rfl]

/-- It does nothing in the other direction. -/
theorem endpoint_onRegistryRemove_of_ne (h : ∀ i, a.removalOf id ≠ some (dir, i)) :
    (a.onRegistryRemove id).endpoint dir = a.endpoint dir := by
  unfold onRegistryRemove
  split
  next dir' i hr =>
    have hd : dir ≠ dir' := fun heq => h i (heq ▸ hr)
    rw [endpoint_removeDevice, if_neg hd]
  next => rfl

/-! ## Distinct ids -/

theorem idsDistinct_onRegistryAdd (h : a.IdsDistinct) (type : String) (props : List (String × String))
    (hnew : ∀ dir, ∀ d ∈ (a.endpoint dir).deviceList, d.pwDeviceId ≠ id) :
    (a.onRegistryAdd id type props).IdsDistinct := by
  intro dir
  obtain heq | ⟨d, hd, heq⟩ := endpoint_onRegistryAdd a id type props dir
  · rw [heq]
    exact h dir
  · rw [heq, List.map_append, List.map_singleton, hd, ← List.concat_eq_append]
    apply List.Nodup.concat _ (h dir)
    intro hmem
    obtain ⟨d', hd', hid⟩ := List.mem_map.mp hmem
    exact hnew dir d' hd' hid

theorem idsDistinct_onRegistryRemove (h : a.IdsDistinct) (id : ℕ) :
    (a.onRegistryRemove id).IdsDistinct := by
  intro dir
  by_cases hr : ∃ i, a.removalOf id = some (dir, i)
  · obtain ⟨i, hr⟩ := hr
    rw [endpoint_onRegistryRemove hr]
    exact (h dir).sublist ((List.eraseIdx_sublist _ i).map _)
  · rw [endpoint_onRegistryRemove_of_ne (not_exists.mp hr)]
    exact h dir

theorem IdsDistinct.of_list (h : a.IdsDistinct)
    (hlist : ∀ dir, (b.endpoint dir).deviceList = (a.endpoint dir).deviceList) : b.IdsDistinct :=
  fun dir => hlist dir ▸ h dir

/-! ## Calls leave the devices alone -/

/-- Only a selection changes a current device, and only in its direction. -/
theorem currentDevice_setActiveDevice {pw : PipeWireAnswers} {dir' : Direction} {index : ℤ}
    (hdir : dir' ≠ dir) (h : a.setActiveDevice pw dir index = .ok b) :
    (b.endpoint dir').currentDevice = (a.endpoint dir').currentDevice := by
  have hsel (slot : Option ℕ) : ((a.update (fun e => { e with currentDevice := slot }) dir).endpoint
      dir').currentDevice = (a.endpoint dir').currentDevice := by
    rw [endpoint_update_of_ne a _ hdir]
  cases hd : (a.endpoint dir).deref with
  | error f =>
    rw [setActiveDevice_eq, setActive] at h
    dsimp only at h
    rw [hd] at h
    split at h <;> cases h
  | ok found =>
    rw [setActiveDevice_of_deref hd] at h
    dsimp only at h
    split_ifs at h
    · cases h
      rfl
    · cases h
      exact (devicesKept_destroyStream.current dir').trans (hsel none)
    · cases h
      exact hsel none
    · cases h
      rfl
    · exact ((devicesKept_swapStream h).current dir').trans (hsel _)
    · cases h
      exact hsel _

theorem devicesKept_setServerRequestedInSampleRate {pw : PipeWireAnswers} {rate : ℤ}
    (h : a.setServerRequestedInSampleRate pw rate = .ok b) : DevicesKept a b := by
  have hset {v : AudioProvider} (hv : DevicesKept a v) :
      DevicesKept a { v with serverRequestedInSampleRate := rate } :=
    hv.trans ⟨⟨fun dir => by cases dir <;> rfl, ⟨0, by simp⟩, rfl⟩, fun dir => by cases dir <;> rfl⟩
  unfold setServerRequestedInSampleRate at h
  split at h
  · obtain ⟨found, -, hswap⟩ := bind_eq_ok h
    cases found with
    | none =>
      cases hswap
      exact hset (.refl a)
    | some device =>
      dsimp only at hswap
      split at hswap
      · obtain ⟨v, hv, hdone⟩ := bind_eq_ok hswap
        cases hdone
        exact hset (devicesKept_destroyStream.trans (devicesKept_createInputStream hv))
      · cases hswap
        exact hset (.refl a)
  · cases h
    exact hset (.refl a)

theorem devices_onStreamChanged (a : AudioProvider) (dir : Direction) (state : PwStreamState)
    (dir' : Direction) :
    ((a.onStreamChanged dir state).endpoint dir').deviceList = (a.endpoint dir').deviceList ∧
      ((a.onStreamChanged dir state).endpoint dir').currentDevice =
        (a.endpoint dir').currentDevice := by
  cases dir with
  | input =>
    cases state with
    | streaming =>
      dsimp only [onStreamChanged, onInputStreamChanged]
      split <;> cases dir' <;> exact ⟨rfl, rfl⟩
    | error | unconnected | connecting | paused => cases dir' <;> exact ⟨rfl, rfl⟩
  | output =>
    cases state with
    | streaming =>
      dsimp only [onStreamChanged, onOutputStreamChanged]
      split <;> cases dir' <;> exact ⟨rfl, rfl⟩
    | error | unconnected | connecting | paused => cases dir' <;> exact ⟨rfl, rfl⟩

/-- A call keeps the lists, and the current device in a direction in which it does not select. -/
theorem devices_callStep {c : AudioCall × PipeWireAnswers} (h : callStep c a = .ok b) (dir : Direction) :
    (b.endpoint dir).deviceList = (a.endpoint dir).deviceList ∧
      ((∀ index, c.1 ≠ .setActive dir index) →
        (b.endpoint dir).currentDevice = (a.endpoint dir).currentDevice) := by
  obtain ⟨call, pw⟩ := c
  cases call with
  | startAudio =>
    have hkept := devicesKept_startAudio h
    exact ⟨hkept.list dir, fun _ => hkept.current dir⟩
  | stopAudio =>
    cases h
    have hkept := devicesKept_stopAudio pw a
    exact ⟨hkept.list dir, fun _ => hkept.current dir⟩
  | setActive dir' index =>
    refine ⟨(listsKept_setActiveDevice h).list dir, fun hother => ?_⟩
    have hdir : dir ≠ dir' := fun heq => hother index (heq ▸ rfl)
    exact currentDevice_setActiveDevice hdir h
  | serverRequestedInSampleRate rate =>
    have hkept := devicesKept_setServerRequestedInSampleRate h
    exact ⟨hkept.list dir, fun _ => hkept.current dir⟩
  | streamChanged dir' state =>
    cases h
    obtain ⟨hlist, hcur⟩ := devices_onStreamChanged a dir' state dir
    exact ⟨hlist, fun _ => hcur⟩

theorem devices_onCoreDone (a : AudioProvider) (id : ℕ) (seq : ℤ) (dir : Direction) :
    (a.onCoreDone id seq).endpoint dir = a.endpoint dir := by
  unfold onCoreDone
  split
  · cases dir <;> rfl
  · rfl

/-! ## Runs -/

theorem idsDistinct_apply {ev : ProviderEvent} (h : a.IdsDistinct) (hok : ev.Distinct a)
    (hb : ev.apply a = .ok b) : b.IdsDistinct := by
  cases ev with
  | device ev =>
    cases ev with
    | registryAdd id type props =>
      cases hb
      exact idsDistinct_onRegistryAdd h type props hok
    | registryRemove id =>
      cases hb
      exact idsDistinct_onRegistryRemove h id
    | setActive pw dir index => exact h.of_list (listsKept_setActiveDevice hb).list
  | call c => exact h.of_list fun dir => (devices_callStep hb dir).1
  | coreDone id seq =>
    cases hb
    exact h.of_list fun dir => congrArg Endpoint.deviceList (devices_onCoreDone a id seq dir)

theorem IdsDistinct.of_reached (hinit : ∀ dir, (a₀.endpoint dir).deviceList = [])
    (run : Reached ProviderEvent.apply ProviderEvent.Distinct a₀ a) : a.IdsDistinct := by
  refine run.invariant (fun dir => ?_) fun h hok hnext => idsDistinct_apply h hok hnext
  rw [hinit dir]
  exact List.nodup_nil

/-- The current device in this direction is still the one with this id and name. -/
def StillCurrent (a : AudioProvider) (dir : Direction) (d : InterfaceDescriptor) : Prop :=
  ∃ d', (a.endpoint dir).deref = .ok (some d') ∧ d'.pwDeviceId = d.pwDeviceId ∧
    d'.deviceName = d.deviceName

/-- The same slot of a longer list holds the same device. -/
theorem deref_of_prefix {d : InterfaceDescriptor} (hcur : (a.endpoint dir).deref = .ok (some d))
    (hc : (b.endpoint dir).currentDevice = (a.endpoint dir).currentDevice)
    (hlist : (a.endpoint dir).deviceList <+: (b.endpoint dir).deviceList) :
    (b.endpoint dir).deref = .ok (some d) := by
  obtain ⟨slot, hs, hslot, hd⟩ := Endpoint.deref_eq_some hcur
  obtain ⟨l, hl⟩ := hlist
  rw [Endpoint.deref_of_current (hc.trans hslot), ← hl, List.getElem?_append_left hs,
    List.getElem?_eq_getElem hs, hd]

/-- After a removal the slot in use is looked up in the shorter list. -/
theorem deref_onRegistryRemove_iff {slot i : ℕ} {d : InterfaceDescriptor}
    (hr : a.removalOf id = some (dir, i))
    (hslot : (a.endpoint dir).currentDevice = some slot) :
    ((a.onRegistryRemove id).endpoint dir).deref = .ok (some d) ↔
      ((a.endpoint dir).deviceList.eraseIdx i)[slot]? = some d := by
  have hafter : ((a.onRegistryRemove id).endpoint dir).currentDevice = some slot := by
    rw [endpoint_onRegistryRemove hr]
    exact hslot
  rw [Endpoint.deref_of_current hafter, endpoint_onRegistryRemove hr]

theorem deref_onRegistryRemove {d : InterfaceDescriptor}
    (hcur : (a.endpoint dir).deref = .ok (some d)) (hbehind : a.RemovedBehind dir id) :
    ((a.onRegistryRemove id).endpoint dir).deref = .ok (some d) := by
  by_cases hr : ∃ i, a.removalOf id = some (dir, i)
  · obtain ⟨i, hr⟩ := hr
    obtain ⟨slot, hs, hslot, hd⟩ := Endpoint.deref_eq_some hcur
    rw [deref_onRegistryRemove_iff hr hslot, List.getElem?_eraseIdx,
      if_pos (hbehind slot i hslot hr), List.getElem?_eq_getElem hs, hd]
  · rw [endpoint_onRegistryRemove_of_ne (not_exists.mp hr)]
    exact hcur

/-- A removal keeps the current device exactly if it is behind it. -/
theorem stillCurrent_onRegistryRemove_iff (h : a.IdsDistinct) {d : InterfaceDescriptor}
    (hcur : (a.endpoint dir).deref = .ok (some d)) (id : ℕ) :
    (a.onRegistryRemove id).StillCurrent dir d ↔ a.RemovedBehind dir id := by
  constructor
  · rintro ⟨d', hd', hid, -⟩ slot i hslot hr
    obtain ⟨slot', hs, hslot', rfl⟩ := Endpoint.deref_eq_some hcur
    obtain rfl := Option.some.inj (hslot'.symm.trans hslot)
    rw [deref_onRegistryRemove_iff hr hslot] at hd'
    exact (key_getElem?_eraseIdx_iff (h dir) hs).mp ⟨d', hd', hid⟩
  · intro hbehind
    exact ⟨d, deref_onRegistryRemove hcur hbehind, rfl, rfl⟩

/-- An event that leaves the current device alone keeps it in use. -/
theorem deref_apply {ev : ProviderEvent} {d : InterfaceDescriptor}
    (hcur : (a.endpoint dir).deref = .ok (some d)) (hok : LeavesCurrent dir ev a)
    (hb : ev.apply a = .ok b) : (b.endpoint dir).deref = .ok (some d) := by
  cases ev with
  | device ev =>
    cases ev with
    | registryAdd id type props =>
      cases hb
      obtain heq | ⟨new, -, heq⟩ := endpoint_onRegistryAdd a id type props dir
      · rwa [heq]
      · apply deref_of_prefix hcur
        · rw [heq]
        · exact ⟨[new], by rw [heq]⟩
    | registryRemove id =>
      cases hb
      exact deref_onRegistryRemove hcur hok
    | setActive pw dir' index =>
      apply deref_of_prefix hcur (currentDevice_setActiveDevice hok hb)
      exact ⟨[], (List.append_nil _).trans ((listsKept_setActiveDevice hb).list dir).symm⟩
  | call c =>
    obtain ⟨hlist, hc⟩ := devices_callStep hb dir
    apply deref_of_prefix hcur (hc fun index heq => ?_)
    · exact ⟨[], (List.append_nil _).trans hlist.symm⟩
    · obtain ⟨call, pw⟩ := c
      obtain rfl : call = .setActive dir index := heq
      exact hok rfl
  | coreDone id seq =>
    cases hb
    rw [devices_onCoreDone]
    exact hcur

end AudioProvider

/-- In every state reached, a removal keeps the current device in use exactly if it removes nothing at
or ahead of it; so it stays in use through every run whose removals are all behind it. -/
theorem unplugging_keeps_current_iff {a₀ a : AudioProvider}
    (hinit : ∀ dir, (a₀.endpoint dir).deviceList = [])
    (run : Reached ProviderEvent.apply ProviderEvent.Distinct a₀ a) {dir : Direction}
    {d : InterfaceDescriptor} (hcur : (a.endpoint dir).deref = .ok (some d)) :
    (∀ id, (a.onRegistryRemove id).StillCurrent dir d ↔ a.RemovedBehind dir id) ∧
      ∀ b, Reached ProviderEvent.apply (AudioProvider.LeavesCurrent dir) a b →
        (b.endpoint dir).deref = .ok (some d) := by
  constructor
  · intro id
    exact AudioProvider.stillCurrent_onRegistryRemove_iff (.of_reached hinit run) hcur id
  · intro b later
    induction later with
    | init => exact hcur
    | step _ hok hnext ih => exact AudioProvider.deref_apply ih hok hnext

/-- Of two microphones the second is unplugged while the first is in use. -/
theorem unplugging_keeps_current_first : ∃ (a : AudioProvider) (d : InterfaceDescriptor),
    Reached ProviderEvent.apply ProviderEvent.Distinct {} a ∧
      (a.endpoint .input).deref = .ok (some d) ∧ d.pwDeviceId = 40 ∧
      (a.onRegistryRemove 41).StillCurrent .input d := by
  have run : Reached ProviderEvent.apply ProviderEvent.Distinct {} _ :=
    .step (.step (.step .init (c := .device (pluggedIn 40)) (fun dir => by cases dir <;> decide) rfl)
      (c := .device (pluggedIn 41)) (fun dir => by cases dir <;> decide) rfl)
      (c := .device (.setActive answersYes .input 0)) trivial rfl
  refine ⟨_, _, run, rfl, rfl, ?_⟩
  refine ((unplugging_keeps_current_iff (fun dir => by cases dir <;> rfl) run rfl).1 41).mpr ?_
  intro slot i hslot hr
  obtain rfl : 0 = slot := Option.some.inj hslot
  obtain ⟨-, rfl⟩ := Prod.mk.inj (Option.some.inj hr)
  decide

/-- Of three microphones the second is in use; the first is unplugged, and the third is in use. -/
theorem unplugging_switches_device : ∃ (a : AudioProvider) (d : InterfaceDescriptor),
    Reached ProviderEvent.apply ProviderEvent.Distinct {} a ∧
      (a.endpoint .input).deref = .ok (some d) ∧ 40 ≠ d.pwDeviceId ∧
      ¬(a.onRegistryRemove 40).StillCurrent .input d ∧
      (a.onRegistryRemove 40).StillCurrent .input { d with pwDeviceId := 42 } := by
  have run : Reached ProviderEvent.apply ProviderEvent.Distinct {} _ :=
    .step (.step (.step (.step .init
      (c := .device (pluggedIn 40)) (fun dir => by cases dir <;> decide) rfl)
      (c := .device (pluggedIn 41)) (fun dir => by cases dir <;> decide) rfl)
      (c := .device (pluggedIn 42)) (fun dir => by cases dir <;> decide) rfl)
      (c := .device (.setActive answersYes .input 1)) trivial rfl
  refine ⟨_, _, run, rfl, by decide, ?_, ⟨_, rfl, rfl, rfl⟩⟩
  rintro ⟨d', hd', hid, -⟩
  cases hd'
  exact absurd hid (by decide)

end UwavClient
