import UwavClient.Library.Machine
import UwavClient.Audio.Devices
import UwavClient.Audio.StreamEffects

/-!
# Selecting devices while devices come and go

`SetActiveInput` and `SetActiveOutput` compare an index into the device list with the internal id of
the current device, so they select the device at that index as long as internal ids are positions.
Devices that arrive keep it so; a device that leaves does when it is the last of its list. The current
device is read through a pointer into the memory of the list, which a device that arrives can move.
-/

namespace UwavClient

/-- Every internal id is the position of its device. -/
def Numbered (devices : List InterfaceDescriptor) : Prop :=
  ∀ (i : ℕ) (h : i < devices.length), devices[i].internalId = i

theorem numbered_concat {devices : List InterfaceDescriptor} (h : Numbered devices)
    (d : InterfaceDescriptor) : Numbered (devices ++ [{ d with internalId := devices.length }]) := by
  intro i hi
  by_cases hlt : i < devices.length
  · rw [List.getElem_append_left hlt]
    exact h i hlt
  · obtain rfl : i = devices.length := by
      rw [List.length_append, List.length_singleton] at hi
      omega
    simp

theorem numbered_eraseIdx_last {devices : List InterfaceDescriptor} (h : Numbered devices) {i : ℕ}
    (hi : i + 1 = devices.length) : Numbered (devices.eraseIdx i) := by
  intro j hj
  have hlt : j < i := by
    rw [List.length_eraseIdx_of_lt (by omega)] at hj
    omega
  rw [List.getElem_eraseIdx_of_lt _ hlt]
  exact h j (by omega)

def Endpoint.PointerValid (e : Endpoint) : Prop :=
  ∀ slot, e.currentDevice = some slot → slot < e.deviceList.length

theorem Endpoint.deref_of_current {e : Endpoint} {slot : ℕ} {d : InterfaceDescriptor}
    (hc : e.currentDevice = some slot) : e.deref = .ok (some d) ↔ e.deviceList[slot]? = some d := by
  unfold Endpoint.deref
  rw [hc]
  cases hd : e.deviceList[slot]? <;> simp [hd]

theorem Endpoint.PointerValid.deref {e : Endpoint} (h : e.PointerValid) :
    (e.currentDevice = none ∧ e.deref = .ok none) ∨
      ∃ slot, ∃ hs : slot < e.deviceList.length, e.currentDevice = some slot ∧
        e.deref = .ok (some e.deviceList[slot]) := by
  cases hc : e.currentDevice with
  | none => exact .inl ⟨rfl, by simp [Endpoint.deref, hc]⟩
  | some slot =>
    refine .inr ⟨slot, h slot hc, rfl, ?_⟩
    simp [Endpoint.deref, hc, List.getElem?_eq_getElem (h slot hc)]

namespace AudioProvider

variable {a : AudioProvider} {dir : Direction}

/-- The pointer is set to a device of the list, and a running stream restarted. -/
theorem restart_of_lt (pw : PipeWireAnswers) {i : ℕ} (hi : i < (a.endpoint dir).deviceList.length)
    {sel : AudioProvider} (hsel : sel = a.update (fun e => { e with currentDevice := some i }) dir) :
    ∃ b, (if (a.endpoint dir).stream then swapStream pw dir sel else .ok sel) = .ok b ∧
      ListsKept a b ∧ (b.endpoint dir).currentDevice = some i := by
  have hlists : ListsKept a sel := by
    rw [hsel]
    exact listsKept_update fun _ => rfl
  have hcur : (sel.endpoint dir).currentDevice = some i := by
    rw [hsel, endpoint_update]
  by_cases hs : (a.endpoint dir).stream
  · have hss : (sel.endpoint dir).stream := by
      rw [hsel, endpoint_update]
      exact hs
    have hd : (sel.endpoint dir).deref = .ok (some (a.endpoint dir).deviceList[i]) := by
      rw [Endpoint.deref_of_current hcur, hlists.list dir]
      exact List.getElem?_eq_getElem hi
    obtain ⟨b, hb, hkept⟩ := swapStream_ok pw hss hd
    rw [if_pos hs]
    exact ⟨b, hb, hlists.trans hkept.toListsKept, (hkept.current dir).trans hcur⟩
  · rw [if_neg hs]
    exact ⟨sel, rfl, hlists, hcur⟩

/-- With ids that are positions, selecting an index selects the device at that index. -/
theorem setActiveDevice_of_numbered (hn : Numbered (a.endpoint dir).deviceList)
    (hp : (a.endpoint dir).PointerValid) (pw : PipeWireAnswers) {i : ℕ}
    (hi : i < (a.endpoint dir).deviceList.length) :
    ∃ b, setActiveDevice pw dir i a = .ok b ∧ ListsKept a b ∧
      (b.endpoint dir).currentDevice = some i := by
  have hin : ¬ ((i : ℤ) < 0 ∨ ((a.endpoint dir).deviceList.length : ℤ) ≤ i) := by omega
  have hset := restart_of_lt pw hi rfl
  rcases hp.deref with ⟨-, hd⟩ | ⟨slot, hslot, hc, hd⟩
  · rw [setActiveDevice_of_deref hd, if_neg hin, Int.toNat_natCast]
    exact hset
  · rw [setActiveDevice_of_deref hd, if_neg hin, Int.toNat_natCast]
    by_cases hsame : slot = i
    · subst hsame
      refine ⟨a, ?_, ListsKept.refl a, hc⟩
      rw [if_pos (by simp [hn slot hslot])]
    · rw [if_neg (by simp [hn slot hslot, hsame])]
      exact hset

end AudioProvider

inductive DeviceEvent where
  | registryAdd (id : ℕ) (type : String) (props : List (String × String))
  | registryRemove (id : ℕ)
  | setActive (pw : PipeWireAnswers) (dir : Direction) (index : ℤ)

namespace DeviceEvent

def apply : DeviceEvent → AudioProvider → Except Fault AudioProvider
  | .registryAdd id type props, a => .ok (a.onRegistryAdd id type props)
  | .registryRemove id, a => .ok (a.onRegistryRemove id)
  | .setActive pw dir index, a => a.setActiveDevice pw dir index

/-- An announced object has an id that no listed device has. -/
def Distinct : DeviceEvent → AudioProvider → Prop
  | .registryAdd id _ _, a => ∀ dir, ∀ d ∈ (a.endpoint dir).deviceList, d.pwDeviceId ≠ id
  | _, _ => True

/-- A device that leaves is the last of its list. -/
def RemovesLast : DeviceEvent → AudioProvider → Prop
  | .registryRemove id, a => ∀ dir i, a.removalOf id = some (dir, i) →
      i + 1 = (a.endpoint dir).deviceList.length
  | _, _ => True

end DeviceEvent

namespace AudioProvider

variable {a b : AudioProvider}

theorem numbered_addDevice (h : ∀ dir, Numbered (a.endpoint dir).deviceList) (dir : Direction)
    (d : InterfaceDescriptor) (dir' : Direction) :
    Numbered ((a.addDevice dir d).endpoint dir').deviceList := by
  rw [endpoint_addDevice]
  split
  · exact numbered_concat (h dir) d
  · exact h dir'

theorem numbered_removeDevice (h : ∀ dir, Numbered (a.endpoint dir).deviceList) {i : ℕ}
    (hi : i + 1 = (a.endpoint dir).deviceList.length) (dir' : Direction) :
    Numbered ((a.removeDevice dir i).endpoint dir').deviceList := by
  rw [endpoint_removeDevice]
  split
  · exact numbered_eraseIdx_last (h dir) hi
  · exact h dir'

theorem numbered_apply {ev : DeviceEvent} (h : ∀ dir, Numbered (a.endpoint dir).deviceList)
    (hok : ev.RemovesLast a) (hb : ev.apply a = .ok b) (dir : Direction) :
    Numbered (b.endpoint dir).deviceList := by
  cases ev with
  | registryAdd id type props =>
    cases hb
    unfold onRegistryAdd
    dsimp only
    split_ifs
    · exact numbered_addDevice h .input _ dir
    · exact numbered_addDevice h .output _ dir
    · exact h dir
    · exact h dir
  | registryRemove id =>
    cases hb
    unfold onRegistryRemove
    cases hr : a.removalOf id with
    | none => exact h dir
    | some found => exact numbered_removeDevice h (hok _ _ hr) dir
  | setActive pw dir' index =>
    rw [(listsKept_setActiveDevice hb).list dir]
    exact h dir

end AudioProvider

/-! ## The memory of the lists -/

/-- The memory of a device list: how many devices it has room for, and whether the list has moved
since its current device was chosen, so that the pointer to it is into freed memory. -/
structure ListMemory where
  capacity : ℕ := 0
  moved : Bool := false
  deriving DecidableEq, Repr

/-- `push_back`: a list without room for one more device moves to a larger block. -/
def ListMemory.pushBack (grow : ℕ → ℕ) (size : ℕ) (m : ListMemory) : ListMemory :=
  if size < m.capacity then m else ⟨grow size, true⟩

structure PlacedProvider where
  provider : AudioProvider := {}
  memory : Direction → ListMemory := fun _ => {}

namespace PlacedProvider

def deviceList (p : PlacedProvider) (dir : Direction) : List InterfaceDescriptor :=
  (p.provider.endpoint dir).deviceList

/-- The pointer to the current device is null or designates a device of the list. -/
def PointerValid (p : PlacedProvider) (dir : Direction) : Prop :=
  (p.provider.endpoint dir).PointerValid ∧
    ((p.provider.endpoint dir).currentDevice.isSome → (p.memory dir).moved = false)

def readCurrent (p : PlacedProvider) (dir : Direction) : Except Fault Unit :=
  if (p.provider.endpoint dir).currentDevice.isSome ∧ (p.memory dir).moved then
    .error .danglingDereference
  else .ok ()

/-- How many devices to make room for is the choice of the C++ library. -/
def onRegistryAdd (grow : ℕ → ℕ) (id : ℕ) (type : String) (props : List (String × String))
    (p : PlacedProvider) : PlacedProvider where
  provider := p.provider.onRegistryAdd id type props
  memory dir :=
    if ((p.provider.onRegistryAdd id type props).endpoint dir).deviceList = p.deviceList dir then
      p.memory dir
    else (p.memory dir).pushBack grow (p.deviceList dir).length

/-- `erase` moves the later devices down where they are. -/
def onRegistryRemove (id : ℕ) (p : PlacedProvider) : PlacedProvider :=
  { p with provider := p.provider.onRegistryRemove id }

def repoint (p : PlacedProvider) (dir : Direction) (provider : AudioProvider) : PlacedProvider where
  provider := provider
  memory := Function.update p.memory dir { p.memory dir with moved := false }

/-- Whatever the index is, a current device is read before the pointer is set. -/
def setActiveDevice (pw : PipeWireAnswers) (dir : Direction) (index : ℤ) (p : PlacedProvider) :
    Except Fault PlacedProvider := do
  p.readCurrent dir
  return p.repoint dir (← p.provider.setActiveDevice pw dir index)

def getActive (p : PlacedProvider) (dir : Direction) : Except Fault ℤ := do
  p.readCurrent dir
  p.provider.getActive dir

def apply (grow : ℕ → ℕ) : DeviceEvent → PlacedProvider → Except Fault PlacedProvider
  | .registryAdd id type props, p => .ok (p.onRegistryAdd grow id type props)
  | .registryRemove id, p => .ok (p.onRegistryRemove id)
  | .setActive pw dir index, p => p.setActiveDevice pw dir index

/-- A device that leaves is the last of its list, and a selection is made only while the pointer to
the current device is valid. -/
def KeepsPositions : DeviceEvent → PlacedProvider → Prop
  | .setActive _ dir _, p => p.PointerValid dir
  | ev, p => ev.RemovesLast p.provider

variable {grow : ℕ → ℕ} {p q : PlacedProvider} {dir : Direction}

theorem readCurrent_of_valid (h : p.PointerValid dir) : p.readCurrent dir = .ok () := by
  refine if_neg ?_
  rintro ⟨hcur, hmoved⟩
  rw [h.2 hcur] at hmoved
  cases hmoved

theorem readCurrent_of_moved (hcur : (p.provider.endpoint dir).currentDevice.isSome)
    (hmoved : (p.memory dir).moved) : p.readCurrent dir = .error .danglingDereference :=
  if_pos ⟨hcur, hmoved⟩

/-- With the memory forgotten, a step is the provider's. -/
theorem provider_apply {ev : DeviceEvent} (h : apply grow ev p = .ok q) :
    ev.apply p.provider = .ok q.provider := by
  cases ev with
  | registryAdd id type props =>
    cases h
    rfl
  | registryRemove id =>
    cases h
    rfl
  | setActive pw dir index =>
    obtain ⟨-, -, hset⟩ := AudioProvider.bind_eq_ok h
    obtain ⟨b, hb, hret⟩ := AudioProvider.bind_eq_ok hset
    cases hret
    exact hb

theorem KeepsPositions.removesLast {ev : DeviceEvent} (h : KeepsPositions ev p) :
    ev.RemovesLast p.provider := by
  cases ev with
  | setActive pw dir index => trivial
  | registryAdd id type props => exact h
  | registryRemove id => exact h

theorem numbered_of_reached {p₀ : PlacedProvider} (hinit : ∀ dir, p₀.deviceList dir = [])
    (run : Reached (apply grow) KeepsPositions p₀ p) (dir : Direction) :
    Numbered (p.deviceList dir) := by
  revert dir
  refine run.invariant (fun dir => ?_) fun hinv hok hnext =>
    AudioProvider.numbered_apply hinv hok.removesLast (provider_apply hnext)
  have hnil : (p₀.provider.endpoint dir).deviceList = [] := hinit dir
  rw [hnil]
  exact fun i hi => absurd hi (Nat.not_lt_zero i)

/-- A device that arrives in a full list leaves the current device of that list in freed memory, which
the next selection reads. -/
theorem setActiveDevice_of_full {id : ℕ} {type : String} {props : List (String × String)}
    (hcur : ((p.onRegistryAdd grow id type props).provider.endpoint dir).currentDevice.isSome)
    (hadd : (p.onRegistryAdd grow id type props).deviceList dir ≠ p.deviceList dir)
    (hfull : (p.memory dir).capacity ≤ (p.deviceList dir).length) (pw : PipeWireAnswers)
    (index : ℤ) : (p.onRegistryAdd grow id type props).setActiveDevice pw dir index =
      .error .danglingDereference := by
  have hmoved : ((p.onRegistryAdd grow id type props).memory dir).moved := by
    refine (congrArg ListMemory.moved (if_neg hadd)).trans ?_
    rw [ListMemory.pushBack, if_neg (Nat.not_lt.mpr hfull)]
  rw [setActiveDevice, readCurrent_of_moved hcur hmoved]
  rfl

end PlacedProvider

/-- Selecting a device selects that device: in every run whose removals take the last device of a list
and whose selections find a valid pointer, the current device after `SetActiveInput(i)` or
`SetActiveOutput(i)` is the i-th one and `GetActiveInput` or `GetActiveOutput` is i. -/
theorem setActive_selects (grow : ℕ → ℕ) {p₀ p : PlacedProvider}
    (hinit : ∀ dir, p₀.deviceList dir = [])
    (run : Reached (PlacedProvider.apply grow) PlacedProvider.KeepsPositions p₀ p)
    (pw : PipeWireAnswers) (dir : Direction) {i : ℕ} (hcall : p.PointerValid dir)
    (hi : i < (p.deviceList dir).length) :
    ∃ q, p.setActiveDevice pw dir i = .ok q ∧ q.deviceList dir = p.deviceList dir ∧
      (q.provider.endpoint dir).deref = .ok (some (p.deviceList dir)[i]) ∧
      q.getActive dir = .ok i := by
  have hn : Numbered (p.deviceList dir) := PlacedProvider.numbered_of_reached hinit run dir
  obtain ⟨b, hb, hlists, hcur⟩ := AudioProvider.setActiveDevice_of_numbered hn hcall.1 pw hi
  have hset : p.setActiveDevice pw dir i = .ok (p.repoint dir b) := by
    rw [PlacedProvider.setActiveDevice, PlacedProvider.readCurrent_of_valid hcall, hb]
    rfl
  have hd : (b.endpoint dir).deref = .ok (some (p.deviceList dir)[i]) := by
    rw [Endpoint.deref_of_current hcur, hlists.list dir]
    exact List.getElem?_eq_getElem hi
  have hread : (p.repoint dir b).PointerValid dir := by
    refine ⟨fun slot hslot => ?_, fun _ => by simp [PlacedProvider.repoint]⟩
    obtain rfl := Option.some.inj (hcur.symm.trans hslot)
    exact (hlists.list dir).symm ▸ hi
  refine ⟨_, hset, hlists.list dir, hd, ?_⟩
  rw [PlacedProvider.getActive, PlacedProvider.readCurrent_of_valid hread]
  refine (congrArg (Except.map _) hd).trans ?_
  exact congrArg Except.ok (hn i hi)

def pluggedIn (id : ℕ) : DeviceEvent :=
  .registryAdd id "PipeWire:Interface:Node" [("media.class", "Audio/Source")]

def answersYes : PipeWireAnswers := fun _ => ⟨true, true, true⟩

def doubled (size : ℕ) : ℕ := max 1 (2 * size)

/-- Three microphones come, the first is selected, a fourth comes and goes, and the second is
selected. -/
theorem setActive_selects_the_second : ∃ p q : PlacedProvider,
    p.setActiveDevice answersYes .input 1 = .ok q ∧ q.getActive .input = .ok 1 := by
  have run : Reached (PlacedProvider.apply doubled) PlacedProvider.KeepsPositions {} _ :=
    .step (.step (.step (.step (.step (.step .init (c := pluggedIn 40) trivial rfl)
      (c := pluggedIn 41) trivial rfl) (c := pluggedIn 42) trivial rfl)
      (c := .setActive answersYes .input 0) ⟨by rintro _ ⟨⟩, by rintro ⟨⟩⟩ rfl)
      (c := pluggedIn 43) trivial rfl)
      (c := .registryRemove 43) (by rintro dir i h; cases h; rfl) rfl
  obtain ⟨q, hq, -, -, hget⟩ := setActive_selects doubled (fun dir => by cases dir <;> rfl) run
    answersYes .input (i := 1) ⟨by rintro _ ⟨⟩; decide, fun _ => rfl⟩ (by decide)
  exact ⟨_, q, hq, hget⟩

/-- Of two microphones the first is unplugged; selecting position 0 then makes 1 the active input. -/
theorem setActive_misses_after_removal : ∃ p q : PlacedProvider,
    Reached (PlacedProvider.apply doubled) (fun ev p => ev.Distinct p.provider) {} p ∧
      0 < (p.deviceList .input).length ∧
      p.setActiveDevice answersYes .input 0 = .ok q ∧ q.getActive .input ≠ .ok 0 := by
  have run : Reached (PlacedProvider.apply doubled) (fun ev p => ev.Distinct p.provider) {} _ :=
    .step (.step (.step .init (c := pluggedIn 40) (fun dir => by cases dir <;> decide) rfl)
      (c := pluggedIn 41) (fun dir => by cases dir <;> decide) rfl)
      (c := .registryRemove 40) trivial rfl
  exact ⟨_, _, run, by decide, rfl, by intro h; cases h⟩

end UwavClient
