import UwavClient.Audio.Provider

/-!
# Registry events (`onRegistryAdd`, `onRegistryRemove`, `onCoreDone`)

PipeWire announces and withdraws its objects; audio nodes enter and leave the device lists. A new
device's internal id is the length of its list at that moment, and removing a device moves the later
ones down without renumbering them.
-/

namespace UwavClient

def InterfaceDescriptor.describe (d : InterfaceDescriptor) (item : String × String) :
    InterfaceDescriptor :=
  if item.1 = "node.description" then { d with deviceDesc := item.2 }
  else if item.1 = "node.name" then { d with deviceName := item.2 }
  else if item.1 = "media.class" then
    if item.2 = "Audio/Sink" then { d with isSink := true }
    else if item.2 = "Audio/Source" then { d with isSource := true }
    else d
  else d

/-- The descriptor of a node with these properties, before it gets its internal id. -/
def InterfaceDescriptor.ofProps (id : ℕ) (props : List (String × String)) : InterfaceDescriptor :=
  props.foldl describe {
    internalId := -1
    pwDeviceId := id
    sampleRate := 48000
    isSource := false
    isSink := false
    deviceName := ""
    deviceDesc := "" }

namespace AudioProvider

def deviceAdded : Direction → ℤ → String → AudioSignal
  | .input => .inputDeviceAdded
  | .output => .outputDeviceAdded

def deviceRemoved : Direction → ℤ → AudioSignal
  | .input => .inputDeviceRemoved
  | .output => .outputDeviceRemoved

/-- Appends a device; before the first run is complete nothing is signalled. -/
def addDevice (a : AudioProvider) (dir : Direction) (d : InterfaceDescriptor) : AudioProvider :=
  let d := { d with internalId := (a.endpoint dir).deviceList.length }
  let added := a.update (fun e => { e with deviceList := e.deviceList ++ [d] }) dir
  if a.firstRun then added else added.post (deviceAdded dir d.internalId d.deviceDesc)

def onRegistryAdd (a : AudioProvider) (id : ℕ) (type : String) (props : List (String × String)) :
    AudioProvider :=
  let d := InterfaceDescriptor.ofProps id props
  if type = "PipeWire:Interface:Node" then
    if d.isSource then a.addDevice .input d
    else if d.isSink then a.addDevice .output d
    else a
  else a

def findDevice (a : AudioProvider) (dir : Direction) (id : ℕ) : Option ℕ :=
  (a.endpoint dir).deviceList.findIdx? (·.pwDeviceId = id)

def removeDevice (a : AudioProvider) (dir : Direction) (i : ℕ) : AudioProvider :=
  (a.update (fun e => { e with deviceList := e.deviceList.eraseIdx i }) dir).post (deviceRemoved dir i)

/-- Which device a withdrawn object was: the input list is searched first. -/
def removalOf (a : AudioProvider) (id : ℕ) : Option (Direction × ℕ) :=
  match a.findDevice .input id with
  | some i => some (.input, i)
  | none => (a.findDevice .output id).map (Direction.output, ·)

/-- A removal is signalled during the first run too. -/
def onRegistryRemove (a : AudioProvider) (id : ℕ) : AudioProvider :=
  match a.removalOf id with
  | some (dir, i) => a.removeDevice dir i
  | none => a

/-- `PW_ID_CORE` is 0. -/
def onCoreDone (a : AudioProvider) (id : ℕ) (seq : ℤ) : AudioProvider :=
  if id = 0 ∧ seq = a.pendingSync then { a.post .deviceListsReady with firstRun := false } else a

section Lists

variable (a : AudioProvider) (dir : Direction)

/-- A device is added to the list of its direction, and nothing else changes in the endpoints. -/
theorem endpoint_addDevice (d : InterfaceDescriptor) (dir' : Direction) :
    (a.addDevice dir d).endpoint dir' =
      if dir' = dir then
        { a.endpoint dir with deviceList := (a.endpoint dir).deviceList ++
            [{ d with internalId := (a.endpoint dir).deviceList.length }] }
      else a.endpoint dir' := by
  have hpost (b : AudioProvider) (s : AudioSignal) :
      (if a.firstRun then b else b.post s).endpoint dir' = b.endpoint dir' := by
    split
    · rfl
    · exact endpoint_post b s
  refine (hpost _ _).trans ?_
  by_cases hd : dir' = dir
  · rw [if_pos hd, hd, endpoint_update]
  · rw [if_neg hd, endpoint_update_of_ne _ _ hd]

/-- A device is taken out of the list of its direction. -/
theorem endpoint_removeDevice (i : ℕ) (dir' : Direction) : (a.removeDevice dir i).endpoint dir' =
    if dir' = dir then { a.endpoint dir with deviceList := (a.endpoint dir).deviceList.eraseIdx i }
    else a.endpoint dir' := by
  rw [removeDevice, endpoint_post]
  by_cases hd : dir' = dir
  · rw [if_pos hd, hd, endpoint_update]
  · rw [if_neg hd, endpoint_update_of_ne _ _ hd]

end Lists

end AudioProvider

end UwavClient
