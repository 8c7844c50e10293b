import Mathlib.Data.List.InsertIdx
import UwavClient.Client.Outline

/-!
# The device drop-downs and the device lists

PipeWire's thread changes the lists at once and posts what it did; the main thread replays the posted
insertions and removals on its drop-downs, which it fills first when it handles `deviceListsReady`.
The mirror holds as long as no list changes between the posting of that signal and the moment its
slot reads the list.
-/

namespace UwavClient

open Interleaving Slot ExceptT

variable {F : Type}

/-! ## Replaying signals -/

theorem insertItem_append_length (devices : List String) (x y : String) :
    Combo.insertItem (devices ++ [y]) devices.length x = devices ++ [x] ++ [y] := by
  have hlen : min (devices.length : ℤ).toNat (devices ++ [y]).length = devices.length := by simp
  rw [Combo.insertItem, hlen]
  induction devices with
  | nil => rfl
  | cons d devices ih => simp [List.insertIdx_succ_cons, ih]

theorem removeItem_append {devices : List String} {i : ℕ} (h : i < devices.length) (y : String) :
    Combo.removeItem (devices ++ [y]) i = devices.eraseIdx i ++ [y] := by
  rw [Combo.removeItem, if_neg (by omega), Int.toNat_natCast, List.eraseIdx_append_of_lt_length h]

@[simp] theorem removeItem_nil (i : ℤ) : Combo.removeItem [] i = [] := by
  simp [Combo.removeItem]

namespace AudioSignal

/-- The signals that change a device drop-down. -/
def aboutDevices : AudioSignal → Bool
  | .deviceListsReady | .inputDeviceAdded _ _ | .outputDeviceAdded _ _ | .inputDeviceRemoved _
  | .outputDeviceRemoved _ => true
  | _ => false

variable {dir : Direction} {devices rows : List String}

/-- The rows of a drop-down once all these signals have been handled. -/
def replayAll (dir : Direction) (devices rows : List String) (signals : List AudioSignal) :
    List String :=
  signals.foldl (replay dir devices) rows

@[simp] theorem replayAll_cons (s : AudioSignal) (signals : List AudioSignal) :
    replayAll dir devices rows (s :: signals) =
      replayAll dir devices (s.replay dir devices rows) signals := rfl

theorem replayAll_append (xs ys : List AudioSignal) :
    replayAll dir devices rows (xs ++ ys) =
      replayAll dir devices (replayAll dir devices rows xs) ys := List.foldl_append

theorem replay_of_not_aboutDevices {s : AudioSignal} (h : s.aboutDevices = false) :
    s.replay dir devices rows = rows := by
  cases s <;> first | rfl | cases h

theorem replayAll_of_not_aboutDevices {signals : List AudioSignal}
    (h : ∀ s ∈ signals, s.aboutDevices = false) : replayAll dir devices rows signals = rows := by
  induction signals with
  | nil => rfl
  | cons s signals ih =>
    rw [replayAll_cons, replay_of_not_aboutDevices (h s List.mem_cons_self),
      ih fun t ht => h t (List.mem_cons_of_mem s ht)]

/-- Only `deviceListsReady` looks at the list. -/
theorem replay_congr (devices' : List String) {s : AudioSignal} (h : s ≠ .deviceListsReady) :
    s.replay dir devices rows = s.replay dir devices' rows := by
  cases s <;> first | rfl | exact absurd rfl h

theorem replayAll_congr (devices' : List String) {signals : List AudioSignal}
    (h : .deviceListsReady ∉ signals) :
    replayAll dir devices rows signals = replayAll dir devices' rows signals := by
  induction signals generalizing rows with
  | nil => rfl
  | cons s signals ih =>
    have hs : s ≠ .deviceListsReady := fun heq => h (heq ▸ List.mem_cons_self)
    rw [replayAll_cons, replayAll_cons, replay_congr devices' hs,
      ih fun hmem => h (List.mem_cons_of_mem s hmem)]

theorem replay_deviceAdded (dir' : Direction) (i : ℤ) (name : String) :
    (AudioProvider.deviceAdded dir' i name).replay dir devices rows =
      if dir = dir' then Combo.insertItem rows i name else rows := by
  cases dir' <;> rfl

theorem replay_deviceRemoved (dir' : Direction) (i : ℤ) :
    (AudioProvider.deviceRemoved dir' i).replay dir devices rows =
      if dir = dir' then Combo.removeItem rows i else rows := by
  cases dir' <;> rfl

end AudioSignal

/-! ## The rows a slot leaves -/

def UwaVClient.rows (c : UwaVClient) (dir : Direction) : List String := (c.deviceCombo dir).items

def ClientOp.ReadsNoList (e : ClientOp) : Prop := ∀ dir, e ≠ .getDeviceList dir

theorem readsNoList_of_ordinary {e : ClientOp} (h : e.Ordinary) : e.ReadsNoList := by
  rintro dir rfl
  exact h

theorem ensures_rows {s : AudioSignal} {c c₁ : UwaVClient} {p : Slot UwaVClient}
    (hp : Routine c₁ p) (h₁ : ∀ dir, c₁.rows dir = s.replay dir [] (c.rows dir)) :
    p.Ensures ClientOp.ReadsNoList fun c' => ∀ dir, c'.rows dir = s.replay dir [] (c.rows dir) :=
  hp.mono (fun _ => readsNoList_of_ordinary) fun _ h dir => (h.items dir).trans (h₁ dir)

/-- The slot of a signal other than `deviceListsReady` replays it on the rows. -/
theorem ensures_signal_rows {s : AudioSignal} (hs : s ≠ .deviceListsReady) (fuel : ℕ)
    (c : UwaVClient) :
    (s.slot fuel c).Ensures ClientOp.ReadsNoList fun c' =>
      ∀ dir, c'.rows dir = s.replay dir [] (c.rows dir) := by
  cases s with
  | deviceListsReady => exact absurd rfl hs
  | inputDeviceAdded i name =>
    exact ensures_rows (menus_onDeviceAdded .input c i name).routine fun dir => by cases dir <;> rfl
  | outputDeviceAdded i name =>
    exact ensures_rows (menus_onDeviceAdded .output c i name).routine fun dir => by cases dir <;> rfl
  | inputDeviceRemoved i =>
    exact ensures_rows (routine_onInputDeviceRemoved c i) fun dir => by cases dir <;> rfl
  | outputDeviceRemoved i =>
    exact ensures_rows (routine_onOutputDeviceRemoved c i) fun dir => by cases dir <;> rfl
  | streamStarted =>
    refine (ensures_onAudioStreamSuccess c).mono (fun e he => ?_) fun _ h => h.items
    rcases he with he | rfl
    · exact readsNoList_of_ordinary he
    · exact nofun
  | streamStopped => exact ensures_rows (routine_onAudioStreamEnd c) fun _ => rfl
  | streamConnecting => exact ensures_rows (ensures_pure.mpr (.refl c)) fun _ => rfl
  | signalInputBufferWrite =>
    refine ensures_bind.mpr ((capture_onInputBufferWrite fuel c).mono (fun e he => ?_)
      fun _ _ => ensures_pure.mpr fun _ => rfl)
    rintro dir rfl
    exact he.1.elim

/-! ## The history -/

/-- The rows of each drop-down once the running slot has returned, as far as they are determined, and
whether the slot of `deviceListsReady` is running and has yet to read the list. -/
structure Mirror where
  rows : Direction → List String := fun _ => []
  unread : Direction → Bool := fun _ => false

namespace Mirror

def take (h : Mirror) : List AudioSignal → Mirror
  | [] => h
  | .deviceListsReady :: _ => { h with unread := fun _ => true }
  | s :: _ => { h with rows := fun dir => s.replay dir [] (h.rows dir) }

theorem take_of_ne {s : AudioSignal} (hs : s ≠ .deviceListsReady) (h : Mirror)
    (rest : List AudioSignal) :
    h.take (s :: rest) = { h with rows := fun dir => s.replay dir [] (h.rows dir) } := by
  cases s <;> first | rfl | exact absurd rfl hs

def read (h : Mirror) (dir : Direction) (devices : List String) : Mirror where
  rows := Function.update h.rows dir (h.rows dir ++ devices ++ [placeholder dir])
  unread := Function.update h.unread dir false

def onStart : Occurrence F → App → Mirror → Mirror
  | .posted _, app, h => h.take app.audio.posted
  | _, _, h => h

def onOp : ClientOp → App → Mirror → Mirror
  | .getDeviceList dir, app, h => h.read dir (app.audio.getDeviceList dir)
  | _, _, h => h

end Mirror

def mirrorObserver (may : Occurrence F → App → Mirror → Prop) : AppObserver F Mirror where
  may := may
  onStart := Mirror.onStart
  onOp := Mirror.onOp
  onReturn h := h

/-- `deviceListsReady` waits, or its slot has yet to read the list. -/
def FillInFlight (dir : Direction) (a : AudioProvider) (h : Mirror) : Prop :=
  .deviceListsReady ∈ a.posted ∨ h.unread dir

def Callback.changes (a : AudioProvider) : Callback F → Option Direction
  | .registryAdd id type props =>
    let d := InterfaceDescriptor.ofProps id props
    if type = "PipeWire:Interface:Node" then
      if d.isSource then some .input else if d.isSink then some .output else none
    else none
  | .registryRemove id => (a.removalOf id).map Prod.fst
  | _ => none

/-- The core answers the one sync once, and an announced object has an id that no listed device has. -/
def Callback.Plausible (a : AudioProvider) : Callback F → Prop
  | .coreDone id seq => id = 0 ∧ seq = a.pendingSync → a.firstRun
  | .registryAdd id _ _ => ∀ dir, ∀ d ∈ (a.endpoint dir).deviceList, d.pwDeviceId ≠ id
  | _ => True

/-- No list changes while it is still to be read by the slot of `deviceListsReady`. -/
def ListsSettled : Occurrence F → App → Mirror → Prop
  | .callback cb, app, h => cb.Plausible app.audio ∧
      ∀ dir, cb.changes app.audio = some dir → ¬ FillInFlight dir app.audio h
  | _, _, _ => True

/-- Any order of events that PipeWire can send. -/
def AnyPlausible : Occurrence F → App → Mirror → Prop
  | .callback cb, app, _ => cb.Plausible app.audio
  | _, _, _ => True

/-! ## The invariant -/

/-- What the rows will be when the running slot has read the list. -/
def Mirror.ahead (h : Mirror) (a : AudioProvider) (dir : Direction) : List String :=
  if h.unread dir then h.rows dir ++ a.getDeviceList dir ++ [placeholder dir] else h.rows dir

/-- Once everything in flight is handled, the drop-downs show the lists, or nothing before the first
run is complete. -/
def MirrorInv (a : AudioProvider) (h : Mirror) : Prop :=
  ∀ dir, AudioSignal.replayAll dir (a.getDeviceList dir) (h.ahead a dir) a.posted =
    if a.firstRun then [] else a.getDeviceList dir ++ [placeholder dir]

/-- Between slots the rows are what the history says. -/
def RowsKnown (c : UwaVClient) (h : Mirror) : Prop :=
  ∀ dir, c.rows dir = h.rows dir ∧ h.unread dir = false

namespace MirrorInv

variable {a b : AudioProvider} {h : Mirror}

/-- Signals about streams and unchanged lists keep the invariant. -/
theorem append (hi : MirrorInv a h) {l : List AudioSignal} (hl : b.posted = a.posted ++ l)
    (hother : ∀ s ∈ l, s.aboutDevices = false) (hfirst : b.firstRun = a.firstRun)
    (hlist : ∀ dir, (b.endpoint dir).deviceList = (a.endpoint dir).deviceList) : MirrorInv b h := by
  intro dir
  have hdev : b.getDeviceList dir = a.getDeviceList dir := congrArg (List.map _) (hlist dir)
  have hahead : h.ahead b dir = h.ahead a dir := by rw [Mirror.ahead, Mirror.ahead, hdev]
  rw [hl, AudioSignal.replayAll_append, AudioSignal.replayAll_of_not_aboutDevices hother, hahead,
    hdev, hfirst]
  exact hi dir

theorem of_listsKept (hi : MirrorInv a h) (hk : a.ListsKept b) : MirrorInv b h := by
  obtain ⟨n, hn⟩ := hk.posted
  exact hi.append hn (fun s hs => by rw [List.eq_of_mem_replicate hs]; rfl) hk.firstRun hk.list

/-- Taking the oldest signal between slots. -/
theorem take (hi : MirrorInv a h) (hunread : ∀ dir, h.unread dir = false) {s : AudioSignal}
    {rest : List AudioSignal} (hposted : a.posted = s :: rest) :
    MirrorInv { a with posted := rest } (h.take a.posted) := by
  intro dir
  have hdev : ({ a with posted := rest } : AudioProvider).getDeviceList dir = a.getDeviceList dir := by
    cases dir <;> rfl
  have hdir := hi dir
  rw [hposted, AudioSignal.replayAll_cons] at hdir
  rw [hdev, hposted]
  refine Eq.trans ?_ hdir
  congr 1
  rw [Mirror.ahead, Mirror.ahead, hunread dir, hdev, if_neg Bool.false_ne_true]
  by_cases hs : s = .deviceListsReady
  · subst hs
    rfl
  · rw [Mirror.take_of_ne hs, hunread dir, if_neg Bool.false_ne_true]
    exact AudioSignal.replay_congr _ hs

/-- Reading a list that was to be read. -/
theorem read (hi : MirrorInv a h) {dir : Direction} (hunread : h.unread dir) :
    MirrorInv a (h.read dir (a.getDeviceList dir)) := by
  have hahead : (h.read dir (a.getDeviceList dir)).ahead a = h.ahead a := by
    funext d
    by_cases hd : d = dir
    · subst hd
      simp [Mirror.ahead, Mirror.read, hunread]
    · simp [Mirror.ahead, Mirror.read, hd]
  intro d
  rw [hahead]
  exact hi d

theorem onCoreDone (hi : MirrorInv a h) (id : ℕ) (seq : ℤ) (honce : id = 0 ∧ seq = a.pendingSync →
    a.firstRun) : MirrorInv (a.onCoreDone id seq) h := by
  unfold AudioProvider.onCoreDone
  split
  · rename_i hmatch
    intro dir
    have hdev : ({ a.post .deviceListsReady with firstRun := false } : AudioProvider).getDeviceList dir =
        a.getDeviceList dir := by cases dir <;> rfl
    have hdir := hi dir
    rw [if_pos (honce hmatch)] at hdir
    rw [hdev, Mirror.ahead, hdev]
    change AudioSignal.replayAll dir _ (h.ahead a dir) (a.posted ++ [.deviceListsReady]) = _
    rw [AudioSignal.replayAll_append, hdir]
    rfl
  · exact hi

/-- A list that nothing is about to read changes, and the signal `s` says how; before the first run is
complete it need not be posted. -/
theorem change {dir : Direction} {s : AudioSignal} (hi : MirrorInv a h)
    (hsettled : ¬ FillInFlight dir a h) (hfirst : b.firstRun = a.firstRun)
    (hposted : b.posted = a.posted ++ [s] ∨ b.posted = a.posted ∧ a.firstRun)
    (hs : s ≠ .deviceListsReady)
    (hother : ∀ d, d ≠ dir → b.getDeviceList d = a.getDeviceList d ∧
      ∀ devices rows, s.replay d devices rows = rows)
    (hempty : a.firstRun → b.posted = a.posted ++ [s] → s.replay dir [] [] = [])
    (hshown : s.replay dir [] (a.getDeviceList dir ++ [placeholder dir]) =
      b.getDeviceList dir ++ [placeholder dir]) : MirrorInv b h := by
  intro d
  have hdir := hi d
  by_cases hd : d = dir
  · subst hd
    obtain ⟨hmem, hunread⟩ := not_or.mp hsettled
    rw [Mirror.ahead, if_neg hunread, AudioSignal.replayAll_congr (b.getDeviceList d) hmem] at hdir
    rw [Mirror.ahead, if_neg hunread, hfirst]
    rcases hposted with hp | ⟨hp, hrun⟩
    · rw [hp, AudioSignal.replayAll_append, hdir]
      change s.replay d _ _ = _
      rw [AudioSignal.replay_congr [] hs]
      split
      · exact hempty ‹_› hp
      · exact hshown
    · rw [hp, hdir, if_pos hrun, if_pos hrun]
  · obtain ⟨hdev, hignore⟩ := hother d hd
    have hahead : h.ahead b d = h.ahead a d := by rw [Mirror.ahead, Mirror.ahead, hdev]
    rw [hahead, hdev, hfirst]
    rcases hposted with hp | ⟨hp, -⟩
    · rw [hp, AudioSignal.replayAll_append, hdir]
      exact hignore _ _
    · rw [hp, hdir]

theorem addDevice {dir : Direction} (hi : MirrorInv a h) (hsettled : ¬ FillInFlight dir a h)
    (d : InterfaceDescriptor) : MirrorInv (a.addDevice dir d) h := by
  have hlist : (a.addDevice dir d).getDeviceList dir = a.getDeviceList dir ++ [d.deviceDesc] := by
    rw [AudioProvider.getDeviceList, AudioProvider.endpoint_addDevice, if_pos rfl, List.map_append]
    rfl
  have hother : ∀ e, e ≠ dir → (a.addDevice dir d).getDeviceList e = a.getDeviceList e := by
    intro e he
    rw [AudioProvider.getDeviceList, AudioProvider.endpoint_addDevice, if_neg he]
    rfl
  have hlen : ((a.endpoint dir).deviceList.length : ℤ) = (a.getDeviceList dir).length := by
    simp [AudioProvider.getDeviceList]
  have hfirst : (a.addDevice dir d).firstRun = a.firstRun := by
    unfold AudioProvider.addDevice
    dsimp only
    split <;> cases dir <;> rfl
  have hrun : a.firstRun → (a.addDevice dir d).posted = a.posted := by
    intro hrun
    rw [AudioProvider.addDevice, if_pos hrun]
    exact AudioProvider.posted_update _ _
  refine hi.change (s := AudioProvider.deviceAdded dir (a.getDeviceList dir).length d.deviceDesc)
    hsettled hfirst ?_ (by cases dir <;> exact nofun)
    (fun e he => ⟨hother e he, fun _ _ => ?_⟩) (fun h hp => ?_) ?_
  · by_cases h : a.firstRun
    · exact .inr ⟨hrun h, h⟩
    · rw [← hlen, AudioProvider.addDevice, if_neg h]
      exact .inl (congrArg (· ++ [_]) (AudioProvider.posted_update _ _))
  · rw [AudioSignal.replay_deviceAdded, if_neg he]
  · rw [hrun h] at hp
    simp at hp
  · rw [AudioSignal.replay_deviceAdded, if_pos rfl, insertItem_append_length, hlist]

theorem removeDevice {dir : Direction} (hi : MirrorInv a h) (hsettled : ¬ FillInFlight dir a h)
    {i : ℕ} (hlt : i < (a.endpoint dir).deviceList.length) : MirrorInv (a.removeDevice dir i) h := by
  have hlist : (a.removeDevice dir i).getDeviceList dir = (a.getDeviceList dir).eraseIdx i := by
    rw [AudioProvider.getDeviceList, AudioProvider.endpoint_removeDevice, if_pos rfl,
      AudioProvider.getDeviceList, List.eraseIdx_map]
  have hother : ∀ e, e ≠ dir → (a.removeDevice dir i).getDeviceList e = a.getDeviceList e := by
    intro e he
    rw [AudioProvider.getDeviceList, AudioProvider.endpoint_removeDevice, if_neg he]
    rfl
  have hlen : i < (a.getDeviceList dir).length := by simpa [AudioProvider.getDeviceList] using hlt
  refine hi.change (s := AudioProvider.deviceRemoved dir i) hsettled (by cases dir <;> rfl)
    (.inl (congrArg (· ++ [_]) (AudioProvider.posted_update _ _))) (by cases dir <;> exact nofun)
    (fun e he => ⟨hother e he, fun _ _ => ?_⟩) (fun _ _ => ?_) ?_
  · rw [AudioSignal.replay_deviceRemoved, if_neg he]
  · rw [AudioSignal.replay_deviceRemoved, if_pos rfl, removeItem_nil]
  · rw [AudioSignal.replay_deviceRemoved, if_pos rfl, removeItem_append hlen, hlist]

theorem onRegistryAdd {id : ℕ} {type : String} {props : List (String × String)}
    (hi : MirrorInv a h) (hsettled : ∀ dir, (.registryAdd id type props : Callback F).changes a =
      some dir → ¬ FillInFlight dir a h) : MirrorInv (a.onRegistryAdd id type props) h := by
  unfold AudioProvider.onRegistryAdd
  dsimp only
  split_ifs with hnode hsource hsink
  · exact hi.addDevice (hsettled .input (by simp [Callback.changes, hnode, hsource])) _
  · exact hi.addDevice (hsettled .output (by simp [Callback.changes, hnode, hsource, hsink])) _
  · exact hi
  · exact hi

theorem onRegistryRemove {id : ℕ} (hi : MirrorInv a h)
    (hsettled : ∀ dir, (.registryRemove id : Callback F).changes a = some dir →
      ¬ FillInFlight dir a h) : MirrorInv (a.onRegistryRemove id) h := by
  unfold AudioProvider.onRegistryRemove
  cases hr : a.removalOf id with
  | none => exact hi
  | some found =>
    obtain ⟨dir, i⟩ := found
    have hlt : i < (a.endpoint dir).deviceList.length := by
      unfold AudioProvider.removalOf at hr
      split at hr
      · cases hr
        exact (List.findIdx?_eq_some_iff_getElem.mp ‹_›).1
      · obtain ⟨j, hj, heq⟩ := Option.map_eq_some_iff.mp hr
        cases heq
        exact (List.findIdx?_eq_some_iff_getElem.mp hj).1
    exact hi.removeDevice (hsettled dir (by simp [Callback.changes, hr])) hlt

theorem post (hi : MirrorInv a h) {s : AudioSignal} (hs : s.aboutDevices = false) :
    MirrorInv (a.post s) h :=
  hi.append (l := [s]) rfl (fun t ht => by rw [List.mem_singleton.mp ht]; exact hs) rfl
    fun dir => by rw [AudioProvider.endpoint_post]

theorem setConnected (hi : MirrorInv a h) (dir : Direction) (v : Bool) :
    MirrorInv (a.setConnected dir v) h :=
  hi.of_listsKept (AudioProvider.devicesKept_setConnected v).toListsKept

theorem onStreamChanged (hi : MirrorInv a h) (dir : Direction) (state : PwStreamState) :
    MirrorInv (a.onStreamChanged dir state) h := by
  have hstarted : ∀ dir (c : Prop) [Decidable c], MirrorInv (if c then
      (a.setConnected dir true).post .streamStarted else a.setConnected dir true) h := by
    intro dir c _
    split
    · exact (hi.setConnected dir true).post rfl
    · exact hi.setConnected dir true
  cases dir with
  | input =>
    cases state with
    | error => exact hi.setConnected .input false
    | unconnected => exact (hi.setConnected .input false).post rfl
    | connecting => exact hi.post rfl
    | paused => exact hi
    | streaming => exact hstarted .input _
  | output =>
    cases state with
    | error => exact hi.setConnected .output false
    | unconnected => exact hi.setConnected .output false
    | connecting => exact hi
    | paused => exact hi
    | streaming => exact hstarted .output _

theorem processed {signals : List (StreamSignal F)} (hi : MirrorInv b h) :
    MirrorInv (signals.foldl AudioProvider.postSignal b) h := by
  obtain ⟨n, hn⟩ := AudioProvider.foldl_postSignal signals b
  rw [hn]
  exact hi.append rfl (fun s hs => by rw [List.eq_of_mem_replicate hs]; rfl) rfl
    fun dir => by cases dir <;> rfl

theorem callback {A : FloatOps F} {cb : Callback F} (hi : MirrorInv a h)
    (hb : cb.apply A a = some (.ok b)) (honce : cb.Plausible a)
    (hsettled : ∀ dir, cb.changes a = some dir → ¬ FillInFlight dir a h) : MirrorInv b h := by
  have hdata : ∀ dir data, MirrorInv (a.update (fun e => { e with data }) dir) h := fun dir data =>
    hi.of_listsKept (AudioProvider.listsKept_update fun _ => rfl)
  cases cb with
  | registryAdd id type props =>
    cases hb
    exact hi.onRegistryAdd hsettled
  | registryRemove id =>
    cases hb
    exact hi.onRegistryRemove hsettled
  | coreDone id seq =>
    cases hb
    exact hi.onCoreDone id seq honce
  | streamChanged dir state =>
    obtain ⟨-, hb⟩ := Option.ite_none_right_eq_some.mp hb
    cases hb
    exact hi.onStreamChanged dir state
  | processInput levels buf =>
    obtain ⟨-, hb⟩ := Option.ite_none_right_eq_some.mp hb
    cases hb
    exact (hdata .input _).processed
  | processOutput levels buf =>
    obtain ⟨-, hb⟩ := Option.ite_none_right_eq_some.mp hb
    obtain ⟨⟨chunk, signals, data⟩, -, hb⟩ := AudioProvider.bind_eq_ok (Option.some.inj hb)
    cases hb
    exact (hdata .output _).processed

end MirrorInv

/-! ## The slots -/

section Slots

variable (may : Occurrence F → App → Mirror → Prop)

abbrev MirrorSafe (p : Slot UwaVClient) (s : Observed Mirror) : Prop :=
  SlotSafe (mirrorObserver may) (fun _ _ => True) MirrorInv RowsKnown (fun _ _ => True) p s

/-- An operation that reads no list keeps the invariant and the history. -/
theorem mirror_op {e : ClientOp} (he : e.ReadsNoList) {s : Observed Mirror}
    (hi : MirrorInv s.app.audio s.hist) :
    MirrorInv (appHandler (mirrorObserver may) e s).2.app.audio
        (appHandler (mirrorObserver may) e s).2.hist ∧
      (appHandler (mirrorObserver may) e s).2.hist = s.hist := by
  have hhist : Mirror.onOp e s.app s.hist = s.hist := by
    unfold Mirror.onOp
    split
    · exact absurd rfl (he _)
    · rfl
  refine ⟨?_, hhist⟩
  change MirrorInv _ (Mirror.onOp e s.app s.hist)
  rw [hhist]
  exact hi.of_listsKept (ClientOp.listsKept_perform _ _ e)

theorem mirrorSafe_of_ensures {p : Slot UwaVClient} {rows : Direction → List String}
    (hp : p.Ensures ClientOp.ReadsNoList fun c => ∀ dir, c.rows dir = rows dir) {s : Observed Mirror}
    (hi : MirrorInv s.app.audio s.hist) (hs : s.hist = ⟨rows, fun _ => false⟩) :
    MirrorSafe may p s := by
  refine slotSafe_of_ensures (P := fun h => h = ⟨rows, fun _ => false⟩) hp
    (fun e t he hit ht => ⟨trivial, fun _ => ?_⟩) (fun hit _ => hit) (fun hc hh dir => ?_) hi hs
  · obtain ⟨hinv, hhist⟩ := mirror_op may he hit
    exact ⟨hinv, hhist.trans ht⟩
  · rw [hh]
    exact ⟨hc dir, rfl⟩

abbrev MirrorRaising {α : Type} (p : Slot α) (Q : α → Observed Mirror → Prop)
    (s : Observed Mirror) : Prop :=
  SafeRaising (appHandler (mirrorObserver may)) (fun s => MirrorInv s.app.audio s.hist)
    (mainContract fun _ _ => True) (fun _ _ => True) p Q s

theorem mirror_getDeviceList {dir : Direction} {h : Mirror} (hunread : h.unread dir)
    {s : Observed Mirror} (hi : MirrorInv s.app.audio s.hist) (hs : s.hist = h) :
    MirrorRaising may (Slot.getDeviceList dir) (fun devices t => t.hist = h.read dir devices) s := by
  refine safeRaising_lift (stable_hist (· = h))
    (fun devices => stable_hist (· = h.read dir devices)) hi hs ?_
  rintro t hit rfl
  exact ⟨trivial, fun _ => ⟨trivial, hit.read hunread, rfl⟩⟩

theorem mirror_addDeviceItems {dir : Direction} {h : Mirror} (c : UwaVClient) (items : List String)
    {s : Observed Mirror} (hi : MirrorInv s.app.audio s.hist) (hs : s.hist = h) :
    MirrorRaising may (addDeviceItems dir items c)
      (fun c' t => c'.rows = Function.update c.rows dir (c.rows dir ++ items) ∧ t.hist = h) s := by
  refine safe_mono (safeRaising_of_ensures (stable_hist (· = h)) (φ := ClientOp.Ordinary)
    (fun e t he hit ht => ⟨trivial, fun _ => ?_⟩) (menus_addDeviceItems dir c items).routine hi hs) ?_
  · obtain ⟨hinv, hhist⟩ := mirror_op may (readsNoList_of_ordinary he) hit
    exact ⟨trivial, hinv, hhist.trans ht⟩
  · intro r t _ hr c' hc'
    obtain ⟨hkeeps, ht⟩ := hr c' hc'
    refine ⟨funext fun d => (hkeeps.items d).trans ?_, ht⟩
    cases dir <;> cases d <;> rfl

/-- Filling a drop-down takes over the list that is read. -/
theorem mirror_fillDeviceItems {dir : Direction} {unread : Direction → Bool} (c : UwaVClient)
    (hunread : unread dir) {s : Observed Mirror} (hi : MirrorInv s.app.audio s.hist)
    (hs : s.hist = ⟨c.rows, unread⟩) :
    MirrorRaising may (fillDeviceItems dir c)
      (fun c' t => t.hist = ⟨c'.rows, Function.update unread dir false⟩) s := by
  refine safeRaising_bind hi (mirror_getDeviceList may (h := ⟨c.rows, unread⟩) hunread hi hs)
    fun devices t₁ hi₁ ht₁ => ?_
  refine safeRaising_bind hi₁ (mirror_addDeviceItems may c devices hi₁ ht₁) fun c₂ t₂ hi₂ ht₂ => ?_
  refine safe_mono (mirror_addDeviceItems may c₂ [placeholder dir] hi₂ ht₂.2) ?_
  intro r t₃ _ hr c₃ hc₃
  obtain ⟨hrows, ht₃⟩ := hr c₃ hc₃
  rw [ht₃, Mirror.read, hrows, ht₂.1]
  simp

/-- The slot that fills the drop-downs is safe while both lists are to be read. -/
theorem mirrorSafe_onDeviceListsReady {c : UwaVClient} {s : Observed Mirror}
    (hi : MirrorInv s.app.audio s.hist) (hs : s.hist = ⟨c.rows, fun _ => true⟩) :
    MirrorSafe may (onDeviceListsReady c) s := by
  have hsafe : MirrorRaising may (onDeviceListsReady c) (fun c' t => RowsKnown c' t.hist) s := by
    refine safeRaising_bind hi (mirror_fillDeviceItems may c rfl hi hs) fun c₁ t₁ hi₁ ht₁ => ?_
    refine safeRaising_bind hi₁ (mirror_fillDeviceItems may c₁ rfl hi₁ ht₁) fun c₂ t₂ hi₂ ht₂ => ?_
    refine safe_mono (safeRaising_of_ensures (stable_hist (· = _)) (φ := ClientOp.Ordinary)
      (fun e t he hit ht => ⟨trivial, fun _ => ?_⟩) (menus_loadConfig c₂).routine hi₂ ht₂) ?_
    · obtain ⟨hinv, hhist⟩ := mirror_op may (readsNoList_of_ordinary he) hit
      exact ⟨trivial, hinv, hhist.trans ht⟩
    · intro r t _ hr c₃ hc₃ dir
      obtain ⟨hkeeps, ht⟩ := hr c₃ hc₃
      rw [ht]
      exact ⟨hkeeps.items dir, by cases dir <;> rfl⟩
  exact safe_mono hsafe fun r t hit hr => ⟨hit, fun c' hc' => hr c' hc'⟩

end Slots

/-! ## The runs -/

theorem RowsKnown.hist_eq {c : UwaVClient} {h : Mirror} (hk : RowsKnown c h) :
    h = ⟨c.rows, fun _ => false⟩ := by
  obtain ⟨rows, unread⟩ := h
  rw [Mirror.mk.injEq]
  exact ⟨funext fun dir => (hk dir).1.symm, funext fun dir => (hk dir).2⟩

/-- Every slot and every callback keeps the mirror under the condition. -/
def mirrorOutline (A : FloatOps F) :
    AppOutline A (mirrorObserver ListsSettled) (fun _ _ => True) where
  inv := MirrorInv
  idle := RowsKnown
  claim _ _ := True
  others {o _ _} ho := by
    cases o with
    | posted fuel => exact absurd rfl ho
    | _ => rfl
  callback hi hmay hb := hi.callback hb hmay.1 hmay.2
  posted {fuel s rest app h} hi hidle _ hposted := by
    have ht : MirrorInv { app.audio with posted := rest } (h.take app.audio.posted) :=
      hi.take (fun dir => (hidle dir).2) hposted
    refine ⟨ht, ?_⟩
    have hh := hidle.hist_eq
    by_cases hs : s = .deviceListsReady
    · subst hs
      exact mirrorSafe_onDeviceListsReady _ ht (by
        simp only [mirrorObserver, Mirror.onStart, hposted, Mirror.take, hh])
    · refine mirrorSafe_of_ensures _ (ensures_signal_rows hs fuel app.client) ht ?_
      simp only [mirrorObserver, Mirror.onStart, hposted, Mirror.take_of_ne hs, hh]
  sio {s app h} hi hidle _ :=
    ⟨hi, mirrorSafe_of_ensures _ ((ensures_sio s app.client).mono
      (fun _ => readsNoList_of_ordinary) fun _ => id) hi hidle.hist_eq⟩
  ui {e app h} hi hidle _ :=
    ⟨hi, mirrorSafe_of_ensures _ ((routine_ui e app.client).mono
      (fun _ => readsNoList_of_ordinary) fun _ h => h.items) hi hidle.hist_eq⟩

/-- The program runs, between two slots and after the first run, and no device signal is in flight. -/
structure AtRest (c : AppConfig Mirror) : Prop where
  idle : (c.thread .main).isNone
  running : c.shared.app.running
  listed : c.shared.app.audio.firstRun = false
  settled : ∀ s ∈ c.shared.app.audio.posted, s.aboutDevices = false

/-- The drop-downs mirror the lists: in every run in which no list changes while the slot of
`deviceListsReady` is still to read it, each drop-down of a program at rest shows the descriptions of
its list and the placeholder. -/
theorem dropdowns_mirror_lists (A : FloatOps F) {w : World} {c : AppConfig Mirror}
    (run : Reaches (appSystem A (mirrorObserver ListsSettled)) (fun _ _ _ => True)
      (.initial ⟨.launched w, {}⟩) c) (hrest : AtRest c) (dir : Direction) :
    (c.shared.app.client.deviceCombo dir).items =
      (c.shared.app.audio.endpoint dir).deviceList.map (·.deviceDesc) ++ [placeholder dir] := by
  have hinv : MirrorInv (App.launched w).audio {} := fun dir => rfl
  have hidle : RowsKnown (App.launched w).client {} := fun dir => by cases dir <;> exact ⟨rfl, rfl⟩
  obtain ⟨hrows, hunread⟩ := (mirrorOutline A).idle_of_reaches hinv hidle run
    (Option.isNone_iff_eq_none.mp hrest.idle) hrest.running dir
  have hdir : MirrorInv c.shared.app.audio c.shared.hist :=
    ((mirrorOutline A).sound hinv hidle run).1
  have h := hdir dir
  rw [AudioSignal.replayAll_of_not_aboutDevices hrest.settled, Mirror.ahead, hunread, hrest.listed,
    if_neg Bool.false_ne_true, if_neg Bool.false_ne_true] at h
  exact hrows.trans h

section Schedules

instance {P : Direction → Prop} [DecidablePred P] : Decidable (∀ dir, P dir) :=
  decidable_of_iff (P .input ∧ P .output)
    ⟨fun h dir => by cases dir; exacts [h.1, h.2], fun h => ⟨h .input, h .output⟩⟩

instance (cb : Callback F) (a : AudioProvider) : Decidable (cb.Plausible a) := by
  cases cb <;> unfold Callback.Plausible <;> infer_instance

instance (dir : Direction) (a : AudioProvider) (h : Mirror) : Decidable (FillInFlight dir a h) :=
  inferInstanceAs (Decidable (_ ∨ _))

instance (o : Occurrence F) (app : App) (h : Mirror) :
    Decidable ((mirrorObserver ListsSettled : AppObserver F Mirror).may o app h) := by
  unfold mirrorObserver ListsSettled
  cases o <;> infer_instance

instance (o : Occurrence F) (app : App) (h : Mirror) :
    Decidable ((mirrorObserver AnyPlausible : AppObserver F Mirror).may o app h) := by
  unfold mirrorObserver AnyPlausible
  cases o <;> infer_instance

instance (c : AppConfig Mirror) : Decidable (AtRest c) :=
  decidable_of_iff ((c.thread .main).isNone ∧ c.shared.app.running ∧
      c.shared.app.audio.firstRun = false ∧
      ∀ s ∈ c.shared.app.audio.posted, s.aboutDevices = false)
    ⟨fun h => ⟨h.1, h.2.1, h.2.2.1, h.2.2.2⟩, fun h => ⟨h.idle, h.running, h.listed, h.settled⟩⟩

end Schedules

/-- Whether a drop-down of the program at rest has this many rows. -/
def restsWithRows (dir : Direction) (n : ℕ) (c : AppConfig Mirror) : Bool :=
  AtRest c ∧ (c.shared.app.client.deviceCombo dir).items.length = n

/-- A third microphone is plugged in, then the first one is unplugged while the client is busy. -/
theorem dropdowns_mirror_lists_after_hotplug : ∃ c,
    Reaches (appSystem plainFloats (mirrorObserver ListsSettled)) (fun _ _ _ => True)
      (.initial ⟨.launched .online, {}⟩) c ∧
    (c.shared.app.client.deviceCombo .input).items.length = 3 ∧
    (c.shared.app.client.deviceCombo .input).items =
      (c.shared.app.audio.endpoint .input).deviceList.map (·.deviceDesc) ++ [placeholder .input] := by
  have hrun : ∃ c : AppConfig Mirror,
      Reaches (appSystem plainFloats (mirrorObserver ListsSettled)) (fun _ _ _ => True)
        (.initial ⟨.launched .online, {}⟩) c ∧ restsWithRows .input 3 c :=
    reaches_of_schedule (L := appLauncher plainFloats (mirrorObserver ListsSettled))
      (devicesListed ++ callbackMoves (announce 44 "Audio/Source") ++
        callbackMoves (.registryRemove 40) ++ mainMoves (.posted 0) 2 ++ mainMoves (.posted 0) 8)
      (by decide +kernel)
  obtain ⟨c, run, hgood⟩ := hrun
  obtain ⟨hrest, hrows⟩ := of_decide_eq_true hgood
  exact ⟨c, run, hrows, dropdowns_mirror_lists plainFloats run hrest .input⟩

/-- A second microphone is found after `deviceListsReady` was posted: it is in the list that the slot
reads, and it is inserted once more when its own signal is handled. -/
theorem dropdowns_miss_lists_after_late_device : ∃ c,
    Reaches (appSystem plainFloats (mirrorObserver AnyPlausible)) (fun _ _ _ => True)
      (.initial ⟨.launched .online, {}⟩) c ∧ AtRest c ∧
    (c.shared.app.client.deviceCombo .input).items ≠
      (c.shared.app.audio.endpoint .input).deviceList.map (·.deviceDesc) ++ [placeholder .input] := by
  have hrun : ∃ c : AppConfig Mirror,
      Reaches (appSystem plainFloats (mirrorObserver AnyPlausible)) (fun _ _ _ => True)
        (.initial ⟨.launched .online, {}⟩) c ∧
      (restsWithRows .input 4 c && decide ((c.shared.app.audio.endpoint .input).deviceList.length = 2)) :=
    reaches_of_schedule (L := appLauncher plainFloats (mirrorObserver AnyPlausible))
      (callbackMoves (announce 40 "Audio/Source") ++ callbackMoves (.coreDone 0 0) ++
        callbackMoves (announce 41 "Audio/Source") ++ mainMoves (.posted 0) 12 ++
        mainMoves (.posted 0) 2) (by decide +kernel)
  obtain ⟨c, run, hgood⟩ := hrun
  obtain ⟨hrows, hlist⟩ := Bool.and_eq_true _ _ ▸ hgood
  obtain ⟨hrest, hfour⟩ := of_decide_eq_true hrows
  refine ⟨c, run, hrest, fun heq => ?_⟩
  have hlen := congrArg List.length heq
  rw [hfour, List.length_append, List.length_map, of_decide_eq_true hlist] at hlen
  cases hlen

end UwavClient
