import UwavClient.Client.Outline
import UwavClient.Client.MessageSafety

/-!
# The phases of the client

The start and stop buttons, the server group, the retry state and the session flags are the phase of
the client. A slot leaves the phase alone or ends its session, unless it is one of those that move it:
the slot of `streamStarted`, those of the connection and of the buttons, and those of the messages
`SET_PARAMS`, `SERVER_STARTED`, `SERVER_STOPPED` and `SERVER_EXITING`.
-/

namespace UwavClient

open Slot ExceptT

structure Phase where
  buttonStart : Bool
  buttonStop : Bool
  groupServer : Bool
  connectRetryState : Bool
  serverStarting : Bool
  serverStarted : Bool
  deriving DecidableEq

def UwaVClient.phase (c : UwaVClient) : Phase where
  buttonStart := c.buttonStart
  buttonStop := c.buttonStop
  groupServer := c.groupServer
  connectRetryState := c.connectRetryState
  serverStarting := c.serverStarting
  serverStarted := c.serverStarted

namespace Phase

variable {p q r : Phase}

/-- The session is over. -/
def ended (p : Phase) : Phase := { p with serverStarting := false, serverStarted := false }

def disconnected (p : Phase) : Phase :=
  { p with buttonStart := false, buttonStop := false, groupServer := false }

def connected (p : Phase) : Phase :=
  { p with buttonStart := true, buttonStop := false, groupServer := true }

/-- `buttonStop` alone is enabled. -/
def streaming (p : Phase) : Phase := { p with buttonStart := false, buttonStop := true }

/-- At most the session has ended. -/
def MayEnd (p q : Phase) : Prop := q = p ∨ q = p.ended

@[refl] theorem MayEnd.refl (p : Phase) : p.MayEnd p := .inl rfl

theorem MayEnd.trans (h : p.MayEnd q) (h' : q.MayEnd r) : p.MayEnd r := by
  rcases h with rfl | rfl
  · exact h'
  · exact .inr (h'.elim id id)

theorem MayEnd.ended (p : Phase) : p.MayEnd p.ended := .inr rfl

end Phase

/-- An operation that starts no streams, and asks the server neither to start nor for the parameters. -/
@[simp] def ClientOp.Passive : ClientOp → Prop
  | .startAudio | .emit .serverStart | .emit (.getParams _) => False
  | _ => True

theorem ClientOp.OfMenus.passive {e : ClientOp} (h : e.OfMenus) : e.Passive := by
  cases e with
  | emit m => cases m <;> trivial
  | startAudio => exact h.elim
  | _ => trivial

theorem ClientOp.OfCapture.passive {e : ClientOp} (h : e.OfCapture) : e.Passive := by
  cases e with
  | emit m => cases m <;> trivial
  | startAudio => exact h.elim
  | _ => trivial

namespace MenusOnly

variable {c c' : UwaVClient}

theorem phase_eq (h : MenusOnly c c') : c'.phase = c.phase := h.congr UwaVClient.phase

end MenusOnly

namespace Slot

variable {p q : Phase} {c : UwaVClient} {m : Slot UwaVClient} {f : UwaVClient → Slot UwaVClient}

/-- A slot of passive operations that returns in the phase `p`, or there with the session over. -/
abbrev Stays (p : Phase) (m : Slot UwaVClient) : Prop :=
  m.Ensures ClientOp.Passive fun c => p.MayEnd c.phase

theorem Stays.after (hm : Stays q m) (h : p.MayEnd q) : Stays p m := hm.post fun _ => h.trans

theorem Stays.bind (hm : Stays p m) (hf : ∀ c, Stays c.phase (f c)) : Stays p (m >>= f) :=
  ensures_bind.mpr (hm.post fun c h => (hf c).after h)

theorem MovesMenus.ensures_phase (hm : MovesMenus c m) :
    m.Ensures ClientOp.Passive fun c' => c'.phase = c.phase :=
  hm.mono (fun _ => ClientOp.OfMenus.passive) fun _ => MenusOnly.phase_eq

theorem MovesMenus.stays (hm : MovesMenus c m) : Stays c.phase m := hm.ensures_phase.post fun _ => .inl

end Slot

/-! ## Slots that stay in their phase -/

theorem stays_onSamplesReceived (msg : Message) (c : UwaVClient) :
    Stays c.phase (onSamplesReceived msg c) := by
  unfold onSamplesReceived
  simp only [ensures_ite, ensures_pure, ensures_bind, ensures_connected, ensures_ofExcept]
  refine ⟨fun _ => .refl _, fun _ => ⟨trivial, fun _ => ⟨fun _ => .refl _, fun _ _ _ found _ => ?_⟩⟩⟩
  split
  · exact ensures_pure.mpr (.refl _)
  · have hend : c.phase.MayEnd c.clearServerState.phase := .ended _
    simp [Phase.MayEnd.refl, hend]

theorem stays_onAudioStreamEnd (c : UwaVClient) : Stays c.phase (onAudioStreamEnd c) := by
  simp [onAudioStreamEnd, UwaVClient.phase, Phase.MayEnd.refl]

section Drop

variable (dir : Direction) (c : UwaVClient)

theorem phase_withDeviceItems (items : List String) : (c.withDeviceItems items dir).phase = c.phase := by
  cases dir <;> rfl

theorem ensures_phase_setDeviceItems (items : List String) :
    (setDeviceItems dir items c).Ensures ClientOp.Passive fun c' => c'.phase = c.phase := by
  have h := (menus_setDeviceItems dir c items).ensures_phase
  rwa [phase_withDeviceItems] at h

theorem stays_onDeviceAdded (index : ℤ) (name : String) :
    Stays c.phase (onDeviceAdded dir index name c) := by
  have h := (menus_onDeviceAdded dir c index name).stays
  rwa [phase_withDeviceItems] at h

theorem stays_onDeviceRemoved {clearText : UwaVClient → Slot UwaVClient}
    (hclear : ∀ c, MovesMenus c (clearText c)) (index : ℤ) :
    Stays c.phase (onDeviceRemoved dir clearText index c) := by
  have hitems : ∀ c' items, Stays c'.phase (setDeviceItems dir items c') := fun c' items =>
    (ensures_phase_setDeviceItems dir c' items).post fun _ => .inl
  have hcurrent : Stays c.phase (onCurrentDeviceRemoved dir clearText c) := by
    refine (menus_setDeviceIndex dir c _).stays.bind fun c₁ => (hclear c₁).stays.bind fun c₂ => ?_
    have hend : c₂.phase.MayEnd c₂.clearServerState.phase := .ended _
    simp [Phase.MayEnd.refl, hend]
  simp only [onDeviceRemoved, ensures_ite, ensures_bind, ensures_pure]
  exact ⟨fun _ => hcurrent.post fun c' h => (hitems c' _).after h, fun _ => hitems c _⟩

end Drop

theorem stays_onDeviceListsReady (c : UwaVClient) : Stays c.phase (onDeviceListsReady c) := by
  have hadd : ∀ dir c items, Stays c.phase (addDeviceItems dir items c) := by
    intro dir c items
    have h := (menus_addDeviceItems dir c items).stays
    rwa [phase_withDeviceItems] at h
  have hfill : ∀ dir c, Stays c.phase (fillDeviceItems dir c) := fun dir c =>
    ensures_bind.mpr (ensures_getDeviceList.mpr ⟨trivial, fun items =>
      (hadd dir c items).bind fun c' => hadd dir c' _⟩)
  exact (hfill .output c).bind fun c₁ => (hfill .input c₁).bind fun c₂ => (menus_loadConfig c₂).stays

theorem stays_signal {s : AudioSignal} (hs : s ≠ .streamStarted) (fuel : ℕ) (c : UwaVClient) :
    Stays c.phase (s.slot fuel c) := by
  cases s with
  | deviceListsReady => exact stays_onDeviceListsReady c
  | inputDeviceAdded i name => exact stays_onDeviceAdded .input c i name
  | outputDeviceAdded i name => exact stays_onDeviceAdded .output c i name
  | inputDeviceRemoved i =>
    exact stays_onDeviceRemoved .input c (fun c => ensures_pure.mpr (.refl c)) i
  | outputDeviceRemoved i =>
    exact stays_onDeviceRemoved .output c (fun c => menus_setDeviceText .output c "") i
  | streamStarted => exact absurd rfl hs
  | streamStopped => exact stays_onAudioStreamEnd c
  | streamConnecting => exact ensures_pure.mpr (.refl _)
  | signalInputBufferWrite =>
    exact ensures_bind.mpr ((capture_onInputBufferWrite fuel c).mono (fun _ he => he.1.passive)
      fun _ _ => ensures_pure.mpr (.refl _))

theorem stays_stopIfConnected (c : UwaVClient) : Stays c.phase (stopIfConnected c) := by
  refine ensures_bind.mpr (ensures_anyConnected (fun _ => trivial) fun _ => ?_)
  have hend : c.phase.MayEnd c.clearServerState.phase := .ended _
  simp [Phase.MayEnd.refl, hend]

theorem stays_attemptConnectionTo (dest : String) (c : UwaVClient) :
    Stays c.phase (attemptConnectionTo dest c) := by
  have h : ∀ b, c.phase.MayEnd { c with buttonConnect := b }.phase := fun _ => .refl _
  simp only [attemptConnectionTo, ensures_ite, ensures_pure, ensures_bind,
    ensures_validateConnectString]
  refine ⟨fun _ => .refl _, fun _ => ⟨trivial, fun uri => ?_⟩⟩
  split <;> simp [h]

/-! ## Slots that move the phase -/

/-- `on_AudioStreamSuccess` may ask the server to start. -/
theorem phase_onAudioStreamSuccess (c : UwaVClient) :
    (onAudioStreamSuccess c).Ensures (fun e => ∀ id, e ≠ .emit (.getParams id)) fun c' =>
      c'.phase = c.phase ∨ c'.phase = { c.phase with serverStarting := true } := by
  simp [onAudioStreamSuccess, UwaVClient.phase]

theorem stays_uiServerDisconnect (c : UwaVClient) :
    Stays c.phase.disconnected (uiServerDisconnect c) := by
  have hstop := stays_stopIfConnected
    { c with buttonStart := false, buttonStop := false, buttonConnect := false, groupServer := false }
  have hfinish : ∀ c' : UwaVClient, c.phase.disconnected.MayEnd c'.phase →
      c.phase.disconnected.MayEnd { c' with buttonConnect := true }.phase := fun _ => id
  simp only [uiServerDisconnect, ensures_bind, ensures_opened, ensures_ite, ensures_offAll,
    ensures_syncClose, ensures_pure]
  refine ⟨trivial, fun _ => ⟨fun _ => ⟨trivial, fun _ => ⟨trivial, fun _ => ?_⟩⟩, fun _ => ?_⟩⟩
  · exact hstop.post hfinish
  · exact hstop.post hfinish

theorem stays_onSioConnectFail (c : UwaVClient) :
    Stays { c.phase.disconnected with connectRetryState := false } (onSioConnectFail c) :=
  stays_uiServerDisconnect { c with connectRetryState := false }

theorem stays_onSioConnectClose (c : UwaVClient) :
    Stays c.phase.disconnected (onSioConnectClose c) := by
  have hend : c.phase.disconnected.MayEnd (uiRemoteStop c.clearServerState).phase.disconnected :=
    .ended _
  refine ensures_bind.mpr (ensures_anyConnected (fun _ => trivial) fun _ => ?_)
  simp [stays_uiServerDisconnect, (stays_uiServerDisconnect _).after hend]

/-- `onSioSocketOpen` asks for the parameters. -/
theorem phase_onSioSocketOpen (c : UwaVClient) :
    (onSioSocketOpen c).Ensures (fun e => e ≠ .startAudio) fun c' => c'.phase = c.phase := by
  refine ensures_bind.mpr (ensures_listen.mpr ⟨nofun, fun _ => ensures_bind.mpr ?_⟩)
  refine (menus_getClientID c).mono (fun e he => ?_) fun c' h => ?_
  · rintro rfl
    exact he
  · simp [h.phase_eq]

theorem phase_onButtonStartClicked (c : UwaVClient) :
    (onButtonStartClicked c).Ensures (fun e => e.Passive ∨ e = .startAudio) fun c' =>
      c'.phase = c.phase ∨ c'.phase = c.phase.streaming := by
  have h : { c with buttonStart := false, buttonStop := true }.phase = c.phase.streaming := rfl
  simp [onButtonStartClicked, validateStartStopState, h]

theorem phase_onButtonStopClicked (c : UwaVClient) :
    (onButtonStopClicked c).Ensures ClientOp.Passive fun c' =>
      c'.phase = { c.phase.ended with buttonStart := false, buttonStop := false } := by
  have h : (uiLocalStop c).clearServerState.phase =
      { c.phase.ended with buttonStart := false, buttonStop := false } := rfl
  simp [onButtonStopClicked, h]

/-- The connect button in cancel mode. -/
theorem stays_onButtonConnectClicked_retry {c : UwaVClient} (h : c.connectRetryState) (dest : String) :
    Stays { c.phase.disconnected with connectRetryState := false }
      (onButtonConnectClicked dest c) := by
  simp only [onButtonConnectClicked, h, if_true]
  exact stays_uiServerDisconnect { c with connectRetryState := false }

theorem stays_onButtonConnectClicked {c : UwaVClient} (h : c.connectRetryState = false)
    (dest : String) : Stays c.phase (onButtonConnectClicked dest c) := by
  simp [onButtonConnectClicked, h, stays_attemptConnectionTo, Phase.MayEnd.refl]

section Messages

variable (messages : List Message) (c : UwaVClient)

/-- The messages carry parameters that the client can read to the end. -/
def SetsParams (messages : List Message) (c : UwaVClient) : Prop :=
  ∃ fields, (Message.first messages >>= Message.getMap) = .ok fields ∧
    Conforms (paramKeys c.comboModel.items) fields

instance : Decidable (SetsParams messages c) :=
  match hmap : Message.first messages >>= Message.getMap with
  | .ok fields => decidable_of_iff (Conforms (paramKeys c.comboModel.items) fields)
    (by simp [SetsParams, hmap])
  | .error fault => isFalse (by simp [SetsParams, hmap])

/-- A name that has been compared with the items of the menu could be read, if there are any. -/
theorem conforms_selectModels (m : Message) (c : UwaVClient) : (selectModels m c).Ensures (fun _ => True)
    fun _ => FieldConforms (paramKeys c.comboModel.items) "model_name" m := by
  have hread : (sioToString m).Ensures (fun _ => True) fun _ => m.HasFlag anyFlag := by
    cases m <;> simp [sioToString, Message.hasFlag_any_iff]
  have hloop : (selectModels m c).Ensures (fun _ => True)
      fun _ => ∀ i ∈ List.range c.comboModel.items.length, m.HasFlag anyFlag := by
    refine ensures_foldlM_forall (I := fun _ => True) (fun c' i _ => ensures_bind.mpr ?_) trivial
    exact hread.post fun text hm => ensures_trivial (fun _ => trivial) (fun _ => ⟨trivial, hm⟩) _
  refine hloop.post fun _ hall allowed hallowed => ?_
  by_cases hitems : c.comboModel.items = []
  · simp [paramKeys, hitems] at hallowed
  · simp only [paramKeys, if_true, if_neg hitems, Option.some.injEq] at hallowed
    exact hallowed ▸ hall 0 (List.mem_range.mpr (List.length_pos_iff.mpr hitems))

/-- A parameter that has been set had a type that it can take. -/
theorem conforms_setParam (key : String) (m : Message) (c : UwaVClient) :
    (setParam key m c).Ensures (fun _ => True) fun _ =>
      FieldConforms (paramKeys c.comboModel.items) key m := by
  have hread : ∀ {α : Type} (r : Except Fault α) (a : α), r = .ok a → ∃ v, r = .ok v :=
    fun _ a h => ⟨a, h⟩
  unfold setParam
  split_ifs with h₁ h₂ h₃ h₄ h₅ h₆ h₇ h₈ h₉
  · subst h₁
    exact conforms_selectModels m c
  · rcases h₂ with rfl | rfl <;> simp [FieldConforms, paramKeys, ← Message.getString_ok_iff] <;>
      exact hread _
  · subst h₃
    simpa [FieldConforms, paramKeys, ← Message.getDouble_ok_iff] using hread _
  · subst h₄
    simpa [FieldConforms, paramKeys, ← Message.getDouble_ok_iff] using hread _
  · subst h₅
    simpa [FieldConforms, paramKeys, ← Message.getDouble_ok_iff] using hread _
  · rcases h₆ with rfl | rfl | rfl <;> simp [FieldConforms, paramKeys, ← Message.getDouble_ok_iff] <;>
      exact hread _
  · rcases h₇ with rfl | rfl <;> simp [FieldConforms, paramKeys, ← Message.getInt_ok_iff] <;>
      exact hread _
  · subst h₈
    simpa [FieldConforms, paramKeys, ← Message.getInt_ok_iff] using hread _
  · rcases h₉ with rfl | rfl | rfl | rfl <;>
      simp [FieldConforms, paramKeys, ← Message.getBool_ok_iff] <;> exact ⟨.inl, .inr⟩
  · exact ensures_pure.mpr fun allowed hallowed => by simp_all [paramKeys]

theorem phase_onSetParams : (onSetParams messages c).Ensures ClientOp.Passive fun c' =>
    c'.phase = c.phase ∨ (SetsParams messages c ∧ c'.phase = c.phase.connected) := by
  simp only [onSetParams, withObject, getFlag, ensures_bind, ensures_ite, ensures_ofExcept]
  refine fun m hm flag _ => ⟨fun _ => ensures_pure.mpr (.inl rfl), fun _ fields hfields => ?_⟩
  -- The items of the menu stay as they are while the parameters are set.
  have hfield (c' : UwaVClient) (kv : String × Message)
      (hc' : c'.comboModel.items = c.comboModel.items) : (setParam kv.1 kv.2 c').Ensures (fun _ => True)
        fun c'' => c''.comboModel.items = c.comboModel.items ∧
          FieldConforms (paramKeys c.comboModel.items) kv.1 kv.2 :=
    ((reading_setParam kv.1 kv.2 c').and (hc' ▸ conforms_setParam kv.1 kv.2 c')).mono
      (fun _ _ => trivial) fun _ h => ⟨h.1.trans hc', h.2⟩
  have hset : (forFields fields setParam c).Ensures ClientOp.Passive fun c' =>
      c'.phase = c.phase ∧ Conforms (paramKeys c.comboModel.items) fields :=
    (menus_forFields c (fun key m c => menus_setParam c key m) fields).ensures_phase.and
      (ensures_foldlM_forall hfield rfl)
  refine hset.post fun c' h => ensures_pure.mpr (.inr ⟨⟨fields, ?_, h.2⟩, ?_⟩)
  · rw [hm]
    exact hfields
  · exact congrArg Phase.connected h.1

/-- A `SERVER_STARTED` message without an object is dropped. -/
theorem phase_onServerStarted : (onServerStarted messages c).Ensures ClientOp.Passive fun c' =>
    if (Message.first messages).toOption.any Message.isObject then
      c'.phase = { c.phase.streaming with serverStarting := false, serverStarted := true }
    else c'.phase = c.phase := by
  simp only [onServerStarted, withObject, getFlag, ensures_bind, ensures_ite, ensures_ofExcept]
  refine fun m hm flag hflag => ⟨fun hother => ensures_pure.mpr ?_, fun _ fields hfields => ?_⟩
  · rw [hm]
    cases m with
    | object fields =>
      cases hflag
      exact absurd rfl hother
    | _ => rfl
  · have hobject : (Message.first messages).toOption.any Message.isObject := by
      rw [hm]
      cases m with
      | object fields => rfl
      | _ => cases hfields
    refine (menus_forFields c (fun key m c => menus_startedField c key m) _).ensures_phase.post ?_
    intro c' h
    refine (menus_saveConfig true _).ensures_phase.post fun c'' h' => ?_
    rw [if_pos hobject, ← h]
    exact h'

theorem phase_onServerStopped : (onServerStopped c).Ensures ClientOp.Passive fun c' =>
    c'.phase = { c.phase.ended with buttonStart := true, buttonStop := false } := by
  have h : (uiRemoteStop c.clearServerState).phase =
      { c.phase.ended with buttonStart := true, buttonStop := false } := rfl
  simp [onServerStopped, h]

theorem stays_onServerExiting : Stays c.phase.disconnected (onServerExiting c) := by
  refine ensures_bind.mpr ((stays_stopIfConnected c).post fun c' h => ?_)
  refine (stays_uiServerDisconnect (uiRemoteStop c')).after ?_
  have hstop : (uiRemoteStop c').phase.disconnected = c'.phase.disconnected := rfl
  rw [hstop]
  exact h.imp (congrArg Phase.disconnected) (congrArg Phase.disconnected)

/-- The events that do not move the phase. -/
theorem stays_onSioMessage {name : String}
    (h : name ∉ ["SET_PARAMS", "SERVER_STARTED", "SERVER_STOPPED", "SERVER_EXITING"]) :
    Stays c.phase (onSioMessage name messages c) := by
  have haudio : Stays c.phase (onAudioOut messages c) := by
    simp [onAudioOut, getFlag, stays_onSamplesReceived, Phase.MayEnd.refl]
  simp only [List.mem_cons, List.not_mem_nil, or_false, not_or] at h
  simp [onSioMessage, h, haudio, (menus_onSetStatus c messages).stays,
    (menus_onListModels c messages).stays, (menus_onListDevices c messages).stays,
    (menus_onListCompute c messages).stays, (menus_onMessage c messages).stays,
    (menus_onPong c messages).stays, Phase.MayEnd.refl]

end Messages

end UwavClient
