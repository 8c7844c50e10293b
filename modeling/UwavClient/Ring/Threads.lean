import UwavClient.Library.Schedule
import UwavClient.Ring.Queue

/-!
# One producer and one consumer on the same ring buffer

Each step is one access of one thread's current call. A `Recorder` keeps a history beside the object:
it sees the start of every call, every access and every return, changes nothing about them, and says
which calls a thread may start next.
-/

namespace UwavClient

open Program Interleaving

inductive Party where
  | producer
  | consumer
  deriving DecidableEq, Repr

inductive CallResult where
  | done
  | block (read : ReadBlock)
  | length (n : ℤ)
  deriving DecidableEq, Repr

def RingCall.program (l : RingLayout) : RingCall → RingProgram CallResult
  | .writeAudioData samples count => Ring.writeAudioData l samples count >>= fun _ => pure .done
  | .writeRawData binData count => Ring.writeRawData l binData count >>= fun _ => pure .done
  | .readAudioData count => Ring.readAudioData l count >>= fun b => pure (.block b)
  | .readRawData count => Ring.readRawData l count >>= fun b => pure (.block b)
  | .discardSamples count => Ring.discardSamples l count >>= fun _ => pure .done
  | .getWriteAheadLength => Ring.getWriteAheadLength >>= fun n => pure (.length n)

structure Recorded (H : Type) where
  ring : URingBuffer
  hist : H

structure Recorder (H : Type) where
  may : Party → RingCall → H → Prop
  onStart : Party → RingCall → URingBuffer → H → H
  onAccess : Party → RingOp → URingBuffer → H → H
  onReturn : Party → CallResult → H → H

variable {H : Type}

def ringSystem (rec : Recorder H) : System Party (Recorded H) RingOp RingOp.Answer CallResult where
  handler i e s := ((ringHandler e s.ring).1, ⟨(ringHandler e s.ring).2, rec.onAccess i e s.ring s.hist⟩)
  start i s p t := ∃ c : RingCall, c.Valid ∧ rec.may i c s.hist ∧
    p = c.program s.ring.toRingLayout ∧ t = ⟨s.ring, rec.onStart i c s.ring s.hist⟩
  finish i a s := ⟨s.ring, rec.onReturn i a s.hist⟩

abbrev RingConfig (H : Type) := Config Party (Recorded H) RingOp RingOp.Answer CallResult

/-- A thread may be told to call a member function with valid arguments. -/
def ringLauncher (rec : Recorder H) [∀ i c h, Decidable (rec.may i c h)] :
    Launcher (ringSystem rec) RingCall where
  launch i c s := if c.Valid ∧ rec.may i c s.hist then
      some (c.program s.ring.toRingLayout, ⟨s.ring, rec.onStart i c s.ring s.hist⟩)
    else none
  sound {i c s p t} h := by
    obtain ⟨⟨hv, hmay⟩, heq⟩ := Option.ite_none_right_eq_some.mp h
    obtain ⟨rfl, rfl⟩ := Prod.mk.inj (Option.some.inj heq)
    exact ⟨c, hv, hmay, rfl, rfl⟩

def RingConfig.isQuiet (c : RingConfig H) : Bool :=
  (c.thread .producer).isNone && (c.thread .consumer).isNone

theorem quiet_of_isQuiet {c : RingConfig H} (h : c.isQuiet) : c.Quiet := by
  obtain ⟨hp, hc⟩ := Bool.and_eq_true _ _ ▸ h
  intro i
  cases i with
  | producer => exact Option.isNone_iff_eq_none.mp hp
  | consumer => exact Option.isNone_iff_eq_none.mp hc

/-- Accesses that leave the positions, the window and the sample memory as they are. -/
def RingOp.Neutral : RingOp → Prop
  | .load _ | .loadPrefillComplete | .storePrefillComplete _ | .qWarning _ => True
  | .store x _ | .add x _ => x = .readsSinceLastWarn ∨ x = .writesSinceLastWarn
  | .copyIn _ _ _ _ | .copyOut _ _ => False

structure URingBuffer.SameQueue (rb rb' : URingBuffer) : Prop where
  layout : rb'.toRingLayout = rb.toRingLayout
  readPos : rb'.readPos = rb.readPos
  writePos : rb'.writePos = rb.writePos
  window : rb'.writeAheadWindow = rb.writeAheadWindow
  buffer : rb'.buffer = rb.buffer

theorem sameQueue_of_neutral {e : RingOp} (he : e.Neutral) (rb : URingBuffer) :
    rb.SameQueue (ringHandler e rb).2 := by
  cases e with
  | store x v => rcases he with rfl | rfl <;> exact ⟨rfl, rfl, rfl, rfl, rfl⟩
  | add x v => rcases he with rfl | rfl <;> exact ⟨rfl, rfl, rfl, rfl, rfl⟩
  | copyIn pos src off n => exact he.elim
  | copyOut pos n => exact he.elim
  | _ => exact ⟨rfl, rfl, rfl, rfl, rfl⟩

namespace Ring

variable (l : RingLayout)

theorem all_load (x : IntField) : (load x).All RingOp.Neutral := (all_perform _).mpr trivial

theorem all_countSinceWarn (x : IntField) (count : ℤ)
    (hx : x = .readsSinceLastWarn ∨ x = .writesSinceLastWarn) :
    (countSinceWarn l x count).All RingOp.Neutral := by
  refine all_bind (all_load x) fun v => ?_
  split
  · exact (all_perform _).mpr hx
  · trivial

theorem all_warnLimited (x : IntField) (text : String)
    (hx : x = .readsSinceLastWarn ∨ x = .writesSinceLastWarn) :
    (warnLimited l x text).All RingOp.Neutral := by
  refine all_bind (all_load x) fun v => ?_
  split
  · exact ⟨trivial, fun _ => (all_perform _).mpr hx⟩
  · trivial

theorem all_loadPrefillComplete : loadPrefillComplete.All RingOp.Neutral :=
  (all_perform _).mpr trivial

theorem all_completePrefill : (completePrefill l).All RingOp.Neutral := by
  refine all_bind all_loadPrefillComplete fun done => ?_
  split
  · refine all_bind (all_load _) fun v => ?_
    split
    · exact (all_perform _).mpr trivial
    · trivial
  · trivial

theorem all_restartPrefill : restartPrefill.All RingOp.Neutral := by
  refine all_bind (all_load _) fun v => ?_
  split
  · exact (all_perform _).mpr trivial
  · trivial

theorem all_silencedRead : (silencedRead l).All RingOp.Neutral := by
  refine all_bind (all_load _) fun v => ?_
  split
  · refine all_bind all_loadPrefillComplete fun done => ?_
    split
    · exact (all_perform _).mpr (.inl rfl)
    · trivial
  · trivial

end Ring

end UwavClient
