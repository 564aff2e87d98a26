import Netra.Lib.Dict
import Netra.Lib.Machine
import Netra.Settings
import Netra.Types
/-!
# The confirmation buffer (`backend/services/behavior/confirmation.py`)

Majority vote over the last frames, per camera, track and signal type. The
nested `defaultdict`s are total functions of that triple.
-/
namespace Netra.Behavior

open PyLib

/-- `(camera_id, track_id, event_type)` -/
abbrev SignalKey := String × Int × AssocEventType

structure SignalConfirmationBuffer where
  required : Nat
  ageThreshSec : ℚ
  majority : Nat
  bufs : SignalKey → List Bool
  lastTs : SignalKey → ℚ

namespace SignalConfirmationBuffer

/-- `SignalConfirmationBuffer(required, age_threshold_ms)`; the majority is
`ceil(required / 2)`. -/
def new (required : Nat) (ageThresholdMs : ℚ) : SignalConfirmationBuffer where
  required
  ageThreshSec := ageThresholdMs / 1000
  majority := (required + 1) / 2
  bufs _ := []
  lastTs _ := 0

/-- `SignalConfirmationBuffer()` -/
def ofSettings (w : Settings) : SignalConfirmationBuffer :=
  new w.signalConfirmationFrames w.signalConfirmationAgeMs

/-- The key of an event in a camera's buffers. -/
def sig (cameraId : String) (ev : AssociationEvent) : SignalKey := (cameraId, ev.trackId, ev.eventType)

/-- One turn of the event loop: the vote after `ev`, and whether `ev` passes. -/
def eventTurn (cameraId : String) (now : ℚ) (b : SignalConfirmationBuffer) (ev : AssociationEvent) :
    SignalConfirmationBuffer × List AssociationEvent :=
  let key := sig cameraId ev
  let last := b.lastTs key
  -- Age eviction: clear on a gap above the threshold.
  let buf := if 0 < last ∧ b.ageThreshSec < now - last then [] else b.bufs key
  let buf := push b.required buf true
  let b := { b with bufs := Function.update b.bufs key buf, lastTs := Function.update b.lastTs key now }
  (b, if b.majority ≤ buf.length ∧ b.majority ≤ buf.count true then [ev] else [])

/-- Push `False` for every signal of the camera that this frame lacks, unless it
has expired. A signal that was never seen has no buffer; its `last` is 0. -/
def pushUnseen (cameraId : String) (now : ℚ) (seen : List SignalKey) (b : SignalConfirmationBuffer) :
    SignalConfirmationBuffer :=
  { b with bufs := fun key =>
      if key.1 = cameraId ∧ key ∉ seen ∧ 0 < b.lastTs key ∧ now - b.lastTs key ≤ b.ageThreshSec then
        push b.required (b.bufs key) false
      else b.bufs key }

/-- `filter(events, camera_id, event_time)` -/
def filter (b : SignalConfirmationBuffer) (events : List AssociationEvent) (cameraId : String) (eventTime : ℚ) :
    SignalConfirmationBuffer × List AssociationEvent :=
  if b.required ≤ 1 then (b, events)
  else
    let voted := Mealy.after (eventTurn cameraId eventTime) b events
    let confirmed := (Mealy.outs (eventTurn cameraId eventTime) b events).flatten
    (pushUnseen cameraId eventTime (events.map (sig cameraId)) voted, confirmed)

end SignalConfirmationBuffer

end Netra.Behavior
