import Netra.Association.Engine
import Netra.Behavior.Confirmation
import Netra.Behavior.Fsm
import Netra.Risk.Engine
/-!
# One camera, frame by frame

The four per-camera components in lock step: a frame goes through
`process_frame`, `filter` and `process`, and every behaviour event it gives to
`update_behavior`. `event_time` is the timestamp of the frame.
-/
namespace Netra.Pipeline

open Association Behavior Risk

/-- A detection frame; `uuid n` is the `uuid4()` of its `n`-th behaviour event. -/
structure Frame where
  persons : List PersonDetection
  items : List ItemDetection
  timestamp : ℚ
  uuid : Nat → String := fun _ => ""

/-- The association engine, the confirmation buffer and the FSM of a camera. -/
structure Front where
  engine : AssociationEngine
  confirmer : SignalConfirmationBuffer
  fsm : TheftRiskFSM

structure FrontOut where
  assoc : List AssociationEvent
  confirmed : List AssociationEvent
  behavior : List BehaviorEvent

structure Camera extends Front where
  risk : RiskEngine

structure CameraOut extends FrontOut where
  incidents : List IncidentEvent

def Front.init (w : Settings) (cameraId : String) (zones : List ZoneConfig) : Front where
  engine := .init cameraId zones
  confirmer := .ofSettings w
  fsm := { cameraId }

def Camera.init (w : Settings) (cameraId : String) (zones : List ZoneConfig) : Camera where
  toFront := .init w cameraId zones
  risk := .init cameraId

section
variable (h : Host) (w : Settings)

def frontStep (s : Front) (fr : Frame) : Front × FrontOut :=
  let (engine, assoc) := processFrame h w s.engine fr.persons fr.items fr.timestamp
  let (confirmer, confirmed) := s.confirmer.filter assoc s.engine.cameraId fr.timestamp
  let (fsm, behavior) := TheftRiskFSM.process h w s.fsm fr.persons confirmed fr.timestamp
  ({ engine, confirmer, fsm }, { assoc, confirmed, behavior })

/-- The incidents a behaviour event raises: none or one. -/
def riskTurn (e : RiskEngine) (c : BehaviorCall) : RiskEngine × List IncidentEvent :=
  let (e, incident) := e.updateBehavior h w c
  (e, incident.toList)

def behaviorCalls (uuid : Nat → String) (behavior : List BehaviorEvent) : List BehaviorCall :=
  behavior.zipIdx.map fun (bev, n) => { bev, uuid := uuid n }

def cameraStep (s : Camera) (fr : Frame) : Camera × CameraOut :=
  let (front, out) := frontStep h w s.toFront fr
  let calls := behaviorCalls fr.uuid out.behavior
  let risk := Mealy.after (riskTurn h w) s.risk calls
  let incidents := (Mealy.outs (riskTurn h w) s.risk calls).flatten
  ({ toFront := front, risk }, { toFrontOut := out, incidents })

end

end Netra.Pipeline
