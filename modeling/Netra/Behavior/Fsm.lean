import Netra.Lib.Keyed
import Netra.Settings
import Netra.Types
import Mathlib.Order.WithBot
/-!
# The theft-risk state machine (`backend/services/behavior/fsm.py`)

One `TheftRiskFSM` per camera turns persons and association events into
behaviour events.
-/
namespace Netra.Behavior

open PyLib

/-! ## Concealment from keypoints -/

abbrev Point := ℚ × ℚ

def kp (w : Settings) (keypoints : List Keypoint) (idx : Nat) : Option Point :=
  match keypoints[idx]? with
  | some k => if w.keypointConfidenceMin ≤ k.conf then some (k.x, k.y) else none
  | none => none

/-- `_dist`; `⊤` is `float("inf")`. -/
def dist (h : Host) (a b : Option Point) : WithTop ℚ :=
  match a, b with
  | some a, some b => h.sqrt ((a.1 - b.1) ^ 2 + (a.2 - b.2) ^ 2)
  | _, _ => ⊤

def midpoint (a b : Option Point) : Option Point :=
  match a, b with
  | none, none => none
  | none, some b => some b
  | some a, none => some a
  | some a, some b => some ((a.1 + b.1) / 2, (a.2 + b.2) / 2)

/-- The wrist loop of the torso region: above the shoulders or above the hips. -/
def torsoRegion (shoulder hip : Point) : List (Option Point) → Option ConcealmentType
  | [] => none
  | none :: ws => torsoRegion shoulder hip ws
  | some wr :: ws =>
    if wr.2 < shoulder.2 then some .handToHoodie
    else if wr.2 < hip.2 - 20 then some .handToShirt
    else torsoRegion shoulder hip ws

/-- The wrist loop below the hips. -/
def pantsRegion (hip : Point) : List (Option Point) → Option ConcealmentType
  | [] => none
  | none :: ws => pantsRegion hip ws
  | some wr :: ws => if hip.2 + 20 < wr.2 then some .handToPants else pantsRegion hip ws

/-- `classify_concealment`: the type, and the hand-to-hip distance. -/
def classifyConcealment (h : Host) (w : Settings) (keypoints : List Keypoint) (handToHipThresholdPx : ℚ) :
    ConcealmentType × WithTop ℚ :=
  let lw := kp w keypoints kpLeftWrist
  let rw := kp w keypoints kpRightWrist
  let lh := kp w keypoints kpLeftHip
  let rh := kp w keypoints kpRightHip
  let ls := kp w keypoints kpLeftShoulder
  let rs := kp w keypoints kpRightShoulder
  let hipCentre := midpoint lh rh
  let shoulderCentre := midpoint ls rs
  let bestWristHip := min (dist h lw hipCentre) (dist h rw hipCentre)
  -- Without wrists or hips the distance is infinite.
  if (handToHipThresholdPx : WithTop ℚ) < bestWristHip then (.none, bestWristHip)
  else match hipCentre with
    | none => (.none, bestWristHip)
    | some hip =>
      let torso := match shoulderCentre with
        | some shoulder => torsoRegion shoulder hip [lw, rw]
        | none => none
      match torso with
      | some c => (c, bestWristHip)
      | none =>
        match pantsRegion hip [lw, rw] with
        | some c => (c, bestWristHip)
        | none => (.handToPocket, bestWristHip)

/-! ## Per-track state -/

/-- The fields of `TrackContext` that some method reads or writes. -/
structure TrackContext where
  state : TheftStage := .browsing
  riskScore : ℚ := 0
  lastTs : ℚ
  lastDecayTs : ℚ
  firstSeen : ℚ
  lastPickTs : ℚ := 0
  lastConcealTs : ℚ := 0
  lastSpeedSpikeTs : ℚ := 0
  repeatedShelf : Nat := 0
  pickVisual : Bool := false
  activeSignals : List String := []
  deriving DecidableEq, Repr

structure TheftRiskFSM where
  cameraId : String
  tracks : Dict Int TrackContext := Dict.empty

namespace TheftRiskFSM

/-- `_WEIGHTS` -/
def weights : List (String × ℚ) := [
  ("SHELF_INTERACTION", 2), ("VISUAL_PICK_CONFIRMED", 4), ("HAND_TO_POCKET", 4), ("HAND_TO_BAG", 3),
  ("HAND_TO_PANTS", 4.5), ("HAND_TO_SHIRT", 3.5), ("HAND_TO_HOODIE", 4), ("EXIT_AFTER_CONCEALMENT", 6),
  ("REPEATED_SHELF_INTERACTION", 2), ("NONSCAN_BAGGING", 5), ("SPEED_SPIKE", 1.5)]

/-- The signal emitted for a concealment type. -/
def concealSignal : ConcealmentType → String
  | .handToPocket => "HAND_TO_POCKET"
  | .handToBag => "HAND_TO_BAG"
  | .handToPants => "HAND_TO_PANTS"
  | .handToShirt => "HAND_TO_SHIRT"
  | .handToHoodie => "HAND_TO_HOODIE"
  | .none | .nonscanBagging => "HAND_TO_POCKET"

/-! ## `_update`, section by section

Each section takes the context and the signals emitted so far in the call. -/

/-- What `_update` threads through its sections: `ctx` and `signals`. -/
abbrev Upd := TrackContext × List BehaviorSignal

section
variable (h : Host) (w : Settings) (cameraId : String)

def decay (ctx : TrackContext) (now : ℚ) : TrackContext :=
  let dt := max 0 (now - ctx.lastDecayTs)
  { ctx with riskScore := max 0 (ctx.riskScore - w.fsmDecayRate * dt), lastDecayTs := now }

def emit (signalName : String) (value : ℚ) (timestamp : ℚ) (trackId : Int) (concealType : ConcealmentType)
    (u : Upd) : Upd :=
  let weight := (weights.lookup signalName).getD 0
  let ctx := { u.1 with riskScore := u.1.riskScore + weight * value
                        activeSignals := u.1.activeSignals ++ [signalName] }
  (ctx, u.2 ++ [{ cameraId, trackId, signalName, weight := weight * value, fsmState := ctx.state,
                  cumulativeFsmScore := ctx.riskScore, concealmentType := concealType, timestamp }])

def hasType (ty : AssocEventType) (assoc : List AssociationEvent) : Bool := assoc.any (·.eventType = ty)

def shelfSection (assoc : List AssociationEvent) (trackId : Int) (timestamp : ℚ) (u : Upd) : Upd :=
  if hasType .shelfInteraction assoc then
    -- The counter is never set back.
    let ctx := { u.1 with state := .shelfInteraction, repeatedShelf := u.1.repeatedShelf + 1 }
    let u := emit cameraId "SHELF_INTERACTION" 1 timestamp trackId .none (ctx, u.2)
    if 1 < u.1.repeatedShelf then emit cameraId "REPEATED_SHELF_INTERACTION" 1 timestamp trackId .none u else u
  else u

def pickSection (assoc : List AssociationEvent) (trackId : Int) (timestamp : ℚ) (u : Upd) : Upd :=
  if hasType .itemPickup assoc then
    let ctx := { u.1 with lastPickTs := timestamp, pickVisual := true, state := .itemPicked }
    emit cameraId "VISUAL_PICK_CONFIRMED" 1 timestamp trackId .none (ctx, u.2)
  else u

def recentPick (ctx : TrackContext) (timestamp : ℚ) : Bool :=
  0 < ctx.lastPickTs && timestamp - ctx.lastPickTs ≤ w.concealWindowSec

def concealSection (keypoints : List Keypoint) (trackId : Int) (timestamp : ℚ) (u : Upd) : Upd :=
  if keypoints ≠ [] ∧ recentPick w u.1 timestamp then
    let concealType := (classifyConcealment h w keypoints w.handToHipDistancePx).1
    if concealType ≠ .none then
      let ctx := { u.1 with state := .concealment, lastConcealTs := timestamp }
      emit cameraId (concealSignal concealType) 1 timestamp trackId concealType (ctx, u.2)
    else u
  else u

/-- Leaving the zone the FSM watches. -/
def isExit (ev : AssociationEvent) : Bool := ev.eventType = .zoneExit && ev.zoneName = some "exit_zone"

def exitTurn (trackId : Int) (timestamp : ℚ) (u : Upd) (ev : AssociationEvent) : Upd :=
  -- Any concealment the context knows of, however old.
  if isExit ev ∧ 0 < u.1.lastConcealTs then
    emit cameraId "EXIT_AFTER_CONCEALMENT" 1 timestamp trackId .none ({ u.1 with state := .highRiskExit }, u.2)
  else u

def exitSection (assoc : List AssociationEvent) (trackId : Int) (timestamp : ℚ) (u : Upd) : Upd :=
  assoc.foldl (exitTurn cameraId trackId timestamp) u

def spikeSection (assoc : List AssociationEvent) (trackId : Int) (timestamp : ℚ) (u : Upd) : Upd :=
  if hasType .speedSpike assoc ∧ 3 < timestamp - u.1.lastSpeedSpikeTs then
    emit cameraId "SPEED_SPIKE" 1 timestamp trackId .none ({ u.1 with lastSpeedSpikeTs := timestamp }, u.2)
  else u

/-- `_update`: the new context and the signals of the frame. -/
def update (ctx : TrackContext) (person : PersonDetection) (assoc : List AssociationEvent) (timestamp : ℚ) : Upd :=
  let u : Upd := (decay w ctx timestamp, [])
  let u := shelfSection cameraId assoc person.trackId timestamp u
  let u := pickSection cameraId assoc person.trackId timestamp u
  let u := concealSection h w cameraId person.keypoints person.trackId timestamp u
  let u := exitSection cameraId assoc person.trackId timestamp u
  let u := spikeSection cameraId assoc person.trackId timestamp u
  ({ u.1 with lastTs := timestamp }, u.2)

/-- `_dominant_conceal`: the last concealment type among the signals. -/
def dominantConceal (signals : List BehaviorSignal) : ConcealmentType :=
  match signals.reverse.find? (·.concealmentType ≠ .none) with
  | some s => s.concealmentType
  | none => .none

/-! ## `process` -/

/-- `assoc_by_track.get(track_id, [])` -/
def assocOf (assocEvents : List AssociationEvent) (trackId : Int) : List AssociationEvent :=
  assocEvents.filter (·.trackId = trackId)

/-- The calls `process` makes to `_update`, in order: person and events. -/
def updates (persons : List PersonDetection) (assocEvents : List AssociationEvent) :
    List (PersonDetection × List AssociationEvent) :=
  persons.map fun p => (p, assocOf assocEvents p.trackId)

/-- The event `process` reports for a track it has updated. -/
def behaviorEvent (trackId : Int) (timestamp : ℚ) (u : Upd) : BehaviorEvent :=
  { cameraId, trackId, fsmState := u.1.state, fsmScore := u.1.riskScore, signals := u.2,
    concealmentType := dominantConceal u.2
    suspicious := w.fsmShopformerTriggerScore ≤ u.1.riskScore, timestamp }

/-- `_get_or_create` -/
def getOrCreate (timestamp : ℚ) (ctx : Option TrackContext) : TrackContext :=
  ctx.getD { firstSeen := timestamp, lastTs := timestamp, lastDecayTs := timestamp }

/-- One turn of the person loop. -/
def personTurn (timestamp : ℚ) (ctx : Option TrackContext) (c : PersonDetection × List AssociationEvent) :
    TrackContext × List BehaviorEvent :=
  let u := update h w cameraId (getOrCreate timestamp ctx) c.1 c.2 timestamp
  (u.1, [behaviorEvent w cameraId c.1.trackId timestamp u])

end

def process (h : Host) (w : Settings) (fsm : TheftRiskFSM) (persons : List PersonDetection)
    (assocEvents : List AssociationEvent) (timestamp : ℚ) : TheftRiskFSM × List BehaviorEvent :=
  let turn := Mealy.keyed (fun c => c.1.trackId) (personTurn h w fsm.cameraId timestamp)
  let tracks := Mealy.after turn fsm.tracks (updates persons assocEvents)
  let result := (Mealy.outs turn fsm.tracks (updates persons assocEvents)).flatten
  let seenIds := persons.map (·.trackId)
  -- Prune stale tracks.
  let tracks := tracks.filter fun tid ctx => !(tid ∉ seenIds && 10 < timestamp - ctx.lastTs)
  ({ fsm with tracks }, result)

end TheftRiskFSM

end Netra.Behavior
