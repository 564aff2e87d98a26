import Netra.Lib.Enum
import Mathlib.Algebra.Order.Ring.Rat
/-!
# Data types (`shared/netra/types.py`)

The messages the services exchange. Floats are exact rationals.
-/
namespace Netra

/-! ## Enumerations -/

inductive TheftStage where
  | browsing | nearShelf | shelfInteraction | itemPicked | concealment | highRiskExit
  deriving DecidableEq, Repr

inductive ConcealmentType where
  | none | handToPocket | handToBag | handToPants | handToShirt | handToHoodie | nonscanBagging
  deriving DecidableEq, Repr

inductive AlertSeverity where
  | low | medium | high | critical
  deriving DecidableEq, Repr

inductive IncidentStatus where
  | opened | reviewing | confirmed | dismissed
  deriving DecidableEq, Repr

inductive AssocEventType where
  | shelfApproach | shelfInteraction | itemPickup | itemDisappear | itemTransfer | zoneEnter | zoneExit | speedSpike
  deriving DecidableEq, Repr

/-! ### The members' values -/

open PyLib

instance : StrEnum TheftStage where
  members := [
    (.browsing, "BROWSING"), (.nearShelf, "NEAR_SHELF"), (.shelfInteraction, "SHELF_INTERACTION"),
    (.itemPicked, "ITEM_PICKED"), (.concealment, "CONCEALMENT"), (.highRiskExit, "HIGH_RISK_EXIT")]
  complete a := by cases a <;> decide
  distinct := by decide

instance : StrEnum ConcealmentType where
  members := [
    (.none, "NONE"), (.handToPocket, "HAND_TO_POCKET"), (.handToBag, "HAND_TO_BAG"),
    (.handToPants, "HAND_TO_PANTS"), (.handToShirt, "HAND_TO_SHIRT"), (.handToHoodie, "HAND_TO_HOODIE"),
    (.nonscanBagging, "NONSCAN_BAGGING")]
  complete a := by cases a <;> decide
  distinct := by decide

instance : StrEnum AlertSeverity where
  members := [(.low, "LOW"), (.medium, "MEDIUM"), (.high, "HIGH"), (.critical, "CRITICAL")]
  complete a := by cases a <;> decide
  distinct := by decide

instance : StrEnum IncidentStatus where
  members := [
    (.opened, "OPEN"), (.reviewing, "REVIEWING"), (.confirmed, "CONFIRMED"), (.dismissed, "DISMISSED")]
  complete a := by cases a <;> decide
  distinct := by decide

instance : StrEnum AssocEventType where
  members := [
    (.shelfApproach, "SHELF_APPROACH"), (.shelfInteraction, "SHELF_INTERACTION"), (.itemPickup, "ITEM_PICKUP"),
    (.itemDisappear, "ITEM_DISAPPEAR"), (.itemTransfer, "ITEM_TRANSFER"), (.zoneEnter, "ZONE_ENTER"),
    (.zoneExit, "ZONE_EXIT"), (.speedSpike, "SPEED_SPIKE")]
  complete a := by cases a <;> decide
  distinct := by decide

/-! ## Frame transport -/

structure FramePointer where
  cameraId : String
  shmName : String
  slotIndex : Int
  generation : Int
  width : Int
  height : Int
  channels : Int
  timestamp : ℚ
  frameSeq : Int := 0
  deriving DecidableEq, Repr

/-! ## Detection layer -/

structure BBox where
  x1 : ℚ
  y1 : ℚ
  x2 : ℚ
  y2 : ℚ
  deriving DecidableEq, Repr

namespace BBox

def cx (b : BBox) : ℚ := (b.x1 + b.x2) / 2
def cy (b : BBox) : ℚ := (b.y1 + b.y2) / 2
def width (b : BBox) : ℚ := b.x2 - b.x1
def height (b : BBox) : ℚ := b.y2 - b.y1

def iou (b other : BBox) : ℚ :=
  let ix1 := max b.x1 other.x1
  let iy1 := max b.y1 other.y1
  let ix2 := min b.x2 other.x2
  let iy2 := min b.y2 other.y2
  if ix2 ≤ ix1 ∨ iy2 ≤ iy1 then 0
  else
    let inter := (ix2 - ix1) * (iy2 - iy1)
    let union := b.width * b.height + other.width * other.height - inter
    if 0 < union then inter / union else 0

end BBox

structure Keypoint where
  x : ℚ
  y : ℚ
  conf : ℚ := 0
  deriving DecidableEq, Repr

-- COCO keypoint indices
def kpLeftShoulder : Nat := 5
def kpRightShoulder : Nat := 6
def kpLeftWrist : Nat := 9
def kpRightWrist : Nat := 10
def kpLeftHip : Nat := 11
def kpRightHip : Nat := 12

structure PersonDetection where
  trackId : Int
  cameraId : String
  bbox : BBox
  confidence : ℚ
  keypoints : List Keypoint
  timestamp : ℚ
  frameSeq : Int := 0
  deriving DecidableEq, Repr

structure ItemDetection where
  /-- Unique per camera per frame, not tracked over time. -/
  itemId : Int
  cameraId : String
  bbox : BBox
  className : String
  confidence : ℚ
  timestamp : ℚ
  deriving DecidableEq, Repr

/-! ## Association layer -/

/-- What `metadata: dict[str, Any]` can hold when it comes from or goes to JSON. -/
inductive Json where
  | null
  | bool (b : Bool)
  | int (n : Int)
  | float (q : ℚ)
  | str (s : String)
  | arr (xs : List Json)
  | obj (kvs : List (String × Json))
  deriving Repr

structure AssociationEvent where
  cameraId : String
  trackId : Int
  eventType : AssocEventType
  itemId : Option Int := none
  zoneName : Option String := none
  confidence : ℚ := 1
  metadata : List (String × Json) := []
  timestamp : ℚ
  deriving Repr

/-! ## Behaviour layer -/

structure BehaviorSignal where
  cameraId : String
  trackId : Int
  signalName : String
  weight : ℚ
  fsmState : TheftStage
  cumulativeFsmScore : ℚ
  concealmentType : ConcealmentType := .none
  timestamp : ℚ
  deriving DecidableEq, Repr

structure BehaviorEvent where
  cameraId : String
  trackId : Int
  fsmState : TheftStage
  fsmScore : ℚ
  signals : List BehaviorSignal := []
  concealmentType : ConcealmentType := .none
  suspicious : Bool := false
  timestamp : ℚ
  storeId : String := "default"
  orgId : String := "default"
  deriving DecidableEq, Repr

/-! ## ShopFormer and risk layers -/

structure ShopFormerScore where
  cameraId : String
  trackId : Int
  anomalyScore : ℚ
  reconstructionError : ℚ
  embedding : List ℚ
  poseSequenceLen : Int
  timestamp : ℚ
  deriving DecidableEq, Repr

structure IncidentEvent where
  incidentId : String
  cameraId : String
  trackId : Int
  riskScore : ℚ
  fsmScore : ℚ
  shopformerScore : ℚ
  theftStage : TheftStage
  concealmentType : ConcealmentType
  severity : AlertSeverity
  status : IncidentStatus := .opened
  evidenceFramePaths : List String := []
  clipPath : Option String := none
  modelVersion : String := "unknown"
  logicVersion : String := "unknown"
  timestamp : ℚ
  storeId : String := "default"
  orgId : String := "default"
  deriving DecidableEq, Repr

end Netra
