import Netra.Lib.Keyed
import Netra.Lib.Numeric
import Netra.Settings
import Netra.Types
/-!
# The risk engine (`backend/services/risk/engine.py`)

One `RiskEngine` per camera combines FSM, ShopFormer, interaction and context
scores into incidents. Log lines and metrics are left out; the evaluation log
is written next to the incident and does not touch the engine.
-/
namespace Netra.Risk

open PyLib

/-- `_INCIDENT_COOLDOWN_SEC` -/
def incidentCooldownSec : ℚ := 30

structure TrackRiskState where
  lastShopformerScore : ℚ := 0
  lastShopformerTs : ℚ := 0
  lastIncidentTs : ℚ := 0
  interactionCount : Int := 0
  lastRiskScore : ℚ := 0
  deriving DecidableEq, Repr

structure RiskEngine where
  cameraId : String
  states : Dict Int TrackRiskState := Dict.empty

/-- `RiskEngine(camera_id)` -/
def RiskEngine.init (cameraId : String) : RiskEngine := { cameraId }

def normaliseFsm (fsmScore maxScore : ℚ) : ℚ := min 1 (max 0 (fsmScore / maxScore))

def severity (riskScore : ℚ) : AlertSeverity :=
  if 0.90 ≤ riskScore then .critical
  else if 0.80 ≤ riskScore then .high
  else if 0.65 ≤ riskScore then .medium
  else .low

section
variable (h : Host) (w : Settings)

/-- ShopFormer contribution: the cached score, if fresh. -/
def sfScore (st : TrackRiskState) (timestamp : ℚ) : ℚ :=
  if timestamp - st.lastShopformerTs < 5 then st.lastShopformerScore else 0

/-- Context contribution: evening hours. -/
def context (timestamp : ℚ) : ℚ := if 18 ≤ h.hour timestamp ∧ h.hour timestamp ≤ 22 then 0.3 else 0

/-- The combined score, from a state whose interaction count is up to date. -/
def riskScore (st : TrackRiskState) (bev : BehaviorEvent) : ℚ :=
  w.riskWeightFsm * normaliseFsm bev.fsmScore 20
    + w.riskWeightShopformer * sfScore st bev.timestamp
    + w.riskWeightInteraction * min 1 ((st.interactionCount : ℚ) / 10)
    + w.riskWeightContext * context h bev.timestamp

/-- A behaviour event with its `interaction_event_count` and the `uuid4()` an
incident would get. -/
structure BehaviorCall where
  bev : BehaviorEvent
  interactionEventCount : Int := 0
  uuid : String

def incidentOf (st : TrackRiskState) (c : BehaviorCall) : IncidentEvent :=
  { incidentId := c.uuid, cameraId := c.bev.cameraId, trackId := c.bev.trackId
    riskScore := roundTo 4 (riskScore h w st c.bev), fsmScore := c.bev.fsmScore
    shopformerScore := sfScore st c.bev.timestamp, theftStage := c.bev.fsmState
    concealmentType := c.bev.concealmentType, severity := severity (riskScore h w st c.bev)
    status := .opened, modelVersion := w.modelVersion, logicVersion := w.logicVersion
    timestamp := c.bev.timestamp }

/-- The state with the events of the call counted. -/
def counted (st : Option TrackRiskState) (c : BehaviorCall) : TrackRiskState :=
  let st := st.getD {}
  { st with interactionCount := st.interactionCount + c.interactionEventCount }

/-- `update_behavior` on the state of the event's track. -/
def behaviorTurn (st : Option TrackRiskState) (c : BehaviorCall) : TrackRiskState × Option IncidentEvent :=
  let st := counted st c
  let risk := riskScore h w st c.bev
  let st := { st with lastRiskScore := risk }
  if risk < w.riskAlertThreshold then (st, none)
  -- De-duplicate: don't fire within the cool-down.
  else if c.bev.timestamp - st.lastIncidentTs < incidentCooldownSec then (st, none)
  else ({ st with lastIncidentTs := c.bev.timestamp }, some (incidentOf h w st c))

namespace RiskEngine

def updateBehavior (e : RiskEngine) (c : BehaviorCall) : RiskEngine × Option IncidentEvent :=
  let r := Mealy.keyed (·.bev.trackId) (behaviorTurn h w) e.states c
  ({ e with states := r.1 }, r.2)

def updateShopformer (e : RiskEngine) (score : ShopFormerScore) : RiskEngine :=
  let st := (e.states.get? score.trackId).getD {}
  let st := { st with lastShopformerScore := score.anomalyScore, lastShopformerTs := score.timestamp }
  { e with states := e.states.set score.trackId st }

/-- Whether `prune_stale` at wall-clock time `now` drops a state. -/
def isStale (now maxAgeSec : ℚ) (st : TrackRiskState) : Bool :=
  maxAgeSec < now - max st.lastShopformerTs st.lastIncidentTs

def pruneStale (e : RiskEngine) (now : ℚ) (maxAgeSec : ℚ) : RiskEngine :=
  { e with states := e.states.filter fun _ st => !isStale now maxAgeSec st }

end RiskEngine

end

end Netra.Risk
