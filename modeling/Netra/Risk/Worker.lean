import Netra.Lib.Consumer
import Netra.Risk.Severity
/-!
# The risk worker (`backend/services/risk/main.py`)

`run` feeds ShopFormer scores and behaviour events to the engine of their camera
and publishes the incidents. `run_engine` says that what it does for one camera
is a run of that camera's engine, so the results about runs of an engine are
results about the worker.
-/
namespace Netra.Risk

open PyLib RedisStream

/-- The locals of `run`. -/
structure Worker where
  engines : Dict String RiskEngine := Dict.empty
  lastPrune : ℚ

/-- What `time.time()` and `uuid4()` return in a turn. -/
structure HostCalls where
  now : ℚ
  uuid : String

/-- What a turn writes to Redis: the live score of a track, and an incident. -/
structure WorkerOut where
  trackRisk : Option (String × Int × ℚ) := none
  incident : Option IncidentEvent := none

namespace Worker

/-- `engines.setdefault(camera_id, RiskEngine(camera_id))` -/
def engine (s : Worker) (cameraId : String) : RiskEngine := (s.engines.get? cameraId).getD (.init cameraId)

def onScore (s : Worker) (score : ShopFormerScore) : Worker :=
  { s with engines := s.engines.set score.cameraId ((s.engine score.cameraId).updateShopformer score) }

section
variable (h : Host) (w : Settings)

def onBehavior (s : Worker) (bev : BehaviorEvent) (uuid : String) : Worker × WorkerOut :=
  let (eng, incident) := (s.engine bev.cameraId).updateBehavior h w { bev, uuid }
  let score := ((eng.states.get? bev.trackId).getD {}).lastRiskScore
  ({ s with engines := s.engines.set bev.cameraId eng },
   { trackRisk := some (bev.cameraId, bev.trackId, roundTo 4 score), incident })

/-- An empty poll: prune once a minute. -/
def onIdle (s : Worker) (now : ℚ) : Worker :=
  if 60 < now - s.lastPrune then
    { engines := s.engines.mapValues fun _ eng => eng.pruneStale now pruneMaxAgeSec, lastPrune := now }
  else s

def turn (s : Worker) : HostCalls × Item ShopFormerScore BehaviorEvent → Worker × WorkerOut
  | (_, .side e) => (s.onScore e.data, {})
  | (x, .main e) => s.onBehavior h w e.data x.uuid
  | (x, .idle) => (s.onIdle x.now, {})

/-- `run`, on `netra:shopformer` and `netra:behavior`. -/
def run : Consumer Worker HostCalls ShopFormerScore BehaviorEvent WorkerOut where
  sideCount := 20
  mainCount := 20
  turn := turn h w

end

/-! ## The engine of one camera -/

/-- What a turn is to the engine of camera `cam`. -/
def opsOf (cam : String) (s : Worker) : HostCalls × Item ShopFormerScore BehaviorEvent → List RiskOp
  | (_, .side e) => if e.data.cameraId = cam then [.shopformer e.data] else []
  | (x, .main e) => if e.data.cameraId = cam then [.behavior { bev := e.data, uuid := x.uuid }] else []
  | (x, .idle) => if 60 < x.now - s.lastPrune then [.prune x.now] else []

/-- What the turns `is` are to it, from `s` on. -/
def ops (h : Host) (w : Settings) (cam : String) (s : Worker) :
    List (HostCalls × Item ShopFormerScore BehaviorEvent) → List RiskOp
  | [] => []
  | i :: is => opsOf cam s i ++ ops h w cam (s.turn h w i).1 is

/-- The incidents of camera `cam` that turns publish. -/
def published (cam : String) (outs : List WorkerOut) : List IncidentEvent :=
  (outs.filterMap (·.incident)).filter (·.cameraId = cam)

variable {h : Host} {w : Settings}

theorem engine_set (s : Worker) (cam cam' : String) (eng : RiskEngine) :
    engine { s with engines := s.engines.set cam' eng } cam = if cam' = cam then eng else s.engine cam := by
  unfold engine
  dsimp only
  rw [Dict.get?_set]
  by_cases hcam : cam' = cam
  · rw [if_pos hcam, if_pos hcam.symm, Option.getD_some]
  · rw [if_neg hcam, if_neg (Ne.symm hcam)]

/-- Pruning a fresh engine changes nothing, so it does not matter that the worker
has none yet. -/
theorem engine_prune (s : Worker) (cam : String) (now lastPrune : ℚ) :
    engine { engines := s.engines.mapValues fun _ eng => eng.pruneStale now pruneMaxAgeSec, lastPrune } cam =
      (s.engine cam).pruneStale now pruneMaxAgeSec := by
  unfold engine
  dsimp only
  rw [Dict.get?_mapValues]
  cases s.engines.get? cam with
  | none => rfl
  | some eng => rfl

theorem engine_turn (s : Worker) (i : HostCalls × Item ShopFormerScore BehaviorEvent) (cam : String) :
    (s.turn h w i).1.engine cam = Mealy.after (step h w) (s.engine cam) (opsOf cam s i) := by
  obtain ⟨x, item⟩ := i
  cases item with
  | side e =>
    unfold turn onScore opsOf
    dsimp only
    rw [engine_set]
    by_cases hcam : e.data.cameraId = cam
    · rw [if_pos hcam, if_pos hcam, hcam]
      rfl
    · rw [if_neg hcam, if_neg hcam]
      rfl
  | main e =>
    unfold turn onBehavior opsOf
    dsimp only
    rw [engine_set]
    by_cases hcam : e.data.cameraId = cam
    · rw [if_pos hcam, if_pos hcam, hcam]
      rfl
    · rw [if_neg hcam, if_neg hcam]
      rfl
  | idle =>
    unfold turn onIdle opsOf
    dsimp only
    split
    · exact engine_prune s cam x.now x.now
    · rfl

theorem published_turn (s : Worker) (i : HostCalls × Item ShopFormerScore BehaviorEvent) (cam : String) :
    published cam [(s.turn h w i).2] = (Mealy.outs (step h w) (s.engine cam) (opsOf cam s i)).filterMap id := by
  obtain ⟨x, item⟩ := i
  cases item with
  | side e =>
    unfold opsOf
    dsimp only
    split
    · rfl
    · rfl
  | main e =>
    -- an incident has the camera of its behaviour event
    have hout : (s.turn h w (x, .main e)).2.incident =
        ((s.engine e.data.cameraId).updateBehavior h w { bev := e.data, uuid := x.uuid }).2 := rfl
    have htag {i : IncidentEvent} (hi : ((s.engine e.data.cameraId).updateBehavior h w
        { bev := e.data, uuid := x.uuid }).2 = some i) : i.cameraId = e.data.cameraId := by
      rw [((updateBehavior_out _ _ _).1 hi).2]
      rfl
    unfold published opsOf
    by_cases hcam : e.data.cameraId = cam
    · subst hcam
      cases hi : ((s.engine e.data.cameraId).updateBehavior h w { bev := e.data, uuid := x.uuid }).2 with
      | none => simp [hout, hi, step]
      | some i => simp [hout, hi, step, htag hi]
    · cases hi : ((s.engine e.data.cameraId).updateBehavior h w { bev := e.data, uuid := x.uuid }).2 with
      | none => simp [hout, hi, hcam]
      | some i => simp [hout, hi, hcam, htag hi]
  | idle =>
    unfold opsOf
    dsimp only
    split
    · rfl
    · rfl

/-- What the worker does for camera `cam` is a run of the camera's engine. -/
theorem run_engine (s : Worker) (is : List (HostCalls × Item ShopFormerScore BehaviorEvent)) (cam : String) :
    (Mealy.after (turn h w) s is).engine cam = Mealy.after (step h w) (s.engine cam) (s.ops h w cam is) ∧
      published cam (Mealy.outs (turn h w) s is) =
        (Mealy.outs (step h w) (s.engine cam) (s.ops h w cam is)).filterMap id := by
  induction is generalizing s with
  | nil => exact ⟨rfl, rfl⟩
  | cons i is ih =>
    obtain ⟨hengine, hpub⟩ := ih (s.turn h w i).1
    rw [engine_turn] at hengine hpub
    constructor
    · rw [Mealy.after_cons, hengine, ops, Mealy.after_append]
    · have hsplit (o : WorkerOut) (outs : List WorkerOut) :
          published cam (o :: outs) = published cam [o] ++ published cam outs := by
        rw [published, ← List.singleton_append, List.filterMap_append, List.filter_append]
        rfl
      rw [Mealy.outs_cons, hsplit, hpub, published_turn, ops, Mealy.outs_append, List.filterMap_append]

/-- Items that the other services can send. -/
def ItemOk : Item ShopFormerScore BehaviorEvent → Prop
  | .side e => 0 ≤ e.data.anomalyScore ∧ e.data.anomalyScore ≤ 1
  | .main e => 0 ≤ e.data.fsmScore
  | .idle => True

/-- The worker never passes an interaction count on. -/
theorem fromService_ops {s : Worker} {is : List (HostCalls × Item ShopFormerScore BehaviorEvent)}
    (his : ∀ i ∈ is, ItemOk i.2) (cam : String) : ∀ op ∈ s.ops h w cam is, FromService op := by
  induction is generalizing s with
  | nil => simp [ops]
  | cons i is ih =>
    intro op hop
    rcases List.mem_append.1 hop with hop | hop
    · obtain ⟨x, item⟩ := i
      have hitem := his (x, item) List.mem_cons_self
      cases item with
      | side e =>
        unfold opsOf at hop
        dsimp only at hop
        split at hop
        · exact List.mem_singleton.1 hop ▸ hitem
        · cases hop
      | main e =>
        unfold opsOf at hop
        dsimp only at hop
        split at hop
        · exact List.mem_singleton.1 hop ▸ ⟨hitem, rfl⟩
        · cases hop
      | idle =>
        unfold opsOf at hop
        dsimp only at hop
        split at hop
        · exact List.mem_singleton.1 hop ▸ trivial
        · cases hop
    · exact ih (fun j hj => his j (List.mem_cons_of_mem _ hj)) op hop

/-- With the default settings every incident the worker publishes is `MEDIUM` or `LOW`. -/
theorem published_severity {lastPrune : ℚ} {is : List (HostCalls × Item ShopFormerScore BehaviorEvent)}
    (his : ∀ i ∈ is, ItemOk i.2) {cam : String} {i : IncidentEvent}
    (hi : i ∈ published cam (Mealy.outs (turn h .default) { lastPrune } is)) :
    i.severity = .medium ∨ i.severity = .low := by
  have hengine : engine { lastPrune } cam = .init cam := rfl
  rw [(run_engine _ _ _).2, hengine, List.mem_filterMap] at hi
  obtain ⟨o, ho, rfl⟩ := hi
  exact emitted_severity (engineOk_init cam) ⟨_, fromService_ops his cam, i, ho, rfl⟩

end Worker

end Netra.Risk
