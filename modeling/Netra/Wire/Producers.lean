import Netra.Lib.Machine
import Netra.Wire.JsonLines
import Mathlib.Tactic.NormNum
/-!
# Who writes to `netra:incidents`

`risk/main.py` adds encoded incidents, the edge worker adds what its file queue
holds (`backend/core/edge_mode.py`), and two demo generators build the message
themselves (`backend/core/demo_mode.py`, `scripts/demo_replay.py`). Everything
read from the stream goes through `decode_incident_event`: `producer_readable_iff`.
-/
namespace Netra

open PyLib

namespace Wire

section
variable (py : PyJson)

/-! ## Demo incidents -/

/-- `_DEMO_CAMERAS` -/
def demoCameras : List String := ["cam-demo-01", "cam-demo-02", "cam-demo-03"]

/-- `_DEMO_SEVERITIES`, and `_SEVERITIES`, all of which have a weight. -/
def demoSeverities : List String := ["LOW", "MEDIUM", "HIGH", "CRITICAL"]

/-- `_DEMO_STAGES`, and `_STAGES` -/
def demoStages : List String :=
  ["SHELF_INTERACTION", "VISUAL_PICK", "CONCEALMENT", "EXIT_AFTER_CONCEALMENT", "NONSCAN_BAGGING"]

/-- `_DEMO_CONCEALMENT`, and `_CONCEALMENT` -/
def demoConcealment : List String := ["POCKET", "BAG", "UNDER_SHIRT", "JACKET", "PANTS"]

/-- What a demo incident draws, with track ids up to `maxTrack`. -/
structure Draws (maxTrack : Int) where
  /-- `str(uuid.uuid4())` -/
  uuid : String
  severity : String
  severity_mem : severity ∈ demoSeverities
  stage : String
  stage_mem : stage ∈ demoStages
  concealment : String
  concealment_mem : concealment ∈ demoConcealment
  risk : ℚ
  risk_range : 0.65 ≤ risk ∧ risk ≤ 0.98
  fsm : ℚ
  fsm_range : 0.5 ≤ fsm ∧ fsm ≤ 1
  shopformer : ℚ
  shopformer_range : 0.4 ≤ shopformer ∧ shopformer ≤ 0.9
  trackId : Int
  trackId_range : 1 ≤ trackId ∧ trackId ≤ maxTrack
  /-- `time.time()` -/
  now : ℚ

/-- The message both generators write. -/
def demoIncident {maxTrack : Int} (cameraId : String) (d : Draws maxTrack) : Message := [
  ("incident_id", d.uuid),
  ("camera_id", cameraId),
  ("track_id", py.strInt d.trackId),
  ("risk_score", py.strFloat d.risk),
  ("fsm_score", py.strFloat d.fsm),
  ("shopformer_score", py.strFloat d.shopformer),
  ("severity", d.severity),
  ("theft_stage", d.stage),
  ("concealment_type", d.concealment),
  ("timestamp", py.strFloat d.now),
  ("store_id", "demo-store"),
  ("org_id", "demo-org"),
  ("_demo", "true")]

structure SyntheticDraws extends Draws 50 where
  camera : String
  camera_mem : camera ∈ demoCameras

/-- `_synthetic_incident` (`demo_mode.py`) -/
def syntheticIncident (d : SyntheticDraws) : Message := demoIncident py d.camera d.toDraws

/-- `_incident` (`demo_replay.py`) -/
def replayIncident (cameraId : String) (d : Draws 30) : Message := demoIncident py cameraId d

/-! ## The edge queue -/

/-- `alert["_queued_at"] = time.time()` -/
def queuedAlert (alert : Message) (now : ℚ) : Json :=
  .obj (Dict.setItems "_queued_at" (.float now) (jsonItems alert))

/-- `{k: str(v) for k, v in alert.items()}`; `none` for what is not a dict. -/
def strValues : Json → Option Message
  | .obj kvs => some (strItems py kvs)
  | _ => none

/-- The messages of `alerts` up to the first that is not a dict. -/
def sendAll : List Json → List Message
  | [] => []
  | alert :: alerts =>
    match strValues py alert with
    | none => []
    | some m => m :: sendAll alerts

inductive EdgeAction where
  /-- `LocalAlertQueue.push` of an encoded incident at the clock `now` -/
  | push (incident : IncidentEvent) (now : ℚ)
  /-- A round of `_sync_loop`; Redis takes the first `sent` alerts before it is lost again. -/
  | sync (sent : Nat)

/-- The text `drain` finds, and what it returns; `none` when a line is not JSON. -/
def drain (file : List Char) : Option (List Json) :=
  py.loadLines ((splitLines (strip file)).filter (strip · ≠ []))

/-- One action on the queue file (empty when there is none), and the messages added to the stream. -/
def edgeStep (file : List Char) : EdgeAction → List Char × List Message
  | .push incident now =>
    (file ++ (py.dumps (queuedAlert (encodeIncidentEvent py.toPyText incident) now)).toList ++ ['\n'], [])
  | .sync sent =>
    -- `self._queue.size == 0`
    if file = [] then (file, [])
    else ([], match drain py file with
      -- the file is cleared before its lines are read
      | none => []
      | some alerts => sendAll py (alerts.take sent))

/-! ## All producers -/

inductive Producer where
  /-- `risk/main.py`, for an incident of the engine -/
  | risk (incident : IncidentEvent)
  | synthetic (d : SyntheticDraws)
  | replay (cameraId : String) (d : Draws 30)
  /-- `EdgeSyncWorker`, from an empty queue -/
  | edge (acts : List EdgeAction)

/-- What the producer adds to the stream. -/
def added : Producer → List Message
  | .risk incident => [encodeIncidentEvent py.toPyText incident]
  | .synthetic d => [syntheticIncident py d]
  | .replay cameraId d => [replayIncident py cameraId d]
  | .edge acts => (Mealy.outs (edgeStep py) [] acts).flatten

/-- A consumer gets the incident the message is about. -/
def Readable (m : Message) : Prop :=
  ∃ incident, decodeIncidentEvent py.toPyText m = some incident ∧
    m.lookup "incident_id" = some incident.incidentId ∧
    m.lookup "camera_id" = some incident.cameraId ∧
    m.lookup "severity" = some (StrEnum.value incident.severity) ∧
    m.lookup "theft_stage" = some (StrEnum.value incident.theftStage) ∧
    m.lookup "concealment_type" = some (StrEnum.value incident.concealmentType)

/-- Not one of the two demo generators. -/
def Producer.Encodes : Producer → Prop
  | .risk _ | .edge _ => True
  | .synthetic _ | .replay _ _ => False

end

variable {py : PyJson}

/-! ## Encoded incidents -/

theorem readable_encode (incident : IncidentEvent) : Readable py (encodeIncidentEvent py.toPyText incident) :=
  ⟨_, decode_encodeIncidentEvent py.toPyText incident, by simp [encodeIncidentEvent]⟩

/-- The decoder does not look at `_queued_at`. -/
theorem decodeIncidentEvent_congr {m m' : Message} (h : ∀ k, k ≠ "_queued_at" → m'.lookup k = m.lookup k) :
    decodeIncidentEvent py.toPyText m' = decodeIncidentEvent py.toPyText m := by
  simp only [decodeIncidentEvent, intField, floatField, enumField, jsonField, textOrNone, h, ne_eq, String.reduceEq,
    not_false_eq_true]

theorem Readable.congr {m m' : Message} (h : ∀ k, k ≠ "_queued_at" → m'.lookup k = m.lookup k)
    (hm : Readable py m) : Readable py m' := by
  obtain ⟨incident, hdec, hlookup⟩ := hm
  refine ⟨incident, (decodeIncidentEvent_congr h).trans hdec, ?_⟩
  simpa [h] using hlookup

/-! ## The edge queue -/

/-- An incident in the queue, and when it was put there. -/
abbrev Queued := IncidentEvent × ℚ

variable (py) in
def alertOf (q : Queued) : Json := queuedAlert (encodeIncidentEvent py.toPyText q.1) q.2

variable (py) in
/-- What the edge worker adds for it. -/
def sentMessage (q : Queued) : Message :=
  strItems py (Dict.setItems "_queued_at" (.float q.2) (jsonItems (encodeIncidentEvent py.toPyText q.1)))

theorem readable_sent (q : Queued) : Readable py (sentMessage py q) := by
  refine (readable_encode q.1).congr fun k hk => ?_
  rw [sentMessage, lookup_strItems, lookup_setItems _ _ hk, ← lookup_strItems, strItems_jsonItems]

theorem wellFormed_alertOf (q : Queued) : (alertOf py q).WellFormed := by
  refine .obj (Dict.nodup_setItems _ _ _ ?_) fun kv hkv => ?_
  · simp [jsonItems, encodeIncidentEvent]
  · rcases Dict.mem_setItems hkv with rfl | hkv
    · exact .float _
    · exact wellFormed_jsonItems kv hkv

theorem drain_jsonLines {vs : List Json} (hvs : ∀ v ∈ vs, v.WellFormed) : drain py (py.jsonLines vs) = some vs := by
  have hkeep : ∀ l ∈ vs.map fun v => (py.dumps v).toList, decide (strip l ≠ []) = true := by
    intro l hl
    have htrim := PyJson.trim_lines l hl
    rw [strip_trim htrim]
    exact decide_eq_true htrim.ne_nil
  rw [drain, PyJson.splitLines_strip_jsonLines, List.filter_eq_self.2 hkeep, PyJson.loadLines_dumps hvs]

theorem drain_queue (qs : List Queued) :
    drain py (py.jsonLines (qs.map (alertOf py))) = some (qs.map (alertOf py)) := by
  refine drain_jsonLines fun v hv => ?_
  obtain ⟨q, -, rfl⟩ := List.mem_map.1 hv
  exact wellFormed_alertOf q

theorem sendAll_queue (qs : List Queued) : sendAll py (qs.map (alertOf py)) = qs.map (sentMessage py) := by
  induction qs with
  | nil => rfl
  | cons q qs ih =>
    rw [List.map_cons, sendAll, ih]
    rfl

/-- The file holds what was queued since it was last drained; only that is added. -/
theorem edgeStep_spec (qs : List Queued) (a : EdgeAction) :
    (∃ qs' : List Queued,
      (edgeStep py (py.jsonLines (qs.map (alertOf py))) a).1 = py.jsonLines (qs'.map (alertOf py))) ∧
      ∀ m ∈ (edgeStep py (py.jsonLines (qs.map (alertOf py))) a).2, ∃ q ∈ qs, m = sentMessage py q := by
  cases a with
  | push incident now =>
    refine ⟨⟨qs ++ [(incident, now)], ?_⟩, fun m hm => by cases hm⟩
    rw [List.map_append, List.map_singleton, PyJson.jsonLines_concat]
    rfl
  | sync sent =>
    rw [edgeStep]
    split
    · exact ⟨⟨qs, rfl⟩, fun m hm => by cases hm⟩
    · rw [drain_queue]
      refine ⟨⟨[], rfl⟩, fun m hm => ?_⟩
      dsimp only at hm
      rw [← List.map_take, sendAll_queue] at hm
      obtain ⟨q, hq, rfl⟩ := List.mem_map.1 hm
      exact ⟨q, List.mem_of_mem_take hq, rfl⟩

theorem edge_sent (acts : List EdgeAction) : ∀ m ∈ (Mealy.outs (edgeStep py) [] acts).flatten,
    ∃ q, m = sentMessage py q := by
  intro m hm
  obtain ⟨ms, hms, hm⟩ := List.mem_flatten.1 hm
  obtain ⟨pre, a, -, -, rfl⟩ := (Mealy.mem_outs _ _ _ _).1 hms
  obtain ⟨qs, hfile⟩ : ∃ qs : List Queued, Mealy.after (edgeStep py) [] pre = py.jsonLines (qs.map (alertOf py)) :=
    Mealy.after_inv (edgeStep py) (fun file => ∃ qs : List Queued, file = py.jsonLines (qs.map (alertOf py))) []
      ⟨[], rfl⟩
      (fun _ a => by
        rintro ⟨qs, rfl⟩
        exact (edgeStep_spec qs a).1) pre
  rw [hfile] at hm
  obtain ⟨q, -, rfl⟩ := (edgeStep_spec qs a).2 m hm
  exact ⟨q, rfl⟩

/-! ## Demo incidents -/

theorem decode_status {m : Message} {incident : IncidentEvent}
    (h : decodeIncidentEvent py.toPyText m = some incident) : (m.lookup "status").isSome := by
  by_contra hnone
  rw [Option.not_isSome_iff_eq_none] at hnone
  simp [decodeIncidentEvent, enumField, hnone] at h

/-- A demo message has no status, and its concealment type is none of the enumeration's. -/
theorem demo_unreadable {maxTrack : Int} (cameraId : String) (d : Draws maxTrack) :
    ¬ Readable py (demoIncident py cameraId d) := by
  rintro ⟨incident, hdec, -⟩
  have hstatus := decode_status hdec
  simp [demoIncident] at hstatus

/-- A producer's messages can be read exactly when it is not a demo generator. -/
theorem producer_readable_iff (py : PyJson) (p : Producer) : (∀ m ∈ added py p, Readable py m) ↔ p.Encodes := by
  cases p with
  | risk incident =>
    refine iff_of_true (fun m hm => ?_) trivial
    obtain rfl := List.mem_singleton.1 hm
    exact readable_encode incident
  | synthetic d => exact iff_of_false (fun h => demo_unreadable d.camera d.toDraws (h _ (List.mem_singleton.2 rfl))) id
  | replay cameraId d => exact iff_of_false (fun h => demo_unreadable cameraId d (h _ (List.mem_singleton.2 rfl))) id
  | edge acts =>
    refine iff_of_true (fun m hm => ?_) trivial
    obtain ⟨q, rfl⟩ := edge_sent acts m hm
    exact readable_sent q

/-- One draw of the synthetic generator. -/
def pocketed : SyntheticDraws where
  uuid := "5f2b8a1e-0c57-4f0b-9a8e-3f6f0f0f8c11"
  severity := "HIGH"
  severity_mem := by decide
  stage := "CONCEALMENT"
  stage_mem := by decide
  concealment := "POCKET"
  concealment_mem := by decide
  risk := 0.8
  risk_range := by norm_num
  fsm := 0.7
  fsm_range := by norm_num
  shopformer := 0.6
  shopformer_range := by norm_num
  trackId := 7
  trackId_range := by decide
  now := 1700000000
  camera := "cam-demo-01"
  camera_mem := by decide

theorem producer_readable_fails : ¬ ∀ m ∈ added PyJson.reference (.synthetic pocketed), Readable PyJson.reference m :=
  fun h => demo_unreadable pocketed.camera pocketed.toDraws (h _ (List.mem_singleton.2 rfl))

end Wire

end Netra
