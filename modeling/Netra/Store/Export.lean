import Netra.Store.Persistence
import Netra.Store.Reviews
import Netra.Store.Metrics
import Netra.Wire.JsonLines
/-!
# The training export

`OperatorLabelExporter` (`backend/services/eval/labeler.py`) and
`DatasetCollector` (`backend/services/data/collector.py`) both take the labelled
incidents of a window. The exporter joins them with `reviews`, so it has a row
for every review of one (`one_row_each_iff`).
-/
namespace Netra

open PyLib Table Store Metrics Persistence

namespace Export

/-- `WHERE i.status IN ('CONFIRMED','DISMISSED') AND i.occurred_at >= $1` -/
def isLabeled (now : ℚ) (days : Int) (r : Incident) : Bool :=
  decide (r.status ∈ ["CONFIRMED", "DISMISSED"]) && inWindow now days r

/-! ## `OperatorLabelExporter` -/

/-- `ON r.incident_id = i.id` -/
def reviewOf (i : Incident) (r : Review) : Bool := r.incidentId = i.id

/-- A row of `SELECT i.*, r.operator_id`. -/
abbrev Joined := Incident × Option Review

/-- `OperatorLabelExporter._fetch_labeled`, `days` before `now` -/
def fetchLabeled (scan : Scan Joined) (now : ℚ) (days : Int) (db : Database) : List Joined :=
  select scan (fun x => isLabeled now days x.1) (fun x => x.1.occurredAt) (leftJoin reviewOf db.incidents db.reviews)

/-- `1 if r["status"] == "CONFIRMED" else 0` -/
def labelOf (r : Incident) : Int := if r.status = "CONFIRMED" then 1 else 0

/-- A row of the CSV file. -/
structure CsvRow where
  incidentId : String
  cameraId : String
  storeId : String
  occurredAt : String
  riskScore : ℚ
  fsmScore : ℚ
  shopformerScore : ℚ
  theftStage : String
  concealmentType : String
  severity : String
  label : Int
  operatorId : Option String
  deriving DecidableEq, Repr

section
variable (isoformat : ℚ → String)

def csvRow (x : Joined) : CsvRow where
  incidentId := x.1.id
  cameraId := x.1.cameraId
  storeId := x.1.storeId
  occurredAt := isoformat x.1.occurredAt
  riskScore := x.1.riskScore
  fsmScore := x.1.fsmScore
  shopformerScore := x.1.shopformerScore
  theftStage := x.1.theftStage
  concealmentType := x.1.concealmentType
  severity := x.1.severity
  label := labelOf x.1
  operatorId := x.1.reviewedBy

/-- `export_csv`: the rows under the header, and what it returns. -/
def exportCsv (scan : Scan Joined) (now : ℚ) (days : Int) (db : Database) : List CsvRow × Nat :=
  let rows := fetchLabeled scan now days db
  (rows.map (csvRow isoformat), rows.length)

/-- A column of text that may be null. -/
def text : Option String → Json
  | none => .null
  | some s => .str s

/-- The object of one row: the columns of `incidents`, `operator_id`, `label`. -/
def jsonRow (x : Joined) : Json :=
  .obj [
    ("id", .str x.1.id),
    ("camera_id", .str x.1.cameraId),
    ("track_id", .int x.1.trackId),
    ("risk_score", .float x.1.riskScore),
    ("fsm_score", .float x.1.fsmScore),
    ("shopformer_score", .float x.1.shopformerScore),
    ("theft_stage", .str x.1.theftStage),
    ("concealment_type", .str x.1.concealmentType),
    ("severity", .str x.1.severity),
    ("status", .str x.1.status),
    ("model_version", text x.1.modelVersion),
    ("logic_version", text x.1.logicVersion),
    ("operator_notes", text x.1.operatorNotes),
    ("reviewed_by", text x.1.reviewedBy),
    ("reviewed_at", text (x.1.reviewedAt.map isoformat)),
    ("occurred_at", .str (isoformat x.1.occurredAt)),
    ("store_id", .str x.1.storeId),
    ("org_id", .str x.1.orgId),
    ("operator_id", text (x.2.map Review.operatorId)),
    ("label", .int (labelOf x.1))]

/-- `export_jsonl`: the file, and what it returns. -/
def exportJsonl (py : PyJson) (scan : Scan Joined) (now : ℚ) (days : Int) (db : Database) : List Char × Nat :=
  let rows := fetchLabeled scan now days db
  (py.jsonLines (rows.map (jsonRow isoformat)), rows.length)

end

/-! ## `DatasetCollector` -/

/-- The evidence of the incidents, and the files there are. -/
structure Evidence where
  /-- `SELECT clip_path FROM evidence_clips` -/
  clips : String → List String
  /-- `SELECT frame_path FROM evidence_frames ... ORDER BY frame_seq` -/
  frames : String → List String
  /-- `Path(p).exists()` -/
  onDisk : String → Bool
  /-- `Path(p).name` -/
  name : String → String

/-- A row with its clips and frames. -/
structure Collected where
  incident : Incident
  clips : List String
  frames : List String

/-- `DatasetCollector._fetch_labeled` -/
def fetchWithEvidence (evidence : Evidence) (scan : Scan Incident) (now : ℚ) (days : Int) (db : Database) :
    List Collected :=
  (select scan (isLabeled now days) Incident.occurredAt db.incidents).map fun i =>
    { incident := i, clips := evidence.clips i.id, frames := (evidence.frames i.id).take 10 }

structure ManifestEntry where
  incidentId : String
  label : String
  cameraId : String
  storeId : String
  riskScore : ℚ
  fsmScore : ℚ
  shopformerScore : ℚ
  theftStage : String
  concealmentType : String
  severity : String
  occurredAt : String
  clips : List String
  frames : List String
  deriving DecidableEq, Repr

/-- The counts in the dict `collect` returns. -/
structure Stats where
  total : Nat
  theft : Nat
  normal : Nat
  deriving DecidableEq, Repr

/-- The files of `paths` that are there, copied to `dest` under a name with `tag`. -/
def copied (evidence : Evidence) (dest tag : String) (paths : List String) : List String :=
  (paths.filter evidence.onDisk).map fun p => dest ++ "/" ++ tag ++ evidence.name p

/-- One turn of the loop over the rows. -/
def manifestEntry (isoformat : ℚ → String) (evidence : Evidence) (outputDir : String) (r : Collected) :
    ManifestEntry :=
  let label := if r.incident.status = "CONFIRMED" then "theft" else "normal"
  let dest := outputDir ++ "/" ++ label
  { incidentId := r.incident.id
    label
    cameraId := r.incident.cameraId
    storeId := r.incident.storeId
    riskScore := r.incident.riskScore
    fsmScore := r.incident.fsmScore
    shopformerScore := r.incident.shopformerScore
    theftStage := r.incident.theftStage
    concealmentType := r.incident.concealmentType
    severity := r.incident.severity
    occurredAt := isoformat r.incident.occurredAt
    clips := copied evidence dest (r.incident.id ++ "_") r.clips
    frames := copied evidence dest (r.incident.id ++ "_frame_") (r.frames.take 5) }

/-- `collect`: the manifest, and the counts it returns. -/
def collect (isoformat : ℚ → String) (evidence : Evidence) (outputDir : String) (scan : Scan Incident) (now : ℚ)
    (days : Int) (db : Database) : List ManifestEntry × Stats :=
  let rows := fetchWithEvidence evidence scan now days db
  let manifest := rows.map (manifestEntry isoformat evidence outputDir)
  (manifest,
    { total := manifest.length
      theft := manifest.countP fun e => e.label = "theft"
      normal := manifest.countP fun e => ¬ e.label = "theft" })

/-! ## One row each -/

/-- The labelled incidents of the window. -/
def labeled (now : ℚ) (days : Int) (db : Database) : List Incident := db.incidents.filter (isLabeled now days)

/-- The incidents with their labels. -/
def labels (now : ℚ) (days : Int) (db : Database) : List (String × Int) :=
  (labeled now days db).map fun r => (r.id, labelOf r)

/-- `obj["id"]` and `obj["label"]` -/
def idLabel (v : Json) : Option (String × Int) := do
  return (← Wire.asStr (← Wire.get v "id"), ← Wire.asInt (← Wire.get v "label"))

/-- The two exports have one row for each labelled incident, with its label, and
return their number, which is what `collect` counts. -/
structure OneRowEach (py : PyJson) (isoformat : ℚ → String) (evidence : Evidence) (now : ℚ) (days : Int)
    (db : Database) : Prop where
  csv : ∀ scan,
    ((exportCsv isoformat scan now days db).1.map fun r => (r.incidentId, r.label)).Perm (labels now days db)
  csv_count : ∀ scan, (exportCsv isoformat scan now days db).2 = (labeled now days db).length
  jsonl : ∀ scan, ∃ objs, py.loadLines (splitLines (exportJsonl isoformat py scan now days db).1) = some objs ∧
    (objs.map idLabel).Perm ((labels now days db).map some)
  jsonl_count : ∀ scan, (exportJsonl isoformat py scan now days db).2 = (labeled now days db).length
  collected : ∀ outputDir scan,
    (collect isoformat evidence outputDir scan now days db).2.total = (labeled now days db).length

section
variable {py : PyJson} {isoformat : ℚ → String} {evidence : Evidence} {now : ℚ} {days : Int} {db : Database}

/-- What the exporter fetches: the labelled incidents, joined with their reviews. -/
theorem perm_fetchLabeled (scan : Scan Joined) (now : ℚ) (days : Int) (db : Database) :
    (fetchLabeled scan now days db).Perm (leftJoin reviewOf (labeled now days db) db.reviews) := by
  refine perm_select.trans ?_
  rw [filter_leftJoin (isLabeled now days)]
  rfl

/-- `collect` counts every labelled incident once, whatever its reviews. -/
theorem collect_total (outputDir : String) (scan : Scan Incident) :
    (collect isoformat evidence outputDir scan now days db).2.total = (labeled now days db).length := by
  simp only [collect, fetchWithEvidence, List.length_map]
  exact perm_select.length_eq

theorem wellFormed_text (s : Option String) : (text s).WellFormed := by
  cases s with
  | none => exact .null
  | some s => exact .str s

theorem wellFormed_jsonRow (x : Joined) : (jsonRow isoformat x).WellFormed := by
  refine .obj ?_ ?_
  · simp only [List.map_cons, List.map_nil]
    decide
  · simp [wellFormed_text, Json.WellFormed.str, Json.WellFormed.int, Json.WellFormed.float]

theorem idLabel_jsonRow (x : Joined) : idLabel (jsonRow isoformat x) = some (x.1.id, labelOf x.1) := rfl

/-- Where no labelled incident has two reviews, the exporter fetches each once. -/
theorem perm_map_fst_fetchLabeled (h : ∀ i ∈ labeled now days db, db.reviews.countP (reviewOf i) ≤ 1)
    (scan : Scan Joined) : ((fetchLabeled scan now days db).map Prod.fst).Perm (labeled now days db) := by
  have hperm := (perm_fetchLabeled scan now days db).map Prod.fst
  rwa [map_fst_leftJoin h] at hperm

/-- Each labelled incident is there once exactly when it has no second review. -/
theorem oneRowEach_iff : OneRowEach py isoformat evidence now days db ↔
    ∀ i ∈ labeled now days db, db.reviews.countP (reviewOf i) ≤ 1 := by
  constructor
  · intro h i hi
    have hcount : (fetchLabeled (.forward _) now days db).length = (labeled now days db).length :=
      h.csv_count (.forward _)
    rw [(perm_fetchLabeled (.forward _) now days db).length_eq, length_leftJoin,
      sum_eq_length_iff fun _ _ => Nat.le_max_left 1 _] at hcount
    have hone := hcount i hi
    omega
  · intro h
    have hfst := perm_map_fst_fetchLabeled h
    have hlength (scan) : (fetchLabeled scan now days db).length = (labeled now days db).length := by
      rw [← (hfst scan).length_eq, List.length_map]
    refine ⟨fun scan => ?_, hlength, fun scan => ?_, hlength, collect_total⟩
    · have hlabels := (hfst scan).map fun r => (r.id, labelOf r)
      rw [List.map_map] at hlabels
      rw [exportCsv, List.map_map]
      exact hlabels
    · refine ⟨(fetchLabeled scan now days db).map (jsonRow isoformat), ?_, ?_⟩
      · rw [exportJsonl, PyJson.splitLines_jsonLines]
        refine PyJson.loadLines_dumps fun v hv => ?_
        obtain ⟨x, -, rfl⟩ := List.mem_map.1 hv
        exact wellFormed_jsonRow x
      · have hread : idLabel ∘ jsonRow isoformat = fun x => some (x.1.id, labelOf x.1) := funext idLabel_jsonRow
        have hlabels := (hfst scan).map fun r => some (r.id, labelOf r)
        rw [List.map_map] at hlabels
        rw [List.map_map, hread, labels, List.map_map]
        exact hlabels

end

/-! ## Runs -/

/-- The persistence worker writes an incident, or an operator reviews one. -/
inductive Op where
  | persist (incident : IncidentEvent)
  | review (id verdict notes operator : String) (env : Nat → Reviews.Env)

variable (up : PyUpper)

/-- One operation, and the incident that has a review more. -/
def step (db : Database) : Op → Database × Option String
  | .persist incident => ((writeIncident incident db).getD db, none)
  | .review id verdict notes operator env =>
    (((Reviews.reviewIncident up id verdict notes operator).run Reviews.perform env db).1,
      if id ∈ db.incidentIds then some id else none)

/-- The database after the operations `ops`. -/
def dbAfter (db : Database) (ops : List Op) : Database := Mealy.after (step up) db ops

/-- How often the incident `id` was reviewed. -/
def timesReviewed (db : Database) (ops : List Op) (id : String) : Nat :=
  ((Mealy.outs (step up) db ops).filterMap fun o => o).count id

theorem reviews_step (db : Database) (op : Op) :
    (step up db op).1.reviews.map Review.incidentId = db.reviews.map Review.incidentId ++ (step up db op).2.toList := by
  cases op with
  | persist incident =>
    have hsame : (step up db (.persist incident)).1.reviews = db.reviews := by
      rw [step]
      cases hw : writeIncident incident db with
      | none => rfl
      | some db' => exact (writeIncident_spec hw).2.reviews
    rw [hsame]
    exact (List.append_nil _).symm
  | review id verdict notes operator env =>
    obtain ⟨-, hreviews⟩ := Reviews.run_reviewIncident up id verdict notes operator env db
    rw [step]
    dsimp only
    rw [hreviews, List.map_append]
    congr 1
    split <;> rfl

/-- A run adds a row to `reviews` each time a stored incident is reviewed. -/
theorem reviews_dbAfter (db : Database) (ops : List Op) :
    (dbAfter up db ops).reviews.map Review.incidentId =
      db.reviews.map Review.incidentId ++ (Mealy.outs (step up) db ops).filterMap fun o => o := by
  induction ops generalizing db with
  | nil => simp [dbAfter]
  | cons op ops ih =>
    have hstep := reviews_step up db op
    rw [dbAfter, Mealy.after_cons, ← dbAfter, ih, hstep, Mealy.outs_cons, List.append_assoc]
    cases (step up db op).2 <;> rfl

theorem countP_reviewOf (cameras : List Camera) (h : (cameras.map Camera.id).Nodup) (ops : List Op) (i : Incident) :
    (dbAfter up (.withCameras cameras h) ops).reviews.countP (reviewOf i) =
      timesReviewed up (.withCameras cameras h) ops i.id := by
  have hreviews := reviews_dbAfter up (.withCameras cameras h) ops
  rw [timesReviewed, ← List.nil_append (List.filterMap _ _)]
  have hempty : (Database.withCameras cameras h).reviews.map Review.incidentId = [] := rfl
  rw [← hempty, ← hreviews, List.count, List.countP_map]
  refine List.countP_congr fun r _ => ?_
  simp [reviewOf]

/-- After any run the exports have one row for each labelled incident exactly when
none of these was reviewed twice. -/
theorem one_row_each_iff (py : PyJson) (isoformat : ℚ → String) (evidence : Evidence)
    (cameras : List Camera) (h : (cameras.map Camera.id).Nodup) (ops : List Op) (now : ℚ) (days : Int) :
    OneRowEach py isoformat evidence now days (dbAfter up (.withCameras cameras h) ops) ↔
      ∀ i ∈ labeled now days (dbAfter up (.withCameras cameras h) ops),
        timesReviewed up (.withCameras cameras h) ops i.id ≤ 1 := by
  rw [oneRowEach_iff]
  exact forall₂_congr fun i _ => by rw [countP_reviewOf up]

/-! ## A second review -/

def aisle : Camera := ⟨"cam_1", "Aisle 1"⟩

def configured : Database := .withCameras [aisle] (List.nodup_singleton _)

def reviewAs (verdict : String) : Op := .review "inc_1" verdict "" "op-1" fun _ => ⟨1, .forward _⟩

/-- The text of the time 1, the only one there is. -/
def epochText (_ : ℚ) : String := "1970-01-01T00:00:01+00:00"

def noEvidence : Evidence := ⟨fun _ => [], fun _ => [], fun _ => false, id⟩

theorem one_row_each_once :
    OneRowEach .reference epochText noEvidence 1 90
      (dbAfter .ascii configured [.persist theft, reviewAs "confirmed"]) :=
  (one_row_each_iff .ascii .reference epochText noEvidence [aisle] (by decide) _ 1 90).2
    (by decide +kernel)

/-- An operator confirms, and a second one confirms too. -/
theorem one_row_each_fails :
    ¬ OneRowEach .reference epochText noEvidence 1 90
      (dbAfter .ascii configured [.persist theft, reviewAs "confirmed", reviewAs "confirmed"]) := by
  intro h
  have hrows : (exportCsv epochText (.forward _) 1 90
      (dbAfter .ascii configured [.persist theft, reviewAs "confirmed", reviewAs "confirmed"])).2 = 2 := by
    decide +kernel
  have hone := h.csv_count (.forward _)
  rw [hrows] at hone
  exact absurd hone (by decide +kernel)

end Export

end Netra
