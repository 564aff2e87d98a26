import Netra.Lib.Binary
import Netra.Lib.Table
/-!
# The incident tables (`database/schema.sql`)

The tables the incident workflow writes, with their primary keys and foreign
keys as fields of `Database`. A statement that would break one raises and
leaves the database as it was: its result is `none`. No code deletes a row of
these tables. Texts and times are stored as they are; the scores are `REAL`, and
what is written there is rounded to `binary32`.
-/
namespace Netra

namespace Store

open Table

/-- A row of `cameras`; the other columns have defaults. -/
structure Camera where
  id : String
  displayName : String
  deriving DecidableEq, Repr

/-- A value of a `REAL` column. -/
abbrev Float4 := Binary.Format.single.Number

theorem holds_ofNat {n : Nat} (hn : n < 2 ^ 24) : Binary.Format.single.Holds n := by
  refine mod_cast Binary.Format.holds_intCast (m := (n : Int)) ?_ (by decide) (by decide)
  rw [Nat.abs_cast]
  exact_mod_cast hn

instance : Zero Float4 := ⟨⟨0, mod_cast holds_ofNat (n := 0) (by decide)⟩⟩

instance : One Float4 := ⟨⟨1, mod_cast holds_ofNat (n := 1) (by decide)⟩⟩

/-- `$n` of a statement, for a `REAL` column: the driver rounds the number, and
raises where it is out of range. -/
def toFloat4 (q : ℚ) : Option Float4 := Binary.Format.single.nearest q

/-- `$n` of a statement, for an `INT` column -/
def toInt4 (n : Int) : Option Int := if -2147483648 ≤ n ∧ n < 2147483648 then some n else none

/-- A row of `incidents`. -/
structure Incident where
  id : String
  cameraId : String
  trackId : Int
  riskScore : Float4
  fsmScore : Float4
  shopformerScore : Float4
  theftStage : String
  concealmentType : String
  severity : String
  status : String := "OPEN"
  modelVersion : Option String := none
  logicVersion : Option String := none
  operatorNotes : Option String := none
  reviewedBy : Option String := none
  reviewedAt : Option ℚ := none
  occurredAt : ℚ
  storeId : String := "default"
  orgId : String := "default"
  deriving DecidableEq, Repr

/-- A row of `reviews`. -/
structure Review where
  incidentId : String
  operatorId : String
  verdict : String
  notes : Option String
  deriving DecidableEq, Repr

/-- A row of `alert_escalations`. -/
structure AlertEscalation where
  incidentId : String
  cameraId : String
  reason : String
  escalatedAt : ℚ
  deriving DecidableEq, Repr

structure Database where
  cameras : List Camera
  incidents : List Incident
  reviews : List Review
  alertEscalations : List AlertEscalation
  cameras_pk : (cameras.map Camera.id).Nodup
  incidents_pk : (incidents.map Incident.id).Nodup
  /-- `camera_id REFERENCES cameras(id)` -/
  incidents_camera : ∀ r ∈ incidents, r.cameraId ∈ cameras.map Camera.id
  /-- `incident_id REFERENCES incidents(id)` -/
  reviews_incident : ∀ r ∈ reviews, r.incidentId ∈ incidents.map Incident.id
  escalations_incident : ∀ r ∈ alertEscalations, r.incidentId ∈ incidents.map Incident.id
  /-- `UNIQUE (incident_id)` -/
  escalations_unique : (alertEscalations.map AlertEscalation.incidentId).Nodup

namespace Database

theorem ext_tables {db db' : Database} (hc : db.cameras = db'.cameras) (hi : db.incidents = db'.incidents)
    (hr : db.reviews = db'.reviews) (he : db.alertEscalations = db'.alertEscalations) : db = db' := by
  cases db
  cases db'
  simp only at hc hi hr he
  subst hc hi hr he
  rfl

/-- The schema just applied, with the cameras `cameras` configured. -/
def withCameras (cameras : List Camera) (h : (cameras.map Camera.id).Nodup) : Database where
  cameras := cameras
  incidents := []
  reviews := []
  alertEscalations := []
  cameras_pk := h
  incidents_pk := List.nodup_nil
  incidents_camera := by simp
  reviews_incident := by simp
  escalations_incident := by simp
  escalations_unique := List.nodup_nil

def empty : Database := withCameras [] List.nodup_nil

def cameraIds (db : Database) : List String := db.cameras.map Camera.id

def incidentIds (db : Database) : List String := db.incidents.map Incident.id

/-- The row of an incident. -/
def incident (db : Database) (id : String) : Option Incident := row Incident.id id db.incidents

/-- The `status` of an incident. -/
def status (db : Database) (id : String) : Option String := (db.incident id).map Incident.status

/-- `INSERT INTO cameras ... ON CONFLICT (id) DO NOTHING` -/
def insertCamera (x : Camera) (db : Database) : Database :=
  { db with
    cameras := insertNew Camera.id x db.cameras
    cameras_pk := nodup_insertNew db.cameras_pk
    incidents_camera := fun r hr => mem_map_insertNew.2 (.inr (db.incidents_camera r hr)) }

/-- `INSERT INTO incidents ... ON CONFLICT (id) DO NOTHING`: the foreign key is
checked when a row is really inserted. -/
def insertIncident (x : Incident) (db : Database) : Option Database :=
  if h : x.id ∈ db.incidentIds ∨ x.cameraId ∈ db.cameraIds then
    some { db with
      incidents := insertNew Incident.id x db.incidents
      incidents_pk := nodup_insertNew db.incidents_pk
      incidents_camera := fun r hr => by
        rcases h with h | h
        · rw [insertNew_of_mem h] at hr
          exact db.incidents_camera r hr
        · rcases mem_insertNew_cases hr with hr | rfl
          · exact db.incidents_camera r hr
          · exact h
      reviews_incident := fun r hr => mem_map_insertNew.2 (.inr (db.reviews_incident r hr))
      escalations_incident := fun r hr => mem_map_insertNew.2 (.inr (db.escalations_incident r hr)) }
  else none

/-- `UPDATE incidents SET f WHERE p`, for an `f` that sets neither `id` nor
`camera_id`. -/
def updateIncidents (p : Incident → Bool) (f : Incident → Incident) (hid : ∀ r, (f r).id = r.id)
    (hcamera : ∀ r, (f r).cameraId = r.cameraId) (db : Database) : Database :=
  { db with
    incidents := updateWhere p f db.incidents
    incidents_pk := by
      rw [map_updateWhere hid]
      exact db.incidents_pk
    incidents_camera := fun r hr => by
      obtain ⟨r', hr', rfl⟩ := mem_updateWhere.1 hr
      have := db.incidents_camera r' hr'
      split
      · rwa [hcamera]
      · exact this
    reviews_incident := by
      rw [map_updateWhere hid]
      exact db.reviews_incident
    escalations_incident := by
      rw [map_updateWhere hid]
      exact db.escalations_incident }

/-- `INSERT INTO reviews ...` -/
def insertReview (x : Review) (db : Database) : Option Database :=
  if h : x.incidentId ∈ db.incidentIds then
    some { db with
      reviews := db.reviews ++ [x]
      reviews_incident := fun r hr => by
        rcases List.mem_append.1 hr with hr | hr
        · exact db.reviews_incident r hr
        · obtain rfl := List.mem_singleton.1 hr
          exact h }
  else none

/-- `INSERT INTO alert_escalations ... ON CONFLICT DO NOTHING` -/
def insertEscalation (x : AlertEscalation) (db : Database) : Option Database :=
  if h : x.incidentId ∈ db.alertEscalations.map AlertEscalation.incidentId ∨ x.incidentId ∈ db.incidentIds then
    some { db with
      alertEscalations := insertNew AlertEscalation.incidentId x db.alertEscalations
      escalations_incident := fun r hr => by
        rcases h with h | h
        · rw [insertNew_of_mem h] at hr
          exact db.escalations_incident r hr
        · rcases mem_insertNew_cases hr with hr | rfl
          · exact db.escalations_incident r hr
          · exact h
      escalations_unique := nodup_insertNew db.escalations_unique }
  else none

/-! ## What a statement writes -/

section
variable {db db' : Database}

@[simp] theorem incidents_insertCamera (x : Camera) : (db.insertCamera x).incidents = db.incidents := rfl

@[simp] theorem reviews_insertCamera (x : Camera) : (db.insertCamera x).reviews = db.reviews := rfl

theorem mem_cameraIds_insertCamera {x : Camera} {k : String} :
    k ∈ (db.insertCamera x).cameraIds ↔ k = x.id ∨ k ∈ db.cameraIds := mem_map_insertNew

theorem insertCamera_of_mem {x : Camera} (h : x.id ∈ db.cameraIds) : db.insertCamera x = db :=
  ext_tables (insertNew_of_mem h) rfl rfl rfl

/-- An inserted incident: its camera is known, unless the row was there. -/
structure Inserted (x : Incident) (db db' : Database) : Prop where
  known : x.id ∈ db.incidentIds ∨ x.cameraId ∈ db.cameraIds
  incidents : db'.incidents = insertNew Incident.id x db.incidents
  cameras : db'.cameras = db.cameras
  reviews : db'.reviews = db.reviews
  alertEscalations : db'.alertEscalations = db.alertEscalations

theorem insertIncident_spec {x : Incident} (h : db.insertIncident x = some db') : Inserted x db db' := by
  unfold insertIncident at h
  split at h
  · rename_i hk
    obtain rfl := Option.some.inj h
    exact ⟨hk, rfl, rfl, rfl, rfl⟩
  · cases h

theorem Inserted.incidentIds {x : Incident} (h : Inserted x db db') (id : String) :
    id ∈ db'.incidentIds ↔ id = x.id ∨ id ∈ db.incidentIds := by
  rw [Database.incidentIds, h.incidents]
  exact mem_map_insertNew

theorem insertIncident_eq_none_iff {x : Incident} :
    db.insertIncident x = none ↔ x.id ∉ db.incidentIds ∧ x.cameraId ∉ db.cameraIds := by
  rw [insertIncident, dite_eq_right_iff, ← not_or]
  simp

theorem insertIncident_of_mem {x : Incident} (h : x.id ∈ db.incidentIds) : db.insertIncident x = some db := by
  cases hdb : db.insertIncident x with
  | none => exact absurd h (insertIncident_eq_none_iff.1 hdb).1
  | some db' =>
    have hins := insertIncident_spec hdb
    rw [ext_tables hins.cameras (hins.incidents.trans (insertNew_of_mem h)) hins.reviews hins.alertEscalations]

/-- What inserting a row makes of the statuses. -/
theorem status_insertNew {x : Incident} (h : db'.incidents = insertNew Incident.id x db.incidents) (id : String) :
    db'.status id = (db.status id).or (if x.id = id then some x.status else none) := by
  rw [status, incident, h, row_insertNew, Option.map_or]
  congr 1
  split <;> rfl

theorem insertReview_spec {x : Review} (h : db.insertReview x = some db') :
    x.incidentId ∈ db.incidentIds ∧ db'.incidents = db.incidents ∧ db'.reviews = db.reviews ++ [x] := by
  unfold insertReview at h
  split at h
  · rename_i hid
    obtain rfl := Option.some.inj h
    exact ⟨hid, rfl, rfl⟩
  · cases h

theorem alertEscalations_insertReview {x : Review} (h : db.insertReview x = some db') :
    db'.alertEscalations = db.alertEscalations := by
  unfold insertReview at h
  split at h
  · obtain rfl := Option.some.inj h
    rfl
  · cases h

theorem insertEscalation_spec {x : AlertEscalation} (h : db.insertEscalation x = some db') :
    db'.incidents = db.incidents ∧ db'.reviews = db.reviews := by
  unfold insertEscalation at h
  split at h
  · obtain rfl := Option.some.inj h
    exact ⟨rfl, rfl⟩
  · cases h

/-- An update of one incident's row reads the row and writes it in its place. -/
theorem incident_updateIncidents {p : Incident → Bool} {f : Incident → Incident} {hid : ∀ r, (f r).id = r.id}
    {hcamera : ∀ r, (f r).cameraId = r.cameraId} (id : String) :
    (db.updateIncidents p f hid hcamera).incident id = (db.incident id).map fun r => if p r then f r else r :=
  row_updateWhere hid id db.incidents

theorem incidentIds_updateIncidents {p : Incident → Bool} {f : Incident → Incident} {hid : ∀ r, (f r).id = r.id}
    {hcamera : ∀ r, (f r).cameraId = r.cameraId} :
    (db.updateIncidents p f hid hcamera).incidentIds = db.incidentIds := map_updateWhere hid db.incidents

theorem id_of_incident {id : String} {r : Incident} (h : db.incident id = some r) : r.id = id := (mem_of_row h).2

theorem status_congr (h : db'.incidents = db.incidents) (id : String) : db'.status id = db.status id := by
  rw [status, incident, h]
  rfl

theorem status_of_mem {r : Incident} (hr : r ∈ db.incidents) : db.status r.id = some r.status := by
  rw [status, incident, row_of_mem db.incidents_pk hr, Option.map_some]

theorem isSome_status_iff {id : String} : (db.status id).isSome ↔ id ∈ db.incidentIds := by
  rw [status, Option.isSome_map]
  exact isSome_row_iff

end

end Database

end Store

end Netra
