import Netra.Store.Schema
import Netra.Lib.Calls
/-!
# Escalation, review, acknowledgement

`EscalationEngine._run_once` (`backend/services/alerting/escalation.py`) and the
gateway's `review_incident` and `acknowledge_alert`
(`backend/gateway/main.py`), as calls of statements on the incident tables.
-/
namespace Netra

open Table Calls Store

/-- Python's `str.upper`. -/
structure PyUpper where
  upper : String → String
  upper_ascii : ∀ s, (s.toList.all fun c => c.toNat < 128) → upper s = String.ofList (s.toList.map Char.toUpper)

/-- `str.upper` where only ASCII letters have a capital. -/
def PyUpper.ascii : PyUpper := ⟨fun s => String.ofList (s.toList.map Char.toUpper), fun _ _ => rfl⟩

namespace Reviews

inductive Request where
  /-- `_run_once` of an engine with `self._minutes = minutes` -/
  | runOnce (minutes : Int)
  /-- `user["sub"]` is `operator` -/
  | review (incidentId verdict notes operator : String)
  | acknowledge (incidentId operator : String)
  deriving DecidableEq, Repr

inductive Stmt where
  | selectDue (minutes : Int)
  | escalate (ids : List String)
  | recordEscalations (rows : List Incident) (reason : String)
  | setVerdict (incidentId status operator notes : String)
  | insertReview (row : Review)
  | acknowledge (incidentId operator : String)
  deriving DecidableEq, Repr

/-- What a call returns. -/
inductive Reply where
  | count (n : Nat)
  | reviewed
  | acknowledged (id status : String)
  /-- `HTTPException(404, "Incident not found or not escalated")` -/
  | notFound
  deriving DecidableEq, Repr

/-- `NOW()`, and the order in which a query meets the rows. -/
structure Env where
  now : ℚ
  scan : Scan Incident

/-! ## Statements -/

/-- `WHERE status = 'OPEN' AND occurred_at <= NOW() - INTERVAL '1 minute' * $1` -/
def isDue (now : ℚ) (minutes : Int) (r : Incident) : Bool := r.status = "OPEN" && r.occurredAt ≤ now - 60 * minutes

/-- `ORDER BY risk_score DESC LIMIT 50` -/
def due (e : Env) (minutes : Int) (db : Database) : List Incident :=
  (select e.scan (isDue e.now minutes) Incident.riskScore db.incidents).take 50

/-- `UPDATE incidents SET status = 'ESCALATED' WHERE id = ANY($1::text[])` -/
def escalate (ids : List String) (db : Database) : Database :=
  db.updateIncidents (fun r => r.id ∈ ids) ({ · with status := "ESCALATED" }) (fun _ => rfl) fun _ => rfl

/-- `UPDATE incidents SET status=$1, reviewed_by=$2, reviewed_at=NOW(), operator_notes=$3 WHERE id=$4` -/
def setVerdict (id status operator notes : String) (now : ℚ) (db : Database) : Database :=
  db.updateIncidents (fun r => r.id = id)
    ({ · with status, reviewedBy := some operator, reviewedAt := some now, operatorNotes := some notes })
    (fun _ => rfl) fun _ => rfl

/-- `WHERE id=$2 AND status='ESCALATED'` -/
def isEscalated (id : String) (r : Incident) : Bool := r.id = id && r.status = "ESCALATED"

/-- `UPDATE incidents SET status='OPEN', reviewed_by=$1 WHERE id=$2 AND status='ESCALATED'` -/
def acknowledge (id operator : String) (db : Database) : Database :=
  db.updateIncidents (isEscalated id) ({ · with status := "OPEN", reviewedBy := some operator })
    (fun _ => rfl) fun _ => rfl

/-- One row of the `executemany`. -/
def escalation (now : ℚ) (reason : String) (r : Incident) : AlertEscalation where
  incidentId := r.id
  cameraId := r.cameraId
  reason := reason
  escalatedAt := now

/-- What a statement does to the database, and the rows it hands back; `none` when
it breaks a constraint. -/
def perform (e : Env) : Stmt → Database → Option (Database × List Incident)
  | .selectDue minutes, db => some (db, due e minutes db)
  | .escalate ids, db => some (escalate ids db, [])
  | .recordEscalations rows reason, db =>
    (rows.foldlM (fun (db : Database) r => db.insertEscalation (escalation e.now reason r)) db).map (·, [])
  | .setVerdict id status operator notes, db => some (setVerdict id status operator notes e.now db, [])
  | .insertReview row, db => (db.insertReview row).map (·, [])
  | .acknowledge id operator, db =>
    -- `RETURNING id, status`
    some (acknowledge id operator db,
      (db.incidents.filter (isEscalated id)).map ({ · with status := "OPEN", reviewedBy := some operator }))

/-! ## Calls -/

/-- `_run_once` -/
def runOnce (minutes : Int) : Prog Stmt (List Incident) Reply :=
  .stmt (.selectDue minutes) fun rows =>
    if rows.isEmpty then .ret (.count 0)
    else
      .stmt (.escalate (rows.map Incident.id)) fun _ =>
        .stmt (.recordEscalations rows s!"Unreviewed after {minutes} minutes") fun _ => .ret (.count rows.length)

/-- `review_incident` -/
def reviewIncident (up : PyUpper) (id verdict notes operator : String) : Prog Stmt (List Incident) Reply :=
  .stmt (.setVerdict id (up.upper verdict) operator notes) fun _ =>
    .stmt (.insertReview { incidentId := id, operatorId := operator, verdict := verdict, notes := some notes })
      fun _ => .ret .reviewed

/-- `acknowledge_alert` -/
def acknowledgeAlert (id operator : String) : Prog Stmt (List Incident) Reply :=
  .stmt (.acknowledge id operator) fun rows =>
    match rows.head? with
    | none => .ret .notFound
    | some row => .ret (.acknowledged row.id row.status)

def prog (up : PyUpper) : Request → Prog Stmt (List Incident) Reply
  | .runOnce minutes => runOnce minutes
  | .review id verdict notes operator => reviewIncident up id verdict notes operator
  | .acknowledge id operator => acknowledgeAlert id operator

/-! ## The status of an incident -/

/-- What a statement makes of an incident's status. -/
def statusAfter (id : String) (status : String) : Stmt → String
  | .escalate ids => if id ∈ ids then "ESCALATED" else status
  | .setVerdict id' status' _ _ => if id' = id then status' else status
  | .acknowledge id' _ => if id' = id ∧ status = "ESCALATED" then "OPEN" else status
  | _ => status

variable {db db' : Database} {rows : List Incident} {e : Env} {s : Stmt}

theorem incidents_recordEscalations {reason : String} {due : List Incident}
    (h : due.foldlM (fun (db : Database) r => db.insertEscalation (escalation e.now reason r)) db = some db') :
    db'.incidents = db.incidents ∧ db'.reviews = db.reviews := by
  induction due generalizing db with
  | nil =>
    obtain rfl := Option.some.inj h
    exact ⟨rfl, rfl⟩
  | cons r due ih =>
    obtain ⟨db₁, h₁, h⟩ := Option.bind_eq_some_iff.1 (List.foldlM_cons.symm.trans h)
    have hins := Database.insertEscalation_spec h₁
    obtain ⟨hi, hr⟩ := ih h
    exact ⟨hi.trans hins.1, hr.trans hins.2⟩

/-- What an update of incidents makes of a status. -/
theorem status_updateIncidents {p : Incident → Bool} {f : Incident → Incident} {hid : ∀ r, (f r).id = r.id}
    {hcamera : ∀ r, (f r).cameraId = r.cameraId} {g : String → String} {id : String}
    (hg : ∀ r : Incident, r.id = id → (if p r then f r else r).status = g r.status) :
    (db.updateIncidents p f hid hcamera).status id = (db.status id).map g := by
  rw [Database.status, Database.incident_updateIncidents, Database.status, Option.map_map, Option.map_map]
  cases hr : db.incident id with
  | none => rfl
  | some r => exact congrArg some (hg r (Database.id_of_incident hr))

/-- No statement adds or removes an incident. -/
theorem incidentIds_perform (h : perform e s db = some (db', rows)) : db'.incidentIds = db.incidentIds := by
  cases s with
  | selectDue minutes =>
    obtain ⟨rfl, -⟩ := Prod.mk.inj (Option.some.inj h)
    rfl
  | escalate ids =>
    obtain ⟨rfl, -⟩ := Prod.mk.inj (Option.some.inj h)
    exact Database.incidentIds_updateIncidents
  | recordEscalations due reason =>
    obtain ⟨db₁, h₁, h⟩ := Option.map_eq_some_iff.1 h
    obtain ⟨rfl, -⟩ := Prod.mk.inj h
    exact congrArg (List.map Incident.id) (incidents_recordEscalations h₁).1
  | setVerdict id' status operator notes =>
    obtain ⟨rfl, -⟩ := Prod.mk.inj (Option.some.inj h)
    exact Database.incidentIds_updateIncidents
  | insertReview row =>
    obtain ⟨db₁, h₁, h⟩ := Option.map_eq_some_iff.1 h
    obtain ⟨rfl, -⟩ := Prod.mk.inj h
    exact congrArg (List.map Incident.id) (Database.insertReview_spec h₁).2.1
  | acknowledge id' operator =>
    obtain ⟨rfl, -⟩ := Prod.mk.inj (Option.some.inj h)
    exact Database.incidentIds_updateIncidents

/-- What each statement makes of the status of each incident. -/
theorem status_perform (h : perform e s db = some (db', rows)) (id : String) :
    db'.status id = (db.status id).map (statusAfter id · s) := by
  have hkeep (hi : db'.incidents = db.incidents) : db'.status id = (db.status id).map fun status => status := by
    rw [Database.status_congr hi, Option.map_id']
  cases s with
  | selectDue minutes =>
    obtain ⟨rfl, -⟩ := Prod.mk.inj (Option.some.inj h)
    exact hkeep rfl
  | escalate ids =>
    obtain ⟨rfl, -⟩ := Prod.mk.inj (Option.some.inj h)
    refine status_updateIncidents fun r hr => ?_
    by_cases hm : id ∈ ids <;> simp [statusAfter, hr, hm]
  | recordEscalations due reason =>
    obtain ⟨db₁, h₁, h⟩ := Option.map_eq_some_iff.1 h
    obtain ⟨rfl, -⟩ := Prod.mk.inj h
    exact hkeep (incidents_recordEscalations h₁).1
  | setVerdict id' status operator notes =>
    obtain ⟨rfl, -⟩ := Prod.mk.inj (Option.some.inj h)
    refine status_updateIncidents fun r hr => ?_
    by_cases hm : id' = id
    · simp [statusAfter, hr, hm]
    · simp [statusAfter, hr, hm, Ne.symm hm]
  | insertReview row =>
    obtain ⟨db₁, h₁, h⟩ := Option.map_eq_some_iff.1 h
    obtain ⟨rfl, -⟩ := Prod.mk.inj h
    exact hkeep (Database.insertReview_spec h₁).2.1
  | acknowledge id' operator =>
    obtain ⟨rfl, -⟩ := Prod.mk.inj (Option.some.inj h)
    refine status_updateIncidents fun r hr => ?_
    by_cases hm : id' = id
    · by_cases hs : r.status = "ESCALATED" <;> simp [statusAfter, isEscalated, hr, hm, hs]
    · simp [statusAfter, isEscalated, hr, hm, Ne.symm hm]

/-- A review sets the status, and is recorded when the incident is there. -/
theorem run_reviewIncident (up : PyUpper) (id verdict notes operator : String) (env : Nat → Env) (db : Database) :
    ((reviewIncident up id verdict notes operator).run perform env db).1.incidents =
        (setVerdict id (up.upper verdict) operator notes (env 0).now db).incidents ∧
      ((reviewIncident up id verdict notes operator).run perform env db).1.reviews =
        db.reviews ++ if id ∈ db.incidentIds then
          [{ incidentId := id, operatorId := operator, verdict := verdict, notes := some notes }] else [] := by
  have hids : (setVerdict id (up.upper verdict) operator notes (env 0).now db).incidentIds = db.incidentIds :=
    Database.incidentIds_updateIncidents
  have hreviews : (setVerdict id (up.upper verdict) operator notes (env 0).now db).reviews = db.reviews := rfl
  simp only [reviewIncident, Prog.run, perform]
  cases hins : (setVerdict id (up.upper verdict) operator notes (env 0).now db).insertReview
      { incidentId := id, operatorId := operator, verdict := verdict, notes := some notes } with
  | none =>
    have hid : id ∉ db.incidentIds := by
      intro hid
      rw [← hids] at hid
      simp [Database.insertReview, hid] at hins
    rw [if_neg hid, List.append_nil]
    exact ⟨rfl, rfl⟩
  | some x =>
    obtain ⟨hid, hi, hr⟩ := Database.insertReview_spec hins
    rw [hids] at hid
    rw [if_pos hid]
    exact ⟨hi, hr⟩

end Reviews

end Netra
