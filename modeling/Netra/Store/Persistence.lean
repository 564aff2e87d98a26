import Netra.Store.Schema
import Netra.Lib.Machine
import Netra.Wire.Reference
/-!
# The persistence worker (`backend/services/persistence/main.py`)

`writeIncident` inserts the incident before it ensures that the row of its
camera exists, and `run` acknowledges an entry whether or not it was written.
An incident whose camera has no row breaks the foreign key, is acknowledged and
is lost: `acked_stored_iff` says when none is.
-/
namespace Netra

open PyLib Wire Store

namespace Persistence

variable (py : PyText)

/-- `datetime.fromtimestamp(t, tz=timezone.utc)`: raises outside the years 1 to
9999. -/
def fromTimestamp (t : ℚ) : Option ℚ := if -62135596800 ≤ t ∧ t < 253402300800 then some t else none

/-- The row of an incident, unless one of its values does not fit; the `INSERT`
names neither `store_id` nor `org_id`. -/
def rowOf (incident : IncidentEvent) : Option Incident := do
  let occurred ← fromTimestamp incident.timestamp
  return {
    id := incident.incidentId
    cameraId := incident.cameraId
    trackId := ← toInt4 incident.trackId
    riskScore := ← toFloat4 incident.riskScore
    fsmScore := ← toFloat4 incident.fsmScore
    shopformerScore := ← toFloat4 incident.shopformerScore
    theftStage := StrEnum.value incident.theftStage
    concealmentType := StrEnum.value incident.concealmentType
    severity := StrEnum.value incident.severity
    status := StrEnum.value incident.status
    modelVersion := some incident.modelVersion
    logicVersion := some incident.logicVersion
    occurredAt := occurred }

/-- `write_incident`; `none` when it raises, which it does before it writes. -/
def writeIncident (incident : IncidentEvent) (db : Database) : Option Database := do
  let row ← rowOf incident
  let db ← db.insertIncident row
  return db.insertCamera { id := incident.cameraId, displayName := incident.cameraId }

/-- An entry of the incident stream. -/
structure Entry where
  mid : String
  data : Message

/-- `run`: one entry, and the id it acknowledges. -/
def turn (db : Database) (e : Entry) : Database × String :=
  match (decodeIncidentEvent py e.data).bind (writeIncident · db) with
  | some db => (db, e.mid)
  -- `except`: the error is logged and the entry acknowledged all the same
  | none => (db, e.mid)

/-- The database after the entries `es`. -/
def stored (db : Database) (es : List Entry) : Database := Mealy.after (turn py) db es

/-- The ids `run` acknowledged. -/
def acked (db : Database) (es : List Entry) : List String := Mealy.outs (turn py) db es

/-- The values of an incident fit their columns. -/
structure Fits (incident : IncidentEvent) : Prop where
  timestamp : -62135596800 ≤ incident.timestamp ∧ incident.timestamp < 253402300800
  trackId : -2147483648 ≤ incident.trackId ∧ incident.trackId < 2147483648
  riskScore : |incident.riskScore| < Binary.Format.single.limit
  fsmScore : |incident.fsmScore| < Binary.Format.single.limit
  shopformerScore : |incident.shopformerScore| < Binary.Format.single.limit

/-- A message that decodes, to values that fit their columns. -/
def WellFormed (m : Message) : Prop := ∃ incident, decodeIncidentEvent py m = some incident ∧ Fits incident

/-- What the entries carry. -/
def incidents (es : List Entry) : List IncidentEvent := es.filterMap fun e => decodeIncidentEvent py e.data

/-! ## One message -/

/-- What writing an incident leaves behind. -/
structure Wrote (incident : IncidentEvent) (db db' : Database) : Prop where
  incidents : ∃ row, rowOf incident = some row ∧ db'.incidents = Table.insertNew Incident.id row db.incidents
  mem_cameraIds : ∀ k, k ∈ db'.cameraIds ↔ k = incident.cameraId ∨ k ∈ db.cameraIds
  reviews : db'.reviews = db.reviews

/-- The incident has a row, and so has its camera. -/
structure Stored (incident : IncidentEvent) (db : Database) : Prop where
  row : (db.incidents.filter fun r => r.id = incident.incidentId).length = 1
  camera : incident.cameraId ∈ db.cameraIds

/-- The insert goes through when the camera has a row, and when it inserts nothing. -/
def Insertable (incident : IncidentEvent) (db : Database) : Prop :=
  incident.incidentId ∈ db.incidentIds ∨ incident.cameraId ∈ db.cameraIds

variable {py} {db db' : Database} {incident : IncidentEvent} {e : Entry}

/-- The row of an incident: what the `INSERT` takes from it as it is, and the rounded scores. -/
structure RowOf (incident : IncidentEvent) (row : Incident) : Prop where
  id : row.id = incident.incidentId
  cameraId : row.cameraId = incident.cameraId
  trackId : row.trackId = incident.trackId
  riskScore : toFloat4 incident.riskScore = some row.riskScore
  fsmScore : toFloat4 incident.fsmScore = some row.fsmScore
  shopformerScore : toFloat4 incident.shopformerScore = some row.shopformerScore
  theftStage : row.theftStage = StrEnum.value incident.theftStage
  concealmentType : row.concealmentType = StrEnum.value incident.concealmentType
  severity : row.severity = StrEnum.value incident.severity
  status : row.status = StrEnum.value incident.status
  modelVersion : row.modelVersion = some incident.modelVersion
  logicVersion : row.logicVersion = some incident.logicVersion
  storeId : row.storeId = "default"
  orgId : row.orgId = "default"

theorem rowOf_spec {row : Incident} (h : rowOf incident = some row) : RowOf incident row := by
  obtain ⟨occurred, -, h⟩ := Option.bind_eq_some_iff.1 h
  obtain ⟨trackId, htrack, h⟩ := Option.bind_eq_some_iff.1 h
  obtain ⟨risk, hrisk, h⟩ := Option.bind_eq_some_iff.1 h
  obtain ⟨fsm, hfsm, h⟩ := Option.bind_eq_some_iff.1 h
  obtain ⟨shopformer, hshopformer, h⟩ := Option.bind_eq_some_iff.1 h
  obtain rfl := Option.some.inj h
  obtain ⟨-, htrack⟩ := Option.ite_none_right_eq_some.1 htrack
  exact ⟨rfl, rfl, (Option.some.inj htrack).symm, hrisk, hfsm, hshopformer, rfl, rfl, rfl, rfl, rfl, rfl, rfl, rfl⟩

theorem isSome_rowOf_iff : (rowOf incident).isSome ↔ Fits incident := by
  constructor
  · intro h
    obtain ⟨row, hrow⟩ := Option.isSome_iff_exists.1 h
    obtain ⟨occurred, htime, hrow⟩ := Option.bind_eq_some_iff.1 hrow
    obtain ⟨trackId, htrack, -⟩ := Option.bind_eq_some_iff.1 hrow
    have hscores := rowOf_spec (Option.isSome_iff_exists.1 h).choose_spec
    exact ⟨(Option.ite_none_right_eq_some.1 htime).1, (Option.ite_none_right_eq_some.1 htrack).1,
      Binary.Format.isSome_nearest_iff.1 (Option.isSome_of_eq_some hscores.riskScore),
      Binary.Format.isSome_nearest_iff.1 (Option.isSome_of_eq_some hscores.fsmScore),
      Binary.Format.isSome_nearest_iff.1 (Option.isSome_of_eq_some hscores.shopformerScore)⟩
  · intro h
    obtain ⟨risk, hrisk⟩ := Option.isSome_iff_exists.1 (Binary.Format.isSome_nearest_iff.2 h.riskScore)
    obtain ⟨fsm, hfsm⟩ := Option.isSome_iff_exists.1 (Binary.Format.isSome_nearest_iff.2 h.fsmScore)
    obtain ⟨sf, hsf⟩ := Option.isSome_iff_exists.1 (Binary.Format.isSome_nearest_iff.2 h.shopformerScore)
    rw [rowOf, fromTimestamp, if_pos h.timestamp, toInt4, if_pos h.trackId, toFloat4, hrisk, toFloat4, hfsm, toFloat4,
      hsf]
    rfl

theorem writeIncident_spec (h : writeIncident incident db = some db') :
    Insertable incident db ∧ Wrote incident db db' := by
  unfold writeIncident at h
  obtain ⟨row, hrow, h⟩ := Option.bind_eq_some_iff.1 h
  obtain ⟨db₁, hins, h⟩ := Option.bind_eq_some_iff.1 h
  have hins := Database.insertIncident_spec hins
  obtain rfl := Option.some.inj h
  have hknown := hins.known
  rw [(rowOf_spec hrow).id, (rowOf_spec hrow).cameraId] at hknown
  refine ⟨hknown, ⟨⟨row, hrow, hins.incidents⟩, fun k => ?_, hins.reviews⟩⟩
  rw [Database.mem_cameraIds_insertCamera, Database.cameraIds, hins.cameras]
  rfl

theorem Wrote.mem_incidentIds (h : Wrote incident db db') (k : String) :
    k ∈ db'.incidentIds ↔ k = incident.incidentId ∨ k ∈ db.incidentIds := by
  obtain ⟨row, hrow, h⟩ := h.incidents
  rw [Database.incidentIds, h, ← (rowOf_spec hrow).id]
  exact Table.mem_map_insertNew

theorem writeIncident_eq_none (hfits : Fits incident) (h : writeIncident incident db = none) :
    ¬ Insertable incident db := by
  obtain ⟨row, hrow⟩ := Option.isSome_iff_exists.1 (isSome_rowOf_iff.2 hfits)
  unfold writeIncident at h
  rw [hrow] at h
  cases hins : db.insertIncident row with
  | none =>
    rw [Insertable, ← (rowOf_spec hrow).id, ← (rowOf_spec hrow).cameraId]
    exact not_or.2 (Database.insertIncident_eq_none_iff.1 hins)
  | some db₁ => simp [hins] at h

/-- Writing an incident that is there already. -/
theorem writeIncident_again (hfits : Fits incident) (hid : incident.incidentId ∈ db.incidentIds)
    (hcam : incident.cameraId ∈ db.cameraIds) : writeIncident incident db = some db := by
  obtain ⟨row, hrow⟩ := Option.isSome_iff_exists.1 (isSome_rowOf_iff.2 hfits)
  have hinsert : db.insertIncident row = some db := by
    rw [← (rowOf_spec hrow).id] at hid
    exact Database.insertIncident_of_mem hid
  have hcamera : db.insertCamera { id := incident.cameraId, displayName := incident.cameraId } = db :=
    Database.insertCamera_of_mem hcam
  simp [writeIncident, hrow, hinsert, hcamera]

theorem Stored.of_mem (hid : incident.incidentId ∈ db.incidentIds) (hcam : incident.cameraId ∈ db.cameraIds) :
    Stored incident db := ⟨Table.count_map_key db.incidents_pk hid, hcam⟩

theorem Stored.mem_incidentIds (h : Stored incident db) : incident.incidentId ∈ db.incidentIds := by
  obtain ⟨r, hr⟩ := List.exists_mem_of_length_pos (h.row ▸ Nat.one_pos)
  obtain ⟨hr, hid⟩ := List.mem_filter.1 hr
  exact of_decide_eq_true hid ▸ List.mem_map_of_mem hr

/-- What one entry does. -/
theorem turn_cases (hd : decodeIncidentEvent py e.data = some incident) (hfits : Fits incident)
    (db : Database) :
    (Insertable incident db ∧ Wrote incident db (turn py db e).1) ∨
      (¬ Insertable incident db ∧ (turn py db e).1 = db) := by
  have hbind : (decodeIncidentEvent py e.data).bind (writeIncident · db) = writeIncident incident db := by
    rw [hd, Option.bind_some]
  unfold turn
  rw [hbind]
  cases hw : writeIncident incident db with
  | none => exact .inr ⟨writeIncident_eq_none hfits hw, rfl⟩
  | some db' => exact .inl (writeIncident_spec hw)

/-- Handling an entry again whose incident is stored. -/
theorem turn_again (hd : decodeIncidentEvent py e.data = some incident) (hfits : Fits incident)
    (hid : incident.incidentId ∈ db.incidentIds) (hcam : incident.cameraId ∈ db.cameraIds) : (turn py db e).1 = db := by
  unfold turn
  rw [hd, Option.bind_some, writeIncident_again hfits hid hcam]

/-- `run` acknowledges every entry. -/
theorem turn_acks (db : Database) (e : Entry) : (turn py db e).2 = e.mid := by
  unfold turn
  split <;> rfl

/-! ## A run -/

variable {es : List Entry}

theorem mem_acked (he : e ∈ es) (db : Database) : e.mid ∈ acked py db es := by
  obtain ⟨pre, post, rfl⟩ := List.append_of_mem he
  exact (Mealy.mem_outs _ _ _ _).2 ⟨pre, e, post, rfl, (turn_acks _ e).symm⟩

/-- The camera or the incident itself has a row in `db`, or had an earlier message. -/
def Known (db : Database) (before : List IncidentEvent) (incident : IncidentEvent) : Prop :=
  incident.incidentId ∈ db.incidentIds ++ before.map (·.incidentId) ∨
    incident.cameraId ∈ db.cameraIds ++ before.map (·.cameraId)

theorem incidents_concat (hd : decodeIncidentEvent py e.data = some incident) (es : List Entry) :
    incidents py (es ++ [e]) = incidents py es ++ [incident] := by
  simp [incidents, List.filterMap_append, hd]

/-- Rows come from the start or from a message. -/
theorem stored_subset (db : Database) (hes : ∀ e ∈ es, WellFormed py e.data) :
    (stored py db es).incidentIds ⊆ db.incidentIds ++ (incidents py es).map (·.incidentId) ∧
      (stored py db es).cameraIds ⊆ db.cameraIds ++ (incidents py es).map (·.cameraId) := by
  induction es using List.reverseRecOn with
  | nil => simp [stored, incidents]
  | append_singleton es e ih =>
    obtain ⟨hi, hc⟩ := ih fun e he => hes e (List.mem_append_left _ he)
    obtain ⟨incident, hd, hfits⟩ := hes e (by simp)
    rw [stored, Mealy.after_concat, incidents_concat hd, List.map_append, List.map_append, ← List.append_assoc,
      ← List.append_assoc]
    rcases turn_cases hd hfits (stored py db es) with ⟨-, hw⟩ | ⟨-, hsame⟩
    · constructor
      · intro k hk
        rcases (hw.mem_incidentIds k).1 hk with rfl | hk
        · exact List.mem_append_right _ (by simp)
        · exact List.mem_append_left _ (hi hk)
      · intro k hk
        rcases (hw.mem_cameraIds k).1 hk with rfl | hk
        · exact List.mem_append_right _ (by simp)
        · exact List.mem_append_left _ (hc hk)
    · change (turn py (stored py db es) e).1.incidentIds ⊆ _ ∧ (turn py (stored py db es) e).1.cameraIds ⊆ _
      rw [hsame]
      exact ⟨fun k hk => List.mem_append_left _ (hi hk), fun k hk => List.mem_append_left _ (hc hk)⟩

/-- Every entry finds its incident known. -/
def AllKnown (py : PyText) (db : Database) (es : List Entry) : Prop :=
  ∀ pre e post incident, es = pre ++ e :: post → decodeIncidentEvent py e.data = some incident →
    Known db (incidents py pre) incident

theorem AllKnown.of_prefix {es' : List Entry} (h : AllKnown py db es) (hp : es' <+: es) : AllKnown py db es' := by
  obtain ⟨tl, rfl⟩ := hp
  rintro pre e post incident rfl hd
  exact h pre e (post ++ tl) incident (by simp) hd

/-- When every incident is known in its turn, no row is missing. -/
theorem subset_stored (hes : ∀ e ∈ es, WellFormed py e.data) (hk : AllKnown py db es) :
    db.incidentIds ++ (incidents py es).map (·.incidentId) ⊆ (stored py db es).incidentIds ∧
      db.cameraIds ++ (incidents py es).map (·.cameraId) ⊆ (stored py db es).cameraIds := by
  induction es using List.reverseRecOn with
  | nil => simp [stored, incidents]
  | append_singleton es e ih =>
    obtain ⟨hi, hc⟩ := ih (fun e he => hes e (List.mem_append_left _ he)) (hk.of_prefix (List.prefix_append _ _))
    obtain ⟨incident, hd, hfits⟩ := hes e (by simp)
    have hins : Insertable incident (stored py db es) := (hk es e [] incident rfl hd).imp (@hi _) (@hc _)
    obtain ⟨-, hw⟩ := (turn_cases hd hfits (stored py db es)).resolve_right fun h => h.1 hins
    rw [stored, Mealy.after_concat, incidents_concat hd, List.map_append, List.map_append, ← List.append_assoc,
      ← List.append_assoc]
    constructor
    · intro k hk
      refine (hw.mem_incidentIds k).2 ?_
      rcases List.mem_append.1 hk with hk | hk
      · exact .inr (hi hk)
      · exact .inl (by simpa using hk)
    · intro k hk
      refine (hw.mem_cameraIds k).2 ?_
      rcases List.mem_append.1 hk with hk | hk
      · exact .inr (hc hk)
      · exact .inl (by simpa using hk)

theorem mem_incidents (he : e ∈ es) (hd : decodeIncidentEvent py e.data = some incident) :
    incident ∈ incidents py es := List.mem_filterMap.2 ⟨e, he, hd⟩

/-- After any of the entries `es`, the acknowledged ones have their rows, and one
that comes again changes nothing. -/
def AckedStored (py : PyText) (db : Database) (es : List Entry) : Prop :=
  ∀ done, done <+: es → ∀ e ∈ done, e.mid ∈ acked py db done →
    ∀ incident, decodeIncidentEvent py e.data = some incident →
      Stored incident (stored py db done) ∧ (turn py (stored py db done) e).1 = stored py db done

/-- Every acknowledged incident is stored exactly when each has, in its turn, a
camera or an incident row already. -/
theorem acked_stored_iff (py : PyText) (db : Database) (es : List Entry)
    (hes : ∀ e ∈ es, WellFormed py e.data) : AckedStored py db es ↔ AllKnown py db es := by
  constructor
  · rintro h pre e post incident rfl hd
    have hdone : pre ++ [e] <+: pre ++ e :: post := ⟨post, by simp⟩
    have he : e ∈ pre ++ [e] := by simp
    obtain ⟨hstored, -⟩ := h _ hdone e he (mem_acked he db) incident hd
    obtain ⟨incident', hd', hfits⟩ := hes e (by simp)
    obtain rfl := Option.some.inj (hd'.symm.trans hd)
    obtain ⟨hi, hc⟩ := stored_subset db fun e' (he' : e' ∈ pre) => hes e' (List.mem_append_left _ he')
    -- the message was written, or its incident was there already
    have hins : Insertable incident' (stored py db pre) := by
      rcases turn_cases hd hfits (stored py db pre) with ⟨hins, -⟩ | ⟨-, hsame⟩
      · exact hins
      · rw [stored, Mealy.after_concat, ← stored, hsame] at hstored
        exact .inl hstored.mem_incidentIds
    exact hins.imp (@hi _) (@hc _)
  · intro h done hdone e he _ incident hd
    have hes' : ∀ e ∈ done, WellFormed py e.data := fun e he => hes e (hdone.subset he)
    obtain ⟨incident', hd', hfits⟩ := hes' e he
    obtain rfl := Option.some.inj (hd'.symm.trans hd)
    obtain ⟨hi, hc⟩ := subset_stored hes' (h.of_prefix hdone)
    have hid : incident'.incidentId ∈ (stored py db done).incidentIds :=
      hi (List.mem_append_right _ (List.mem_map_of_mem (mem_incidents he hd)))
    have hcam : incident'.cameraId ∈ (stored py db done).cameraIds :=
      hc (List.mem_append_right _ (List.mem_map_of_mem (mem_incidents he hd)))
    exact ⟨.of_mem hid hcam, turn_again hd hfits hid hcam⟩

/-! ## A camera that is not configured -/

/-- An incident of camera `cam_1`. -/
def theft : IncidentEvent where
  incidentId := "inc_1"
  cameraId := "cam_1"
  trackId := 1
  riskScore := 1
  fsmScore := 1
  shopformerScore := 0
  theftStage := .concealment
  concealmentType := .handToPants
  severity := .high
  timestamp := 1

def theftEntry (py : PyText) : Entry := ⟨"1-0", encodeIncidentEvent py theft⟩

theorem decode_theftEntry : decodeIncidentEvent py (theftEntry py).data = some theft := by
  rw [theftEntry, decode_encodeIncidentEvent]
  decide

theorem wellFormed_theftEntry : ∀ e ∈ [theftEntry py], WellFormed py e.data := by
  intro e he
  obtain rfl := List.mem_singleton.1 he
  exact ⟨theft, decode_theftEntry, isSome_rowOf_iff.1 (by decide +kernel)⟩

/-- With its camera configured the incident is stored. -/
theorem acked_stored_configured :
    AckedStored PyText.reference (Database.withCameras [⟨"cam_1", "Aisle 1"⟩] (by decide))
      [theftEntry PyText.reference] := by
  refine (acked_stored_iff _ _ _ wellFormed_theftEntry).2 ?_
  intro pre e post incident he hd
  cases pre with
  | nil =>
    obtain ⟨rfl, -⟩ := List.cons.inj he
    obtain rfl := Option.some.inj (decode_theftEntry.symm.trans hd)
    exact .inr (by decide)
  | cons _ pre => simp at he

/-- On a fresh database the first incident is acknowledged and lost. -/
theorem acked_stored_fails : ¬ AckedStored PyText.reference Database.empty [theftEntry PyText.reference] := by
  intro h
  obtain ⟨hstored, -⟩ := h _ (List.prefix_refl _) _ (by simp) (mem_acked (by simp) _) theft decode_theftEntry
  have hd : decodeIncidentEvent PyText.reference (theftEntry PyText.reference).data = some theft := decode_theftEntry
  rcases turn_cases hd (isSome_rowOf_iff.1 (by decide +kernel)) Database.empty with ⟨hins, -⟩ | ⟨-, hsame⟩
  · exact absurd hins (by unfold Insertable; decide)
  · rw [stored, Mealy.after_cons, Mealy.after_nil, hsame] at hstored
    exact absurd hstored.camera (by decide)

end Persistence

end Netra
