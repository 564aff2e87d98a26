import Netra.Store.Persistence
/-!
# From the incident to its row

An incident is encoded, decoded and inserted: three lists of fields, and the
types and defaults of the columns. `store_id` and `org_id` are in none of the
lists, an empty clip path is written like none, and a `REAL` column rounds its
score. `survives_iff` says which incidents arrive as they were sent.
-/
namespace Netra

open PyLib Wire Store

namespace Persistence

/-- The row has what the incident says. -/
structure Carries (x : IncidentEvent) (r : Incident) : Prop where
  cameraId : r.cameraId = x.cameraId
  trackId : r.trackId = x.trackId
  riskScore : r.riskScore = x.riskScore
  fsmScore : r.fsmScore = x.fsmScore
  shopformerScore : r.shopformerScore = x.shopformerScore
  theftStage : r.theftStage = StrEnum.value x.theftStage
  concealmentType : r.concealmentType = StrEnum.value x.concealmentType
  severity : r.severity = StrEnum.value x.severity
  status : r.status = StrEnum.value x.status
  modelVersion : r.modelVersion = some x.modelVersion
  logicVersion : r.logicVersion = some x.logicVersion
  storeId : r.storeId = x.storeId
  orgId : r.orgId = x.orgId

/-- The incident is read back as it was, and the row written for it carries it. -/
def Survives (py : PyText) (x : IncidentEvent) : Prop :=
  decodeIncidentEvent py (encodeIncidentEvent py x) = some x ∧
    ∀ db db', x.incidentId ∉ db.incidentIds →
      (decodeIncidentEvent py (encodeIncidentEvent py x)).bind (writeIncident · db) = some db' →
        ∃ r, db'.incident x.incidentId = some r ∧ Carries x r

variable {py : PyText} {x : IncidentEvent} {db db' : Database}

/-- The row of an incident that had none. -/
theorem incident_writeIncident (hnew : x.incidentId ∉ db.incidentIds) (h : writeIncident x db = some db') :
    ∃ row, rowOf x = some row ∧ db'.incident x.incidentId = some row := by
  obtain ⟨-, hw⟩ := writeIncident_spec h
  obtain ⟨row, hrow, hrows⟩ := hw.incidents
  refine ⟨row, hrow, ?_⟩
  have hnone : Table.row Incident.id x.incidentId db.incidents = none := Table.row_eq_none_iff.2 hnew
  rw [Database.incident, hrows, Table.row_insertNew, hnone, Option.none_or]
  exact if_pos (rowOf_spec hrow).id

/-- The three scores are numbers that a `REAL` column holds. -/
structure RealScores (x : IncidentEvent) : Prop where
  riskScore : Binary.Format.single.Holds x.riskScore
  fsmScore : Binary.Format.single.Holds x.fsmScore
  shopformerScore : Binary.Format.single.Holds x.shopformerScore

/-- A row of the default store carries the incident exactly when it need not round a score. -/
theorem carries_iff_realScores {row : Incident} (hstore : x.storeId = "default") (horg : x.orgId = "default")
    (h : RowOf x row) : Carries x row ↔ RealScores x := by
  constructor
  · intro hc
    exact ⟨(Binary.Format.nearest_eq_coe_iff h.riskScore).1 hc.riskScore,
      (Binary.Format.nearest_eq_coe_iff h.fsmScore).1 hc.fsmScore,
      (Binary.Format.nearest_eq_coe_iff h.shopformerScore).1 hc.shopformerScore⟩
  · intro hr
    exact ⟨h.cameraId, h.trackId, (Binary.Format.nearest_eq_coe_iff h.riskScore).2 hr.riskScore,
      (Binary.Format.nearest_eq_coe_iff h.fsmScore).2 hr.fsmScore,
      (Binary.Format.nearest_eq_coe_iff h.shopformerScore).2 hr.shopformerScore, h.theftStage, h.concealmentType,
      h.severity, h.status, h.modelVersion, h.logicVersion, h.storeId.trans hstore.symm, h.orgId.trans horg.symm⟩

/-- What an incident loses on the way: its store, its organisation and an empty clip path. -/
theorem decode_encode_eq_iff (py : PyText) (x : IncidentEvent) :
    decodeIncidentEvent py (encodeIncidentEvent py x) = some x ↔
      x.storeId = "default" ∧ x.orgId = "default" ∧ x.clipPath ≠ some "" := by
  rw [decode_encodeIncidentEvent, Option.some.injEq]
  constructor
  · intro h
    refine ⟨(congrArg IncidentEvent.storeId h).symm, (congrArg IncidentEvent.orgId h).symm, fun hclip => ?_⟩
    have hread : noEmpty x.clipPath = x.clipPath := congrArg IncidentEvent.clipPath h
    rw [hclip] at hread
    exact absurd hread (by decide)
  · rintro ⟨hstore, horg, hclip⟩
    rw [noEmpty_of_ne hclip]
    cases x
    subst hstore horg
    rfl

/-- The camera of the incident is configured, and nothing is stored yet. -/
def ready (x : IncidentEvent) : Database := .withCameras [⟨x.cameraId, x.cameraId⟩] (List.nodup_singleton _)

/-- There an incident whose values fit is written. -/
theorem writeIncident_ready (h : Fits x) : ∃ db', writeIncident x (ready x) = some db' :=
  Option.ne_none_iff_exists'.1 fun hnone => writeIncident_eq_none h hnone (.inr (List.mem_singleton_self _))

/-- What survives and is written has scores that the columns hold. -/
theorem Survives.realScores (h : Survives py x) (hfits : Fits x) : RealScores x := by
  obtain ⟨hread, hrows⟩ := h
  obtain ⟨hstore, horg, -⟩ := (decode_encode_eq_iff py x).1 hread
  obtain ⟨db', hw⟩ := writeIncident_ready hfits
  obtain ⟨r, hr, hcarries⟩ := hrows (ready x) db' List.not_mem_nil (by rwa [hread, Option.bind_some])
  obtain ⟨row, hrow, hr'⟩ := incident_writeIncident List.not_mem_nil hw
  obtain rfl := Option.some.inj (hr.symm.trans hr')
  exact (carries_iff_realScores hstore horg (rowOf_spec hrow)).1 hcarries

/-- An incident survives exactly when it has nothing the wire leaves out and, where its
values fit their columns, no score that a `REAL` column rounds. -/
theorem survives_iff (py : PyText) (x : IncidentEvent) :
    Survives py x ↔ (x.storeId = "default" ∧ x.orgId = "default" ∧ x.clipPath ≠ some "") ∧
      (Fits x → RealScores x) := by
  rw [← decode_encode_eq_iff py]
  refine ⟨fun h => ⟨h.1, h.realScores⟩, fun ⟨hread, hreal⟩ => ⟨hread, fun db db' hnew hw => ?_⟩⟩
  obtain ⟨hstore, horg, -⟩ := (decode_encode_eq_iff py x).1 hread
  rw [hread, Option.bind_some] at hw
  obtain ⟨row, hrow, hr⟩ := incident_writeIncident hnew hw
  exact ⟨row, hr, (carries_iff_realScores hstore horg (rowOf_spec hrow)).2 (hreal (isSome_rowOf_iff.1 (hrow ▸ rfl)))⟩

/-- An incident of a store of its own. -/
theorem survives_fails : ¬ Survives PyText.reference { theft with storeId := "store-42", orgId := "acme-corp" } := by
  intro h
  obtain ⟨hread, -⟩ := h
  exact absurd ((decode_encode_eq_iff _ _).1 hread).1 (by decide)

/-- A score of 0.765 is stored as 0.76499998...: of the default store, the incident is not carried either. -/
example : ¬ Survives PyText.reference { theft with riskScore := 0.765 } := by
  intro h
  have hscore := (h.realScores (isSome_rowOf_iff.1 (by decide +kernel))).riskScore
  exact absurd (Binary.Format.round_eq_self_iff.2 hscore) (by decide +kernel)

end Persistence

end Netra
