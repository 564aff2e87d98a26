import Netra.Store.Persistence
import Netra.Store.Reviews
import Netra.Store.Metrics
/-!
# Labels

Incidents are persisted, reviewed, escalated and acknowledged, one whole request
after another. The four writers know five statuses besides `OPEN`; the metrics
count `CONFIRMED` and `DISMISSED` as labels and `OPEN` as pending. `Journal` is
what happened to one incident, and `accounted_iff` says for which journals the
counts come out right.
-/
namespace Netra

open PyLib Table Calls Store Reviews Metrics Persistence

namespace Labels

/-- `ReviewPayload['verdict']` of the dashboard. -/
inductive Verdict where
  | confirmed | falsePositive | dismissed
  deriving DecidableEq, Repr

def Verdict.text : Verdict → String
  | .confirmed => "CONFIRMED"
  | .falsePositive => "FALSE_POSITIVE"
  | .dismissed => "DISMISSED"

/-- One request, or one incident handled by the persistence worker; `env n` is what
its `n`-th statement is told. -/
inductive Op where
  | persist (incident : IncidentEvent)
  | review (id : String) (verdict : Verdict) (notes operator : String) (env : Nat → Env)
  | runOnce (minutes : Int) (env : Nat → Env)
  | acknowledge (id operator : String) (env : Nat → Env)

variable (up : PyUpper)

/-- The database after one operation. -/
def apply (db : Database) : Op → Database
  | .persist incident => (writeIncident incident db).getD db
  | .review id verdict notes operator env => ((reviewIncident up id verdict.text notes operator).run perform env db).1
  | .runOnce minutes env => ((runOnce minutes).run perform env db).1
  | .acknowledge id operator env => ((acknowledgeAlert id operator).run perform env db).1

/-! ## What happened to an incident -/

inductive Event where
  | persisted (status : IncidentStatus)
  | taken
  | acknowledged
  | reviewed (verdict : Verdict)
  deriving DecidableEq, Repr

/-- What an operation on `db` means for the incident `id`: it is written for the
first time, taken by an escalation run, acknowledged or reviewed. -/
def eventOf (id : String) (db : Database) : Op → Option Event
  | .persist incident =>
    if incident.incidentId = id ∧ id ∉ db.incidentIds ∧ (writeIncident incident db).isSome then
      some (.persisted incident.status)
    else none
  | .review id' verdict _ _ _ => if id' = id ∧ id ∈ db.incidentIds then some (.reviewed verdict) else none
  | .runOnce minutes env => if id ∈ (due (env 0) minutes db).map Incident.id then some .taken else none
  | .acknowledge id' _ _ => if id' = id ∧ id ∈ db.incidentIds then some .acknowledged else none

/-- The status after an event. -/
def Event.on (status : String) : Event → String
  | .persisted s => StrEnum.value s
  | .taken => "ESCALATED"
  | .acknowledged => if status = "ESCALATED" then "OPEN" else status
  | .reviewed v => v.text

/-- The verdicts under the incident's reviews. -/
def texts (id : String) (db : Database) : List String :=
  (db.reviews.filter fun r => r.incidentId = id).map Review.verdict

/-! ## One operation -/

variable {up} {db : Database} {id : String}

theorem texts_append (db db' : Database) (row : Review) (h : db'.reviews = db.reviews ++ [row]) :
    texts id db' = texts id db ++ if row.incidentId = id then [row.verdict] else [] := by
  rw [texts, h, List.filter_append, List.map_append, ← texts]
  congr 1
  by_cases hid : row.incidentId = id <;> simp [hid]

theorem status_persist (incident : IncidentEvent) :
    (apply up db (.persist incident)).status id =
      if incident.incidentId = id ∧ id ∉ db.incidentIds ∧ (writeIncident incident db).isSome then
        some (StrEnum.value incident.status)
      else db.status id := by
  rw [apply]
  cases hw : writeIncident incident db with
  | none => simp
  | some db' =>
    obtain ⟨-, hwrote⟩ := writeIncident_spec hw
    obtain ⟨row, hrow, hrows⟩ := hwrote.incidents
    have hspec := rowOf_spec hrow
    rw [Option.getD_some, Database.status_insertNew hrows, hspec.id, hspec.status]
    by_cases hid : id ∈ db.incidentIds
    · obtain ⟨status, hs⟩ := Option.isSome_iff_exists.1 (Database.isSome_status_iff.2 hid)
      simp [hid, hs]
    · have hnone : db.status id = none := by rwa [← Option.not_isSome_iff_eq_none, Database.isSome_status_iff]
      by_cases he : incident.incidentId = id <;> simp [hid, he, hnone]

theorem reviews_persist (incident : IncidentEvent) : (apply up db (.persist incident)).reviews = db.reviews := by
  rw [apply]
  cases hw : writeIncident incident db with
  | none => rfl
  | some db' => exact (writeIncident_spec hw).2.reviews

theorem upper_text (v : Verdict) : up.upper v.text = v.text := by
  cases v <;> exact up.upper_ascii _ (by decide)

/-- A review sets the status, and is recorded when the incident is there. -/
theorem apply_review (id id' : String) (v : Verdict) (notes operator : String) (env : Nat → Env) :
    (apply up db (.review id' v notes operator env)).incidents =
        (setVerdict id' v.text operator notes (env 0).now db).incidents ∧
      texts id (apply up db (.review id' v notes operator env)) =
        texts id db ++ if id' = id ∧ id ∈ db.incidentIds then [v.text] else [] := by
  obtain ⟨hincidents, hreviews⟩ := run_reviewIncident up id' v.text notes operator env db
  rw [upper_text] at hincidents
  refine ⟨hincidents, ?_⟩
  by_cases hid : id' ∈ db.incidentIds
  · rw [if_pos hid] at hreviews
    refine (texts_append db _ _ hreviews).trans ?_
    congr 1
    by_cases he : id' = id
    · rw [if_pos he, if_pos ⟨he, he ▸ hid⟩]
    · rw [if_neg he, if_neg fun h => he h.1]
  · rw [if_neg hid, List.append_nil] at hreviews
    have hno : ¬ (id' = id ∧ id ∈ db.incidentIds) := fun h => hid (h.1 ▸ h.2)
    rw [if_neg hno, List.append_nil, apply, texts, hreviews, ← texts]

/-- An escalation run sets the status of what its `SELECT` found. -/
theorem apply_runOnce (minutes : Int) (env : Nat → Env) :
    (apply up db (.runOnce minutes env)).incidents =
        (escalate ((due (env 0) minutes db).map Incident.id) db).incidents ∧
      (apply up db (.runOnce minutes env)).reviews = db.reviews := by
  simp only [apply, runOnce, Prog.run, perform]
  cases hdue : due (env 0) minutes db with
  | nil =>
    refine ⟨Eq.symm ?_, rfl⟩
    exact updateWhere_of_forall_not fun r _ => by simp
  | cons r rows =>
    simp only [List.isEmpty_cons, Bool.false_eq_true, if_false, Prog.run, perform]
    cases hrec : (r :: rows).foldlM (fun (db : Database) r => db.insertEscalation
        (escalation (env 2).now s!"Unreviewed after {minutes} minutes" r))
        (escalate ((r :: rows).map Incident.id) db) with
    | none => exact ⟨rfl, rfl⟩
    | some x => exact incidents_recordEscalations (e := env 2) hrec

theorem apply_acknowledge (id' operator : String) (env : Nat → Env) :
    apply up db (.acknowledge id' operator env) = acknowledge id' operator db := by
  simp only [apply, acknowledgeAlert, Prog.run, perform]
  split <;> rfl

/-- What an operation makes of an incident's status. -/
theorem status_apply (up : PyUpper) (db : Database) (id : String) (op : Op) :
    (apply up db op).status id =
      match eventOf id db op with
      | none => db.status id
      | some ev => some (ev.on ((db.status id).getD "")) := by
  have hsome : id ∈ db.incidentIds → ∃ status, db.status id = some status := fun hid =>
    Option.isSome_iff_exists.1 (Database.isSome_status_iff.2 hid)
  have hnone : id ∉ db.incidentIds → db.status id = none := fun hid => by
    rwa [← Option.not_isSome_iff_eq_none, Database.isSome_status_iff]
  cases op with
  | persist incident =>
    rw [status_persist, eventOf]
    split <;> rfl
  | review id' v notes operator env =>
    rw [Database.status_congr (apply_review id id' v notes operator env).1,
      status_perform (e := env 0) (s := .setVerdict id' v.text operator notes) rfl, eventOf]
    by_cases hid : id ∈ db.incidentIds
    · obtain ⟨status, hs⟩ := hsome hid
      by_cases he : id' = id <;> simp [hs, hid, he, statusAfter, Event.on]
    · simp [hid, hnone hid]
  | runOnce minutes env =>
    rw [Database.status_congr (apply_runOnce minutes env).1,
      status_perform (e := env 0) (s := .escalate ((due (env 0) minutes db).map Incident.id)) rfl, eventOf]
    by_cases hdue : id ∈ (due (env 0) minutes db).map Incident.id
    · obtain ⟨r, hr, rfl⟩ := List.mem_map.1 hdue
      obtain ⟨status, hs⟩ := hsome (List.mem_map_of_mem (mem_select.1 (List.mem_of_mem_take hr)).1)
      rw [if_pos hdue, hs]
      simp only [Option.map_some, Event.on, statusAfter, if_pos hdue]
    · rw [if_neg hdue]
      simp only [statusAfter, if_neg hdue, Option.map_id']
  | acknowledge id' operator env =>
    rw [apply_acknowledge, status_perform (e := env 0) (s := .acknowledge id' operator) rfl, eventOf]
    by_cases hid : id ∈ db.incidentIds
    · obtain ⟨status, hs⟩ := hsome hid
      by_cases he : id' = id <;> simp [hs, hid, he, statusAfter, Event.on]
    · simp [hid, hnone hid]

/-- What an operation adds to an incident's reviews. -/
theorem texts_apply (up : PyUpper) (db : Database) (id : String) (op : Op) :
    texts id (apply up db op) = texts id db ++
      match eventOf id db op with
      | some (.reviewed v) => [v.text]
      | _ => [] := by
  have hsame {db' : Database} (h : db'.reviews = db.reviews) : texts id db' = texts id db := by rw [texts, h, ← texts]
  cases op with
  | persist incident =>
    rw [hsame (reviews_persist incident), eventOf]
    split <;> simp_all
  | review id' v notes operator env =>
    rw [(apply_review id id' v notes operator env).2, eventOf]
    split <;> rfl
  | runOnce minutes env =>
    rw [hsame (apply_runOnce minutes env).2, eventOf]
    split <;> simp_all
  | acknowledge id' operator env =>
    have hreviews : (acknowledge id' operator db).reviews = db.reviews := rfl
    rw [apply_acknowledge, hsame hreviews, eventOf]
    split <;> simp_all

/-! ## Journals -/

variable (up) in
/-- One operation, and what it means for each incident. -/
def step (db : Database) (op : Op) : Database × (String → Option Event) := (apply up db op, (eventOf · db op))

variable (up) in
/-- The database after the operations `ops`. -/
def dbAfter (db : Database) (ops : List Op) : Database := Mealy.after (step up) db ops

variable (up) in
/-- What happened to the incident `id`. -/
def journal (db : Database) (id : String) (ops : List Op) : List Event :=
  (Mealy.outs (step up) db ops).filterMap (· id)

theorem journal_concat (db : Database) (id : String) (ops : List Op) (op : Op) :
    journal up db id (ops ++ [op]) = journal up db id ops ++ (eventOf id (dbAfter up db ops) op).toList := by
  rw [journal, Mealy.outs_append, List.filterMap_append, ← journal]
  congr 1

def Event.verdict? : Event → Option Verdict
  | .reviewed v => some v
  | _ => none

/-- The verdicts given, in order. -/
def given (rest : List Event) : List Verdict := rest.filterMap Event.verdict?

/-- The status of an incident persisted with `s`. -/
def statusOf (s : IncidentStatus) (rest : List Event) : String :=
  rest.foldl (fun status ev => ev.on status) (StrEnum.value s)

/-- Every escalation was acknowledged later. -/
def Settled (rest : List Event) : Prop := ∀ pre post, rest = pre ++ .taken :: post → .acknowledged ∈ post

/-- What can follow the first entry of a journal: only an open incident is taken. -/
inductive Follows (s : IncidentStatus) : List Event → Prop where
  | nil : Follows s []
  | taken {rest : List Event} : Follows s rest → statusOf s rest = "OPEN" → Follows s (rest ++ [.taken])
  | acknowledged {rest : List Event} : Follows s rest → Follows s (rest ++ [.acknowledged])
  | reviewed {rest : List Event} (v : Verdict) : Follows s rest → Follows s (rest ++ [.reviewed v])

theorem statusOf_concat (s : IncidentStatus) (rest : List Event) (ev : Event) :
    statusOf s (rest ++ [ev]) = ev.on (statusOf s rest) := by simp [statusOf]

theorem given_concat (rest : List Event) (ev : Event) : given (rest ++ [ev]) = given rest ++ ev.verdict?.toList := by
  rw [given, List.filterMap_append, ← given]
  congr 1

@[simp] theorem given_taken (rest : List Event) : given (rest ++ [.taken]) = given rest :=
  (given_concat _ _).trans (List.append_nil _)

@[simp] theorem given_acknowledged (rest : List Event) : given (rest ++ [.acknowledged]) = given rest :=
  (given_concat _ _).trans (List.append_nil _)

@[simp] theorem given_reviewed (rest : List Event) (v : Verdict) :
    given (rest ++ [.reviewed v]) = given rest ++ [v] := given_concat _ _

theorem settled_taken (rest : List Event) : ¬ Settled (rest ++ [.taken]) := fun h => by
  simpa using h rest [] rfl

theorem settled_acknowledged (rest : List Event) : Settled (rest ++ [.acknowledged]) := by
  intro pre post he
  rcases Mealy.split_concat.1 he with ⟨-, h, -⟩ | ⟨post', rfl, -⟩
  · cases h
  · simp

theorem Verdict.text_ne (v : Verdict) : v.text ≠ "OPEN" ∧ v.text ≠ "ESCALATED" := by cases v <;> decide

theorem opened_of_value {s : IncidentStatus} (h : StrEnum.value s = "OPEN") : s = .opened := by
  cases s <;> first | rfl | exact absurd h (by decide)

variable {s : IncidentStatus} {rest : List Event}

/-- After a review the status is the last verdict. -/
theorem Follows.status_of_given (h : Follows s rest) {v : Verdict} (hv : (given rest).getLast? = some v) :
    statusOf s rest = v.text := by
  induction h with
  | nil => cases hv
  | taken _ hopen ih =>
    rw [given_taken] at hv
    exact absurd ((ih hv).symm.trans hopen) v.text_ne.1
  | acknowledged _ ih =>
    rw [given_acknowledged] at hv
    rw [statusOf_concat, Event.on, ih hv, if_neg v.text_ne.2]
  | reviewed w _ _ =>
    rw [given_reviewed, List.getLast?_concat] at hv
    obtain rfl := Option.some.inj hv
    exact statusOf_concat s _ _

/-- Without a review an incident that was persisted open is open or escalated, and
any other stays as it was persisted. -/
theorem Follows.status_of_not_given (h : Follows s rest) (hv : given rest = []) :
    (s = .opened ∧ (statusOf s rest = "OPEN" ∧ Settled rest ∨ statusOf s rest = "ESCALATED" ∧ ¬ Settled rest)) ∨
      (s ≠ .opened ∧ statusOf s rest = StrEnum.value s) := by
  induction h with
  | nil =>
    by_cases hs : s = .opened
    · subst hs
      exact .inl ⟨rfl, .inl ⟨rfl, by simp [Settled]⟩⟩
    · exact .inr ⟨hs, rfl⟩
  | taken _ hopen ih =>
    rw [given_taken] at hv
    rw [statusOf_concat, Event.on]
    rcases ih hv with ⟨hs, -⟩ | ⟨hs, hstatus⟩
    · exact .inl ⟨hs, .inr ⟨rfl, settled_taken _⟩⟩
    · exact absurd (opened_of_value (hstatus.symm.trans hopen)) hs
  | acknowledged _ ih =>
    rw [given_acknowledged] at hv
    rw [statusOf_concat, Event.on]
    rcases ih hv with ⟨hs, ⟨hopen, -⟩ | ⟨hesc, -⟩⟩ | ⟨hs, hstatus⟩
    · rw [hopen]
      exact .inl ⟨hs, .inl ⟨rfl, settled_acknowledged _⟩⟩
    · rw [hesc]
      exact .inl ⟨hs, .inl ⟨rfl, settled_acknowledged _⟩⟩
    · rw [hstatus]
      refine .inr ⟨hs, if_neg ?_⟩
      cases s <;> decide
  | reviewed w _ _ =>
    simp at hv

/-- The journals the metrics and label statistics account for. A reviewed incident
was last confirmed or dismissed, and dismissed if it was ever called a false
positive; one without a review was persisted open and is not left escalated. -/
def Labelled (s : IncidentStatus) (rest : List Event) : Prop :=
  match (given rest).getLast? with
  | none => s = .opened ∧ Settled rest
  | some v => v = .dismissed ∨ (v = .confirmed ∧ .falsePositive ∉ given rest)

/-- One incident in the counts: it is a label when it has a review, it counts as
false positive when a review said so, and its status is one that is counted. -/
structure Counted (status : String) (texts : List String) : Prop where
  label : texts ≠ [] ↔ status = "CONFIRMED" ∨ status = "DISMISSED"
  falsePositive : "FALSE_POSITIVE" ∈ texts → status = "DISMISSED"
  pending : status = "CONFIRMED" ∨ status = "DISMISSED" ∨ status = "OPEN"

theorem text_injective : Function.Injective Verdict.text := by
  intro v w h
  cases v <;> cases w <;> first | rfl | exact absurd h (by decide)

theorem Follows.counted_iff (h : Follows s rest) :
    Counted (statusOf s rest) ((given rest).map Verdict.text) ↔ Labelled s rest := by
  have hfp : "FALSE_POSITIVE" ∈ (given rest).map Verdict.text ↔ .falsePositive ∈ given rest :=
    List.mem_map_of_injective (a := .falsePositive) text_injective
  unfold Labelled
  cases hv : (given rest).getLast? with
  | none =>
    have hnil : given rest = [] := List.getLast?_eq_none_iff.1 hv
    rw [hnil, List.map_nil]
    have hcases := h.status_of_not_given hnil
    constructor
    · rintro ⟨hlabel, -, hpending⟩
      have hopen : statusOf s rest = "OPEN" := by
        rcases hpending with hc | hd | ho
        · exact absurd rfl (hlabel.2 (.inl hc))
        · exact absurd rfl (hlabel.2 (.inr hd))
        · exact ho
      rcases hcases with ⟨hs, ⟨-, hset⟩ | ⟨hesc, -⟩⟩ | ⟨hs, hstatus⟩
      · exact ⟨hs, hset⟩
      · rw [hopen] at hesc
        exact absurd hesc (by decide)
      · exact absurd (opened_of_value (hstatus.symm.trans hopen)) hs
    · rintro ⟨hs, hset⟩
      have hopen : statusOf s rest = "OPEN" := by
        rcases hcases with ⟨-, ⟨ho, -⟩ | ⟨-, hno⟩⟩ | ⟨hno, -⟩
        · exact ho
        · exact absurd hset hno
        · exact absurd hs hno
      rw [hopen]
      exact ⟨by simp, by simp, .inr (.inr rfl)⟩
  | some v =>
    have hne : (given rest).map Verdict.text ≠ [] := by
      intro he
      simp [List.map_eq_nil_iff.1 he] at hv
    rw [h.status_of_given hv]
    constructor
    · rintro ⟨-, hfalse, hpending⟩
      cases v with
      | confirmed => exact .inr ⟨rfl, fun hm => absurd (hfalse (hfp.2 hm)) (by decide)⟩
      | falsePositive => exact absurd hpending (by decide)
      | dismissed => exact .inl rfl
    · rintro (rfl | ⟨rfl, hno⟩)
      · exact ⟨iff_of_true hne (.inr rfl), fun _ => rfl, .inr (.inl rfl)⟩
      · exact ⟨iff_of_true hne (.inl rfl), fun hm => absurd (hfp.1 hm) hno, .inl rfl⟩

/-! ## Runs -/

/-- What a run leaves of an incident: nothing, or what its journal says. -/
inductive Standing (id : String) (db : Database) : List Event → Prop where
  | unknown : db.status id = none → texts id db = [] → Standing id db []
  | known (s : IncidentStatus) (rest : List Event) : db.status id = some (statusOf s rest) →
      texts id db = (given rest).map Verdict.text → Follows s rest → Standing id db (.persisted s :: rest)

/-- An incident is written when it is not there; the rest happens to one that is, and
only an open one is taken. -/
theorem eventOf_cases {op : Op} {ev : Event} (h : eventOf id db op = some ev) :
    ((∃ s, ev = .persisted s) ∧ db.status id = none) ∨
      ((db.status id).isSome ∧
        (ev = .taken ∧ db.status id = some "OPEN" ∨ ev = .acknowledged ∨ ∃ v, ev = .reviewed v)) := by
  cases op with
  | persist incident =>
    obtain ⟨⟨-, hid, -⟩, he⟩ := Option.ite_none_right_eq_some.1 h
    refine .inl ⟨⟨_, (Option.some.inj he).symm⟩, ?_⟩
    rwa [← Option.not_isSome_iff_eq_none, Database.isSome_status_iff]
  | review id' v notes operator env =>
    obtain ⟨⟨-, hid⟩, he⟩ := Option.ite_none_right_eq_some.1 h
    exact .inr ⟨Database.isSome_status_iff.2 hid, .inr (.inr ⟨v, (Option.some.inj he).symm⟩)⟩
  | runOnce minutes env =>
    obtain ⟨hdue, he⟩ := Option.ite_none_right_eq_some.1 h
    obtain ⟨r, hr, rfl⟩ := List.mem_map.1 hdue
    obtain ⟨hr, hp⟩ := mem_select.1 (List.mem_of_mem_take hr)
    have hopen : r.status = "OPEN" := by simp_all [isDue]
    have hstatus : db.status r.id = some "OPEN" := hopen ▸ Database.status_of_mem hr
    exact .inr ⟨by rw [hstatus]; rfl, .inl ⟨(Option.some.inj he).symm, hstatus⟩⟩
  | acknowledge id' operator env =>
    obtain ⟨⟨-, hid⟩, he⟩ := Option.ite_none_right_eq_some.1 h
    exact .inr ⟨Database.isSome_status_iff.2 hid, .inr (.inl (Option.some.inj he).symm)⟩

theorem Standing.apply {j : List Event} (h : Standing id db j) (op : Op) :
    Standing id (Labels.apply up db op) (j ++ (eventOf id db op).toList) := by
  have hstatus := status_apply up db id op
  have htexts := texts_apply up db id op
  cases hev : eventOf id db op with
  | none =>
    rw [hev] at hstatus htexts
    rw [Option.toList_none, List.append_nil]
    rw [List.append_nil] at htexts
    cases h with
    | unknown hs ht => exact .unknown (hstatus.trans hs) (htexts.trans ht)
    | known s rest hs ht hf => exact .known s rest (hstatus.trans hs) (htexts.trans ht) hf
  | some ev =>
    rw [hev] at hstatus htexts
    rw [Option.toList_some]
    cases h with
    | unknown hs ht =>
      rcases eventOf_cases hev with ⟨⟨s, rfl⟩, -⟩ | ⟨hsome, -⟩
      · rw [ht] at htexts
        exact .known s [] hstatus htexts .nil
      · simp [hs] at hsome
    | known s rest hs ht hf =>
      rw [hs, Option.getD_some] at hstatus
      rw [ht] at htexts
      rw [List.cons_append]
      rcases eventOf_cases hev with ⟨-, hnone⟩ | ⟨-, ⟨rfl, hopen⟩ | rfl | ⟨v, rfl⟩⟩
      · simp [hs] at hnone
      · refine .known s _ (by rw [hstatus, statusOf_concat]) (by rw [htexts, given_taken, List.append_nil])
          (hf.taken ?_)
        exact Option.some.inj (hs.symm.trans hopen)
      · exact .known s _ (by rw [hstatus, statusOf_concat]) (by rw [htexts, given_acknowledged, List.append_nil])
          hf.acknowledged
      · exact .known s _ (by rw [hstatus, statusOf_concat]) (by rw [htexts, given_reviewed, List.map_append]; rfl)
          (hf.reviewed v)

/-- A stored incident has a journal. -/
theorem Standing.of_mem {r : Incident} {j : List Event} (h : Standing r.id db j) (hr : r ∈ db.incidents) :
    ∃ s rest, j = .persisted s :: rest ∧ r.status = statusOf s rest ∧
      texts r.id db = (given rest).map Verdict.text ∧ Follows s rest := by
  have hrow := Database.status_of_mem hr
  cases h with
  | unknown hs _ => simp [hs] at hrow
  | known s rest hs ht hf => exact ⟨s, rest, rfl, Option.some.inj (hrow.symm.trans hs), ht, hf⟩

theorem standing_dbAfter (up : PyUpper) (db : Database) (hi : db.incidents = []) (hr : db.reviews = []) (id : String)
    (ops : List Op) : Standing id (dbAfter up db ops) (journal up db id ops) := by
  induction ops using List.reverseRecOn with
  | nil =>
    exact .unknown (by simp [dbAfter, Database.status, Database.incident, hi, row]) (by simp [dbAfter, texts, hr])
  | append_singleton ops op ih =>
    rw [journal_concat]
    have hafter : dbAfter up db (ops ++ [op]) = Labels.apply up (dbAfter up db ops) op := Mealy.after_concat _ _ _ _
    rw [hafter]
    exact ih.apply op

/-! ## The counts -/

/-- The counts over the whole table: `tp + fp` is the number of reviewed incidents,
each incident reviewed as a false positive is in `fp`, and every incident is
confirmed, dismissed or pending. -/
def Accounted (db : Database) : Prop :=
  (∀ days now, (∀ r ∈ db.incidents, inWindow now days r = true) →
    (overall days now db).tp + (overall days now db).fp =
        count (fun r => r.id ∈ db.reviews.map Review.incidentId) db ∧
      ∀ v ∈ db.reviews, v.verdict = "FALSE_POSITIVE" →
        ∃ r ∈ db.incidents, r.id = v.incidentId ∧ hasStatus "DISMISSED" r && inWindow now days r) ∧
    (labelStats db).confirmed + (labelStats db).dismissed + (labelStats db).pending = (labelStats db).total

theorem texts_ne_nil_iff : texts id db ≠ [] ↔ id ∈ db.reviews.map Review.incidentId := by
  simp [texts, List.filter_eq_nil_iff]

theorem mem_texts_iff {text : String} :
    text ∈ texts id db ↔ ∃ v ∈ db.reviews, v.incidentId = id ∧ v.verdict = text := by
  simp [texts, and_assoc]

/-- A window that covers every incident. -/
theorem exists_window (rows : List Incident) : ∃ now, ∀ r ∈ rows, inWindow now 0 r = true := by
  induction rows with
  | nil => exact ⟨0, by simp⟩
  | cons r rows ih =>
    obtain ⟨now, h⟩ := ih
    refine ⟨min now r.occurredAt, fun r' hr' => ?_⟩
    simp only [inWindow, Int.cast_zero, mul_zero, sub_zero, decide_eq_true_eq] at h ⊢
    rcases List.mem_cons.1 hr' with rfl | hr'
    · exact min_le_right _ _
    · exact (min_le_left _ _).trans (h r' hr')

theorem count_labels (db : Database) :
    count (hasStatus "CONFIRMED") db + count (hasStatus "DISMISSED") db =
      count (fun r => hasStatus "CONFIRMED" r || hasStatus "DISMISSED" r) db := by
  refine countP_add_of_disjoint fun r _ hc => ?_
  rw [hasStatus_iff] at hc
  simp [hasStatus, hc]

/-- Every incident is confirmed, dismissed or pending. -/
theorem labelStats_total_iff (db : Database) :
    (labelStats db).confirmed + (labelStats db).dismissed + (labelStats db).pending = (labelStats db).total ↔
      ∀ r ∈ db.incidents, r.status = "CONFIRMED" ∨ r.status = "DISMISSED" ∨ r.status = "OPEN" := by
  have hsum : count (fun r => hasStatus "CONFIRMED" r || hasStatus "DISMISSED" r) db + count (hasStatus "OPEN") db =
      count (fun r => (hasStatus "CONFIRMED" r || hasStatus "DISMISSED" r) || hasStatus "OPEN" r) db := by
    refine countP_add_of_disjoint fun r _ hcd => ?_
    rw [Bool.or_eq_true, hasStatus_iff, hasStatus_iff] at hcd
    rcases hcd with h | h <;> simp [hasStatus, h]
  simp only [labelStats]
  rw [count_labels, hsum, count, count, List.countP_true, List.countP_eq_length]
  simp [hasStatus, or_assoc]

theorem overall_labels {days : Int} {now : ℚ} (h : ∀ r ∈ db.incidents, inWindow now days r = true) :
    (overall days now db).tp + (overall days now db).fp =
      count (fun r => hasStatus "CONFIRMED" r || hasStatus "DISMISSED" r) db := by
  have hcount (status : String) : count (fun r => hasStatus status r && inWindow now days r) db =
      count (hasStatus status) db :=
    List.countP_congr fun r hr => by rw [h r hr, Bool.and_true]
  rw [← count_labels, overall, compute, hcount, hcount]

/-- The counts come out right when every incident is counted for what it is. -/
theorem accounted_iff_counted (hopen : ∀ r ∈ db.incidents, texts r.id db ≠ [] → r.status ≠ "OPEN") :
    Accounted db ↔ ∀ r ∈ db.incidents, Counted r.status (texts r.id db) := by
  constructor
  · rintro ⟨hoverall, htotal⟩ r hr
    have hpending := (labelStats_total_iff db).1 htotal
    obtain ⟨now, hnow⟩ := exists_window db.incidents
    obtain ⟨hsum, hfp⟩ := hoverall 0 now hnow
    rw [overall_labels hnow] at hsum
    -- a reviewed incident is not open, so it is a label; as many are labels as are reviewed
    have hlabel : ∀ r ∈ db.incidents, decide (r.id ∈ db.reviews.map Review.incidentId) = true →
        (hasStatus "CONFIRMED" r || hasStatus "DISMISSED" r) = true := by
      intro r hr hrev
      rw [Bool.or_eq_true, hasStatus_iff, hasStatus_iff]
      rcases hpending r hr with hc | hd | ho
      · exact .inl hc
      · exact .inr hd
      · exact absurd ho (hopen r hr (texts_ne_nil_iff.2 (of_decide_eq_true hrev)))
    have hreviewed := forall_of_countP_eq hlabel hsum.symm
    simp only [Bool.or_eq_true, hasStatus_iff, decide_eq_true_eq] at hlabel hreviewed
    refine ⟨texts_ne_nil_iff.trans ⟨hlabel r hr, hreviewed r hr⟩, fun hmem => ?_, hpending r hr⟩
    obtain ⟨v, hv, hid, htext⟩ := mem_texts_iff.1 hmem
    obtain ⟨r', hr', hid', hd⟩ := hfp v hv htext
    rw [List.inj_on_of_nodup_map db.incidents_pk hr hr' (hid.symm.trans hid'.symm)]
    exact hasStatus_iff.1 (Bool.and_eq_true_iff.1 hd).1
  · intro h
    refine ⟨fun days now hnow => ⟨?_, fun v hv htext => ?_⟩, (labelStats_total_iff db).2 fun r hr => (h r hr).pending⟩
    · rw [overall_labels hnow]
      refine List.countP_congr fun r hr => ?_
      rw [Bool.or_eq_true, hasStatus_iff, hasStatus_iff, decide_eq_true_eq, ← texts_ne_nil_iff]
      exact (h r hr).label.symm
    · obtain ⟨r, hr, hid⟩ := List.mem_map.1 (db.reviews_incident v hv)
      have hd : r.status = "DISMISSED" := (h r hr).falsePositive (mem_texts_iff.2 ⟨v, hv, hid.symm, htext⟩)
      exact ⟨r, hr, hid, by rw [hasStatus_iff.2 hd, hnow r hr]; rfl⟩

/-- Every verdict counts as a label exactly when every stored incident has a journal
the counts account for. -/
theorem accounted_iff (up : PyUpper) (cameras : List Camera) (h : (cameras.map Camera.id).Nodup) (ops : List Op) :
    Accounted (dbAfter up (.withCameras cameras h) ops) ↔
      ∀ id s rest, journal up (.withCameras cameras h) id ops = .persisted s :: rest → Labelled s rest := by
  have hstanding (id : String) := standing_dbAfter up (.withCameras cameras h) rfl rfl id ops
  generalize dbAfter up (.withCameras cameras h) ops = db at hstanding ⊢
  have hopen : ∀ r ∈ db.incidents, texts r.id db ≠ [] → r.status ≠ "OPEN" := by
    intro r hr htexts
    obtain ⟨s, rest, -, hstatus, ht, hf⟩ := (hstanding r.id).of_mem hr
    rw [ht, Ne, List.map_eq_nil_iff] at htexts
    obtain ⟨v, hv⟩ := Option.ne_none_iff_exists'.1 (mt List.getLast?_eq_none_iff.1 htexts)
    rw [hstatus, hf.status_of_given hv]
    exact v.text_ne.1
  rw [accounted_iff_counted hopen]
  constructor
  · intro hcounted id s rest hj
    have hknown := hj ▸ hstanding id
    cases hknown with
    | known s rest hs ht hf =>
      have hid : id ∈ db.incidentIds := Database.isSome_status_iff.1 (by rw [hs]; rfl)
      obtain ⟨r, hr, rfl⟩ := List.mem_map.1 hid
      have hstatus : r.status = statusOf s rest := Option.some.inj ((Database.status_of_mem hr).symm.trans hs)
      exact hf.counted_iff.1 (hstatus ▸ ht ▸ hcounted r hr)
  · intro hlabelled r hr
    obtain ⟨s, rest, hj, hstatus, ht, hf⟩ := (hstanding r.id).of_mem hr
    rw [hstatus, ht]
    exact hf.counted_iff.2 (hlabelled r.id s rest hj)

/-- The incident of a configured camera, and one review of it. -/
def oneReview (v : Verdict) : List Op := [
  .persist theft, .review "inc_1" v "" "op_1" fun _ => ⟨2, .forward _⟩]

def oneCamera : List Camera := [⟨"cam_1", "Aisle 1"⟩]

theorem accounted_confirmed :
    Accounted (dbAfter .ascii (.withCameras oneCamera (by decide)) (oneReview .confirmed)) := by
  refine (accounted_iff .ascii oneCamera (by decide) (oneReview .confirmed)).2 ?_
  intro id s rest hj
  by_cases hid : id = "inc_1"
  · subst hid
    have hjournal : journal .ascii (.withCameras oneCamera (by decide)) "inc_1" (oneReview .confirmed) =
        [.persisted .opened, .reviewed .confirmed] := by decide +kernel
    rw [hjournal] at hj
    obtain ⟨-, rfl⟩ := List.cons.inj hj
    exact .inr ⟨rfl, by decide⟩
  · have hnone : journal .ascii (.withCameras oneCamera (by decide)) id (oneReview .confirmed) = [] := by
      simp [journal, oneReview, step, eventOf, theft, Ne.symm hid]
    rw [hnone] at hj
    cases hj

/-- An incident reviewed as a false positive is neither a label nor pending. -/
theorem accounted_fails :
    ¬ Accounted (dbAfter .ascii (.withCameras oneCamera (by decide)) (oneReview .falsePositive)) := by
  rintro ⟨-, htotal⟩
  exact absurd htotal (by decide +kernel)

end Labels

end Netra
