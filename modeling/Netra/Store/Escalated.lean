import Netra.Store.Labels
import Netra.Store.Verdicts
/-!
# Escalated incidents

Escalation runs, reviews, acknowledgements and the persistence worker's inserts,
interleaved statement by statement, any of them breaking off. An escalation run
marks its incidents in one statement and records them in the next; in between it
still owes the records (`Pledges`). The run neither looks at the statuses again
nor undoes the first statement, and a review may set any status. In a run where
neither matters, the escalated incidents are the recorded ones that nobody has
answered since, whenever no call is in progress (`escalated_iff_recorded`).
-/
namespace Netra

open PyLib Table Calls Store Persistence

namespace Escalated

open Reviews (Env Reply)

inductive Request where
  | reviews (c : Reviews.Request)
  /-- `write_incident` of the persistence worker -/
  | write (incident : IncidentEvent)

inductive Stmt where
  | reviews (s : Reviews.Stmt)
  | insertIncident (x : Incident)
  | insertCamera (x : Camera)
  deriving DecidableEq, Repr

def perform (e : Env) : Stmt → Database → Option (Database × List Incident)
  | .reviews s, db => Reviews.perform e s db
  | .insertIncident x, db => (db.insertIncident x).map (·, [])
  | .insertCamera x, db => some (db.insertCamera x, [])

/-- A call of statements; `write_incident` hands nothing back. -/
abbrev Body := Prog Stmt (List Incident) (Option Reply)

/-- `write_incident` -/
def writeIncident (incident : IncidentEvent) : Body :=
  match rowOf incident with
  -- it raises before its first statement
  | none => .ret none
  | some row =>
    .stmt (.insertIncident row) fun _ =>
      .stmt (.insertCamera { id := incident.cameraId, displayName := incident.cameraId }) fun _ => .ret none

def prog (up : PyUpper) : Request → Body
  | .reviews c => (Reviews.prog up c).map .reviews some
  | .write incident => writeIncident incident

/-- The database and the calls in progress. -/
abbrev System := Pool Request Stmt (List Incident) (Option Reply) Database

abbrev Happened := Outcome Request Stmt (List Incident) (Option Reply) Database Env

section
variable (up : PyUpper) (db : Database)

/-- One action, and what came of it. -/
def next (p : System) (a : Action Request Env) : System × Happened := step (prog up) perform p a

/-- The system after the actions `as`, from the database `db` and no call. -/
def systemAfter (as : List (Action Request Env)) : System := Mealy.after (next up) (Pool.new db) as

end

/-- The incident has a row in `alert_escalations`. -/
def HasRecord (id : String) (db : Database) : Prop := id ∈ db.alertEscalations.map AlertEscalation.incidentId

instance (id : String) (db : Database) : Decidable (HasRecord id db) :=
  inferInstanceAs (Decidable (id ∈ db.alertEscalations.map AlertEscalation.incidentId))

/-- The statement reviews the incident, or acknowledges it while it is escalated. -/
def Answers (id : String) (x : Database) : Stmt → Prop
  | .reviews (.setVerdict id' _ _ _) => id' = id
  | .reviews (.acknowledge id' _) => id' = id ∧ x.status id = some "ESCALATED"
  | _ => False

/-- The statement performed answers an incident that has its record. -/
def AnswersAt (id : String) (x : Database) (o : Happened) : Prop :=
  ∃ s, o.stmt? = some s ∧ HasRecord id x ∧ Answers id x s

/-- One of the actions `as` answered the incident when it had its record. -/
def AnsweredSince (up : PyUpper) (db : Database) (as : List (Action Request Env)) (id : String) : Prop :=
  ∃ pre a post, as = pre ++ a :: post ∧
    AnswersAt id (systemAfter up db pre).store (next up (systemAfter up db pre) a).2

/-- Whenever no call is in progress, the escalated incidents are the recorded ones
that were not answered since. -/
def EscalatedIffRecorded (up : PyUpper) (db : Database) (as : List (Action Request Env)) : Prop :=
  ∀ done, done <+: as → (systemAfter up db done).Idle → ∀ id,
    (systemAfter up db done).store.status id = some "ESCALATED" ↔
      HasRecord id (systemAfter up db done).store ∧ ¬ AnsweredSince up db done id

/-! ## Pledges -/

/-- The statement leads to a record of the incident: it is the insert, or the update
the insert follows. -/
def Pledges (id : String) : Stmt → Prop
  | .reviews (.escalate ids) => id ∈ ids
  | .reviews (.recordEscalations rows _) => id ∈ rows.map Incident.id
  | _ => False

/-- A call in progress will record the incident. -/
def Owed (id : String) (p : System) : Prop := ∃ j q, p.calls j = some q ∧ Pledges id q.next

/-- The review's verdict reads `ESCALATED`. -/
def Proclaims (id : String) : Stmt → Prop
  | .reviews (.setVerdict id' status _ _) => id' = id ∧ status = "ESCALATED"
  | _ => False

/-- The statement meets an escalated incident where it marks one that has its record,
or writes one; and it proclaims none that has. -/
def Apt (x : Database) : Stmt → Prop
  | .reviews (.escalate ids) => ∀ id ∈ ids, HasRecord id x → x.status id = some "ESCALATED"
  | .reviews (.recordEscalations rows _) =>
    ∀ id ∈ rows.map Incident.id, ¬ HasRecord id x → x.status id = some "ESCALATED"
  | .reviews (.setVerdict id status _ _) => status = "ESCALATED" → ¬ HasRecord id x
  | _ => True

/-- What the statements do not make sure of: they are apt, and an incident is neither
proclaimed escalated, nor left escalated by a call that breaks off, unless another
call is to record it. `rest` are the calls after the action. -/
def SettlesAt (p rest : System) : Happened → Prop
  | .nothing => True
  | .performed _ s => Apt p.store s ∧ ∀ id ∈ p.store.incidentIds, Proclaims id s → Owed id p
  | .raised q =>
    ∀ id, Pledges id q.next → ¬ HasRecord id p.store → p.store.status id = some "ESCALATED" → Owed id rest

/-- Every action of the run settles what it touches. -/
def Settles (up : PyUpper) (db : Database) (as : List (Action Request Env)) : Prop :=
  Mealy.Always (next up) (fun p a => SettlesAt p (next up p a).1 (next up p a).2) (Pool.new db) as

/-- An escalation run records what it has marked, and no incident is inserted as an
escalated one. -/
def Proper : Stmt → (List Incident → Body) → Prop
  | .reviews (.escalate ids), k =>
    ∀ r, ∃ rows reason k', k r = .stmt (.reviews (.recordEscalations rows reason)) k' ∧ rows.map Incident.id = ids
  | .insertIncident x, _ => x.status ≠ "ESCALATED"
  | _, _ => True

theorem proper_writeIncident (incident : IncidentEvent) : (writeIncident incident).Always Proper := by
  have hstatus : StrEnum.value incident.status ≠ "ESCALATED" := by cases incident.status <;> decide
  unfold writeIncident
  cases hrow : rowOf incident with
  | none => trivial
  | some row =>
    rw [← (rowOf_spec hrow).status] at hstatus
    exact ⟨hstatus, fun _ => ⟨trivial, fun _ => trivial⟩⟩

theorem proper_prog (up : PyUpper) (c : Request) : (prog up c).Always Proper := by
  cases c with
  | reviews c =>
    cases c with
    | runOnce minutes =>
      refine ⟨trivial, fun rows => ?_⟩
      cases rows with
      | nil => trivial
      | cons r rows => exact ⟨fun _ => ⟨r :: rows, _, _, rfl, rfl⟩, fun _ => ⟨trivial, fun _ => trivial⟩⟩
    | review id verdict notes operator => exact ⟨trivial, fun _ => ⟨trivial, fun _ => trivial⟩⟩
    | acknowledge id operator =>
      refine ⟨trivial, fun rows => ?_⟩
      cases rows <;> trivial
  | write incident => exact proper_writeIncident incident

/-! ## One statement -/

variable {x y : Database} {rows : List Incident} {e : Env} {s : Stmt} {id : String}

theorem hasRecord_insertEscalation {r : AlertEscalation} (h : x.insertEscalation r = some y) :
    HasRecord id y ↔ HasRecord id x ∨ id = r.incidentId := by
  unfold Database.insertEscalation at h
  split at h
  · obtain rfl := Option.some.inj h
    exact mem_map_insertNew.trans or_comm
  · cases h

/-- The `executemany` leaves a record of each of its rows. -/
theorem hasRecord_recordEscalations {now : ℚ} {reason : String}
    (h : rows.foldlM (fun (db : Database) r => db.insertEscalation (Reviews.escalation now reason r)) x = some y) :
    HasRecord id y ↔ HasRecord id x ∨ id ∈ rows.map Incident.id := by
  induction rows generalizing x with
  | nil =>
    obtain rfl := Option.some.inj h
    simp
  | cons r rows ih =>
    obtain ⟨x₁, h₁, h⟩ := Option.bind_eq_some_iff.1 (List.foldlM_cons.symm.trans h)
    rw [ih h, hasRecord_insertEscalation h₁, List.map_cons, List.mem_cons, or_assoc]
    rfl

/-- The statement inserts the records of these incidents. -/
def recordedBy : Stmt → List String
  | .reviews (.recordEscalations rows _) => rows.map Incident.id
  | _ => []

theorem hasRecord_perform (h : perform e s x = some (y, rows)) :
    HasRecord id y ↔ HasRecord id x ∨ id ∈ recordedBy s := by
  have hsame (he : y.alertEscalations = x.alertEscalations) : HasRecord id y ↔ HasRecord id x ∨ id ∈ [] := by
    simp [HasRecord, he]
  cases s with
  | reviews s =>
    cases s with
    | recordEscalations due reason =>
      obtain ⟨x₁, h₁, h⟩ := Option.map_eq_some_iff.1 h
      obtain ⟨rfl, -⟩ := Prod.mk.inj h
      exact hasRecord_recordEscalations h₁
    | insertReview row =>
      obtain ⟨x₁, h₁, h⟩ := Option.map_eq_some_iff.1 h
      obtain ⟨rfl, -⟩ := Prod.mk.inj h
      exact hsame (Database.alertEscalations_insertReview h₁)
    | _ =>
      obtain ⟨rfl, -⟩ := Prod.mk.inj (Option.some.inj h)
      exact hsame rfl
  | insertIncident r =>
    obtain ⟨x₁, h₁, h⟩ := Option.map_eq_some_iff.1 h
    obtain ⟨rfl, -⟩ := Prod.mk.inj h
    exact hsame (Database.insertIncident_spec h₁).alertEscalations
  | insertCamera c =>
    obtain ⟨rfl, -⟩ := Prod.mk.inj (Option.some.inj h)
    exact hsame rfl

/-- What a statement makes of an incident's status. -/
def statusAfter (id : String) (status : Option String) : Stmt → Option String
  | .reviews s => status.map (Reviews.statusAfter id · s)
  | .insertIncident r => status.or (if r.id = id then some r.status else none)
  | .insertCamera _ => status

theorem status_perform (h : perform e s x = some (y, rows)) (id : String) :
    y.status id = statusAfter id (x.status id) s := by
  cases s with
  | reviews s => exact Reviews.status_perform h id
  | insertIncident r =>
    obtain ⟨x₁, h₁, h⟩ := Option.map_eq_some_iff.1 h
    obtain ⟨rfl, -⟩ := Prod.mk.inj h
    exact Database.status_insertNew (Database.insertIncident_spec h₁).incidents id
  | insertCamera c =>
    obtain ⟨rfl, -⟩ := Prod.mk.inj (Option.some.inj h)
    rfl

/-- A recorded incident is in the table. -/
theorem HasRecord.mem_incidentIds (h : HasRecord id x) : id ∈ x.incidentIds := by
  obtain ⟨r, hr, rfl⟩ := List.mem_map.1 h
  exact x.escalations_incident r hr

/-- A recorded incident stays escalated until it is answered. -/
theorem escalated_perform_of_recorded (h : perform e s x = some (y, rows)) (ha : Apt x s) (hr : HasRecord id x) :
    y.status id = some "ESCALATED" ↔ x.status id = some "ESCALATED" ∧ ¬ Answers id x s := by
  have hid := hr.mem_incidentIds
  obtain ⟨status, hs⟩ := Option.isSome_iff_exists.1 (Database.isSome_status_iff.2 hid)
  rw [status_perform h]
  cases s with
  | reviews s =>
    cases s with
    | escalate ids =>
      by_cases hm : id ∈ ids
      · simp [statusAfter, Reviews.statusAfter, Answers, hm, ha id hm hr]
      · simp [statusAfter, Reviews.statusAfter, Answers, hm, hs]
    | setVerdict id' status' operator notes =>
      by_cases hm : id' = id
      · subst hm
        have hne : status' ≠ "ESCALATED" := fun he => ha he hr
        simp [statusAfter, Reviews.statusAfter, Answers, hs, hne]
      · simp [statusAfter, Reviews.statusAfter, Answers, hs, hm]
    | acknowledge id' operator =>
      by_cases hm : id' = id
      · by_cases he : status = "ESCALATED" <;> simp [statusAfter, Reviews.statusAfter, Answers, hs, hm, he]
      · simp [statusAfter, Reviews.statusAfter, Answers, hs, hm]
    | _ => simp [statusAfter, Reviews.statusAfter, Answers, hs]
  | insertIncident r => simp [statusAfter, Answers, hs]
  | insertCamera c => simp [statusAfter, Answers]

/-- How an incident comes to be escalated. -/
theorem escalated_perform_cases (h : perform e s x = some (y, rows)) (hins : ∀ r, s = .insertIncident r →
    r.status ≠ "ESCALATED") (hy : y.status id = some "ESCALATED") :
    x.status id = some "ESCALATED" ∨ (id ∈ x.incidentIds ∧ Proclaims id s) ∨
      ∃ ids, s = .reviews (.escalate ids) ∧ id ∈ ids := by
  rw [status_perform h] at hy
  cases s with
  | reviews s =>
    obtain ⟨status, hs, hstatus⟩ := Option.map_eq_some_iff.1 hy
    have hid : id ∈ x.incidentIds := Database.isSome_status_iff.1 (by rw [hs]; rfl)
    cases s with
    | escalate ids =>
      by_cases hm : id ∈ ids
      · exact .inr (.inr ⟨ids, rfl, hm⟩)
      · rw [Reviews.statusAfter, if_neg hm] at hstatus
        exact .inl (hstatus ▸ hs)
    | setVerdict id' status' operator notes =>
      by_cases hm : id' = id
      · rw [Reviews.statusAfter, if_pos hm] at hstatus
        exact .inr (.inl ⟨hid, hm, hstatus⟩)
      · rw [Reviews.statusAfter, if_neg hm] at hstatus
        exact .inl (hstatus ▸ hs)
    | acknowledge id' operator =>
      rw [Reviews.statusAfter] at hstatus
      split at hstatus
      · exact absurd hstatus (by decide)
      · exact .inl (hstatus ▸ hs)
    | _ => exact .inl (hstatus ▸ hs)
  | insertIncident r =>
    rcases Option.or_eq_some_iff.1 hy with hs | ⟨-, hr⟩
    · exact .inl hs
    · obtain ⟨-, hr⟩ := Option.ite_none_right_eq_some.1 hr
      exact absurd (Option.some.inj hr) (hins r rfl)
  | insertCamera c => exact .inl hy

/-! ## Runs -/

/-- What holds in every state: an escalated incident has its record and no answer
since, or a call is about to record it. -/
structure Inv (p : System) (answered : String → Prop) : Prop where
  proper : ∀ j q, p.calls j = some q → (Prog.stmt q.next q.cont).Always Proper
  recorded : ∀ id, HasRecord id p.store → (p.store.status id = some "ESCALATED" ↔ ¬ answered id)
  owed : ∀ id, ¬ HasRecord id p.store → p.store.status id = some "ESCALATED" → Owed id p
  answered : ∀ id, answered id → HasRecord id p.store

/-- The pledge is kept in the next statement, or the record is there. -/
theorem owed_performed {p : System} {i : Nat} {q : InProgress Request Stmt (List Incident) (Option Reply) Database}
    (hq : p.calls i = some q) (hproper : (Prog.stmt q.next q.cont).Always Proper)
    (h : perform e q.next p.store = some (y, rows)) (hs : SettlesAt p p (.performed e q.next))
    (howed : p.store.status id = some "ESCALATED" → Owed id p) (hno : ¬ HasRecord id y)
    (hy : y.status id = some "ESCALATED") :
    Owed id ⟨y, Function.update p.calls i (enter q.request (q.done ++ [⟨q.next, p.store, y⟩]) (q.cont rows))⟩ := by
  by_cases hmark : ∃ ids, q.next = .reviews (.escalate ids) ∧ id ∈ ids
  · obtain ⟨ids, hnext, hid⟩ := hmark
    have hthen := hproper.1
    rw [hnext] at hthen
    obtain ⟨due, reason, k', hk, rfl⟩ := hthen rows
    rw [hk]
    exact ⟨i, _, Function.update_self _ _ _, hid⟩
  · have hpledge : ¬ Pledges id q.next := by
      intro hp
      cases hnext : q.next with
      | reviews s =>
        rw [hnext] at hp
        cases s with
        | escalate ids => exact hmark ⟨ids, hnext, hp⟩
        | recordEscalations due reason =>
          rw [hnext] at h
          exact hno ((hasRecord_perform h).2 (.inr hp))
        | _ => exact hp
      | _ =>
        rw [hnext] at hp
        exact hp
    have hins : ∀ r, q.next = .insertIncident r → r.status ≠ "ESCALATED" := by
      intro r hnext
      have hinserted := hproper.1
      rw [hnext] at hinserted
      exact hinserted
    refine exists_elsewhere (fun q' hq' => Option.some.inj (hq.symm.trans hq') ▸ hpledge) ?_
    rcases escalated_perform_cases h hins hy with hx | ⟨hid, hproclaims⟩ | hmarked
    · exact howed hx
    · exact hs.2 id hid hproclaims
    · exact absurd hmarked hmark

/-- A record is written for an incident that is escalated and not answered. -/
theorem recorded_performed {A : Prop} (h : perform e s x = some (y, rows)) (ha : Apt x s)
    (hrec : HasRecord id x → (x.status id = some "ESCALATED" ↔ ¬ A)) (hA : A → HasRecord id x) (hr : HasRecord id y) :
    y.status id = some "ESCALATED" ↔ ¬ (A ∨ HasRecord id x ∧ Answers id x s) := by
  by_cases hx : HasRecord id x
  · rw [escalated_perform_of_recorded h ha hx, hrec hx]
    simp [hx]
  · have hby : id ∈ recordedBy s := ((hasRecord_perform h).1 hr).resolve_left hx
    have hstatus : y.status id = some "ESCALATED" := by
      rw [status_perform h]
      cases s with
      | reviews s =>
        cases s with
        | recordEscalations due reason =>
          rw [statusAfter, ha id hby hx]
          rfl
        | _ => cases hby
      | _ => cases hby
    simp [hstatus, hx, mt hA hx]

theorem Inv.step {up : PyUpper} {p p' : System} {o : Happened} {answered : String → Prop}
    (h : Step (prog up) perform p p' o) (hs : SettlesAt p p' o) (hi : Inv p answered) :
    Inv p' fun id => answered id ∨ AnswersAt id p.store o where
  proper := h.always (proper_prog up) hi.proper
  recorded := by
    intro id hr
    cases h with
    | performed hq hx =>
      have hrec := recorded_performed hx hs.1 (hi.recorded id) (hi.answered id) hr
      simpa [AnswersAt, Outcome.stmt?] using hrec
    | _ => simpa [AnswersAt, Outcome.stmt?] using hi.recorded id hr
  owed := by
    intro id hno hy
    cases h with
    | idle => exact hi.owed id hno hy
    | started hnone => exact exists_elsewhere (fun q hq => by simp [hnone] at hq) (hi.owed id hno hy)
    | performed hq hx =>
      have hbefore : ¬ HasRecord id p.store := fun hr => hno ((hasRecord_perform hx).2 (.inl hr))
      exact owed_performed hq (hi.proper _ _ hq) hx hs (hi.owed id hbefore) hno hy
    | raised hq =>
      rename_i q
      by_cases hpledge : Pledges id q.next
      · exact hs id hpledge hno hy
      · exact exists_elsewhere (fun q' hq' => Option.some.inj (hq.symm.trans hq') ▸ hpledge) (hi.owed id hno hy)
  answered := by
    have hkept (id : String) (hr : HasRecord id p.store) : HasRecord id p'.store := by
      rcases h.store with ⟨-, hsame⟩ | ⟨e, s, rows, -, hx⟩
      · rwa [hsame]
      · exact (hasRecord_perform hx).2 (.inl hr)
    rintro id (ha | ⟨s, -, hr, -⟩)
    · exact hkept id (hi.answered id ha)
    · exact hkept id hr

theorem Inv.new {cameras : List Camera} {hc : (cameras.map Camera.id).Nodup} {answered : String → Prop}
    (h : ∀ id, ¬ answered id) : Inv (Pool.new (.withCameras cameras hc)) answered where
  proper := by
    intro j q hq
    cases hq
  recorded := by
    intro id hr
    cases hr
  owed := by
    intro id hno hy
    cases hy
  answered id ha := absurd ha (h id)

theorem Settles.inv {up : PyUpper} {cameras : List Camera} {hc : (cameras.map Camera.id).Nodup}
    {as : List (Action Request Env)} (h : Settles up (.withCameras cameras hc) as) :
    Inv (systemAfter up (.withCameras cameras hc) as) (AnsweredSince up (.withCameras cameras hc) as) := by
  induction as using List.reverseRecOn with
  | nil =>
    refine Inv.new fun id => ?_
    rintro ⟨pre, a, post, hnil, -⟩
    simp at hnil
  | append_singleton as a ih =>
    obtain ⟨h, ha⟩ := Mealy.always_append.1 h
    have hstep := (ih h).step (step_step (prog up) perform _ a) ha.1
    have hafter : systemAfter up (.withCameras cameras hc) (as ++ [a]) =
        (next up (systemAfter up (.withCameras cameras hc) as) a).1 := Mealy.after_concat _ _ _ _
    have hanswered : AnsweredSince up (.withCameras cameras hc) (as ++ [a]) = fun id => _ :=
      funext fun id => propext Mealy.exists_split_concat
    rw [hafter, hanswered]
    exact hstep

/-- In a run that settles every incident it touches, the escalated incidents are the
recorded ones that nobody has answered since. -/
theorem escalated_iff_recorded (up : PyUpper) (cameras : List Camera) (hc : (cameras.map Camera.id).Nodup)
    (as : List (Action Request Env)) (h : Settles up (.withCameras cameras hc) as) :
    EscalatedIffRecorded up (.withCameras cameras hc) as := by
  rintro done ⟨rest, rfl⟩ hidle id
  have hi := Settles.inv (Mealy.always_append.1 h).1
  constructor
  · intro hesc
    have hr : HasRecord id (systemAfter up (.withCameras cameras hc) done).store := by
      by_contra hno
      obtain ⟨j, q, hq, -⟩ := hi.owed id hno hesc
      simp [hidle j] at hq
    exact ⟨hr, (hi.recorded id hr).1 hesc⟩
  · rintro ⟨hr, hans⟩
    exact (hi.recorded id hr).2 hans

theorem settlesAt_start (up : PyUpper) (p : System) (i : Nat) (c : Request) :
    SettlesAt p (next up p (.start i c)).1 (next up p (.start i c)).2 := by
  have hout : (next up p (.start i c)).2 = .nothing := by
    simp only [next, step]
    split <;> rfl
  rw [hout]
  trivial

theorem SettlesAt.of_stmt {p rest : System} {o : Happened} (hs : o.stmt? = some s) (ha : Apt p.store s)
    (hp : ∀ id, ¬ Proclaims id s) : SettlesAt p rest o := by
  cases o with
  | performed e s' =>
    obtain rfl := Option.some.inj hs
    exact ⟨ha, fun id _ h => absurd h (hp id)⟩
  | _ => cases hs

/-- The row of `theft`. -/
def theftRow : Incident where
  id := theft.incidentId
  cameraId := theft.cameraId
  trackId := theft.trackId
  riskScore := 1
  fsmScore := 1
  shopformerScore := 0
  theftStage := "CONCEALMENT"
  concealmentType := "HAND_TO_PANTS"
  severity := "HIGH"
  modelVersion := some theft.modelVersion
  logicVersion := some theft.logicVersion
  occurredAt := theft.timestamp

/-- A theft is written, and a check finds it an hour later. -/
def written : List (Action Request Env) := [.start 0 (.write theft), .perform 0 Reviews.anHourLater,
  .perform 0 Reviews.anHourLater, .start 1 (.reviews (.runOnce 15)), .perform 1 Reviews.anHourLater,
  .perform 1 Reviews.anHourLater]

/-- The check marks it and records it. -/
theorem escalated_iff_recorded_check : EscalatedIffRecorded .ascii (.withCameras Labels.oneCamera (by decide))
    (written ++ [.perform 1 Reviews.anHourLater]) := by
  refine escalated_iff_recorded .ascii Labels.oneCamera (by decide) _ ?_
  refine ⟨settlesAt_start .ascii _ _ _,
    .of_stmt (s := .insertIncident theftRow) (by decide +kernel) trivial fun _ hp => hp,
    .of_stmt (s := .insertCamera ⟨"cam_1", "cam_1"⟩) (by decide +kernel) trivial fun _ hp => hp,
    settlesAt_start .ascii _ _ _,
    .of_stmt (s := .reviews (.selectDue 15)) (by decide +kernel) trivial fun _ hp => hp, ?_, ?_, trivial⟩
  · refine SettlesAt.of_stmt (s := .reviews (.escalate ["inc_1"])) (by decide +kernel) ?_ fun _ hp => hp
    change ∀ id ∈ ["inc_1"], _
    decide +kernel
  · refine SettlesAt.of_stmt (s := .reviews (.recordEscalations [theftRow]
      "Unreviewed after 15 minutes")) (by decide +kernel) ?_ fun _ hp => hp
    change ∀ id ∈ ["inc_1"], _
    decide +kernel

/-- The check breaks off in between. -/
theorem escalated_iff_recorded_fails : ¬ EscalatedIffRecorded .ascii (.withCameras Labels.oneCamera (by decide))
    (written ++ [.abort 1]) := by
  intro h
  have hidle : (systemAfter .ascii (.withCameras Labels.oneCamera (by decide)) (written ++ [.abort 1])).Idle := by
    intro id
    by_cases hid : id < 2
    · have hnone : ∀ id < 2, ((systemAfter .ascii (.withCameras Labels.oneCamera (by decide))
          (written ++ [.abort 1])).calls id).isNone := by decide +kernel
      exact Option.isNone_iff_eq_none.1 (hnone id hid)
    · refine calls_after (p := Pool.new _) fun a ha => ?_
      have hcall : a.call < 2 := by
        revert a
        simp [written, Action.call]
      omega
  obtain ⟨hr, -⟩ := (h _ (List.prefix_refl _) hidle "inc_1").1 (by decide +kernel)
  exact absurd hr (by decide +kernel)

end Escalated

end Netra
