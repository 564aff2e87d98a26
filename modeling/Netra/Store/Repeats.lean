import Netra.Store.Labels
import Netra.Store.Verdicts
/-!
# Repeated escalation

Checks, acknowledgements and reviews, one whole request after another.
`acknowledge_alert` sets an incident back to `OPEN` and leaves its
`occurred_at`, so the next check takes it again. `escalates_once_iff` says when
no incident is escalated twice: a review, a longer threshold or the `LIMIT` of
the check must keep each acknowledged one out.
-/
namespace Netra

open Table Calls Store Labels

namespace Repeats

variable (up : PyUpper) (db : Database) (id : String)

/-- The operation takes the incident from `OPEN` to `ESCALATED`. -/
def Escalates (x : Database) (op : Op) : Prop :=
  x.status id = some "OPEN" ∧ (apply up x op).status id = some "ESCALATED"

/-- `acknowledge_alert`, on the incident while it is escalated. -/
def Acknowledges (x : Database) : Op → Prop
  | .acknowledge id' _ _ => id' = id ∧ x.status id = some "ESCALATED"
  | _ => False

/-- `review_incident`, on the incident. -/
def Judges : Op → Prop
  | .review id' _ _ _ _ => id' = id
  | _ => False

/-- One of the operations `done` was as `P` says, on the database it met. -/
def Before (P : Database → Op → Prop) (done : List Op) : Prop :=
  ∃ pre op post, done = pre ++ op :: post ∧ P (dbAfter up db pre) op

/-- No incident is escalated that was escalated or acknowledged before. -/
def EscalatesOnce (ops : List Op) : Prop :=
  ∀ done op rest, ops = done ++ op :: rest → ∀ id,
    Before up db (Escalates up id) done ∨ Before up db (Acknowledges id) done →
      ¬ Escalates up id (dbAfter up db done) op

/-- The incident was acknowledged, and not reviewed since. -/
def Reopened (done : List Op) : Prop :=
  ∃ pre op post, done = pre ++ op :: post ∧ Acknowledges id (dbAfter up db pre) op ∧ ∀ o ∈ post, ¬ Judges id o

/-- How many of the rows a check looks for come before the row. -/
def rank (e : Reviews.Env) (minutes : Int) (x : Database) (r : Incident) : Nat :=
  (select e.scan (Reviews.isDue e.now minutes) Incident.riskScore x.incidents).idxOf r

/-- Every check finds each reopened incident too young, or behind fifty others. -/
def Spared (ops : List Op) : Prop :=
  ∀ done (minutes : Int) env rest, ops = done ++ .runOnce minutes env :: rest → ∀ r ∈ (dbAfter up db done).incidents,
    Reopened up db r.id done → r.occurredAt ≤ (env 0).now - 60 * minutes →
      50 ≤ rank (env 0) minutes (dbAfter up db done) r

/-! ## One operation -/

variable {up db id} {x : Database} {op : Op}

/-- An operation keeps the incidents there are. -/
theorem isSome_status_apply (h : (x.status id).isSome) : ((apply up x op).status id).isSome := by
  rw [status_apply]
  split
  · exact h
  · rfl

theorem status_of_acknowledges (h : Acknowledges id x op) : (apply up x op).status id = some "OPEN" := by
  cases op with
  | acknowledge id' operator env =>
    obtain ⟨rfl, hesc⟩ := h
    have hid : id' ∈ x.incidentIds := Database.isSome_status_iff.1 (by rw [hesc]; rfl)
    rw [status_apply, eventOf, if_pos ⟨rfl, hid⟩, hesc]
    rfl
  | _ => exact h.elim

/-- What one operation can mean for an incident. -/
inductive Effect (up : PyUpper) (id : String) (x : Database) (op : Op) : Prop where
  | new : x.status id = none → Effect up id x op
  | same : (apply up x op).status id = x.status id → (Judges id op → x.status id = none) → Effect up id x op
  | escalated : Escalates up id x op → Effect up id x op
  | acknowledged : Acknowledges id x op → Effect up id x op
  | judged (v : Verdict) : Judges id op → (apply up x op).status id = some v.text → Effect up id x op

theorem effect (up : PyUpper) (id : String) (x : Database) (op : Op) : Effect up id x op := by
  have hstatus := status_apply up x id op
  cases hev : eventOf id x op with
  | none =>
    rw [hev] at hstatus
    refine .same hstatus fun hj => ?_
    cases op with
    | review id' v notes operator env =>
      have hid : id ∉ x.incidentIds := fun hid => by simp [eventOf, show id' = id from hj, hid] at hev
      rwa [← Option.not_isSome_iff_eq_none, Database.isSome_status_iff]
    | _ => exact hj.elim
  | some ev =>
    rw [hev] at hstatus
    rcases eventOf_cases hev with ⟨-, hnone⟩ | ⟨hsome, ⟨rfl, hopen⟩ | rfl | ⟨v, rfl⟩⟩
    · exact .new hnone
    · exact .escalated ⟨hopen, hstatus⟩
    · cases op with
      | acknowledge id' operator env =>
        obtain ⟨⟨rfl, -⟩, -⟩ := Option.ite_none_right_eq_some.1 hev
        obtain ⟨status, hs⟩ := Option.isSome_iff_exists.1 hsome
        simp only [hs, Option.getD_some, Event.on] at hstatus
        split at hstatus
        · rename_i hesc
          exact .acknowledged ⟨rfl, hesc ▸ hs⟩
        · exact .same (hstatus.trans hs.symm) fun hj => hj.elim
      | _ =>
        obtain ⟨-, he⟩ := Option.ite_none_right_eq_some.1 hev
        cases he
    · cases op with
      | review id' w notes operator env =>
        obtain ⟨⟨rfl, -⟩, -⟩ := Option.ite_none_right_eq_some.1 hev
        exact .judged v rfl hstatus
      | _ =>
        obtain ⟨-, he⟩ := Option.ite_none_right_eq_some.1 hev
        cases he

/-- A check takes an open incident that is old enough and among its first fifty. -/
theorem mem_due_iff {e : Reviews.Env} {minutes : Int} {r : Store.Incident} : r ∈ Reviews.due e minutes x ↔
    r ∈ x.incidents ∧ r.status = "OPEN" ∧ r.occurredAt ≤ e.now - 60 * minutes ∧ rank e minutes x r < 50 := by
  unfold Reviews.due rank
  constructor
  · intro h
    have hsel := List.mem_of_mem_take h
    obtain ⟨hmem, hdue⟩ := mem_select.1 hsel
    obtain ⟨hopen, hold⟩ := Bool.and_eq_true_iff.1 hdue
    exact ⟨hmem, of_decide_eq_true hopen, of_decide_eq_true hold, (List.mem_take_iff_idxOf_lt hsel).1 h⟩
  · rintro ⟨hmem, hopen, hold, hrank⟩
    have hsel : r ∈ select e.scan (Reviews.isDue e.now minutes) Incident.riskScore x.incidents :=
      mem_select.2 ⟨hmem, Bool.and_eq_true_iff.2 ⟨decide_eq_true hopen, decide_eq_true hold⟩⟩
    exact (List.mem_take_iff_idxOf_lt hsel).2 hrank

/-- A check escalates the open incidents its query finds, and nothing else escalates
one. -/
theorem escalates_iff : Escalates up id x op ↔
    ∃ minutes env, op = .runOnce minutes env ∧ ∃ r ∈ Reviews.due (env 0) minutes x, r.id = id := by
  have hstatus := status_apply up x id op
  constructor
  · rintro ⟨hopen, hesc⟩
    rw [hesc, hopen] at hstatus
    cases hev : eventOf id x op with
    | none =>
      rw [hev] at hstatus
      exact absurd hstatus (by decide)
    | some ev =>
      rw [hev] at hstatus
      rcases eventOf_cases hev with ⟨-, hnone⟩ | ⟨-, ⟨rfl, -⟩ | rfl | ⟨v, rfl⟩⟩
      · rw [hopen] at hnone
        cases hnone
      · cases op with
        | runOnce minutes env =>
          obtain ⟨hdue, -⟩ := Option.ite_none_right_eq_some.1 hev
          exact ⟨minutes, env, rfl, List.mem_map.1 hdue⟩
        | _ =>
          obtain ⟨-, he⟩ := Option.ite_none_right_eq_some.1 hev
          cases he
      · exact absurd hstatus (by decide)
      · exact absurd (Option.some.inj hstatus).symm v.text_ne.2
  · rintro ⟨minutes, env, rfl, r, hr, rfl⟩
    have hev : eventOf r.id x (.runOnce minutes env) = some .taken := if_pos (List.mem_map_of_mem hr)
    rw [hev] at hstatus
    obtain ⟨hmem, hopen, -⟩ := mem_due_iff.1 hr
    exact ⟨hopen ▸ Database.status_of_mem hmem, hstatus⟩

/-! ## Runs -/

variable {done : List Op}

theorem dbAfter_concat (up : PyUpper) (db : Database) (done : List Op) (op : Op) :
    dbAfter up db (done ++ [op]) = apply up (dbAfter up db done) op := Mealy.after_concat _ _ _ _

theorem before_concat {P : Database → Op → Prop} :
    Before up db P (done ++ [op]) ↔ Before up db P done ∨ P (dbAfter up db done) op := Mealy.exists_split_concat

theorem reopened_concat :
    Reopened up db id (done ++ [op]) ↔
      (Reopened up db id done ∧ ¬ Judges id op) ∨ Acknowledges id (dbAfter up db done) op := by
  constructor
  · rintro ⟨pre, o, post, hsplit, hack, hpost⟩
    rcases Mealy.split_concat.1 hsplit with ⟨rfl, rfl, -⟩ | ⟨post', rfl, hdone⟩
    · exact .inr hack
    · exact .inl ⟨⟨pre, o, post', hdone, hack, fun o ho => hpost o (List.mem_append_left _ ho)⟩, hpost op (by simp)⟩
  · rintro (⟨⟨pre, o, post, rfl, hack, hpost⟩, hj⟩ | hack)
    · refine ⟨pre, o, post ++ [op], by simp, hack, fun o' ho' => ?_⟩
      rcases List.mem_append.1 ho' with ho' | ho'
      · exact hpost o' ho'
      · rwa [List.mem_singleton.1 ho']
    · exact ⟨done, op, [], rfl, hack, by simp⟩

theorem Reopened.before (h : Reopened up db id done) : Before up db (Acknowledges id) done := by
  obtain ⟨pre, op, post, rfl, hack, -⟩ := h
  exact ⟨pre, op, post, rfl, hack⟩

theorem escalatesOnce_concat {ops : List Op} :
    EscalatesOnce up db (ops ++ [op]) ↔ EscalatesOnce up db ops ∧ ∀ id,
      Before up db (Escalates up id) ops ∨ Before up db (Acknowledges id) ops →
        ¬ Escalates up id (dbAfter up db ops) op := Mealy.forall_split_concat

/-- A reopened incident stays open until a check takes it again. -/
theorem status_of_reopened (honce : EscalatesOnce up db done) (h : Reopened up db id done) :
    (dbAfter up db done).status id = some "OPEN" := by
  induction done using List.reverseRecOn with
  | nil =>
    obtain ⟨pre, op, post, hnil, -⟩ := h
    simp at hnil
  | append_singleton done op ih =>
    obtain ⟨honce, hlast⟩ := escalatesOnce_concat.1 honce
    rw [dbAfter_concat]
    rcases reopened_concat.1 h with ⟨hre, hj⟩ | hack
    · have hopen := ih honce hre
      cases effect up id (dbAfter up db done) op with
      | new hnone =>
        rw [hopen] at hnone
        cases hnone
      | same hsame => exact hsame.trans hopen
      | escalated hesc => exact absurd hesc (hlast id (.inr hre.before))
      | acknowledged hack => exact status_of_acknowledges hack
      | judged _ hjudge _ => exact absurd hjudge hj
    · exact status_of_acknowledges hack

theorem isSome_status_of_before
    (h : Before up db (Escalates up id) done ∨ Before up db (Acknowledges id) done) :
    ((dbAfter up db done).status id).isSome := by
  induction done using List.reverseRecOn with
  | nil =>
    rcases h with ⟨pre, op, post, hnil, -⟩ | ⟨pre, op, post, hnil, -⟩ <;> simp at hnil
  | append_singleton done op ih =>
    rw [before_concat, before_concat] at h
    rw [dbAfter_concat]
    rcases h with (h | ⟨-, hesc⟩) | (h | hack)
    · exact isSome_status_apply (ih (.inl h))
    · rw [hesc]
      rfl
    · exact isSome_status_apply (ih (.inr h))
    · rw [status_of_acknowledges hack]
      rfl

/-- An incident that was escalated or acknowledged and is open was reopened. -/
theorem reopened_of_open (h : Before up db (Escalates up id) done ∨ Before up db (Acknowledges id) done)
    (hopen : (dbAfter up db done).status id = some "OPEN") : Reopened up db id done := by
  induction done using List.reverseRecOn with
  | nil =>
    rcases h with ⟨pre, op, post, hnil, -⟩ | ⟨pre, op, post, hnil, -⟩ <;> simp at hnil
  | append_singleton done op ih =>
    rw [dbAfter_concat] at hopen
    rw [before_concat, before_concat] at h
    rw [reopened_concat]
    by_cases hack : Acknowledges id (dbAfter up db done) op
    · exact .inr hack
    · have hne : ¬ Escalates up id (dbAfter up db done) op := by
        rintro ⟨-, hesc⟩
        rw [hesc] at hopen
        exact absurd hopen (by decide)
      have hbefore : Before up db (Escalates up id) done ∨ Before up db (Acknowledges id) done :=
        h.imp (·.resolve_right hne) (·.resolve_right hack)
      cases effect up id (dbAfter up db done) op with
      | new hnone => exact absurd hnone (Option.isSome_iff_ne_none.1 (isSome_status_of_before hbefore))
      | same hsame hj =>
        rw [hsame] at hopen
        refine .inl ⟨ih hbefore hopen, fun h => ?_⟩
        rw [hj h] at hopen
        cases hopen
      | escalated hesc => exact absurd hesc hne
      | acknowledged h => exact absurd h hack
      | judged v _ hstatus => exact absurd (Option.some.inj (hstatus.symm.trans hopen)) v.text_ne.1

/-- No incident is escalated twice exactly when every check spares the reopened ones. -/
theorem escalates_once_iff (up : PyUpper) (db : Database) (ops : List Op) :
    EscalatesOnce up db ops ↔ Spared up db ops := by
  constructor
  · rintro h done minutes env rest rfl r hr hre hold
    have hdone : EscalatesOnce up db done := by
      rintro pre op post rfl
      exact h pre op (post ++ .runOnce minutes env :: rest) (by simp)
    have hopen : r.status = "OPEN" :=
      Option.some.inj ((Database.status_of_mem hr).symm.trans (status_of_reopened hdone hre))
    by_contra hrank
    have hdue : r ∈ Reviews.due (env 0) minutes (dbAfter up db done) :=
      mem_due_iff.2 ⟨hr, hopen, hold, Nat.lt_of_not_le hrank⟩
    exact h done _ rest rfl r.id (.inr hre.before) (escalates_iff.2 ⟨minutes, env, rfl, r, hdue, rfl⟩)
  · rintro h done op rest rfl id hbefore hesc
    obtain ⟨minutes, env, rfl, r, hdue, rfl⟩ := escalates_iff.1 hesc
    obtain ⟨hr, hopen, hold, hrank⟩ := mem_due_iff.1 hdue
    have hre := reopened_of_open hbefore hesc.1
    have hspared := h done minutes env rest rfl r hr hre hold
    omega

/-- A check an hour after the incident, an acknowledgement, and the next check. -/
def acknowledged : List Op := [
  .runOnce 15 fun _ => ⟨3600, .forward _⟩, .acknowledge "inc_1" "op_1" fun _ => ⟨3630, .forward _⟩]

/-- The next check takes the incident again. -/
theorem escalates_once_fails : ¬ EscalatesOnce .ascii Reviews.oneIncident
    (acknowledged ++ [.runOnce 15 fun _ => ⟨3660, .forward _⟩]) := by
  intro h
  have hack : Acknowledges "inc_1" (dbAfter .ascii Reviews.oneIncident (acknowledged.take 1))
      (.acknowledge "inc_1" "op_1" fun _ => ⟨3630, .forward _⟩) := ⟨rfl, by decide +kernel⟩
  refine h acknowledged _ [] rfl "inc_1" (.inr ⟨_, _, [], rfl, hack⟩) ⟨?_, ?_⟩
  · decide +kernel
  · decide +kernel

end Repeats

end Netra
