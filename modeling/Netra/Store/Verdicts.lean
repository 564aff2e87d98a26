import Netra.Store.Reviews
/-!
# Verdicts under escalation

Any number of escalation runs, reviews and acknowledgements, interleaved
statement by statement. An escalation run updates the incidents its `SELECT`
found, without looking at their status again; a verdict that was set in between
is overwritten. `verdict_kept_iff` says on which schedules none is.
-/
namespace Netra

open Table Calls Store

namespace Reviews

/-- The database and the calls in progress. -/
abbrev System := Pool Request Stmt (List Incident) Reply Database

abbrev Happened := Outcome Request Stmt (List Incident) Reply Database Env

section
variable (up : PyUpper) (db : Database)

/-- One action, and what came of it. -/
def next (p : System) (a : Action Request Env) : System × Happened := step (prog up) perform p a

/-- The system after the actions `as`, from the database `db` and no call. -/
def systemAfter (as : List (Action Request Env)) : System := after (prog up) perform (Pool.new db) as

/-- The statements performed. -/
def statements (as : List (Action Request Env)) : List Stmt := performed (prog up) perform (Pool.new db) as

end

/-- The status a review's `UPDATE` gives the incident. -/
def verdictOf (id : String) : Stmt → Option String
  | .setVerdict id' status _ _ => if id' = id then some status else none
  | _ => none

def verdicts (id : String) (ss : List Stmt) : List String := ss.filterMap (verdictOf id)

/-- A review has set the incident to `CONFIRMED` or `DISMISSED`. -/
def Decided (id : String) (ss : List Stmt) : Prop := "CONFIRMED" ∈ verdicts id ss ∨ "DISMISSED" ∈ verdicts id ss

/-- The action leaves the status of the incidents decided before it, unless it is a
review. -/
def KeptAt (up : PyUpper) (db : Database) (done : List (Action Request Env)) (a : Action Request Env) : Prop :=
  ∀ id ∈ db.incidentIds, Decided id (statements up db done) →
    (∀ s, (next up (systemAfter up db done) a).2.stmt? = some s → verdictOf id s = none) →
      (next up (systemAfter up db done) a).1.store.status id = (systemAfter up db done).store.status id

/-- Once a review has decided an incident, only a review changes its status. -/
def VerdictKept (up : PyUpper) (db : Database) (as : List (Action Request Env)) : Prop :=
  ∀ done a rest, as = done ++ a :: rest → KeptAt up db done a

/-- The statement does not touch an incident whose last verdict is `verdict`: no
escalation of it, unless it is escalated, and then no acknowledgement. -/
def Spares (id : String) (verdict : Option String) : Stmt → Prop
  | .escalate ids => id ∈ ids → verdict = some "ESCALATED"
  | .acknowledge id' _ => id' = id → verdict ≠ some "ESCALATED"
  | _ => True

def SparesAt (up : PyUpper) (db : Database) (done : List (Action Request Env)) (a : Action Request Env) : Prop :=
  ∀ id ∈ db.incidentIds, Decided id (statements up db done) →
    ∀ s, (next up (systemAfter up db done) a).2.stmt? = some s →
      Spares id (verdicts id (statements up db done)).getLast? s

/-- After `pre` the call `c` is an escalation run, and its `SELECT`, performed now, returns the
incident. -/
def Finds (up : PyUpper) (db : Database) (pre : List (Action Request Env)) (c : Nat) (e : Env) (id : String) : Prop :=
  ∃ q minutes, (systemAfter up db pre).calls c = some q ∧ q.next = .selectDue minutes ∧
    id ∈ (due e minutes (systemAfter up db pre).store).map Incident.id

/-- The verdicts that reviews give the incident in the actions `mid` after `pre`. -/
def verdictsIn (up : PyUpper) (db : Database) (pre mid : List (Action Request Env)) (id : String) : List String :=
  verdicts id (performed (prog up) perform (systemAfter up db pre) mid)

/-- The call `c` may go on after `done`. -/
structure Allows (up : PyUpper) (db : Database) (done : List (Action Request Env)) (c : Nat) : Prop where
  /-- The next statement is the `UPDATE` of an escalation run that found the incident: it is
  not decided, unless its last verdict since the `SELECT` is `ESCALATED`. -/
  update : ∀ id pre e mid, done = pre ++ .perform c e :: mid → Finds up db pre c e id → (∀ a ∈ mid, ¬ a.Moves c) →
    Decided id (statements up db done) →
      (verdictsIn up db (pre ++ [.perform c e]) mid id).getLast? = some "ESCALATED"
  /-- The next statement is an acknowledgement: the last verdict of a decided incident is not
  `ESCALATED`. -/
  acknowledge : ∀ q id operator, (systemAfter up db done).calls c = some q → q.next = .acknowledge id operator →
    id ∈ db.incidentIds → Decided id (statements up db done) →
      (verdicts id (statements up db done)).getLast? ≠ some "ESCALATED"

/-- No escalation run is overtaken by a verdict, and no escalated verdict is acknowledged. -/
def Undisturbed (up : PyUpper) (db : Database) (as : List (Action Request Env)) : Prop :=
  ∀ done a rest, as = done ++ a :: rest → ∀ c e, a = .perform c e → Allows up db done c

/-! ## One statement -/

variable {up : PyUpper} {db : Database} {id : String} {s : Stmt} {ss : List Stmt}

theorem statusAfter_eq_iff (hs : verdictOf id s = none) (v : String) :
    statusAfter id v s = v ↔ Spares id (some v) s := by
  cases s with
  | escalate ids =>
    by_cases hm : id ∈ ids
    · simp [statusAfter, Spares, hm, eq_comm]
    · simp [statusAfter, Spares, hm]
  | setVerdict id' status operator notes =>
    have hne : id' ≠ id := fun he => by simp [verdictOf, he] at hs
    simp [statusAfter, Spares, hne]
  | acknowledge id' operator =>
    by_cases hm : id' = id
    · by_cases hv : v = "ESCALATED" <;> simp [statusAfter, Spares, hm, hv]
    · simp [statusAfter, Spares, hm]
  | _ => exact iff_of_true rfl trivial

theorem statusAfter_verdict {v : String} (hs : verdictOf id s = some v) (status : String) :
    statusAfter id status s = v := by
  cases s with
  | setVerdict id' status' operator notes =>
    by_cases hm : id' = id
    · simpa [verdictOf, statusAfter, hm] using hs
    · simp [verdictOf, hm] at hs
  | _ => cases hs

theorem spares_of_verdict {v : String} (hs : verdictOf id s = some v) (verdict : Option String) :
    Spares id verdict s := by
  cases s with
  | setVerdict id' status operator notes => trivial
  | _ => cases hs

theorem verdicts_concat (s : Stmt) : verdicts id (ss ++ [s]) = verdicts id ss ++ (verdictOf id s).toList := by
  rw [verdicts, List.filterMap_append, ← verdicts]
  congr 1

theorem Decided.verdicts_ne_nil (h : Decided id ss) : verdicts id ss ≠ [] := by
  rcases h with h | h <;> exact List.ne_nil_of_mem h

/-- The status is the last verdict. -/
def Follows (id : String) (ss : List Stmt) (x : Database) : Prop := x.status id = (verdicts id ss).getLast?

/-- One statement, on an incident whose status is its last verdict. -/
theorem kept_iff_spares {e : Env} {x y : Database} {rows : List Incident} (h : perform e s x = some (y, rows))
    (hd : Decided id ss) (hf : Follows id ss x) :
    (verdictOf id s = none → y.status id = x.status id) ↔ Spares id (verdicts id ss).getLast? s := by
  obtain ⟨v, hv⟩ := Option.ne_none_iff_exists'.1 (mt List.getLast?_eq_none_iff.1 hd.verdicts_ne_nil)
  rw [status_perform h, hf, hv]
  cases hs : verdictOf id s with
  | none =>
    rw [← statusAfter_eq_iff hs]
    simp
  | some w => exact iff_of_true (fun h => by cases h) (spares_of_verdict hs _)

/-- After a statement that leaves decided incidents alone. -/
theorem follows_perform {e : Env} {x y : Database} {rows : List Incident} (h : perform e s x = some (y, rows))
    (hid : id ∈ x.incidentIds) (hf : Decided id ss → Follows id ss x)
    (hkept : Decided id ss → verdictOf id s = none → y.status id = x.status id) (hd : Decided id (ss ++ [s])) :
    Follows id (ss ++ [s]) y := by
  unfold Follows
  rw [verdicts_concat]
  cases hs : verdictOf id s with
  | none =>
    have hd' : Decided id ss := by
      rw [Decided, verdicts_concat, hs] at hd
      simpa [Decided] using hd
    rw [Option.toList_none, List.append_nil, hkept hd' hs]
    exact hf hd'
  | some v =>
    obtain ⟨status, hstatus⟩ := Option.isSome_iff_exists.1 (Database.isSome_status_iff.2 hid)
    rw [status_perform h, hstatus, Option.map_some, statusAfter_verdict hs, Option.toList_some, List.getLast?_concat]

/-! ## Runs -/

variable {as : List (Action Request Env)} {a : Action Request Env}

theorem systemAfter_concat : systemAfter up db (as ++ [a]) = (next up (systemAfter up db as) a).1 :=
  Mealy.after_concat _ _ _ _

theorem statements_concat :
    statements up db (as ++ [a]) = statements up db as ++ (next up (systemAfter up db as) a).2.stmt?.toList :=
  performed_concat _ _ _ _ _

/-- An action performs no statement, or one. -/
theorem next_cases (up : PyUpper) (x : System) (a : Action Request Env) :
    ((next up x a).2.stmt? = none ∧ (next up x a).1.store = x.store) ∨
      ∃ e s rows, (next up x a).2.stmt? = some s ∧ perform e s x.store = some ((next up x a).1.store, rows) :=
  (step_step (prog up) perform x a).store

theorem incidentIds_systemAfter (up : PyUpper) (db : Database) (as : List (Action Request Env)) :
    (systemAfter up db as).store.incidentIds = db.incidentIds := by
  induction as using List.reverseRecOn with
  | nil => rfl
  | append_singleton as a ih =>
    rw [systemAfter_concat]
    rcases next_cases up (systemAfter up db as) a with ⟨-, hsame⟩ | ⟨e, s, rows, -, h⟩
    · rw [hsame, ih]
    · rw [incidentIds_perform h, ih]

/-- Every decided incident has its last verdict as its status. -/
def AllFollow (up : PyUpper) (db : Database) (as : List (Action Request Env)) : Prop :=
  ∀ id ∈ db.incidentIds,
    Decided id (statements up db as) → Follows id (statements up db as) (systemAfter up db as).store

theorem keptAt_iff_sparesAt (hf : AllFollow up db as) : KeptAt up db as a ↔ SparesAt up db as a := by
  unfold KeptAt SparesAt
  rcases next_cases up (systemAfter up db as) a with ⟨hnone, hsame⟩ | ⟨e, s, rows, hs, h⟩
  · simp [hnone, hsame]
  · rw [hs]
    refine forall₃_congr fun id hid hd => ?_
    simp only [Option.some.injEq, forall_eq']
    exact kept_iff_spares h hd (hf id hid hd)

theorem AllFollow.concat (hf : AllFollow up db as) (hkept : KeptAt up db as a) : AllFollow up db (as ++ [a]) := by
  intro id hid
  rw [statements_concat, systemAfter_concat]
  rcases next_cases up (systemAfter up db as) a with ⟨hnone, hsame⟩ | ⟨e, s, rows, hs, h⟩
  · rw [hnone, hsame, Option.toList_none, List.append_nil]
    exact hf id hid
  · rw [hs, Option.toList_some]
    refine follows_perform h (by rwa [incidentIds_systemAfter]) (hf id hid) fun hd hv => hkept id hid hd ?_
    rw [hs]
    rintro _ ⟨⟩
    exact hv

theorem VerdictKept.allFollow (h : VerdictKept up db as) : AllFollow up db as := by
  induction as using List.reverseRecOn with
  | nil => exact fun id _ hd => absurd rfl hd.verdicts_ne_nil
  | append_singleton as a ih =>
    obtain ⟨h, ha⟩ := Mealy.forall_split_concat.1 h
    exact (ih h).concat ha

/-! ## From the `SELECT` to the `UPDATE` -/

/-- Only the `SELECT` of an escalation run leads to an `UPDATE`, and that is of the incidents it
returned. -/
structure Leads (s : Stmt) (k : List Incident → Prog Stmt (List Incident) Reply) : Prop where
  select : ∀ minutes, s = .selectDue minutes → ∀ rows ≠ [],
    ∃ k', k rows = .stmt (.escalate (rows.map Incident.id)) k'
  update : ∀ rows ids k', k rows = .stmt (.escalate ids) k' →
    (∃ minutes, s = .selectDue minutes) ∧ ids = rows.map Incident.id

theorem Leads.of_other {k : List Incident → Prog Stmt (List Incident) Reply} (hs : ∀ minutes, s ≠ .selectDue minutes)
    (hk : ∀ rows ids k', k rows ≠ .stmt (.escalate ids) k') : Leads s k :=
  ⟨fun minutes h => absurd h (hs minutes), fun rows ids k' h => absurd h (hk rows ids k')⟩

theorem leads_prog (up : PyUpper) (c : Request) : (prog up c).Always Leads := by
  cases c with
  | runOnce minutes =>
    refine ⟨⟨fun _ _ rows hrows => ?_, fun rows ids k' hk => ?_⟩, fun rows => ?_⟩
    · cases rows with
      | nil => exact absurd rfl hrows
      | cons r rows => exact ⟨_, rfl⟩
    · cases rows with
      | nil => cases hk
      | cons r rows =>
        obtain ⟨hids, -⟩ := Prog.stmt.inj hk
        exact ⟨⟨_, rfl⟩, (Stmt.escalate.inj hids).symm⟩
    · cases rows with
      | nil => trivial
      | cons r rows => exact ⟨.of_other nofun nofun, fun _ => ⟨.of_other nofun nofun, fun _ => trivial⟩⟩
  | review id verdict notes operator =>
    exact ⟨.of_other nofun nofun, fun _ => ⟨.of_other nofun nofun, fun _ => trivial⟩⟩
  | acknowledge id operator =>
    refine ⟨.of_other nofun fun rows ids k' hk => ?_, fun rows => ?_⟩ <;> cases rows <;> trivial

theorem leads_systemAfter (up : PyUpper) (db : Database) (as : List (Action Request Env)) :
    ∀ c q, (systemAfter up db as).calls c = some q → Leads q.next q.cont := by
  suffices h : ∀ c q, (systemAfter up db as).calls c = some q → (Prog.stmt q.next q.cont).Always Leads from
    fun c q hq => (h c q hq).1
  induction as using List.reverseRecOn with
  | nil => exact fun c q hq => by cases hq
  | append_singleton as a ih =>
    rw [systemAfter_concat]
    exact (step_step (prog up) perform (systemAfter up db as) a).always (leads_prog up) ih

/-- With nothing in between, the `UPDATE` of what the `SELECT` found comes next. -/
theorem Finds.escalates {pre mid : List (Action Request Env)} {c : Nat} {e : Env} (h : Finds up db pre c e id)
    (hmid : ∀ a ∈ mid, ¬ a.Moves c) :
    ∃ q ids, (systemAfter up db (pre ++ .perform c e :: mid)).calls c = some q ∧ q.next = .escalate ids ∧ id ∈ ids := by
  obtain ⟨q, minutes, hq, hnext, hid⟩ := h
  have hrows : due e minutes (systemAfter up db pre).store ≠ [] := by
    intro hnil
    rw [hnil] at hid
    exact List.not_mem_nil hid
  obtain ⟨k', hk⟩ := (leads_systemAfter up db pre c q hq).select minutes hnext _ hrows
  have hperform : perform e q.next (systemAfter up db pre).store =
      some ((systemAfter up db pre).store, due e minutes (systemAfter up db pre).store) := by rw [hnext]; rfl
  have hsel : (systemAfter up db (pre ++ [.perform c e])).calls c = enter q.request
      (q.done ++ [⟨q.next, (systemAfter up db pre).store, (systemAfter up db pre).store⟩])
      (q.cont (due e minutes (systemAfter up db pre).store)) := by
    rw [systemAfter_concat, next, step_perform _ _ hq hperform]
    exact Function.update_self _ _ _
  rw [hk, enter] at hsel
  have happend : systemAfter up db (pre ++ .perform c e :: mid) =
      after (prog up) perform (systemAfter up db (pre ++ [.perform c e])) mid := by
    rw [List.append_cons]
    exact Mealy.after_append _ _ _ _
  exact ⟨_, _, by rw [happend, calls_after_of_not_moves hsel hmid], rfl, hid⟩

/-- A run that comes to its `UPDATE` has found the incidents with its `SELECT`. -/
theorem exists_finds {done : List (Action Request Env)} {c : Nat} {ids : List String}
    {q : InProgress Request Stmt (List Incident) Reply Database} (h : (systemAfter up db done).calls c = some q)
    (hnext : q.next = .escalate ids) (hid : id ∈ ids) :
    ∃ pre e mid, done = pre ++ .perform c e :: mid ∧ Finds up db pre c e id ∧ ∀ a ∈ mid, ¬ a.Moves c := by
  obtain ⟨pre, a, mid, rfl, hcomes, hmid⟩ := exists_comes h
  cases hcomes with
  | @started c' hstart =>
    have hprog := eq_stmt_of_enter hstart
    rw [hnext] at hprog
    cases c' <;> cases hprog
  | @performed e q₀ y rows hq₀ hperform henter =>
    have hstmt := eq_stmt_of_enter henter
    rw [hnext] at hstmt
    obtain ⟨⟨minutes, hselect⟩, rfl⟩ := (leads_systemAfter up db pre c q₀ hq₀).update rows ids _ hstmt
    rw [hselect] at hperform
    obtain ⟨-, rfl⟩ := Prod.mk.inj (Option.some.inj hperform)
    exact ⟨pre, e, mid, rfl, ⟨q₀, minutes, hq₀, hselect, hid⟩, hmid⟩

/-- The `SELECT` gives no verdict. -/
theorem Finds.verdicts_statements {pre : List (Action Request Env)} {c : Nat} {e : Env} (h : Finds up db pre c e id)
    (mid : List (Action Request Env)) :
    verdicts id (statements up db (pre ++ .perform c e :: mid)) =
      verdicts id (statements up db pre) ++ verdictsIn up db (pre ++ [.perform c e]) mid id := by
  obtain ⟨q, minutes, hq, hnext, -⟩ := h
  have hstmt : (next up (systemAfter up db pre) (.perform c e)).2.stmt? = some (.selectDue minutes) := by
    have hperform : perform e q.next (systemAfter up db pre).store =
        some ((systemAfter up db pre).store, due e minutes (systemAfter up db pre).store) := by rw [hnext]; rfl
    rw [next, step_perform _ _ hq hperform, hnext]
    rfl
  rw [List.append_cons, statements, performed_append, verdicts, List.filterMap_append, ← statements,
    statements_concat, hstmt, List.filterMap_append, verdictsIn, verdicts, verdicts]
  exact congrArg (· ++ _) (List.append_nil _)

/-- What the `SELECT` finds is open. -/
theorem Finds.status {pre : List (Action Request Env)} {c : Nat} {e : Env} (h : Finds up db pre c e id) :
    (systemAfter up db pre).store.status id = some "OPEN" := by
  obtain ⟨q, minutes, hq, hnext, hid⟩ := h
  obtain ⟨r, hr, rfl⟩ := List.mem_map.1 hid
  obtain ⟨hr, hdue⟩ := mem_select.1 (List.mem_of_mem_take hr)
  obtain ⟨hopen, -⟩ := Bool.and_eq_true_iff.1 hdue
  rw [Database.status_of_mem hr, of_decide_eq_true hopen]

/-! ## The schedule -/

theorem VerdictKept.of_append {as bs : List (Action Request Env)} (h : VerdictKept up db (as ++ bs)) :
    VerdictKept up db as := by
  rintro done a rest rfl
  exact h done a (rest ++ bs) (by simp)

/-- Of an incident that was found, the last verdict is `ESCALATED` when the last one since then is. -/
theorem Finds.last_verdict_iff {pre mid : List (Action Request Env)} {c : Nat} {e : Env} (h : Finds up db pre c e id)
    (hf : AllFollow up db pre) (hid : id ∈ db.incidentIds)
    (hd : Decided id (statements up db (pre ++ .perform c e :: mid))) :
    (verdicts id (statements up db (pre ++ .perform c e :: mid))).getLast? = some "ESCALATED" ↔
      (verdictsIn up db (pre ++ [.perform c e]) mid id).getLast? = some "ESCALATED" := by
  have hsplit := h.verdicts_statements mid
  rw [hsplit, List.getLast?_append]
  cases hlast : (verdictsIn up db (pre ++ [.perform c e]) mid id).getLast? with
  | some v => simp
  | none =>
    -- it was decided when it was found, by a verdict that left it open
    have hnil := List.getLast?_eq_none_iff.1 hlast
    rw [hnil, List.append_nil] at hsplit
    rw [Decided, hsplit] at hd
    have hopen : (verdicts id (statements up db pre)).getLast? = some "OPEN" := (hf id hid hd).symm.trans h.status
    rw [Option.none_or, hopen]
    simp

theorem Finds.mem_incidentIds {pre : List (Action Request Env)} {c : Nat} {e : Env} (h : Finds up db pre c e id) :
    id ∈ db.incidentIds := by
  rw [← incidentIds_systemAfter up db pre, ← Database.isSome_status_iff, h.status]
  rfl

/-- The statement an action performs is the one its call comes to. -/
theorem exists_of_stmt {done : List (Action Request Env)} (h : (next up (systemAfter up db done) a).2.stmt? = some s) :
    ∃ c e q, a = .perform c e ∧ (systemAfter up db done).calls c = some q ∧ q.next = s := by
  cases a with
  | start c r =>
    simp only [next, step] at h
    split at h <;> cases h
  | perform c e =>
    simp only [next, step] at h
    split at h
    · cases h
    · rename_i q hq
      refine ⟨c, e, q, rfl, hq, ?_⟩
      split at h
      · cases h
      · exact Option.some.inj h
  | abort c =>
    simp only [next, step] at h
    split at h <;> cases h

theorem sparesAt_iff_allows (h : VerdictKept up db as) :
    SparesAt up db as a ↔ ∀ c e, a = .perform c e → Allows up db as c := by
  constructor
  · rintro hs c e rfl
    refine ⟨?_, ?_⟩
    · rintro id pre e' mid rfl hfinds hmid hd
      obtain ⟨q, ids, hq, hnext, hid⟩ := hfinds.escalates hmid
      have hstmt : (next up (systemAfter up db (pre ++ .perform c e' :: mid)) (.perform c e)).2.stmt? =
          some (.escalate ids) := by
        rw [next, step_perform _ _ hq (by rw [hnext]; rfl), hnext]
        rfl
      exact (hfinds.last_verdict_iff h.of_append.allFollow hfinds.mem_incidentIds hd).1
        (hs id hfinds.mem_incidentIds hd _ hstmt hid)
    · intro q id operator hq hnext hid hd
      have hstmt : (next up (systemAfter up db as) (.perform c e)).2.stmt? = some (.acknowledge id operator) := by
        rw [next, step_perform _ _ hq (by rw [hnext]; rfl), hnext]
        rfl
      exact hs id hid hd _ hstmt rfl
  · intro hallows id hid hd s hs
    obtain ⟨c, e, q, rfl, hq, hnext⟩ := exists_of_stmt hs
    have hallows := hallows c e rfl
    cases s with
    | escalate ids =>
      intro hmem
      obtain ⟨pre, e', mid, rfl, hfinds, hmid⟩ := exists_finds hq hnext hmem
      exact (hfinds.last_verdict_iff h.of_append.allFollow hid hd).2 (hallows.update id pre e' mid rfl hfinds hmid hd)
    | acknowledge id' operator =>
      rintro rfl
      exact hallows.acknowledge q id' operator hq hnext hid hd
    | _ => trivial

/-- A verdict is kept exactly on the schedules on which no escalation run comes to its `UPDATE`
with a decided incident, and nobody acknowledges an escalated verdict. -/
theorem verdict_kept_iff (up : PyUpper) (db : Database) (as : List (Action Request Env)) :
    VerdictKept up db as ↔ Undisturbed up db as := by
  induction as using List.reverseRecOn with
  | nil =>
    unfold VerdictKept Undisturbed
    simp
  | append_singleton as a ih =>
    rw [VerdictKept, Undisturbed, Mealy.forall_split_concat, Mealy.forall_split_concat, ← VerdictKept, ← Undisturbed,
      ← ih]
    exact and_congr_right fun h => (keptAt_iff_sparesAt h.allFollow).trans (sparesAt_iff_allows h)

/-- One open incident, an hour old. -/
def openIncident : Incident where
  id := "inc_1"
  cameraId := "cam_1"
  trackId := 1
  riskScore := 1
  fsmScore := 1
  shopformerScore := 0
  theftStage := "CONCEALMENT"
  concealmentType := "HAND_TO_PANTS"
  severity := "HIGH"
  occurredAt := 0

def oneIncident : Database where
  cameras := [⟨"cam_1", "Aisle 1"⟩]
  incidents := [openIncident]
  reviews := []
  alertEscalations := []
  cameras_pk := by decide
  incidents_pk := by decide
  incidents_camera := by decide
  reviews_incident := by simp
  escalations_incident := by simp
  escalations_unique := List.nodup_nil

def anHourLater : Env := ⟨3600, .forward _⟩

/-- The escalation run selects the incident, then a review confirms it, then the run
goes on. -/
def overtaken : List (Action Request Env) := [
  .start 0 (.runOnce 15), .start 1 (.review "inc_1" "CONFIRMED" "seen it" "op_1"), .perform 0 anHourLater,
  .perform 1 anHourLater, .perform 1 anHourLater]

theorem verdict_kept_fails : ¬ VerdictKept .ascii oneIncident (overtaken ++ [.perform 0 anHourLater]) := by
  intro h
  have hstmt : (next .ascii (systemAfter .ascii oneIncident overtaken) (.perform 0 anHourLater)).2.stmt? =
      some (.escalate ["inc_1"]) := by decide +kernel
  have hbefore : (systemAfter .ascii oneIncident overtaken).store.status "inc_1" = some "CONFIRMED" := by
    decide
  have hafter :
      (next .ascii (systemAfter .ascii oneIncident overtaken) (.perform 0 anHourLater)).1.store.status "inc_1" =
        some "ESCALATED" := by decide +kernel
  have hkept := h overtaken _ [] rfl "inc_1" (by decide) (.inl (by decide)) (by rw [hstmt]; rintro _ ⟨⟩; rfl)
  rw [hbefore, hafter] at hkept
  exact absurd hkept (by decide)

end Reviews

end Netra
