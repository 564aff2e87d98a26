import Netra.Store.ModelRegistry
/-!
# One active model (`ModelRegistry.deploy`, `ModelRegistry.rollback`)

Calls in any interleaving, statement by statement. Between its first statement
and its last a call has left its model without an active deployment, and owes
one (`Owes`). A call that fails there never pays, and a second call may activate
a deployment of its own meanwhile. In a run without either, each model has
exactly one active deployment whenever no call is in progress
(`one_active_model`).
-/
namespace Netra

open Table Calls

namespace ModelRegistry

open Deployments

/-- A call in progress. -/
abbrev Pending := InProgress Request Stmt (List Deployment) (Option Deployment) Deployments

/-- The table and the calls in progress. -/
abbrev Registry := Pool Request Stmt (List Deployment) (Option Deployment) Deployments

abbrev Happened := Outcome Request Stmt (List Deployment) (Option Deployment) Deployments Env

section
variable (settings : Settings)

/-- One action, and what came of it. -/
def next (p : Registry) (a : Action Request Env) : Registry × Happened := step (prog settings) perform p a

/-- The registry after the actions `as`, from an empty table and no call. -/
def registryAfter (as : List (Action Request Env)) : Registry := Mealy.after (next settings) (Pool.new empty) as

/-- `rollback` after its `SELECT`. -/
def reactivate (rows : List Deployment) : Prog Stmt (List Deployment) (Option Deployment) :=
  match rows.head? with
  | none => .ret none
  | some prev => .stmt (.activate prev.id) fun _ => .ret (some prev)

/-- A call after its first statement. -/
def afterDeactivate : Request → Prog Stmt (List Deployment) (Option Deployment)
  | .deploy args => .stmt (.insert args (logicVersionOf settings args)) fun rows => .ret rows.head?
  | .rollback name => .stmt (.latestInactive name) reactivate

theorem prog_eq (c : Request) :
    prog settings c = .stmt (.deactivate c.modelName) fun _ => afterDeactivate settings c := by
  cases c <;> rfl

/-! ## Where a call stands -/

/-- The deactivating statement, performed on `x`. -/
def deactivated (name : String) (x : Deployments) : Performed Stmt Deployments :=
  ⟨.deactivate name, x, x.deactivate name⟩

/-- What is left of a call, and what it has performed. -/
inductive Stage (t : Deployments) (q : Pending) : Prop where
  | begun : q.next = .deactivate q.request.modelName → q.cont = (fun _ => afterDeactivate settings q.request) →
      q.done = [] → Stage t q
  | deploying (args : DeployArgs) (x : Deployments) : q.request = .deploy args →
      q.next = .insert args (logicVersionOf settings args) → q.cont = (fun rows => .ret rows.head?) →
      q.done = [deactivated args.modelName x] → Stage t q
  | finding (name : String) (x : Deployments) : q.request = .rollback name → q.next = .latestInactive name →
      q.cont = reactivate → q.done = [deactivated name x] → Stage t q
  | activating (name : String) (id : Nat) (x y : Deployments) : q.request = .rollback name → q.next = .activate id →
      (∀ rows, ∃ d, q.cont rows = .ret d) → (∃ r ∈ t.of name, r.id = id) →
      q.done = [deactivated name x, ⟨.latestInactive name, y, y⟩] → Stage t q

end

variable {settings : Settings} {t y : Deployments} {q q' : Pending} {rows : List Deployment} {e : Env} {s : Stmt}

/-- No statement removes a row or gives it to another model. -/
theorem mem_of_perform {name : String} {r : Deployment} (h : perform e s t = some (y, rows)) (hr : r ∈ t.of name) :
    ∃ r' ∈ y.of name, r'.id = r.id := by
  obtain ⟨hr, hn⟩ := mem_of.1 hr
  cases s with
  | deactivate m =>
    obtain ⟨rfl, -⟩ := Prod.mk.inj (Option.some.inj h)
    refine ⟨if r.modelName = m then { r with isActive := false } else r, mem_of.2 ⟨?_, ?_⟩, ?_⟩
    · rw [rows_deactivate]
      exact List.mem_map_of_mem hr
    · split <;> exact hn
    · split <;> rfl
  | insert args lv =>
    obtain ⟨rfl, -⟩ := Prod.mk.inj (Option.some.inj h)
    exact ⟨r, mem_of.2 ⟨List.mem_append_left _ hr, hn⟩, rfl⟩
  | latestInactive m =>
    obtain ⟨rfl, -⟩ := Prod.mk.inj (Option.some.inj h)
    exact ⟨r, mem_of.2 ⟨hr, hn⟩, rfl⟩
  | activate id =>
    obtain ⟨rfl, -⟩ := Prod.mk.inj (Option.some.inj h)
    refine ⟨if r.id = id then { r with isActive := true } else r, mem_of.2 ⟨?_, ?_⟩, ?_⟩
    · rw [rows_activate]
      exact List.mem_map_of_mem hr
    · split <;> exact hn
    · split <;> rfl

theorem Stage.start {c : Request} (h : enter c [] (prog settings c) = some q) : Stage settings t q := by
  rw [prog_eq] at h
  obtain rfl := Option.some.inj h
  exact .begun rfl rfl rfl

theorem Stage.other (h : perform e s t = some (y, rows)) (hq : Stage settings t q) : Stage settings y q := by
  cases hq with
  | begun hnext hcont hdone => exact .begun hnext hcont hdone
  | deploying args x hreq hnext hcont hdone => exact .deploying args x hreq hnext hcont hdone
  | finding name x hreq hnext hcont hdone => exact .finding name x hreq hnext hcont hdone
  | activating name id x z hreq hnext hcont hrow hdone =>
    obtain ⟨r, hr, hid⟩ := hrow
    obtain ⟨r', hr', hid'⟩ := mem_of_perform h hr
    exact .activating name id x z hreq hnext hcont ⟨r', hr', hid'.trans hid⟩ hdone

theorem Stage.next (hq : Stage settings t q) (h : perform e q.next t = some (y, rows))
    (hq' : enter q.request (q.done ++ [⟨q.next, t, y⟩]) (q.cont rows) = some q') : Stage settings y q' := by
  cases hq with
  | begun hnext hcont hdone =>
    rw [hnext] at h
    obtain ⟨rfl, -⟩ := Prod.mk.inj (Option.some.inj h)
    rw [hcont, hdone, hnext] at hq'
    cases hreq : q.request with
    | deploy args =>
      rw [hreq] at hq'
      obtain rfl := Option.some.inj hq'
      exact .deploying args t rfl rfl rfl rfl
    | rollback name =>
      rw [hreq] at hq'
      obtain rfl := Option.some.inj hq'
      exact .finding name t rfl rfl rfl rfl
  | deploying args x hreq hnext hcont hdone =>
    rw [hcont] at hq'
    cases hq'
  | finding name x hreq hnext hcont hdone =>
    rw [hnext] at h
    obtain ⟨rfl, rfl⟩ := Prod.mk.inj (Option.some.inj h)
    rw [hcont, hdone, hnext, reactivate, Option.head?_toList] at hq'
    cases hprev : t.latestInactive e.scan name with
    | none =>
      rw [hprev] at hq'
      cases hq'
    | some prev =>
      rw [hprev] at hq'
      obtain rfl := Option.some.inj hq'
      exact .activating name prev.id x t hreq rfl (fun _ => ⟨some prev, rfl⟩)
        ⟨prev, (latestInactive_spec hprev).1.1, rfl⟩ rfl
  | activating name id x z hreq hnext hcont hrow hdone =>
    obtain ⟨d, hd⟩ := hcont rows
    rw [hd] at hq'
    cases hq'

/-! ## Debts -/

/-- The call has taken away an active deployment of the model. -/
def Touched (name : String) (q : Pending) : Prop :=
  ∃ s ∈ q.done, s.stmt = .deactivate name ∧ s.before.activeOf name ≠ []

/-- The call has left the model without the deployment it had. -/
def Owes (name : String) (q : Pending) : Prop := q.request.modelName = name ∧ Touched name q

/-- No two deployments of a model are active. -/
def AtMostOne (t : Deployments) : Prop := ∀ name, ∀ r ∈ t.activeOf name, ∀ r' ∈ t.activeOf name, r = r'

/-- A model without an active deployment has a call that owes it one. -/
def Owed (p : Registry) : Prop :=
  ∀ name, p.store.of name ≠ [] → p.store.activeOf name = [] → ∃ id q, p.calls id = some q ∧ Owes name q

/-- What the statements do not make sure of: a deployment is activated when no
other of its model is active, and a call that fails has deactivated none. -/
def OrderlyAt (t : Deployments) : Happened → Prop
  | .performed _ (.insert args _) => t.activeOf args.modelName = []
  | .performed _ (.activate id) => ∀ r ∈ t.rows, r.id = id → ∀ r' ∈ t.activeOf r.modelName, r' = r
  | .raised q => ¬ Touched q.request.modelName q
  | _ => True

theorem atMostOne_perform (h : perform e s t = some (y, rows)) (ho : OrderlyAt t (.performed e s))
    (hi : AtMostOne t) : AtMostOne y := by
  intro name
  cases s with
  | deactivate m =>
    obtain ⟨rfl, -⟩ := Prod.mk.inj (Option.some.inj h)
    by_cases hm : m = name
    · subst hm
      simp
    · rw [activeOf_deactivate_ne hm]
      exact hi name
  | insert args lv =>
    obtain ⟨rfl, -⟩ := Prod.mk.inj (Option.some.inj h)
    rw [activeOf_insert _ _ _ _ rfl]
    split
    · rename_i hm
      rw [show t.activeOf name = [] from hm ▸ ho]
      simp
    · rw [List.append_nil]
      exact hi name
  | latestInactive m =>
    obtain ⟨rfl, -⟩ := Prod.mk.inj (Option.some.inj h)
    exact hi name
  | activate id =>
    obtain ⟨rfl, -⟩ := Prod.mk.inj (Option.some.inj h)
    -- an active row is the activated one, or was active before
    have hcases : ∀ r ∈ (t.activate id).activeOf name,
        (∃ r₀ ∈ t.rows, r₀.id = id ∧ r₀.modelName = name ∧ r = { r₀ with isActive := true }) ∨
          (r.id ≠ id ∧ r ∈ t.activeOf name) := by
      intro r hr
      obtain ⟨hr, hn, ha⟩ := mem_activeOf.1 hr
      rw [rows_activate] at hr
      obtain ⟨r₀, hr₀, rfl⟩ := List.mem_map.1 hr
      by_cases hid : r₀.id = id
      · rw [if_pos hid] at hn ⊢
        exact .inl ⟨r₀, hr₀, hid, hn, rfl⟩
      · rw [if_neg hid] at hn ha ⊢
        exact .inr ⟨hid, mem_activeOf.2 ⟨hr₀, hn, ha⟩⟩
    intro r hr r' hr'
    rcases hcases r hr with ⟨r₀, hr₀, hid₀, hn₀, rfl⟩ | ⟨hid, hmem⟩ <;>
      rcases hcases r' hr' with ⟨r₁, hr₁, hid₁, hn₁, rfl⟩ | ⟨hid', hmem'⟩
    · rw [eq_of_id hr₀ hr₁ (hid₀.trans hid₁.symm)]
    · exact absurd ((ho r₀ hr₀ hid₀ r' (hn₀ ▸ hmem')) ▸ hid₀) hid'
    · exact absurd ((ho r₁ hr₁ hid₁ r (hn₁ ▸ hmem)) ▸ hid₁) hid
    · exact hi name r hmem r' hmem'

theorem enter_afterDeactivate (settings : Settings) (c : Request) (done : List (Performed Stmt Deployments)) :
    ∃ q, enter c done (afterDeactivate settings c) = some q ∧ q.request = c ∧ q.done = done := by
  cases c <;> exact ⟨_, rfl, rfl, rfl⟩

theorem activeOf_activate_ne_nil {id : Nat} {name : String} (h : ∃ r ∈ t.of name, r.id = id) :
    (t.activate id).activeOf name ≠ [] := by
  obtain ⟨r, hr, hid⟩ := h
  obtain ⟨hr, hn⟩ := mem_of.1 hr
  refine List.ne_nil_of_mem (a := { r with isActive := true }) (mem_activeOf.2 ⟨?_, hn, rfl⟩)
  rw [rows_activate]
  exact List.mem_map.2 ⟨r, hr, if_pos hid⟩

/-- The registry after the statement a call has come to. -/
def moved (p : Registry) (id : Nat) (q : Pending) (y : Deployments) (rows : List Deployment) : Registry :=
  ⟨y, Function.update p.calls id (enter q.request (q.done ++ [⟨q.next, p.store, y⟩]) (q.cont rows))⟩

section
variable {p : Registry} {id : Nat} {name : String}

/-- The call does not owe the model a deployment, so whoever does still does. -/
theorem owed_of_not_owes (hq : p.calls id = some q) (hno : ¬ Owes name q)
    (h : ∃ j q, p.calls j = some q ∧ Owes name q) :
    ∃ j q', (moved p id q y rows).calls j = some q' ∧ Owes name q' :=
  exists_elsewhere (fun _ hq' => Option.some.inj (hq.symm.trans hq') ▸ hno) h

/-- The call goes on, and owes the model a deployment. -/
theorem owed_self (hq' : enter q.request (q.done ++ [⟨q.next, p.store, y⟩]) (q.cont rows) = some q')
    (ho : Owes name q') : ∃ j q₂, (moved p id q y rows).calls j = some q₂ ∧ Owes name q₂ := by
  exact ⟨id, q', (Function.update_self id _ p.calls).trans hq', ho⟩

/-- The first statement takes the active deployment away, and the call owes it. -/
theorem owed_begun (hq : p.calls id = some q) (hnext : q.next = .deactivate q.request.modelName)
    (hcont : q.cont = fun _ => afterDeactivate settings q.request) (hdone : q.done = [])
    (h : perform e q.next p.store = some (y, rows)) (hi : Owed p) : Owed (moved p id q y rows) := by
  intro name hof hactive
  have hno : ¬ Owes name q := by
    rintro ⟨-, s, hs, -⟩
    simp [hdone] at hs
  rw [hnext] at h
  obtain ⟨rfl, -⟩ := Prod.mk.inj (Option.some.inj h)
  dsimp only [moved] at hof hactive
  rw [Ne, of_deactivate_eq_nil_iff] at hof
  by_cases hm : q.request.modelName = name
  · by_cases hact : p.store.activeOf name = []
    · exact owed_of_not_owes hq hno (hi name hof hact)
    · obtain ⟨q', hq', hreq, hd⟩ := enter_afterDeactivate settings q.request
        (q.done ++ [⟨q.next, p.store, p.store.deactivate q.request.modelName⟩])
      have htouched : ⟨q.next, p.store, p.store.deactivate q.request.modelName⟩ ∈ q'.done := by
        rw [hd]
        exact List.mem_append_right _ (List.mem_singleton.2 rfl)
      refine owed_self (by rw [hcont]; exact hq') ⟨hreq ▸ hm, _, htouched, ?_, hm ▸ hact⟩
      rw [hnext, hm]
  · rw [activeOf_deactivate_ne hm] at hactive
    exact owed_of_not_owes hq hno (hi name hof hactive)

/-- The new deployment is active. -/
theorem owed_deploying {args : DeployArgs} (hq : p.calls id = some q) (hreq : q.request = .deploy args)
    (hnext : q.next = .insert args (logicVersionOf settings args)) (h : perform e q.next p.store = some (y, rows))
    (hi : Owed p) : Owed (moved p id q y rows) := by
  intro name hof hactive
  rw [hnext] at h
  obtain ⟨rfl, -⟩ := Prod.mk.inj (Option.some.inj h)
  dsimp only [moved] at hof hactive
  rw [of_insert] at hof
  rw [activeOf_insert _ _ _ _ rfl] at hactive
  by_cases hm : (newRow args (logicVersionOf settings args) e.now p.store.nextId).modelName = name
  · simp [hm] at hactive
  · have hno : ¬ Owes name q := fun ho => hm (by rw [← ho.1, hreq]; rfl)
    rw [if_neg hm, List.append_nil] at hof hactive
    exact owed_of_not_owes hq hno (hi name hof hactive)

/-- A rollback that owes a deployment finds one to activate. -/
theorem owed_finding {m : String} (hq : p.calls id = some q) (hreq : q.request = .rollback m)
    (hnext : q.next = .latestInactive m) (hcont : q.cont = reactivate)
    (h : perform e q.next p.store = some (y, rows)) (hi : Owed p) : Owed (moved p id q y rows) := by
  intro name hof hactive
  rw [hnext] at h
  obtain ⟨rfl, rfl⟩ := Prod.mk.inj (Option.some.inj h)
  dsimp only [moved] at hof hactive
  by_cases ho : Owes name q
  · obtain rfl : m = name := by rw [← ho.1, hreq]; rfl
    -- none of the model's rows is active, so the `SELECT` finds one
    cases hprev : p.store.latestInactive e.scan m with
    | none =>
      obtain ⟨r, hr⟩ := List.exists_mem_of_ne_nil _ hof
      have ha := latestInactive_eq_none_iff.1 hprev r hr
      obtain ⟨hr, hn⟩ := mem_of.1 hr
      have : r ∈ p.store.activeOf m := mem_activeOf.2 ⟨hr, hn, ha⟩
      simp [hactive] at this
    | some prev =>
      obtain ⟨-, s, hs, hs'⟩ := ho
      exact owed_self (by rw [hcont]; rfl) ⟨by rw [hreq]; rfl, s, List.mem_append_left _ hs, hs'⟩
  · exact owed_of_not_owes hq ho (hi name hof hactive)

/-- The activated deployment pays the debt. -/
theorem owed_activating {m : String} {rid : Nat} (hq : p.calls id = some q) (hreq : q.request = .rollback m)
    (hnext : q.next = .activate rid) (hrow : ∃ r ∈ p.store.of m, r.id = rid)
    (h : perform e q.next p.store = some (y, rows)) (hi : Owed p) : Owed (moved p id q y rows) := by
  intro name hof hactive
  rw [hnext] at h
  obtain ⟨rfl, -⟩ := Prod.mk.inj (Option.some.inj h)
  dsimp only [moved] at hof hactive
  by_cases hm : m = name
  · subst hm
    exact absurd hactive (activeOf_activate_ne_nil hrow)
  · have hno : ¬ Owes name q := fun ho => hm (by rw [← ho.1, hreq]; rfl)
    obtain ⟨r, hr, hid⟩ := hrow
    obtain ⟨hr, hn⟩ := mem_of.1 hr
    have hrows : ∀ r' ∈ p.store.rows, r'.id = rid → r'.modelName = m := fun r' hr' hid' =>
      eq_of_id hr' hr (hid'.trans hid.symm) ▸ hn
    rw [of_activate_ne hrows hm] at hof
    rw [activeOf_activate_ne hrows hm] at hactive
    exact owed_of_not_owes hq hno (hi name hof hactive)

/-- A call pays what it owes with its last statement, and owes nothing before its first. -/
theorem owed_performed (hq : p.calls id = some q) (hstage : Stage settings p.store q)
    (h : perform e q.next p.store = some (y, rows)) (hi : Owed p) : Owed (moved p id q y rows) := by
  cases hstage with
  | begun hnext hcont hdone => exact owed_begun hq hnext hcont hdone h hi
  | deploying args x hreq hnext hcont hdone => exact owed_deploying hq hreq hnext h hi
  | finding m x hreq hnext hcont hdone => exact owed_finding hq hreq hnext hcont h hi
  | activating m rid x z hreq hnext hcont hrow hdone => exact owed_activating hq hreq hnext hrow h hi

end

/-! ## Runs -/

structure Inv (settings : Settings) (p : Registry) : Prop where
  stages : ∀ id q, p.calls id = some q → Stage settings p.store q
  atMostOne : AtMostOne p.store
  owed : Owed p

theorem Inv.new : Inv settings (Pool.new empty) where
  stages := fun id q hq => by cases hq
  atMostOne := fun name r hr => by simp [Pool.new, empty, activeOf] at hr
  owed := fun name hof => absurd rfl hof

theorem Inv.step {p p' : Registry} {o : Happened} (h : Step (prog settings) perform p p' o)
    (ho : OrderlyAt p.store o) (hi : Inv settings p) : Inv settings p' where
  stages := h.calls_inv (fun x q => Stage settings x q) (fun _ _ _ h => .start h)
    (fun _ _ _ _ _ _ hq h hq' => hq.next h hq') (fun _ _ _ _ _ _ h hq => hq.other h) hi.stages
  atMostOne := by
    cases h with
    | idle => exact hi.atMostOne
    | started _ => exact hi.atMostOne
    | performed _ hy => exact atMostOne_perform hy ho hi.atMostOne
    | raised _ => exact hi.atMostOne
  owed := by
    cases h with
    | idle => exact hi.owed
    | started hnone =>
      intro name hof hactive
      refine exists_elsewhere (fun q hq => ?_) (hi.owed name hof hactive)
      simp [hnone] at hq
    | performed hq hy => exact owed_performed hq (hi.stages _ _ hq) hy hi.owed
    | raised hq =>
      intro name hof hactive
      refine exists_elsewhere (fun q' hq' howes => ?_) (hi.owed name hof hactive)
      -- the call that broke off had taken nothing away
      obtain rfl := Option.some.inj (hq.symm.trans hq')
      exact ho (howes.1 ▸ howes.2)

/-- Each model in the table has one active deployment. -/
def OneActive (t : Deployments) : Prop := ∀ name, t.of name ≠ [] → (t.activeOf name).length = 1

theorem Inv.oneActive {p : Registry} (hi : Inv settings p) (hidle : p.Idle) : OneActive p.store := by
  intro name hof
  have hne : p.store.activeOf name ≠ [] := by
    intro hactive
    obtain ⟨id, q, hq, -⟩ := hi.owed name hof hactive
    simp [hidle id] at hq
  obtain ⟨r, rs, hrs⟩ := List.exists_cons_of_ne_nil hne
  have hnodup := p.store.activeOf_nodup name
  have hall := hi.atMostOne name
  rw [hrs] at hnodup hall ⊢
  cases rs with
  | nil => rfl
  | cons r' rs =>
    obtain rfl := hall r (by simp) r' (by simp)
    simp at hnodup

/-- None of the statements the call performed changed what is active of its model. -/
def LeftActive (q : Pending) : Prop :=
  ∀ s ∈ q.done, s.after.activeOf q.request.modelName = s.before.activeOf q.request.modelName

theorem Stage.leftActive (hq : Stage settings t q) (h : ¬ Touched q.request.modelName q) : LeftActive q := by
  have hdeactivated {m : String} {x : Deployments} (hm : q.request.modelName = m) (hx : deactivated m x ∈ q.done) :
      (x.deactivate m).activeOf m = x.activeOf m := by
    rw [activeOf_deactivate_self]
    by_contra hne
    exact h ⟨_, hx, by rw [hm]; rfl, by rw [hm]; exact Ne.symm hne⟩
  intro s hs
  cases hq with
  | begun _ _ hdone => simp [hdone] at hs
  | deploying args x hreq _ _ hdone =>
    have hm : q.request.modelName = args.modelName := by rw [hreq]; rfl
    rw [hdone, List.mem_singleton] at hs
    subst hs
    rw [hm]
    exact hdeactivated hm (by simp [hdone])
  | finding m x hreq _ _ hdone =>
    have hm : q.request.modelName = m := by rw [hreq]; rfl
    rw [hdone, List.mem_singleton] at hs
    subst hs
    rw [hm]
    exact hdeactivated hm (by simp [hdone])
  | activating m rid x z hreq _ _ _ hdone =>
    have hm : q.request.modelName = m := by rw [hreq]; rfl
    simp only [hdone, List.mem_cons, List.not_mem_nil, or_false] at hs
    rcases hs with rfl | rfl
    · rw [hm]
      exact hdeactivated hm (by simp [hdone])
    · rfl

/-- One active deployment for each model whenever no call is in progress, and no
change of it by a call that raises. -/
def OneActiveModel (settings : Settings) (as : List (Action Request Env)) : Prop :=
  (∀ done, done <+: as → (registryAfter settings done).Idle → OneActive (registryAfter settings done).store) ∧
    ∀ done a rest q, as = done ++ a :: rest → (next settings (registryAfter settings done) a).2 = .raised q →
      LeftActive q

/-- Every action of the run is orderly. -/
def Orderly (settings : Settings) (as : List (Action Request Env)) : Prop :=
  Mealy.Always (next settings) (fun p a => OrderlyAt p.store (next settings p a).2) (Pool.new empty) as

theorem Orderly.inv {as : List (Action Request Env)} (h : Orderly settings as) :
    Inv settings (registryAfter settings as) :=
  Mealy.Always.after_inv (fun p a hi ho => hi.step (step_step _ _ p a) ho) h .new

/-- In an orderly run each model has one active deployment. -/
theorem one_active_model (settings : Settings) (as : List (Action Request Env)) (h : Orderly settings as) :
    OneActiveModel settings as := by
  constructor
  · rintro done ⟨rest, rfl⟩ hidle
    exact (Orderly.inv (Mealy.always_append.1 h).1).oneActive hidle
  · rintro done a rest q rfl hraised
    obtain ⟨hdone, ha⟩ := Mealy.always_append.1 h
    have ho : OrderlyAt _ (next settings (registryAfter settings done) a).2 := ha.1
    rw [hraised] at ho
    obtain ⟨id, hq⟩ := (hraised ▸ step_step (prog settings) perform (registryAfter settings done) a :
      Step _ _ _ _ (.raised q)).raised_mem
    exact ((Orderly.inv hdone).stages id q hq).leftActive ho

instance (name : String) (q : Pending) : Decidable (Touched name q) :=
  inferInstanceAs (Decidable (∃ s ∈ q.done, s.stmt = .deactivate name ∧ s.before.activeOf name ≠ []))

instance (t : Deployments) : ∀ o, Decidable (OrderlyAt t o)
  | .nothing => isTrue trivial
  | .raised q => inferInstanceAs (Decidable (¬ Touched q.request.modelName q))
  | .performed _ (.insert args _) => inferInstanceAs (Decidable (t.activeOf args.modelName = []))
  | .performed _ (.activate id) =>
    inferInstanceAs (Decidable (∀ r ∈ t.rows, r.id = id → ∀ r' ∈ t.activeOf r.modelName, r' = r))
  | .performed _ (.deactivate _) => isTrue trivial
  | .performed _ (.latestInactive _) => isTrue trivial

def version1 : DeployArgs := { modelName := "shopformer", modelVersion := "1.0", path := "v1.pth" }

def version2 : DeployArgs := { modelName := "shopformer", modelVersion := "2.0", path := "v2.pth" }

def clock (now : ℚ) : Env := ⟨now, .forward _⟩

/-- A second deployment breaks off before its first statement; a rollback follows. -/
theorem one_active_model_seen :
    OneActiveModel .default [.start 0 (.deploy version1), .perform 0 (clock 1), .start 1 (.deploy version2),
      .perform 0 (clock 2), .abort 1, .start 2 (.rollback "shopformer"), .perform 2 (clock 3), .perform 2 (clock 3),
      .perform 2 (clock 3)] :=
  one_active_model .default _ (by unfold Orderly; decide)

/-- Two deployments side by side: both versions end up active. -/
def sideBySide : List (Action Request Env) := [
  .start 0 (.deploy version1), .start 1 (.deploy version2), .perform 0 (clock 1), .perform 1 (clock 1),
  .perform 0 (clock 2), .perform 1 (clock 3)]

theorem one_active_model_fails : ¬ OneActiveModel .default sideBySide := by
  rintro ⟨h, -⟩
  have hidle : (registryAfter .default sideBySide).Idle := by
    intro id
    match id with
    | 0 => rfl
    | 1 => rfl
    | n + 2 => rfl
  have hone := h _ (List.prefix_refl _) hidle "shopformer" (by decide)
  have htwo : ((registryAfter .default sideBySide).store.activeOf "shopformer").length = 2 := by decide
  rw [htwo] at hone
  cases hone

end ModelRegistry

end Netra
