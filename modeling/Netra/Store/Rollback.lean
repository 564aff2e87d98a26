import Netra.Store.ModelRegistry
/-!
# Rolling back (`ModelRegistry.rollback`)

Calls run one after another. The active deployment of a model is then its
newest one (`standing_tableAfter`), and `rollback` finds that one again right after it
has deactivated it: it activates it, returns it, and the table is as it was
(`rollback_current`). So it never goes back to a previous version, and never
says that there is none (`rollback_right_iff`).
-/
namespace Netra

open Table Calls

namespace ModelRegistry

open Deployments

variable (settings : Settings)

/-- One call on its own: the table it leaves, and what it returned. -/
def call (t : Deployments) (c : Request × (Nat → Env)) : Deployments × Option (Option Deployment) :=
  (prog settings c.1).run perform c.2 t

/-- The table after the calls `calls`, from an empty one. -/
def tableAfter (calls : List (Request × (Nat → Env))) : Deployments := Mealy.after (call settings) empty calls

/-- The `deployed_at` of a call: `NOW()` at its second statement. -/
def deployedAt (name : String) : Request × (Nat → Env) → Option ℚ
  | (.deploy args, env) => if args.modelName = name then some (env 1).now else none
  | (.rollback _, _) => none

/-- `deployed_at` strictly increases. -/
def Increasing (name : String) (calls : List (Request × (Nat → Env))) : Prop :=
  (calls.filterMap (deployedAt name)).Pairwise (· < ·)

theorem call_deploy (t : Deployments) (args : DeployArgs) (env : Nat → Env) :
    (call settings t (.deploy args, env)).1 =
      (t.deactivate args.modelName).insert (newRow args (logicVersionOf settings args) (env 1).now)
        (newRow_id args (logicVersionOf settings args) (env 1).now) := rfl

theorem call_rollback (t : Deployments) (name : String) (env : Nat → Env) :
    call settings t (.rollback name, env) =
      match (t.deactivate name).latestInactive (env 1).scan name with
      | none => (t.deactivate name, some none)
      | some prev => ((t.deactivate name).activate prev.id, some (some prev)) := by
  simp only [call, prog, rollback, Prog.run, perform, Option.head?_toList]
  split
  · rename_i h
    rw [h]
    rfl
  · rename_i h
    rw [h]
    rfl

variable {settings} {t : Deployments} {name m : String} {d : Deployment}

theorem of_call_ne (c : Request × (Nat → Env)) (h : c.1.modelName ≠ name) :
    (call settings t c).1.of name = t.of name := by
  obtain ⟨request, env⟩ := c
  cases request with
  | deploy args =>
    have h : args.modelName ≠ name := h
    rw [call_deploy, of_insert, of_deactivate_ne h, newRow, if_neg h, List.append_nil]
  | rollback m =>
    have h : m ≠ name := h
    rw [call_rollback]
    split
    · exact of_deactivate_ne h
    · rename_i prev hprev
      obtain ⟨⟨hmem, -⟩, -⟩ := latestInactive_spec hprev
      obtain ⟨hmem, hname⟩ := mem_of.1 hmem
      rw [of_activate_ne (fun r hr hid => (eq_of_id hr hmem hid) ▸ hname) h, of_deactivate_ne h]

/-! ## The current deployment -/

/-- `d` is the newest deployment of the model and the only active one. -/
structure Current (t : Deployments) (name : String) (d : Deployment) : Prop where
  mem : d ∈ t.of name
  active : d.isActive = true
  others : ∀ r ∈ t.of name, r ≠ d → r.isActive = false ∧ r.deployedAt < d.deployedAt

theorem ext_rows {t' : Deployments} (h : t.rows = t'.rows) (hn : t.nextId = t'.nextId) : t = t' := by
  cases t
  cases t'
  simp only at h hn
  subst h hn
  rfl

/-- Activating the deployment that was just deactivated. -/
theorem Current.reactivate (h : Current t name d) : (t.deactivate name).activate d.id = t := by
  refine ext_rows ?_ rfl
  rw [rows_activate, rows_deactivate, List.map_map]
  calc _ = t.rows.map id := List.map_congr_left fun r hr => ?_
    _ = t.rows := List.map_id _
  obtain ⟨hd, hname⟩ := mem_of.1 h.mem
  by_cases hr' : r = d
  · subst hr'
    simp only [Function.comp_apply, if_pos hname, if_true, id]
    rw [← h.active]
  · have hid : r.id ≠ d.id := fun hid => hr' (eq_of_id hr hd hid)
    by_cases hn : r.modelName = name
    · have hoff := (h.others r (mem_of.2 ⟨hr, hn⟩) hr').1
      simp only [Function.comp_apply, if_pos hn, if_neg hid, id]
      rw [← hoff]
    · simp only [Function.comp_apply, if_neg hn, if_neg hid, id]

/-- What `rollback` finds after it has deactivated the current deployment. -/
theorem Current.latestInactive (h : Current t name d) (scan : Scan Deployment) :
    (t.deactivate name).latestInactive scan name = some { d with isActive := false } := by
  cases hprev : (t.deactivate name).latestInactive scan name with
  | none =>
    have := latestInactive_eq_none_iff.1 hprev _ (mem_of_deactivate.2 ⟨d, h.mem, rfl⟩)
    cases this
  | some prev =>
    obtain ⟨⟨hprev, -⟩, hmax⟩ := latestInactive_spec hprev
    obtain ⟨r, hr, rfl⟩ := mem_of_deactivate.1 hprev
    have hle : d.deployedAt ≤ r.deployedAt :=
      hmax { d with isActive := false } (mem_of_deactivate.2 ⟨d, h.mem, rfl⟩) rfl
    by_cases hrd : r = d
    · rw [hrd]
    · exact absurd (h.others r hr hrd).2 (not_lt.2 hle)

/-- Rolling back to the current deployment. -/
theorem rollback_current (h : Current t name d) (env : Nat → Env) :
    call settings t (.rollback name, env) = (t, some (some { d with isActive := false })) := by
  rw [call_rollback, h.latestInactive]
  exact Prod.ext h.reactivate rfl

/-! ## Histories -/

/-- The model has been deployed. -/
def Deployed (name : String) (calls : List (Request × (Nat → Env))) : Prop :=
  ∃ args env, (Request.deploy args, env) ∈ calls ∧ args.modelName = name

/-- What a history leaves of a model: nothing, or a current deployment. -/
inductive Standing (t : Deployments) (name : String) (calls : List (Request × (Nat → Env))) : Prop where
  | never : t.of name = [] → ¬ Deployed name calls → Standing t name calls
  | current (d : Deployment) : Current t name d →
      (∀ r ∈ t.of name, r.deployedAt ∈ calls.filterMap (deployedAt name)) → Deployed name calls → Standing t name calls

variable {calls : List (Request × (Nat → Env))} {c : Request × (Nat → Env)}

theorem Deployed.concat (h : Deployed name calls) : Deployed name (calls ++ [c]) := by
  obtain ⟨args, env, hc, hn⟩ := h
  exact ⟨args, env, List.mem_append_left _ hc, hn⟩

theorem deployed_concat_iff (h : deployedAt name c = none) : Deployed name (calls ++ [c]) ↔ Deployed name calls := by
  refine ⟨?_, Deployed.concat⟩
  rintro ⟨args, env, hc, hn⟩
  rcases List.mem_append.1 hc with hc | hc
  · exact ⟨args, env, hc, hn⟩
  · obtain rfl := List.mem_singleton.1 hc
    simp [deployedAt, hn] at h

/-- A call that does not write the model's rows. -/
theorem Standing.keep {t' : Deployments} (h : Standing t name calls) (hof : t'.of name = t.of name)
    (hc : deployedAt name c = none) : Standing t' name (calls ++ [c]) := by
  cases h with
  | never he hd => exact .never (hof.trans he) (mt (deployed_concat_iff hc).1 hd)
  | current d hcur htimes hd =>
    refine .current d ⟨hof ▸ hcur.mem, hcur.active, hof ▸ hcur.others⟩ ?_ hd.concat
    rw [hof, List.filterMap_append]
    exact fun r hr => List.mem_append_left _ (htimes r hr)

theorem Standing.rollback (h : Standing t name calls) (env : Nat → Env) :
    Standing (call settings t (.rollback name, env)).1 name (calls ++ [(.rollback name, env)]) := by
  cases h with
  | never he hd =>
    have he' : (t.deactivate name).of name = [] := of_deactivate_eq_nil_iff.2 he
    have hnone : (t.deactivate name).latestInactive (env 1).scan name = none := by
      rw [latestInactive_eq_none_iff, he']
      simp
    rw [call_rollback, hnone]
    exact .never he' (mt (deployed_concat_iff rfl).1 hd)
  | current d hcur htimes hd =>
    rw [rollback_current hcur]
    exact (Standing.current d hcur htimes hd).keep rfl rfl

theorem Standing.times (h : Standing t name calls) {r : Deployment} (hr : r ∈ t.of name) :
    r.deployedAt ∈ calls.filterMap (deployedAt name) := by
  cases h with
  | never he _ => simp [he] at hr
  | current _ _ htimes _ => exact htimes r hr

theorem Standing.deploy (h : Standing t name calls) {args : DeployArgs} (hn : args.modelName = name) (env : Nat → Env)
    (hinc : ∀ τ ∈ calls.filterMap (deployedAt name), τ < (env 1).now) :
    Standing (call settings t (.deploy args, env)).1 name (calls ++ [(.deploy args, env)]) := by
  subst hn
  rw [call_deploy]
  have hof := of_insert (newRow args (logicVersionOf settings args) (env 1).now)
    (newRow_id args (logicVersionOf settings args) (env 1).now) (t.deactivate args.modelName) args.modelName
  rw [newRow, if_pos rfl, ← newRow] at hof
  refine .current (newRow args (logicVersionOf settings args) (env 1).now t.nextId) ⟨?_, rfl, ?_⟩ ?_
    ⟨args, env, by simp, rfl⟩
  · rw [hof]
    exact List.mem_append_right _ (List.mem_singleton.2 rfl)
  · intro r hr hne
    rw [hof] at hr
    rcases List.mem_append.1 hr with hr | hr
    · obtain ⟨r', hr', rfl⟩ := mem_of_deactivate.1 hr
      exact ⟨rfl, hinc _ (h.times (r := r') hr')⟩
    · exact absurd (List.mem_singleton.1 hr) hne
  · intro r hr
    rw [hof] at hr
    rw [List.filterMap_append, List.mem_append]
    rcases List.mem_append.1 hr with hr | hr
    · obtain ⟨r', hr', rfl⟩ := mem_of_deactivate.1 hr
      exact .inl (h.times (r := r') hr')
    · obtain rfl := List.mem_singleton.1 hr
      exact .inr (by simp [deployedAt, newRow])

/-- One call after another: the active deployment is the newest one. -/
theorem standing_tableAfter (settings : Settings) (h : Increasing name calls) :
    Standing (tableAfter settings calls) name calls := by
  induction calls using List.reverseRecOn with
  | nil => exact .never rfl (by simp [Deployed])
  | append_singleton calls c ih =>
    rw [Increasing, List.filterMap_append, List.pairwise_append] at h
    obtain ⟨h, -, hlt⟩ := h
    have ih := ih h
    rw [tableAfter, Mealy.after_concat, ← tableAfter]
    by_cases hne : c.1.modelName = name
    · obtain ⟨request, env⟩ := c
      cases request with
      | deploy args =>
        exact ih.deploy hne env fun τ hτ => hlt τ hτ _ (by simp [deployedAt, show args.modelName = name from hne])
      | rollback m =>
        obtain rfl : m = name := hne
        exact ih.rollback env
    · refine ih.keep (of_call_ne c hne) ?_
      obtain ⟨request, env⟩ := c
      cases request with
      | deploy args => exact if_neg hne
      | rollback m => rfl

/-! ## Going back to the previous version -/

/-- The row of `id` is active. -/
def ActiveIn (t : Deployments) (id : Nat) : Prop := ∃ r ∈ t.rows, r.id = id ∧ r.isActive = true

/-- Rolling back while `d` is active returns to the newest deployment before `d`;
when `d` is the oldest it returns `None` and `d` stays. -/
def RollbackRight (settings : Settings) (t : Deployments) (name : String) : Prop :=
  ∀ env, ∀ d ∈ t.of name, d.isActive = true →
    ((∃ r ∈ t.of name, r.deployedAt < d.deployedAt) →
      ∃ prev, (call settings t (.rollback name, env)).2 = some (some prev) ∧
        (prev ∈ t.of name ∧ prev.deployedAt < d.deployedAt ∧
          ∀ r ∈ t.of name, r.deployedAt < d.deployedAt → r.deployedAt ≤ prev.deployedAt) ∧
        ActiveIn (call settings t (.rollback name, env)).1 prev.id ∧
        ¬ ActiveIn (call settings t (.rollback name, env)).1 d.id) ∧
    ((∀ r ∈ t.of name, d.deployedAt ≤ r.deployedAt) →
      (call settings t (.rollback name, env)).2 = some none ∧
        ActiveIn (call settings t (.rollback name, env)).1 d.id)

/-- `rollback` does what it says exactly as long as the model was never deployed. -/
theorem rollback_right_iff (settings : Settings) (calls : List (Request × (Nat → Env))) (name : String)
    (h : Increasing name calls) :
    RollbackRight settings (tableAfter settings calls) name ↔ ¬ Deployed name calls := by
  cases standing_tableAfter settings h with
  | never he hd =>
    refine ⟨fun _ => hd, fun _ env d hd' => ?_⟩
    simp [he] at hd'
  | current d hcur _ hd =>
    refine ⟨fun hright => ?_, fun hn => absurd hd hn⟩
    -- `rollback` finds `d` itself
    have hright := hright (fun _ => ⟨0, .forward _⟩) d hcur.mem hcur.active
    rw [rollback_current hcur] at hright
    obtain ⟨hback, holdest⟩ := hright
    by_cases hex : ∃ r ∈ (tableAfter settings calls).of name, r.deployedAt < d.deployedAt
    · obtain ⟨prev, hprev, ⟨-, hlt, -⟩, -⟩ := hback hex
      obtain rfl := Option.some.inj (Option.some.inj hprev)
      exact absurd hlt (lt_irrefl _)
    · obtain ⟨hnone, -⟩ := holdest fun r hr => not_lt.1 fun hlt => hex ⟨r, hr, hlt⟩
      cases hnone

/-- Version 1.0 at time 1, version 2.0 at time 2. -/
def twoVersions : List (Request × (Nat → Env)) := [
  (.deploy { modelName := "shopformer", modelVersion := "1.0", path := "v1.pth" }, fun _ => ⟨1, .forward _⟩),
  (.deploy { modelName := "shopformer", modelVersion := "2.0", path := "v2.pth" }, fun _ => ⟨2, .forward _⟩)]

theorem rollback_right_seen :
    RollbackRight .default (tableAfter .default twoVersions) "pose" ∧
      ¬ RollbackRight .default (tableAfter .default (twoVersions.take 1)) "shopformer" := by
  constructor
  · refine (rollback_right_iff .default twoVersions "pose" (by unfold Increasing; decide)).2 ?_
    rintro ⟨args, env, hc, hn⟩
    simp only [twoVersions, List.mem_cons, Prod.mk.injEq, Request.deploy.injEq, List.not_mem_nil, or_false] at hc
    obtain ⟨rfl, -⟩ | ⟨rfl, -⟩ := hc <;> exact absurd hn (by decide)
  · refine fun h => (rollback_right_iff .default (twoVersions.take 1) "shopformer"
      (by unfold Increasing; decide)).1 h ?_
    exact ⟨_, _, List.mem_cons_self, rfl⟩

/-- With two versions deployed, rolling back stays at the second. -/
theorem rollback_right_fails : ¬ RollbackRight .default (tableAfter .default twoVersions) "shopformer" := by
  intro h
  let env : Nat → Env := fun _ => ⟨3, .forward _⟩
  let t := tableAfter .default twoVersions
  have hreturned : (call .default t (.rollback "shopformer", env)).2.map (Option.map Deployment.deployedAt) =
      some (some 2) := by decide
  have hsecond : (t.rows.getLast (by decide)).deployedAt = 2 := by decide
  obtain ⟨prev, hprev, ⟨-, hlt, -⟩, -⟩ := (h env (t.rows.getLast (by decide)) (by decide) (by decide)).1
    ⟨t.rows.head (by decide), by decide, by decide⟩
  rw [hprev] at hreturned
  have htwo : prev.deployedAt = 2 := Option.some.inj (Option.some.inj hreturned)
  rw [htwo, hsecond] at hlt
  exact absurd hlt (lt_irrefl _)

end ModelRegistry

end Netra
