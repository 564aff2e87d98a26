import Netra.Lib.Calls
import Netra.Lib.Table
import Netra.Settings
/-!
# The model registry (`backend/services/data/model_registry.py`)

`deploy` and `rollback` are calls of two and three statements on
`model_deployments`, with no transaction around them. `rollback` looks for the
newest inactive deployment after it has deactivated the current one, so what it
finds is the current one: `rollback_current`.
-/
namespace Netra

open Table Calls

namespace ModelRegistry

/-- A row of `model_deployments`. -/
structure Deployment where
  id : Nat
  modelName : String
  modelVersion : String
  logicVersion : String
  path : String
  isActive : Bool
  notes : Option String
  deployedAt : ℚ
  deriving DecidableEq, Repr

/-- The table `model_deployments`; `nextId` is the sequence behind `id BIGSERIAL`. -/
structure Deployments where
  rows : List Deployment
  nextId : Nat
  id_lt : ∀ r ∈ rows, r.id < nextId
  ids_nodup : (rows.map Deployment.id).Nodup

namespace Deployments

def empty : Deployments := ⟨[], 1, by simp, List.nodup_nil⟩

/-- The rows of a model. -/
def of (t : Deployments) (name : String) : List Deployment := t.rows.filter fun r => r.modelName = name

/-- The rows `active` selects from. -/
def activeOf (t : Deployments) (name : String) : List Deployment :=
  t.rows.filter fun r => r.modelName = name && r.isActive

/-- `UPDATE model_deployments SET f WHERE p`, for an `f` that does not set `id`. -/
def update (p : Deployment → Bool) (f : Deployment → Deployment) (hid : ∀ r, (f r).id = r.id) (t : Deployments) :
    Deployments :=
  { t with
    rows := updateWhere p f t.rows
    id_lt := fun r hr => by
      obtain ⟨r', hr', rfl⟩ := mem_updateWhere.1 hr
      have := t.id_lt r' hr'
      split
      · rwa [hid]
      · exact this
    ids_nodup := by
      rw [map_updateWhere hid]
      exact t.ids_nodup }

/-- `INSERT INTO model_deployments ...`: the row takes the next id. -/
def insert (x : Nat → Deployment) (hx : ∀ n, (x n).id = n) (t : Deployments) : Deployments where
  rows := t.rows ++ [x t.nextId]
  nextId := t.nextId + 1
  id_lt := fun r hr => by
    rcases List.mem_append.1 hr with hr | hr
    · exact Nat.lt_succ_of_lt (t.id_lt r hr)
    · obtain rfl := List.mem_singleton.1 hr
      rw [hx]
      exact Nat.lt_succ_self _
  ids_nodup := by
    rw [List.map_append, List.map_singleton, hx]
    refine List.nodup_append.2 ⟨t.ids_nodup, List.nodup_singleton _, ?_⟩
    rintro a ha b hb rfl
    obtain ⟨r, hr, hid⟩ := List.mem_map.1 ha
    exact absurd (t.id_lt r hr) (by rw [hid, List.mem_singleton.1 hb]; exact lt_irrefl _)

/-- `UPDATE ... SET is_active = FALSE WHERE model_name = $1 AND is_active = TRUE` -/
def deactivate (name : String) (t : Deployments) : Deployments :=
  t.update (fun r => r.modelName = name && r.isActive) ({ · with isActive := false }) fun _ => rfl

/-- `UPDATE ... SET is_active = TRUE WHERE id = $1` -/
def activate (id : Nat) (t : Deployments) : Deployments :=
  t.update (fun r => r.id = id) ({ · with isActive := true }) fun _ => rfl

/-- `SELECT * ... WHERE model_name = $1 AND is_active = FALSE ORDER BY deployed_at DESC LIMIT 1` -/
def latestInactive (scan : Scan Deployment) (name : String) (t : Deployments) : Option Deployment :=
  (select scan (fun r => r.modelName = name && !r.isActive) Deployment.deployedAt t.rows).head?

end Deployments

/-- The arguments of `deploy`. -/
structure DeployArgs where
  modelName : String
  modelVersion : String
  path : String
  logicVersion : Option String := none
  notes : Option String := none
  deriving DecidableEq, Repr

inductive Request where
  | deploy (args : DeployArgs)
  | rollback (modelName : String)
  deriving DecidableEq, Repr

def Request.modelName : Request → String
  | .deploy args => args.modelName
  | .rollback name => name

inductive Stmt where
  | deactivate (modelName : String)
  | insert (args : DeployArgs) (logicVersion : String)
  | latestInactive (modelName : String)
  | activate (id : Nat)
  deriving DecidableEq, Repr

/-- `NOW()`, and the order in which a query meets the rows. -/
structure Env where
  now : ℚ
  scan : Scan Deployment

/-- `VALUES ($1, $2, $3, $4, $5, TRUE, NOW())` -/
def newRow (args : DeployArgs) (logicVersion : String) (now : ℚ) (id : Nat) : Deployment where
  id := id
  modelName := args.modelName
  modelVersion := args.modelVersion
  logicVersion := logicVersion
  path := args.path
  isActive := true
  notes := args.notes
  deployedAt := now

theorem newRow_id (args : DeployArgs) (logicVersion : String) (now : ℚ) (id : Nat) :
    (newRow args logicVersion now id).id = id := rfl

/-- What a statement does to the table, and the rows it hands back. -/
def perform (e : Env) : Stmt → Deployments → Option (Deployments × List Deployment)
  | .deactivate name, t => some (t.deactivate name, [])
  | .insert args lv, t =>
    some (t.insert (newRow args lv e.now) (newRow_id args lv e.now), [newRow args lv e.now t.nextId])
  | .latestInactive name, t => some (t, (t.latestInactive e.scan name).toList)
  | .activate id, t => some (t.activate id, [])

variable (settings : Settings)

/-- `logic_version or settings.logic_version` -/
def logicVersionOf (args : DeployArgs) : String :=
  match args.logicVersion with
  | none => settings.logicVersion
  | some lv => if lv = "" then settings.logicVersion else lv

def deploy (args : DeployArgs) : Prog Stmt (List Deployment) (Option Deployment) :=
  .stmt (.deactivate args.modelName) fun _ =>
    .stmt (.insert args (logicVersionOf settings args)) fun rows => .ret rows.head?

def rollback (name : String) : Prog Stmt (List Deployment) (Option Deployment) :=
  .stmt (.deactivate name) fun _ =>
    .stmt (.latestInactive name) fun rows =>
      match rows.head? with
      | none => .ret none
      | some prev => .stmt (.activate prev.id) fun _ => .ret (some prev)

def prog : Request → Prog Stmt (List Deployment) (Option Deployment)
  | .deploy args => deploy settings args
  | .rollback name => rollback name

/-! ## What the statements write -/

namespace Deployments

variable {t : Deployments} {name m : String} {r : Deployment}

theorem mem_of : r ∈ t.of name ↔ r ∈ t.rows ∧ r.modelName = name := by simp [of]

theorem mem_activeOf : r ∈ t.activeOf name ↔ r ∈ t.rows ∧ r.modelName = name ∧ r.isActive = true := by
  simp [activeOf]

/-- Rows with one id are one row. -/
theorem eq_of_id {r' : Deployment} (hr : r ∈ t.rows) (hr' : r' ∈ t.rows) (h : r.id = r'.id) : r = r' :=
  List.inj_on_of_nodup_map t.ids_nodup hr hr' h

theorem rows_deactivate (name : String) (t : Deployments) :
    (t.deactivate name).rows = t.rows.map fun r => if r.modelName = name then { r with isActive := false } else r := by
  refine List.map_congr_left fun r _ => ?_
  by_cases hn : r.modelName = name
  · subst hn
    cases ha : r.isActive
    · simp only [ha, Bool.and_false, Bool.false_eq_true, if_false, if_true]
      rw [← ha]
    · simp [ha]
  · simp [hn]

theorem rows_activate (id : Nat) (t : Deployments) :
    (t.activate id).rows = t.rows.map fun r => if r.id = id then { r with isActive := true } else r :=
  List.map_congr_left fun r _ => by simp

theorem rows_insert (x : Nat → Deployment) (hx : ∀ n, (x n).id = n) (t : Deployments) :
    (t.insert x hx).rows = t.rows ++ [x t.nextId] := rfl

theorem latestInactive_eq_none_iff {scan : Scan Deployment} :
    t.latestInactive scan name = none ↔ ∀ r ∈ t.of name, r.isActive = true := by
  rw [latestInactive, head?_select_eq_none_iff]
  simp [mem_of]

/-- What `rollback` finds: the newest of the inactive rows. -/
theorem latestInactive_spec {scan : Scan Deployment} (h : t.latestInactive scan name = some r) :
    (r ∈ t.of name ∧ r.isActive = false) ∧
      ∀ r' ∈ t.of name, r'.isActive = false → r'.deployedAt ≤ r.deployedAt := by
  obtain ⟨⟨hr, hp⟩, hmax⟩ := head?_select h
  simp only [Bool.and_eq_true, decide_eq_true_eq, Bool.not_eq_true'] at hp hmax
  exact ⟨⟨mem_of.2 ⟨hr, hp.1⟩, hp.2⟩, fun r' hr' ha => hmax r' (mem_of.1 hr').1 ⟨(mem_of.1 hr').2, ha⟩⟩

/-! ### Per model -/

theorem mem_of_deactivate {r : Deployment} :
    r ∈ (t.deactivate name).of name ↔ ∃ r' ∈ t.of name, { r' with isActive := false } = r := by
  rw [mem_of, rows_deactivate, List.mem_map]
  constructor
  · rintro ⟨⟨r', hr', rfl⟩, hn⟩
    have hn' : r'.modelName = name := by
      split at hn <;> exact hn
    exact ⟨r', mem_of.2 ⟨hr', hn'⟩, by rw [if_pos hn']⟩
  · rintro ⟨r', hr', rfl⟩
    obtain ⟨hr', hn⟩ := mem_of.1 hr'
    exact ⟨⟨r', hr', by rw [if_pos hn]⟩, hn⟩

theorem of_deactivate_ne (h : m ≠ name) : (t.deactivate m).of name = t.of name := by
  refine filter_updateWhere fun r _ hp => ?_
  have hm : r.modelName = m := by simp_all
  simp [hm, h]

theorem of_activate_ne {id : Nat} (hm : ∀ r ∈ t.rows, r.id = id → r.modelName = m) (h : m ≠ name) :
    (t.activate id).of name = t.of name := by
  refine filter_updateWhere fun r hr hp => ?_
  have hm : r.modelName = m := hm r hr (of_decide_eq_true hp)
  simp [hm, h]

theorem of_insert (x : Nat → Deployment) (hx : ∀ n, (x n).id = n) (t : Deployments) (name : String) :
    (t.insert x hx).of name = t.of name ++ if (x t.nextId).modelName = name then [x t.nextId] else [] := by
  rw [of, rows_insert, List.filter_append, ← of]
  congr 1
  by_cases h : (x t.nextId).modelName = name <;> simp [h]

@[simp] theorem activeOf_deactivate_self : (t.deactivate name).activeOf name = [] := by
  rw [List.eq_nil_iff_forall_not_mem]
  intro r hr
  obtain ⟨hr, hn, ha⟩ := mem_activeOf.1 hr
  obtain ⟨r', -, rfl⟩ := mem_of_deactivate.1 (mem_of.2 ⟨hr, hn⟩)
  cases ha

theorem activeOf_deactivate_ne (h : m ≠ name) : (t.deactivate m).activeOf name = t.activeOf name := by
  refine filter_updateWhere fun r _ hp => ?_
  have hm : r.modelName = m := by simp_all
  simp [hm, h]

theorem activeOf_activate_ne {id : Nat} (hm : ∀ r ∈ t.rows, r.id = id → r.modelName = m) (h : m ≠ name) :
    (t.activate id).activeOf name = t.activeOf name := by
  refine filter_updateWhere fun r hr hp => ?_
  have hm : r.modelName = m := hm r hr (of_decide_eq_true hp)
  simp [hm, h]

theorem activeOf_insert (x : Nat → Deployment) (hx : ∀ n, (x n).id = n) (t : Deployments) (name : String)
    (ha : (x t.nextId).isActive = true) :
    (t.insert x hx).activeOf name =
      t.activeOf name ++ if (x t.nextId).modelName = name then [x t.nextId] else [] := by
  rw [activeOf, rows_insert, List.filter_append, ← activeOf]
  congr 1
  by_cases h : (x t.nextId).modelName = name <;> simp [h, ha]

/-- Deactivating leaves a model's rows in the table. -/
theorem of_deactivate_eq_nil_iff : (t.deactivate m).of name = [] ↔ t.of name = [] := by
  by_cases h : m = name
  · subst h
    constructor
    · intro he
      rw [List.eq_nil_iff_forall_not_mem] at he ⊢
      exact fun r hr => he _ (mem_of_deactivate.2 ⟨r, hr, rfl⟩)
    · intro he
      rw [List.eq_nil_iff_forall_not_mem]
      intro r hr
      obtain ⟨r', hr', -⟩ := mem_of_deactivate.1 hr
      simp [he] at hr'
  · rw [of_deactivate_ne h]

theorem activeOf_nodup (t : Deployments) (name : String) : (t.activeOf name).Nodup :=
  (List.Nodup.of_map _ t.ids_nodup).filter _

end Deployments

end ModelRegistry

end Netra
