import Netra.Risk.Engine
/-!
# Runs of the risk engine

What the risk service does to the engine of a camera: scores, behaviour events
and pruning, in any order. `step_cases` says what one of them does to the
state of one track; the theorems about runs are case analyses over it.
-/
namespace Netra.Risk

open PyLib

inductive RiskOp where
  | shopformer (score : ShopFormerScore)
  | behavior (c : BehaviorCall)
  | prune (now : ℚ)

/-- Default `max_age_sec` of `prune_stale`. -/
def pruneMaxAgeSec : ℚ := 60

section
variable (h : Host) (w : Settings)

def step (e : RiskEngine) : RiskOp → RiskEngine × Option IncidentEvent
  | .shopformer score => (e.updateShopformer score, none)
  | .behavior c => e.updateBehavior h w c
  | .prune now => (e.pruneStale now pruneMaxAgeSec, none)

/-- The engine of camera `cam` after `ops`. -/
def engineAfter (cam : String) (ops : List RiskOp) : RiskEngine := Mealy.after (step h w) (.init cam) ops

/-- The incidents of the run, in order. -/
def incidents (cam : String) (ops : List RiskOp) : List IncidentEvent :=
  (Mealy.outs (step h w) (.init cam) ops).filterMap id

/-- The state `update_behavior` works on. -/
def stateFor (e : RiskEngine) (c : BehaviorCall) : TrackRiskState := counted (e.states.get? c.bev.trackId) c

/-- The event is above the threshold and outside the cool-down the engine knows of. -/
def Raises (e : RiskEngine) (c : BehaviorCall) : Prop :=
  w.riskAlertThreshold ≤ riskScore h w (stateFor e c) c.bev ∧
    incidentCooldownSec ≤ c.bev.timestamp - (stateFor e c).lastIncidentTs

end

section
variable {h : Host} {w : Settings}

/-- `update_behavior` raises the incident exactly when `Raises` says so. -/
theorem updateBehavior_out (e : RiskEngine) (c : BehaviorCall) (i : IncidentEvent) :
    (e.updateBehavior h w c).2 = some i ↔ Raises h w e c ∧ i = incidentOf h w (stateFor e c) c := by
  simp only [RiskEngine.updateBehavior, Mealy.keyed, behaviorTurn, Raises, stateFor]
  generalize counted (e.states.get? c.bev.trackId) c = st
  split
  · rename_i hlt
    simp [hlt]
  · rename_i hle
    split
    · rename_i hlt
      simp [hlt]
    · rename_i hge
      rw [and_iff_right ⟨not_lt.1 hle, not_lt.1 hge⟩, Option.some.injEq]
      exact eq_comm

/-- What an operation does to the state of track `k`. -/
inductive TrackStep (h : Host) (w : Settings) (e : RiskEngine) (k : Int) : RiskOp → Option TrackRiskState → Prop
  /-- Another track's event, or nothing to do for this one. -/
  | other {op} : (∀ c, op = .behavior c → c.bev.trackId ≠ k) → TrackStep h w e k op (e.states.get? k)
  | score {s : ShopFormerScore} {st : TrackRiskState} : s.trackId = k → st = (e.states.get? k).getD {} →
      TrackStep h w e k (.shopformer s)
        (some { st with lastShopformerScore := s.anomalyScore, lastShopformerTs := s.timestamp })
  | quiet {c : BehaviorCall} {st : TrackRiskState} : c.bev.trackId = k → st = stateFor e c → ¬ Raises h w e c →
      TrackStep h w e k (.behavior c) (some { st with lastRiskScore := riskScore h w st c.bev })
  | raised {c : BehaviorCall} {st : TrackRiskState} : c.bev.trackId = k → st = stateFor e c → Raises h w e c →
      TrackStep h w e k (.behavior c)
        (some { st with lastRiskScore := riskScore h w st c.bev, lastIncidentTs := c.bev.timestamp })
  | dropped {now : ℚ} {st : TrackRiskState} : e.states.get? k = some st →
      RiskEngine.isStale now pruneMaxAgeSec st = true → TrackStep h w e k (.prune now) none

theorem step_cases (e : RiskEngine) (op : RiskOp) (k : Int) :
    TrackStep h w e k op ((step h w e op).1.states.get? k) := by
  cases op with
  | shopformer s =>
    simp only [step, RiskEngine.updateShopformer, Dict.get?_set]
    split
    · rename_i hk
      subst hk
      exact .score rfl rfl
    · refine .other fun c hc => ?_
      cases hc
  | behavior c =>
    simp only [step, RiskEngine.updateBehavior, Mealy.get?_keyed]
    split
    · rename_i hk
      subst hk
      simp only [Mealy.single, behaviorTurn]
      split
      · rename_i hlt
        exact .quiet rfl rfl fun hr => absurd hlt (not_lt.2 hr.1)
      · rename_i hle
        split
        · rename_i hlt
          exact .quiet rfl rfl fun hr => absurd hlt (not_lt.2 hr.2)
        · rename_i hge
          exact .raised rfl rfl ⟨not_lt.1 hle, not_lt.1 hge⟩
    · rename_i hk
      refine .other fun c' hc' => ?_
      cases hc'
      exact hk
  | prune now =>
    simp only [step, RiskEngine.pruneStale, Dict.get?_filter]
    have hother : TrackStep h w e k (.prune now) (e.states.get? k) := by
      refine .other fun c hc => ?_
      cases hc
    cases hst : e.states.get? k with
    | none => rwa [hst] at hother
    | some st =>
      rw [hst] at hother
      by_cases hs : RiskEngine.isStale now pruneMaxAgeSec st
      · rw [Option.filter_some, if_neg (by simp [hs])]
        exact .dropped hst hs
      · rw [Option.filter_some, if_pos (by simp [hs])]
        exact hother

/-! ## Incidents of a run -/

variable {cam : String}

theorem incidents_concat (ops : List RiskOp) (op : RiskOp) :
    incidents h w cam (ops ++ [op]) =
      incidents h w cam ops ++ (step h w (engineAfter h w cam ops) op).2.toList := by
  simp only [incidents, Mealy.outs_append, engineAfter, List.filterMap_append, Mealy.outs_cons, Mealy.outs_nil]
  cases (step h w (Mealy.after (step h w) (.init cam) ops) op).2 <;> simp

theorem engineAfter_concat (ops : List RiskOp) (op : RiskOp) :
    engineAfter h w cam (ops ++ [op]) = (step h w (engineAfter h w cam ops) op).1 :=
  Mealy.after_concat _ _ _ _

/-- Only a behaviour event that raises gives an incident. -/
theorem step_out (e : RiskEngine) (op : RiskOp) (i : IncidentEvent) :
    (step h w e op).2 = some i ↔ ∃ c, op = .behavior c ∧ Raises h w e c ∧ i = incidentOf h w (stateFor e c) c := by
  cases op with
  | shopformer s => simp [step]
  | prune now => simp [step]
  | behavior c => simp [step, updateBehavior_out]

/-- Every incident was raised by an event of the run. -/
theorem mem_incidents {ops : List RiskOp} {i : IncidentEvent} :
    i ∈ incidents h w cam ops ↔ ∃ pre c post, ops = pre ++ .behavior c :: post ∧
      Raises h w (engineAfter h w cam pre) c ∧ i = incidentOf h w (stateFor (engineAfter h w cam pre) c) c := by
  rw [incidents, List.mem_filterMap]
  simp only [id, exists_eq_right, Mealy.mem_outs]
  constructor
  · rintro ⟨pre, op, post, rfl, ho⟩
    obtain ⟨c, rfl, hr, hi⟩ := (step_out _ _ _).1 ho.symm
    exact ⟨pre, c, post, rfl, hr, hi⟩
  · rintro ⟨pre, c, post, rfl, hr, hi⟩
    exact ⟨pre, .behavior c, post, rfl, ((step_out _ _ _).2 ⟨c, rfl, hr, hi⟩).symm⟩

end

end Netra.Risk
