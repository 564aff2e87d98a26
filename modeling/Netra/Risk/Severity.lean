import Netra.Risk.Runs
import Mathlib.Tactic.Linarith
/-!
# The severity bands of the risk service

`risk/main.py` hands behaviour events to the engine without an interaction
count, so the interaction term stays 0 and the score stays below the `HIGH`
band whatever the FSM, ShopFormer and the clock say.
-/
namespace Netra.Risk

open PyLib

/-- What the service feeds the engine: scores in [0, 1], behaviour events with a
non-negative FSM score and no interaction count, and pruning. -/
def FromService : RiskOp → Prop
  | .shopformer score => 0 ≤ score.anomalyScore ∧ score.anomalyScore ≤ 1
  | .behavior c => 0 ≤ c.bev.fsmScore ∧ c.interactionEventCount = 0
  | .prune _ => True

/-- Some continuation of the service's messages emits an incident of severity `s`. -/
def CanEmit (h : Host) (w : Settings) (e : RiskEngine) (s : AlertSeverity) : Prop :=
  ∃ msgs : List RiskOp, (∀ m ∈ msgs, FromService m) ∧
    ∃ i, some i ∈ Mealy.outs (step h w) e msgs ∧ i.severity = s

/-- No interaction was counted, and the cached score is in range. -/
def StateOk (st : TrackRiskState) : Prop :=
  st.interactionCount = 0 ∧ 0 ≤ st.lastShopformerScore ∧ st.lastShopformerScore ≤ 1

def EngineOk (e : RiskEngine) : Prop := ∀ k st, e.states.get? k = some st → StateOk st

theorem stateOk_fresh : StateOk {} := ⟨rfl, le_refl _, zero_le_one⟩

theorem stateOk_getD {e : RiskEngine} (he : EngineOk e) (k : Int) : StateOk ((e.states.get? k).getD {}) := by
  cases hst : e.states.get? k with
  | none => exact stateOk_fresh
  | some st => exact he k st hst

theorem stateOk_stateFor {e : RiskEngine} (he : EngineOk e) {c : BehaviorCall} (hc : c.interactionEventCount = 0) :
    StateOk (stateFor e c) := by
  obtain ⟨h1, h2⟩ := stateOk_getD he c.bev.trackId
  exact ⟨by simp [stateFor, counted, h1, hc], h2⟩

theorem engineOk_init (cam : String) : EngineOk (.init cam) := by
  intro k st hst
  simp [RiskEngine.init] at hst

theorem engineOk_step {h : Host} {w : Settings} {e : RiskEngine} {op : RiskOp} (he : EngineOk e)
    (hop : FromService op) : EngineOk (step h w e op).1 := by
  intro k st hst
  have hs := step_cases (h := h) (w := w) e op k
  rw [hst] at hs
  generalize ho : some st = o at hs
  cases hs with
  | other _ => exact he k st ho.symm
  | score hk hst' =>
    cases ho
    obtain ⟨h1, -⟩ := hst' ▸ stateOk_getD he k
    exact ⟨h1, hop⟩
  | quiet hk hst' _ | raised hk hst' _ =>
    cases ho
    exact hst' ▸ stateOk_stateFor he hop.2
  | dropped => cases ho

theorem engineOk_after {h : Host} {w : Settings} {e : RiskEngine} (ops : List RiskOp) (he : EngineOk e)
    (hops : ∀ op ∈ ops, FromService op) : EngineOk (Mealy.after (step h w) e ops) := by
  induction ops generalizing e with
  | nil => exact he
  | cons op ops ih =>
    exact ih (engineOk_step he (hops op List.mem_cons_self)) fun o ho => hops o (List.mem_cons_of_mem _ ho)

/-! ## The score stays below the `HIGH` band -/

theorem normaliseFsm_le_one (x m : ℚ) : normaliseFsm x m ≤ 1 := min_le_left _ _

theorem context_le (h : Host) (t : ℚ) : context h t ≤ 0.3 := by
  unfold context
  split <;> norm_num

theorem sfScore_le_one {st : TrackRiskState} (hst : StateOk st) (t : ℚ) : sfScore st t ≤ 1 := by
  unfold sfScore
  split
  · exact hst.2.2
  · norm_num

/-- 0.45 + 0.30 + 0.05 * 0.3 = 0.765 -/
theorem riskScore_lt_high (h : Host) {st : TrackRiskState} (hst : StateOk st) (bev : BehaviorEvent) :
    riskScore h .default st bev < 0.80 := by
  have h1 := normaliseFsm_le_one bev.fsmScore 20
  have h2 := sfScore_le_one hst bev.timestamp
  have h3 := context_le h bev.timestamp
  -- nothing was ever counted
  have h4 : min 1 ((st.interactionCount : ℚ) / 10) = 0 := by rw [hst.1]; norm_num
  simp only [riskScore, Settings.default, h4]
  norm_num at h3 ⊢
  linarith

theorem severity_of_lt {r : ℚ} (hr : r < 0.80) : severity r = .medium ∨ severity r = .low := by
  have h1 : ¬ 0.90 ≤ r := by norm_num at hr ⊢; linarith
  have h2 : ¬ 0.80 ≤ r := not_le.2 hr
  unfold severity
  rw [if_neg h1, if_neg h2]
  split
  · exact .inl rfl
  · exact .inr rfl

theorem emitted_severity {h : Host} {e : RiskEngine} (he : EngineOk e) {s : AlertSeverity}
    (hc : CanEmit h .default e s) : s = .medium ∨ s = .low := by
  obtain ⟨msgs, hmsgs, i, hi, rfl⟩ := hc
  obtain ⟨pre, op, post, rfl, ho⟩ := (Mealy.mem_outs _ _ _ _).1 hi
  obtain ⟨c, rfl, -, rfl⟩ := (step_out _ _ _).1 ho.symm
  have hok : EngineOk (Mealy.after (step h .default) e pre) :=
    engineOk_after pre he fun o ho => hmsgs o (List.mem_append_left _ ho)
  have hsrv : FromService (.behavior c) := hmsgs _ (by simp)
  exact severity_of_lt (riskScore_lt_high h (stateOk_stateFor hok hsrv.2) c.bev)

/-- No state the service can reach has a continuation that emits a `CRITICAL`
incident, or one that emits a `HIGH` one. -/
theorem high_bands_dead (h : Host) (cam : String) (ops : List RiskOp) (hops : ∀ op ∈ ops, FromService op) :
    ¬ CanEmit h .default (engineAfter h .default cam ops) .critical ∧
      ¬ CanEmit h .default (engineAfter h .default cam ops) .high := by
  have he := engineOk_after (h := h) (w := .default) ops (engineOk_init cam) hops
  refine ⟨fun hc => ?_, fun hc => ?_⟩
  · rcases emitted_severity he hc with hs | hs <;> cases hs
  · rcases emitted_severity he hc with hs | hs <;> cases hs

/-- A ShopFormer score of 1 and, a second later, a behaviour event of FSM score 20. -/
def worstCase : List RiskOp := [
  .shopformer { cameraId := "cam-01", trackId := 1, anomalyScore := 1, reconstructionError := 2, embedding := [],
                poseSequenceLen := 24, timestamp := 1000 },
  .behavior { bev := { cameraId := "cam-01", trackId := 1, fsmState := .highRiskExit, fsmScore := 20,
                       timestamp := 1001 }
              uuid := "incident-1" }]

theorem worstCase_fromService : ∀ op ∈ worstCase, FromService op := by
  simp [worstCase, FromService]

/-- After the worst messages the service can send, neither band is in reach. -/
theorem high_bands_dead_worstCase :
    ¬ CanEmit .reference .default (engineAfter .reference .default "cam-01" worstCase) .critical ∧
      ¬ CanEmit .reference .default (engineAfter .reference .default "cam-01" worstCase) .high :=
  high_bands_dead .reference "cam-01" worstCase worstCase_fromService

/-- Not every reachable state can go on to emit a `CRITICAL` and a `HIGH`
incident: the fresh engine cannot. -/
theorem can_emit_high_bands_fails :
    ¬ ∀ (h : Host) (cam : String) (ops : List RiskOp), (∀ op ∈ ops, FromService op) →
      CanEmit h .default (engineAfter h .default cam ops) .critical ∧
        CanEmit h .default (engineAfter h .default cam ops) .high := by
  intro hall
  obtain ⟨hc, -⟩ := hall .reference "cam-01" [] (by simp)
  rcases emitted_severity (engineOk_init "cam-01") hc with hs | hs <;> cases hs

end Netra.Risk
