import Netra.Types
import Mathlib.Tactic.Linarith
import Mathlib.Tactic.NormNum
/-!
# Alert priority

`compute_score` and `score_incident` (`backend/services/alerting/priority.py`).
The bonus of a stage is looked up by the stage's name, and the table has no
`HIGH_RISK_EXIT`, so the last stage counts for less than the one before it:
`priority_monotone_iff`.
-/
namespace Netra.Alerting

open PyLib

/-- The members of `AlertPriority`. -/
inductive AlertPriority where
  | low | medium | high | critical
  deriving DecidableEq, Repr

/-- The number of the `IntEnum`. -/
def AlertPriority.value : AlertPriority → Nat
  | .low => 1
  | .medium => 2
  | .high => 3
  | .critical => 4

instance : LE AlertPriority := ⟨fun p q => p.value ≤ q.value⟩

/-- `_SEVERITY_WEIGHTS` -/
def severityWeights : List (String × ℚ) := [("CRITICAL", 2.5), ("HIGH", 1.5), ("MEDIUM", 1.0), ("LOW", 0.5)]

/-- `_STAGE_BONUSES` -/
def stageBonuses : List (String × ℚ) := [("EXIT_AFTER_CONCEALMENT", 0.30), ("CONCEALMENT", 0.20), ("VISUAL_PICK", 0.10)]

/-- `_DECAY_PER_MINUTE` -/
def decayPerMinute : ℚ := 0.01

/-- `_MAX_DECAY` -/
def maxDecay : ℚ := 0.30

def severityWeight (s : AlertSeverity) : ℚ := (severityWeights.lookup (StrEnum.value s)).getD 1

def stageBonus (stage : TheftStage) : ℚ := (stageBonuses.lookup (StrEnum.value stage)).getD 0

/-- What the age takes off the score. -/
def decay (now timestamp : ℚ) : ℚ :=
  let ageMinutes := max 0 ((now - timestamp) / 60)
  min (decayPerMinute * ageMinutes) maxDecay

/-- `compute_score` at the time `now` -/
def computeScore (now : ℚ) (incident : IncidentEvent) : ℚ :=
  let raw := severityWeight incident.severity * incident.riskScore + stageBonus incident.theftStage
    - decay now incident.timestamp
  max 0 (min 3 raw)

/-- `score_incident` at the time `now` -/
def scoreIncident (now : ℚ) (incident : IncidentEvent) : AlertPriority :=
  let s := computeScore now incident
  if 2.5 ≤ s then .critical
  else if 1.5 ≤ s then .high
  else if 0.8 ≤ s then .medium
  else .low

/-! ## What should count -/

def severityRank : AlertSeverity → Nat
  | .low => 0
  | .medium => 1
  | .high => 2
  | .critical => 3

def stageRank : TheftStage → Nat
  | .browsing => 0
  | .nearShelf => 1
  | .shelfInteraction => 2
  | .itemPicked => 3
  | .concealment => 4
  | .highRiskExit => 5

/-- `x` is at least as urgent as `y` in everything the score looks at. -/
structure Outranks (x y : IncidentEvent) : Prop where
  severity : severityRank y.severity ≤ severityRank x.severity
  positive : 0 ≤ x.riskScore
  risk : y.riskScore ≤ x.riskScore
  stage : stageRank y.theftStage ≤ stageRank x.theftStage
  newer : y.timestamp ≤ x.timestamp

/-- `x` scores at least as high as `y`, in the range. -/
structure PriorityMonotone (now : ℚ) (x y : IncidentEvent) : Prop where
  score : computeScore now y ≤ computeScore now x
  priority : scoreIncident now y ≤ scoreIncident now x
  range : ∀ i ∈ [x, y], 0 ≤ computeScore now i ∧ computeScore now i ≤ 3

/-- The score without the stage, before it is clamped. -/
def standing (now : ℚ) (i : IncidentEvent) : ℚ := severityWeight i.severity * i.riskScore - decay now i.timestamp

/-- `x` is at the exit and `y` at the concealment before it, and `x` is not ahead of
`y` by the bonus of that stage. -/
structure BehindAtExit (now : ℚ) (x y : IncidentEvent) : Prop where
  exit : x.theftStage = .highRiskExit
  concealment : y.theftStage = .concealment
  behind : standing now x < standing now y + 0.20
  /-- Neither is clamped to the same end. -/
  notTop : standing now x < 3
  notBottom : 0 < standing now y + 0.20

/-! ## Tables -/

theorem severityWeight_mono {s t : AlertSeverity} (h : severityRank s ≤ severityRank t) :
    severityWeight s ≤ severityWeight t := by
  revert h
  cases s <;> cases t <;> decide +kernel

theorem severityWeight_nonneg (s : AlertSeverity) : 0 ≤ severityWeight s := by
  cases s <;> decide +kernel

/-- Only `CONCEALMENT` is in the table under the name of a stage. -/
theorem stageBonus_eq (stage : TheftStage) : stageBonus stage = if stage = .concealment then 0.20 else 0 := by
  cases stage <;> decide +kernel

theorem decay_anti (now : ℚ) {t t' : ℚ} (h : t' ≤ t) : decay now t ≤ decay now t' := by
  unfold decay
  have hage : (now - t) / 60 ≤ (now - t') / 60 := by linarith
  have hpos : (0 : ℚ) ≤ decayPerMinute := by decide +kernel
  exact min_le_min_right _ (mul_le_mul_of_nonneg_left (max_le_max_left 0 hage) hpos)

/-! ## Scores -/

section
variable {now : ℚ} {x y : IncidentEvent}

theorem computeScore_eq (now : ℚ) (i : IncidentEvent) :
    computeScore now i = max 0 (min 3 (standing now i + stageBonus i.theftStage)) := by
  have hraw : standing now i + stageBonus i.theftStage =
      severityWeight i.severity * i.riskScore + stageBonus i.theftStage - decay now i.timestamp := by
    rw [standing, add_sub_right_comm]
  rw [hraw]
  rfl

theorem computeScore_mem (now : ℚ) (i : IncidentEvent) : 0 ≤ computeScore now i ∧ computeScore now i ≤ 3 :=
  ⟨le_max_left _ _, max_le (by norm_num) (min_le_left _ _)⟩

/-- Clamping keeps the order up to what falls on the same end. -/
theorem clamp_le_iff (a b : ℚ) : max 0 (min 3 a) ≤ max 0 (min 3 b) ↔ a ≤ b ∨ a ≤ 0 ∨ 3 ≤ b := by
  have hno : ¬ (3 : ℚ) ≤ 0 := by norm_num
  rw [max_le_iff, and_iff_right (le_max_left _ _), le_max_iff, min_le_iff, or_iff_right hno, le_min_iff,
    and_iff_right (min_le_left 3 a), min_le_iff]
  tauto

theorem scoreIncident_mono (h : computeScore now y ≤ computeScore now x) :
    scoreIncident now y ≤ scoreIncident now x := by
  have hband (c : ℚ) : c ≤ computeScore now y → c ≤ computeScore now x := fun hc => hc.trans h
  change (scoreIncident now y).value ≤ (scoreIncident now x).value
  unfold scoreIncident
  dsimp only
  split_ifs with h1 h2 h3 h4 h5 h6 h7 h8 h9 h10 <;> first
    | decide
    | exact absurd (hband _ ‹_›) ‹_›

theorem standing_mono (h : Outranks x y) : standing now y ≤ standing now x := by
  have hweight : severityWeight y.severity * y.riskScore ≤ severityWeight x.severity * x.riskScore :=
    calc severityWeight y.severity * y.riskScore
      _ ≤ severityWeight y.severity * x.riskScore := mul_le_mul_of_nonneg_left h.risk (severityWeight_nonneg _)
      _ ≤ severityWeight x.severity * x.riskScore :=
        mul_le_mul_of_nonneg_right (severityWeight_mono h.severity) h.positive
  exact sub_le_sub hweight (decay_anti now h.newer)

/-- The bonus grows with the stage but for the step from concealment to exit. -/
theorem stageBonus_mono {s t : TheftStage} (h : stageRank s ≤ stageRank t)
    (hno : ¬ (t = .highRiskExit ∧ s = .concealment)) : stageBonus s ≤ stageBonus t := by
  revert h hno
  cases s <;> cases t <;> decide +kernel

theorem score_mono_iff (h : Outranks x y) :
    computeScore now y ≤ computeScore now x ↔ ¬ BehindAtExit now x y := by
  have hstanding : standing now y ≤ standing now x := standing_mono h
  rw [computeScore_eq, computeScore_eq, clamp_le_iff]
  by_cases hstages : x.theftStage = .highRiskExit ∧ y.theftStage = .concealment
  · obtain ⟨hx, hy⟩ := hstages
    rw [hx, hy, stageBonus_eq, stageBonus_eq, if_pos rfl, if_neg TheftStage.noConfusion, add_zero]
    constructor
    · rintro (hle | hle | hle) ⟨-, -, hbehind, htop, hbottom⟩
      · exact absurd hle (not_le.2 hbehind)
      · exact absurd hle (not_le.2 hbottom)
      · exact absurd hle (not_le.2 htop)
    · intro hno
      by_contra hcon
      obtain ⟨hle, hcon⟩ := not_or.1 hcon
      obtain ⟨hbottom, htop⟩ := not_or.1 hcon
      exact hno ⟨hx, hy, not_le.1 hle, not_le.1 htop, not_le.1 hbottom⟩
  · have hbonus := stageBonus_mono h.stage hstages
    exact iff_of_true (.inl (add_le_add hstanding hbonus)) fun hbehind => hstages ⟨hbehind.exit, hbehind.concealment⟩

end

/-- A more urgent incident has the higher priority unless it is at the exit and is
not ahead of one at the concealment by the bonus of that stage. -/
theorem priority_monotone_iff (now : ℚ) (x y : IncidentEvent) (h : Outranks x y) :
    PriorityMonotone now x y ↔ ¬ BehindAtExit now x y := by
  rw [← score_mono_iff h]
  constructor
  · exact fun hmono => hmono.score
  · exact fun hscore => ⟨hscore, scoreIncident_mono hscore, fun i _ => computeScore_mem now i⟩

/-- An incident of risk 0.7, raised at 1000. -/
def raisedAt (stage : TheftStage) : IncidentEvent :=
  { incidentId := "incident-1", cameraId := "cam-01", trackId := 1, riskScore := 0.7, fsmScore := 12
    shopformerScore := 0.6, theftStage := stage, concealmentType := .handToPocket, severity := .medium
    timestamp := 1000 }

theorem priority_monotone_concealment : PriorityMonotone 1060 (raisedAt .concealment) (raisedAt .itemPicked) :=
  (priority_monotone_iff 1060 (raisedAt .concealment) (raisedAt .itemPicked)
    ⟨le_rfl, by decide +kernel, le_rfl, by decide, le_rfl⟩).2 fun hbehind => TheftStage.noConfusion hbehind.exit

/-- At the same risk, severity and age, the exit scores 0.7 and the concealment 0.9. -/
theorem priority_monotone_fails :
    ¬ ∀ (now : ℚ) (x y : IncidentEvent), Outranks x y → PriorityMonotone now x y := by
  intro hall
  have hmono := hall 1000 (raisedAt .highRiskExit) (raisedAt .concealment)
    ⟨le_rfl, by decide +kernel, le_rfl, by decide, le_rfl⟩
  exact absurd hmono.score (by decide +kernel)

end Netra.Alerting
