import Netra.Lib.Argmax
import Netra.Lib.Dict
import Netra.Lib.Numeric
import Netra.Settings
import Netra.Store.Metrics
import Netra.Wire.Reference
import Mathlib.Tactic.NormNum
import Mathlib.Tactic.Positivity
/-!
# Calibrated thresholds

`AdaptiveThresholdTuner` (`backend/services/eval/threshold_tuner.py`) sweeps
thresholds over the labelled incidents of a camera and stores the first one with
the best F0.5 score. The loop starts from a score that everything beats, so the
default threshold is given up even for one that is no better
(`moves_for_reason_iff`).
-/
namespace Netra

open PyLib Table Store

namespace Eval

/-- A row of `_fetch_labeled`. -/
structure Labeled where
  riskScore : ℚ
  status : String
  deriving DecidableEq, Repr

/-- `_fetch_labeled` at the time `now` -/
def fetchLabeled (scan : Scan Incident) (now : ℚ) (cameraId : String) (days : Int) (db : Database) : List Labeled :=
  let labeled := fun (r : Incident) =>
    decide (r.cameraId = cameraId) && decide (r.status ∈ ["CONFIRMED", "DISMISSED"]) && Metrics.inWindow now days r
  -- `ORDER BY occurred_at`
  (select scan labeled (fun r => -r.occurredAt) db.incidents).map fun r => ⟨r.riskScore, r.status⟩

/-- `_f_beta`, with `_F_BETA` for `beta` -/
def fBeta (tp fp fn : Nat) (beta : ℚ := 0.5) : ℚ :=
  if tp = 0 then 0
  else
    let precision : ℚ := if 0 < tp + fp then tp / (tp + fp) else 0
    let recallRate : ℚ := if 0 < tp + fn then tp / (tp + fn) else 0
    let b2 := beta * beta
    let denom := b2 * precision + recallRate
    if 0 < denom then (1 + b2) * precision * recallRate / denom else 0

/-- The score of the threshold `t` on the rows. -/
def fScore (rows : List Labeled) (t : ℚ) : ℚ :=
  let tp := rows.countP fun r => t ≤ r.riskScore && r.status = "CONFIRMED"
  let fp := rows.countP fun r => t ≤ r.riskScore && r.status = "DISMISSED"
  let fn := rows.countP fun r => r.riskScore < t && r.status = "CONFIRMED"
  fBeta tp fp fn

def thresholdSweepStart : ℚ := 0.40
def thresholdSweepEnd : ℚ := 0.90
def thresholdSweepStep : ℚ := 0.025

/-- The `while` loop at `t`, with the best threshold so far and its score. -/
def sweepLoop (rows : List Labeled) : Nat → ℚ → ℚ × ℚ → ℚ × ℚ
  | 0, _, best => best
  | fuel + 1, t, best =>
    if t ≤ thresholdSweepEnd + 1e-9 then
      let score := fScore rows t
      sweepLoop rows fuel (t + thresholdSweepStep) (if best.2 < score then (roundTo 3 t, score) else best)
    else best

/-- What is stored of a threshold with its score, found on `samples` rows. -/
def calibrationRecord (best : ℚ × ℚ) (samples : Nat) : Json :=
  .obj [("threshold", .float best.1), ("f_score", .float (roundTo 4 best.2)), ("samples", .int samples)]

/-- `_CALIBRATION_KEY_PREFIX + camera_id` -/
def calibrationKey (cameraId : String) : String := "netra:calibration:" ++ cameraId

section
variable (w : Settings) (py : PyText)

/-- `calibrate` on the rows it fetched: what it leaves in Redis, and what it returns. -/
def calibrate (redis : Dict String String) (cameraId : String) (rows : List Labeled) : Dict String String × Option ℚ :=
  if rows.length < w.calibrationMinSamples then (redis, none)
  else
    let best := sweepLoop rows 22 thresholdSweepStart (w.riskAlertThreshold, -1)
    (redis.set (calibrationKey cameraId) (py.dumps (calibrationRecord best rows.length)), some best.1)

end

/-! ## The sweep -/

/-- The `k`-th threshold. -/
def sweepPoint (k : Nat) : ℚ := thresholdSweepStart + thresholdSweepStep * k

/-- 0.400, 0.425, ..., 0.900 -/
def sweepPoints : List ℚ := (List.range 21).map sweepPoint

/-- A threshold is kept as it is. -/
theorem roundTo_sweepPoint {k : Nat} (hk : k < 21) : roundTo 3 (sweepPoint k) = sweepPoint k := by
  revert k
  decide +kernel

theorem sweepPoint_le {k : Nat} : sweepPoint k ≤ thresholdSweepEnd + 1e-9 ↔ k < 21 := by
  rw [sweepPoint, thresholdSweepStart, thresholdSweepStep, thresholdSweepEnd]
  constructor
  · intro hle
    by_contra hk
    have hcast : (21 : ℚ) ≤ k := by exact_mod_cast not_lt.1 hk
    linarith
  · intro hk
    have hcast : (k : ℚ) ≤ 20 := by exact_mod_cast Nat.lt_succ_iff.1 hk
    linarith

theorem sweepPoint_succ (k : Nat) : sweepPoint k + thresholdSweepStep = sweepPoint (k + 1) := by
  rw [sweepPoint, sweepPoint]
  push_cast
  ring

/-- The loop goes over the rest of the points, whatever fuel is left then. -/
theorem sweepLoop_eq (rows : List Labeled) {k m fuel : Nat} (hkm : k + m = 21) (hfuel : m ≤ fuel) (best : ℚ × ℚ) :
    sweepLoop rows fuel (sweepPoint k) best =
      Argmax.keepBest (fScore rows) best ((List.range' k m).map sweepPoint) := by
  induction m generalizing k fuel best with
  | zero =>
    have hend : ¬ sweepPoint k ≤ thresholdSweepEnd + 1e-9 := by
      rw [sweepPoint_le]
      omega
    cases fuel with
    | zero => rfl
    | succ fuel => rw [sweepLoop, if_neg hend]; rfl
  | succ m ih =>
    obtain ⟨fuel, rfl⟩ := Nat.exists_eq_add_of_le' (Nat.lt_of_lt_of_le (Nat.succ_pos m) hfuel)
    have hk : k < 21 := by omega
    rw [sweepLoop, if_pos (sweepPoint_le.2 hk), sweepPoint_succ, roundTo_sweepPoint hk,
      ih (by omega) (by omega), List.range'_succ, List.map_cons, Argmax.keepBest, Argmax.keepBest, List.foldl_cons]

theorem sweepLoop_sweepPoints (rows : List Labeled) {fuel : Nat} (hfuel : 21 ≤ fuel) (best : ℚ × ℚ) :
    sweepLoop rows fuel thresholdSweepStart best = Argmax.keepBest (fScore rows) best sweepPoints := by
  have hstart : thresholdSweepStart = sweepPoint 0 := by simp [sweepPoint]
  rw [hstart, sweepLoop_eq rows (Nat.zero_add 21) hfuel best, sweepPoints, List.range_eq_range']

theorem pairwise_sweepPoints : sweepPoints.Pairwise (· < ·) := by decide +kernel

theorem fBeta_nonneg (tp fp fn : Nat) : 0 ≤ fBeta tp fp fn := by
  unfold fBeta
  dsimp only
  split_ifs <;> positivity

/-- The sweep ends with its first best threshold. -/
theorem sweep_spec (w : Settings) (rows : List Labeled) : ∃ t,
    sweepLoop rows 22 thresholdSweepStart (w.riskAlertThreshold, -1) = (t, fScore rows t) ∧
      Argmax.FirstMax (fScore rows) sweepPoints t := by
  rw [sweepLoop_sweepPoints rows (by omega)]
  rcases Argmax.keepBest_spec (fScore rows) (w.riskAlertThreshold, -1) sweepPoints with ⟨-, hle⟩ | ⟨t, hbest, -, hfirst⟩
  · -- every score beats the one the loop starts from
    have hnone : fScore rows (sweepPoint 0) ≤ -1 := hle _ (List.mem_map_of_mem (List.mem_range.2 (by omega)))
    have hnonneg : 0 ≤ fScore rows (sweepPoint 0) := fBeta_nonneg ..
    linarith
  · exact ⟨t, hbest, hfirst⟩

/-! ## When the threshold moves -/

/-- `t` scores at least as much as every threshold of the sweep and the default, and
more than the default unless it is the default. -/
structure MovesForReason (w : Settings) (rows : List Labeled) (t : ℚ) : Prop where
  best : ∀ p ∈ sweepPoints, fScore rows p ≤ fScore rows t
  default : fScore rows w.riskAlertThreshold ≤ fScore rows t
  moved : t ≠ w.riskAlertThreshold → fScore rows w.riskAlertThreshold < fScore rows t
  dismissed : (∀ r ∈ rows, r.status = "DISMISSED") → w.riskAlertThreshold ≤ t

/-- A threshold of the sweep beats the default, or the default is one and beats
every lower one. -/
def Reason (w : Settings) (rows : List Labeled) : Prop :=
  (∃ p ∈ sweepPoints, fScore rows w.riskAlertThreshold < fScore rows p) ∨
    (w.riskAlertThreshold ∈ sweepPoints ∧
      ∀ p ∈ sweepPoints, p < w.riskAlertThreshold → fScore rows p < fScore rows w.riskAlertThreshold)

section
variable {w : Settings} {rows : List Labeled} {t : ℚ}

theorem fScore_dismissed (h : ∀ r ∈ rows, r.status = "DISMISSED") (t : ℚ) : fScore rows t = 0 := by
  have htp : rows.countP (fun r => t ≤ r.riskScore && r.status = "CONFIRMED") = 0 := by
    rw [List.countP_eq_zero]
    intro r hr
    simp [h r hr]
  rw [fScore, htp, fBeta, if_pos rfl]

theorem movesForReason_of_first (hfirst : Argmax.FirstMax (fScore rows) sweepPoints t)
    (h : t ≠ w.riskAlertThreshold → fScore rows w.riskAlertThreshold < fScore rows t) : MovesForReason w rows t where
  best p hp := hfirst.le hp
  default := by
    by_cases ht : t = w.riskAlertThreshold
    · rw [ht]
    · exact (h ht).le
  moved := h
  dismissed hall := by
    by_cases ht : t = w.riskAlertThreshold
    · exact ht.ge
    · have hlt := h ht
      rw [fScore_dismissed hall, fScore_dismissed hall] at hlt
      exact absurd hlt (lt_irrefl 0)

theorem movesForReason_iff (hfirst : Argmax.FirstMax (fScore rows) sweepPoints t) :
    MovesForReason w rows t ↔ Reason w rows := by
  constructor
  · intro hmoves
    by_cases ht : t = w.riskAlertThreshold
    · exact .inr ⟨ht ▸ hfirst.mem, fun p hp hlt => ht ▸ hfirst.lt_of_lt pairwise_sweepPoints hp (ht ▸ hlt)⟩
    · exact .inl ⟨t, hfirst.mem, hmoves.moved ht⟩
  · intro hreason
    refine movesForReason_of_first hfirst fun ht => ?_
    rcases hreason with ⟨p, hp, hlt⟩ | ⟨hmem, hlower⟩
    · exact hlt.trans_le (hfirst.le hp)
    · rcases lt_or_gt_of_ne ht with hlt | hgt
      · -- a lower threshold does not score the most
        exact absurd (hlower t hfirst.mem hlt) (not_lt.2 (hfirst.le hmem))
      · exact hfirst.lt_of_lt pairwise_sweepPoints hmem hgt

end

/-! ## `calibrate` -/

theorem calibrate_spec (w : Settings) (py : PyText) (redis : Dict String String) (cameraId : String)
    {rows : List Labeled} (h : w.calibrationMinSamples ≤ rows.length) :
    ∃ t, (calibrate w py redis cameraId rows).2 = some t ∧ Argmax.FirstMax (fScore rows) sweepPoints t := by
  obtain ⟨t, hsweep, hfirst⟩ := sweep_spec w rows
  refine ⟨t, ?_, hfirst⟩
  rw [calibrate, if_neg (not_lt.2 h), hsweep]

/-- With enough samples there is a threshold. It has a better score than the default,
or is the default, exactly when some threshold beats the default or the default is
one of the sweep and beats the lower ones. -/
theorem moves_for_reason_iff (w : Settings) (py : PyText) (redis : Dict String String) (cameraId : String)
    (rows : List Labeled) (h : w.calibrationMinSamples ≤ rows.length) :
    ∃ t, (calibrate w py redis cameraId rows).2 = some t ∧ (MovesForReason w rows t ↔ Reason w rows) := by
  obtain ⟨t, ht, hfirst⟩ := calibrate_spec w py redis cameraId h
  exact ⟨t, ht, movesForReason_iff hfirst⟩

/-- Thefts of risk 0.9, and false alarms of risk 0.7. -/
def separable : List Labeled := List.replicate 10 ⟨0.9, "CONFIRMED"⟩ ++ List.replicate 10 ⟨0.7, "DISMISSED"⟩

theorem moves_for_reason_separable :
    ∃ t, (calibrate .default .reference .empty "cam-01" separable).2 = some t ∧
      MovesForReason .default separable t := by
  obtain ⟨t, ht, hmoves⟩ := moves_for_reason_iff .default .reference .empty "cam-01" separable (by decide)
  exact ⟨t, ht, hmoves.2 (by unfold Reason; decide +kernel)⟩

/-- A camera without a theft gets the lowest threshold. -/
def allDismissed : List Labeled := List.replicate 20 ⟨0.7, "DISMISSED"⟩

theorem moves_for_reason_fails :
    ¬ ∀ (w : Settings) (py : PyText) (redis : Dict String String) (cameraId : String) (rows : List Labeled),
      w.calibrationMinSamples ≤ rows.length → (∀ r ∈ rows, r.status ∈ ["CONFIRMED", "DISMISSED"]) →
        ∃ t, (calibrate w py redis cameraId rows).2 = some t ∧ MovesForReason w rows t := by
  intro hall
  have hmin : Settings.default.calibrationMinSamples ≤ allDismissed.length := by decide
  obtain ⟨t, ht, hmoves⟩ := hall .default .reference .empty "cam-01" allDismissed hmin (by decide)
  obtain ⟨t', ht', hfirst⟩ := calibrate_spec .default .reference .empty "cam-01" hmin
  obtain rfl := Option.some.inj (ht.symm.trans ht')
  have hno : ¬ Reason .default allDismissed := by
    unfold Reason
    decide +kernel
  exact hno ((movesForReason_iff hfirst).1 hmoves)

end Eval

end Netra
