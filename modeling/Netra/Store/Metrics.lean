import Netra.Store.Schema
import Mathlib.Data.Rat.Floor
/-!
# Accuracy metrics and label statistics

`AccuracyMetrics.overall` (`backend/services/eval/metrics.py`) and
`OperatorLabelExporter.label_stats` (`backend/services/eval/labeler.py`): counts
over `incidents`, by status.
-/
namespace Netra

open Store

namespace Metrics

/-- `SELECT COUNT(*) FROM incidents WHERE p` -/
def count (p : Incident → Bool) (db : Database) : Nat := db.incidents.countP p

/-- `status='...'` -/
def hasStatus (status : String) (r : Incident) : Bool := r.status = status

/-- `occurred_at >= NOW() - INTERVAL '1 day' * $1` -/
def inWindow (now : ℚ) (days : Int) (r : Incident) : Bool := now - 86400 * days ≤ r.occurredAt

structure MetricSet where
  tp : Nat
  fp : Nat
  fn : Nat
  precision : ℚ
  recallRate : Option ℚ
  f1 : Option ℚ
  deriving DecidableEq, Repr

/-- `_compute(tp, fp, fn)` -/
def compute (tp fp : Nat) (fn : Nat := 0) : MetricSet :=
  let reviewed := tp + fp
  let precision : ℚ := if reviewed > 0 then tp / reviewed else 0
  let recallRate : Option ℚ := if tp + fn > 0 then some (tp / (tp + fn : Nat)) else none
  let f1 := recallRate.bind fun recallRate =>
    if precision + recallRate > 0 then some (2 * precision * recallRate / (precision + recallRate)) else none
  { tp, fp, fn, precision, recallRate, f1 }

/-- `AccuracyMetrics.overall(days)` at the time `now` -/
def overall (days : Int) (now : ℚ) (db : Database) : MetricSet :=
  compute (count (fun r => hasStatus "CONFIRMED" r && inWindow now days r) db)
    (count (fun r => hasStatus "DISMISSED" r && inWindow now days r) db)

/-- `round(q)`: to the even neighbour from halfway. -/
def roundHalfEven (q : ℚ) : Int :=
  if q - ⌊q⌋ < 1 / 2 then ⌊q⌋
  else if 1 / 2 < q - ⌊q⌋ then ⌊q⌋ + 1
  else if ⌊q⌋ % 2 = 0 then ⌊q⌋ else ⌊q⌋ + 1

/-- `round(q, digits)` -/
def roundTo (digits : Nat) (q : ℚ) : ℚ := roundHalfEven (q * 10 ^ digits) / 10 ^ digits

/-- The dict `label_stats` returns. -/
structure LabelStats where
  total : Nat
  confirmed : Nat
  dismissed : Nat
  pending : Nat
  precision : Option ℚ
  reviewedPct : ℚ
  deriving DecidableEq, Repr

/-- `OperatorLabelExporter.label_stats()` -/
def labelStats (db : Database) : LabelStats :=
  let total := count (fun _ => true) db
  let tp := count (hasStatus "CONFIRMED") db
  let fp := count (hasStatus "DISMISSED") db
  let pending := count (hasStatus "OPEN") db
  let reviewed := tp + fp
  let precision : Option ℚ := if reviewed > 0 then some (tp / reviewed) else none
  { total, confirmed := tp, dismissed := fp, pending
    precision := precision.map (roundTo 3)
    reviewedPct := if total > 0 then roundTo 1 (reviewed / total * 100) else 0 }

theorem hasStatus_iff {status : String} {r : Incident} : hasStatus status r = true ↔ r.status = status :=
  decide_eq_true_iff

end Metrics

end Netra
