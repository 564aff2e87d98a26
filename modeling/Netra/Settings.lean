import Mathlib.Algebra.Order.Ring.Rat
import Mathlib.Data.List.Dedup
import Mathlib.Data.Rat.Floor
/-!
# Settings and host

`Settings` has the fields of `backend/core/settings.py` that the modelled code
reads, with their defaults. `Host` collects what the services call outside the
repository.
-/
namespace Netra

structure Settings where
  keypointConfidenceMin : ℚ := 0.3
  handToHipDistancePx : ℚ := 110
  nFramesHandInShelf : Nat := 4
  concealWindowSec : ℚ := 4
  speedSpikeMultiplier : ℚ := 2.5
  fsmDecayRate : ℚ := 1.8
  fsmShopformerTriggerScore : ℚ := 4
  riskWeightFsm : ℚ := 0.45
  riskWeightShopformer : ℚ := 0.30
  riskWeightInteraction : ℚ := 0.20
  riskWeightContext : ℚ := 0.05
  riskAlertThreshold : ℚ := 0.65
  signalConfirmationFrames : Nat := 3
  signalConfirmationAgeMs : ℚ := 500
  shopformerSeqLen : Nat := 24
  shopformerStride : Nat := 12
  calibrationMinSamples : Nat := 20
  modelVersion : String := "1.0.0"
  logicVersion : String := "1.0.0"

/-- `Settings()` with an empty environment. -/
def Settings.default : Settings := {}

structure Host where
  /-- `np.sqrt` -/
  sqrt : ℚ → ℚ
  /-- `datetime.fromtimestamp(ts).hour` -/
  hour : ℚ → Nat
  /-- `Polygon(p).contains(Point(x, y))` (shapely); always false where shapely is missing. -/
  contains : List (ℚ × ℚ) → ℚ → ℚ → Bool
  /-- The order in which `set(xs) - ys` is iterated. -/
  setDiff : List Int → List Int → List Int
  setDiff_perm : ∀ xs ys, (setDiff xs ys).Perm (xs.dedup.filter (· ∉ ys))

namespace Host

/-- A host to evaluate the model on: exact roots of squares, UTC, zones that are
upright rectangles (shapely's `contains` leaves out the boundary). -/
def reference : Host where
  sqrt q := Nat.sqrt q.num.toNat / Nat.sqrt q.den
  hour ts := (ts.floor / 3600 % 24).toNat
  contains p x y := p.any (·.1 < x) && p.any (x < ·.1) && p.any (·.2 < y) && p.any (y < ·.2)
  setDiff xs ys := xs.dedup.filter (· ∉ ys)
  setDiff_perm _ _ := .refl _

end Host

end Netra
