import Mathlib.Algebra.Order.Ring.Rat
import Mathlib.Data.List.Sort
import Mathlib.Data.Rat.Floor
import Mathlib.Tactic.Linarith
/-!
# Numeric library functions over exact rationals

`np.median`, Python's `round(x, n)`, which rounds ties to even, and `int(x)`,
which drops the fraction.
-/
namespace PyLib

/-- `np.median` of a non-empty list. -/
def median (xs : List ℚ) : ℚ :=
  let s := xs.insertionSort (· ≤ ·)
  (s.getD ((s.length - 1) / 2) 0 + s.getD (s.length / 2) 0) / 2

/-- `int(q)` -/
def trunc (q : ℚ) : Int := q.num.tdiv q.den

/-- `round(q)` -/
def roundHalfEven (q : ℚ) : Int :=
  let f := q.floor
  let r := q - f
  if r < 1 / 2 then f
  else if 1 / 2 < r then f + 1
  else if f % 2 = 0 then f
  else f + 1

/-- `round(q, n)` -/
def roundTo (n : Nat) (q : ℚ) : ℚ := roundHalfEven (q * 10 ^ n) / 10 ^ n

/-- An even number is reached from half a unit below. -/
theorem le_roundHalfEven {n : Int} (hn : n % 2 = 0) (q : ℚ) : n ≤ roundHalfEven q ↔ (n : ℚ) - 1 / 2 ≤ q := by
  have hlo : (q.floor : ℚ) ≤ q := Int.floor_le q
  have hhi : q < q.floor + 1 := Int.lt_floor_add_one q
  unfold roundHalfEven
  dsimp only
  generalize q.floor = f at hlo hhi
  rcases lt_trichotomy n (f + 1) with hlt | rfl | hgt
  · -- the floor reaches it
    have hnf : n ≤ f := Int.lt_add_one_iff.1 hlt
    have hnq : (n : ℚ) ≤ f := by exact_mod_cast hnf
    refine iff_of_true ?_ (by linarith)
    split_ifs <;> omega
  · push_cast
    split_ifs with hless hmore heven
    · exact iff_of_false (by omega) (by linarith)
    · exact iff_of_true le_rfl (by linarith)
    · omega
    · exact iff_of_true le_rfl (by linarith)
  · -- two above the floor
    have hfq : (f : ℚ) + 2 ≤ n := by exact_mod_cast (show f + 2 ≤ n by omega)
    refine iff_of_false ?_ (by linarith)
    split_ifs <;> omega

/-- The same for a number with an even last digit. -/
theorem le_roundTo {n : Nat} {m : Int} (hm : m % 2 = 0) (q : ℚ) :
    (m : ℚ) / 10 ^ n ≤ roundTo n q ↔ ((m : ℚ) - 1 / 2) / 10 ^ n ≤ q := by
  have hpos : (0 : ℚ) < 10 ^ n := by positivity
  rw [roundTo, div_le_div_iff_of_pos_right hpos, Int.cast_le, le_roundHalfEven hm, div_le_iff₀ hpos]

/-- An even number is left half a unit above. -/
theorem roundHalfEven_le {n : Int} (hn : n % 2 = 0) (q : ℚ) : roundHalfEven q ≤ n ↔ q ≤ n + 1 / 2 := by
  have hlo : (q.floor : ℚ) ≤ q := Int.floor_le q
  have hhi : q < q.floor + 1 := Int.lt_floor_add_one q
  unfold roundHalfEven
  dsimp only
  generalize q.floor = f at hlo hhi
  rcases lt_trichotomy n f with hlt | rfl | hgt
  · -- the floor is beyond it
    have hnq : (n : ℚ) + 1 ≤ f := by exact_mod_cast hlt
    refine iff_of_false ?_ (by linarith)
    split_ifs <;> omega
  · split_ifs with hless hmore
    · exact iff_of_true le_rfl (by linarith)
    · exact iff_of_false (by omega) (by linarith)
    · exact iff_of_true le_rfl (by linarith)
  · have hnq : (f : ℚ) + 1 ≤ n := by exact_mod_cast hgt
    refine iff_of_true ?_ (by linarith)
    split_ifs <;> omega

theorem intCast_le_roundHalfEven {q : ℚ} {n : Int} (h : n ≤ q) : n ≤ roundHalfEven q := by
  have hfloor : n ≤ q.floor := Int.le_floor.2 h
  unfold roundHalfEven
  dsimp only
  split_ifs <;> omega

theorem roundHalfEven_le_intCast {q : ℚ} {n : Int} (h : q ≤ n) : roundHalfEven q ≤ n := by
  have hlo : (q.floor : ℚ) ≤ q := Int.floor_le q
  rcases h.lt_or_eq with hlt | rfl
  · have hfloor : q.floor < n := by exact_mod_cast hlo.trans_lt hlt
    unfold roundHalfEven
    dsimp only
    split_ifs <;> omega
  · have hfloor : (n : ℚ).floor = n := Rat.floor_intCast n
    unfold roundHalfEven
    dsimp only
    rw [hfloor, sub_self, if_pos (by norm_num)]

/-- A whole number is what it is rounded to. -/
theorem roundHalfEven_intCast (n : Int) : roundHalfEven n = n :=
  le_antisymm (roundHalfEven_le_intCast le_rfl) (intCast_le_roundHalfEven le_rfl)

end PyLib
