import Netra.Lib.Numeric
import Mathlib.Data.Int.Log
/-!
# Binary floating-point formats

A number of a format is `m * 2 ^ e` with `m` below `2 ^ precision` and `e` within its
bounds. `round` goes to the nearest number, with ties to an even `m`, and raises where
that is too large. What it leaves as it is are the numbers of the format
(`round_eq_self_iff`); `Number` is their type.
-/
namespace Binary

open PyLib

structure Format where
  precision : Nat
  minExp : Int
  maxExp : Int
  precision_pos : 0 < precision
  minExp_le : minExp ≤ maxExp

/-- `binary32` -/
def Format.single : Format := ⟨24, -149, 104, by decide, by decide⟩

namespace Format

/-- The numbers of the format. -/
def Holds (f : Format) (q : ℚ) : Prop :=
  ∃ m e : Int, |m| < 2 ^ f.precision ∧ f.minExp ≤ e ∧ e ≤ f.maxExp ∧ q = m * (2 : ℚ) ^ e

/-- The exponent of the last place of what is near `q`. -/
def exponent (f : Format) (q : ℚ) : Int := max (Int.log 2 |q| + 1 - f.precision) f.minExp

def round (f : Format) (q : ℚ) : Option ℚ :=
  let e := f.exponent q
  let m := roundHalfEven (q / 2 ^ e)
  if |(m : ℚ)| * 2 ^ e < 2 ^ (f.precision + f.maxExp) then some (m * 2 ^ e) else none

variable {f : Format} {q : ℚ}

theorem zero_lt_two_zpow (e : Int) : (0 : ℚ) < 2 ^ e := zpow_pos (by norm_num) e

/-- `q` has at most `precision` digits before its last place. -/
theorem abs_div_lt (f : Format) (q : ℚ) : |q / 2 ^ f.exponent q| < 2 ^ f.precision := by
  have hlog : |q| < 2 ^ (Int.log 2 |q| + 1) := Int.lt_zpow_succ_log_self (by norm_num) _
  have hexp : Int.log 2 |q| + 1 ≤ f.precision + f.exponent q := by
    have := le_max_left (Int.log 2 |q| + 1 - f.precision) f.minExp
    rw [exponent]
    omega
  rw [abs_div, abs_of_pos (zero_lt_two_zpow _), div_lt_iff₀ (zero_lt_two_zpow _), ← zpow_natCast,
    ← zpow_add₀ two_ne_zero]
  exact hlog.trans_le (zpow_le_zpow_right₀ one_le_two hexp)

/-- Above the least exponent, `q` has all of them. -/
theorem le_abs_div (h : f.minExp < f.exponent q) (hq : q ≠ 0) : 2 ^ (f.precision - 1) ≤ |q / 2 ^ f.exponent q| := by
  have hexp : Int.log 2 |q| = (f.precision - 1 : Nat) + f.exponent q := by
    have hpos := f.precision_pos
    rw [exponent] at h ⊢
    rw [max_eq_left ((lt_max_iff.1 h).resolve_right (lt_irrefl _)).le]
    omega
  rw [abs_div, abs_of_pos (zero_lt_two_zpow _), le_div_iff₀ (zero_lt_two_zpow _), ← zpow_natCast,
    ← zpow_add₀ two_ne_zero, ← hexp]
  exact Int.zpow_log_le_self (by norm_num) (abs_pos.2 hq)

/-- Rounding goes to a number of at most `precision` digits, or the next power of two. -/
theorem abs_roundHalfEven_le (f : Format) (q : ℚ) : |roundHalfEven (q / 2 ^ f.exponent q)| ≤ 2 ^ f.precision := by
  have hlt := abs_lt.1 (f.abs_div_lt q)
  rw [abs_le]
  constructor
  · refine intCast_le_roundHalfEven ?_
    push_cast
    exact hlt.1.le
  · refine roundHalfEven_le_intCast ?_
    push_cast
    exact hlt.2.le

theorem le_abs_roundHalfEven {x : ℚ} {n : Nat} (h : n ≤ |x|) : (n : ℤ) ≤ |roundHalfEven x| := by
  rcases le_abs.1 h with h | h
  · exact (intCast_le_roundHalfEven (n := n) (by simpa using h)).trans (le_abs_self _)
  · have hle : roundHalfEven x ≤ -n := roundHalfEven_le_intCast (by push_cast; linarith)
    exact (by omega : (n : ℤ) ≤ -roundHalfEven x).trans (neg_le_abs _)

/-- What is below a power of two bounds the exponent. -/
theorem add_exponent_lt {k : Nat} {e n : Int} {x : ℚ} (hx : 2 ^ k ≤ x) (hlt : x * 2 ^ e < 2 ^ n) : k + e < n := by
  have hpow : (2 : ℚ) ^ (k + e) < 2 ^ n := by
    rw [zpow_add₀ two_ne_zero, zpow_natCast]
    exact (mul_le_mul_of_nonneg_right hx (zero_lt_two_zpow e).le).trans_lt hlt
  exact (zpow_lt_zpow_iff_right₀ one_lt_two).1 hpow

/-- Where all digits carried, there is a power of two, one place up. -/
theorem holds_carried {m e : Int} (hm : |m| = 2 ^ f.precision) (hmin : f.minExp ≤ e)
    (hlt : |(m : ℚ)| * 2 ^ e < 2 ^ (f.precision + f.maxExp)) : f.Holds (m * 2 ^ e) := by
  have hexp : f.precision + e < f.precision + f.maxExp :=
    add_exponent_lt (le_of_eq (by exact_mod_cast hm.symm)) hlt
  obtain ⟨p, hp⟩ : ∃ p, f.precision = p + 1 := ⟨f.precision - 1, (Nat.sub_add_cancel f.precision_pos).symm⟩
  rw [hp] at hm
  obtain ⟨half, rfl⟩ : 2 ∣ m := by
    rw [← dvd_abs, hm]
    exact dvd_pow_self 2 p.succ_ne_zero
  have hhalf : |half| = 2 ^ p := by
    rw [abs_mul, pow_succ, mul_comm] at hm
    simpa using hm
  refine ⟨half, e + 1, ?_, by omega, by omega, ?_⟩
  · rw [hhalf, hp]
    exact pow_lt_pow_right₀ (by norm_num) p.lt_succ_self
  · rw [zpow_add_one₀ two_ne_zero]
    push_cast
    ring

/-- The result of rounding is a number of the format. -/
theorem round_holds {r : ℚ} (h : f.round q = some r) : f.Holds r := by
  obtain ⟨hlt, h⟩ := Option.ite_none_right_eq_some.1 h
  obtain rfl := Option.some.inj h
  rcases eq_or_ne q 0 with rfl | hq
  · refine ⟨0, f.minExp, by simp, le_rfl, f.minExp_le, ?_⟩
    rw [zero_div, ← Int.cast_zero, roundHalfEven_intCast, Int.cast_zero, zero_mul, zero_mul]
  have hmin : f.minExp ≤ f.exponent q := le_max_right _ _
  rcases (f.abs_roundHalfEven_le q).lt_or_eq with hfew | hcarry
  · refine ⟨roundHalfEven (q / 2 ^ f.exponent q), f.exponent q, hfew, hmin, ?_, rfl⟩
    rcases hmin.eq_or_lt with he | hgt
    · exact he ▸ f.minExp_le
    · have hmany : ((2 ^ (f.precision - 1) : Nat) : ℤ) ≤ |roundHalfEven (q / 2 ^ f.exponent q)| := by
        refine le_abs_roundHalfEven ?_
        push_cast
        exact le_abs_div hgt hq
      have hexp := add_exponent_lt (k := f.precision - 1) (by exact_mod_cast hmany) hlt
      have hpos := f.precision_pos
      omega
  · exact holds_carried hcarry hmin hlt

/-- A number of the format is rounded to itself. -/
theorem round_of_holds (h : f.Holds q) : f.round q = some q := by
  obtain ⟨m, e, hm, hmin, hmax, rfl⟩ := h
  have hcast : |(m : ℚ)| < 2 ^ f.precision := by exact_mod_cast hm
  have habs : |(m : ℚ) * 2 ^ e| = |(m : ℚ)| * 2 ^ e := by rw [abs_mul, abs_of_pos (zero_lt_two_zpow e)]
  have hlt : |(m : ℚ) * 2 ^ e| < 2 ^ (f.precision + e) := by
    rw [habs, zpow_add₀ two_ne_zero, zpow_natCast]
    exact mul_lt_mul_of_pos_right hcast (zero_lt_two_zpow e)
  -- the number is whole at its last place
  have hwhole : roundHalfEven (m * 2 ^ e / 2 ^ f.exponent (m * 2 ^ e)) * (2 : ℚ) ^ f.exponent (m * 2 ^ e) =
      m * 2 ^ e := by
    rcases eq_or_ne m 0 with rfl | hm0
    · rw [Int.cast_zero, zero_mul, zero_div, ← Int.cast_zero, roundHalfEven_intCast, Int.cast_zero, zero_mul]
    have hpos : 0 < |(m : ℚ) * 2 ^ e| := abs_pos.2 (mul_ne_zero (by exact_mod_cast hm0) (zero_lt_two_zpow e).ne')
    have hexp : f.exponent (m * 2 ^ e) ≤ e := by
      have hlog : Int.log 2 |(m : ℚ) * 2 ^ e| < f.precision + e := (Int.lt_zpow_iff_log_lt (by norm_num) hpos).1 hlt
      rw [exponent, max_le_iff]
      omega
    generalize f.exponent (m * 2 ^ e) = k at hexp ⊢
    obtain ⟨n, rfl⟩ := Int.le.dest hexp
    have hdiv : (m : ℚ) * 2 ^ (k + n : ℤ) / 2 ^ k = ((m * 2 ^ n : ℤ) : ℚ) := by
      rw [zpow_add₀ two_ne_zero, zpow_natCast, div_eq_iff (zero_lt_two_zpow k).ne']
      push_cast
      ring
    rw [hdiv, roundHalfEven_intCast, ← hdiv, div_mul_cancel₀ _ (zero_lt_two_zpow k).ne']
  rw [round, hwhole]
  refine if_pos ?_
  rw [← abs_of_pos (zero_lt_two_zpow (f.exponent _)), ← abs_mul, abs_of_pos (zero_lt_two_zpow _), hwhole]
  exact hlt.trans_le (zpow_le_zpow_right₀ one_le_two (by omega))

theorem round_eq_self_iff : f.round q = some q ↔ f.Holds q := ⟨round_holds, round_of_holds⟩

/-! ## The numbers of a format as a type -/

abbrev Number (f : Format) := {q : ℚ // f.Holds q}

/-- `round`, to a number of the format -/
def nearest (f : Format) (q : ℚ) : Option f.Number := (f.round q).pmap Subtype.mk fun _ => round_holds

/-- Rounding finds `q` exactly when it is a number of the format. -/
theorem nearest_eq_coe_iff {x : f.Number} (h : f.nearest q = some x) : (x : ℚ) = q ↔ f.Holds q := by
  obtain ⟨r, hr, hround, rfl⟩ := Option.pmap_eq_some_iff.1 h
  rw [← round_eq_self_iff, hround, Option.some.injEq]

/-- Half a last place beyond the greatest number of the format. -/
def limit (f : Format) : ℚ := (2 ^ f.precision - 1 / 2) * 2 ^ f.maxExp

theorem abs_roundHalfEven_lt_iff (f : Format) (x : ℚ) :
    |roundHalfEven x| < 2 ^ f.precision ↔ |x| < 2 ^ f.precision - 1 / 2 := by
  have heven : (2 : Int) ^ f.precision % 2 = 0 := by
    obtain ⟨p, hp⟩ := Nat.exists_eq_add_of_lt f.precision_pos
    rw [hp, pow_succ]
    exact Int.mul_emod_left _ _
  have hupper := le_roundHalfEven heven x
  have hlower := roundHalfEven_le (n := -2 ^ f.precision) (by omega) x
  push_cast at hupper hlower
  rw [abs_lt, abs_lt, ← not_le, ← not_le, ← not_le, ← not_le, hupper, hlower]
  refine and_congr (not_congr ?_) Iff.rfl
  constructor <;> intro h <;> linarith

theorem limit_lt (f : Format) : f.limit < 2 ^ (f.precision + f.maxExp) := by
  rw [limit, zpow_add₀ two_ne_zero, zpow_natCast]
  exact mul_lt_mul_of_pos_right (by linarith) (zero_lt_two_zpow _)

theorem zpow_le_limit {e : Int} (h : e < f.maxExp) : (2 : ℚ) ^ (f.precision + e) ≤ f.limit := by
  have hone : (1 : ℚ) ≤ 2 ^ f.precision := one_le_pow₀ one_le_two
  calc (2 : ℚ) ^ (f.precision + e) ≤ 2 ^ (f.precision + (f.maxExp - 1)) :=
        zpow_le_zpow_right₀ one_le_two (by omega)
    _ = 2 ^ f.precision / 2 * 2 ^ f.maxExp := by
        rw [zpow_add₀ two_ne_zero, zpow_sub_one₀ two_ne_zero, zpow_natCast]
        ring
    _ ≤ f.limit := mul_le_mul_of_nonneg_right (by linarith) (zero_lt_two_zpow _).le

theorem isSome_nearest : (f.nearest q).isSome ↔
    |(roundHalfEven (q / 2 ^ f.exponent q) : ℚ)| * 2 ^ f.exponent q < 2 ^ (f.precision + f.maxExp) := by
  rw [nearest, Option.isSome_pmap, round]
  split_ifs with h <;> simp [h]

/-- Rounding raises from `limit` on. -/
theorem isSome_nearest_iff : (f.nearest q).isSome ↔ |q| < f.limit := by
  have hq : |q| = |q / 2 ^ f.exponent q| * 2 ^ f.exponent q := by
    rw [abs_div, abs_of_pos (zero_lt_two_zpow _), div_mul_cancel₀ _ (zero_lt_two_zpow _).ne']
  have hpos := zero_lt_two_zpow (f.exponent q)
  rw [isSome_nearest]
  rcases lt_trichotomy (f.exponent q) f.maxExp with hlow | htop | hhigh
  · -- even the next power of two is below the bound
    have hpow := zpow_le_limit hlow
    rw [zpow_add₀ two_ne_zero, zpow_natCast] at hpow
    have hdigits : |(roundHalfEven (q / 2 ^ f.exponent q) : ℚ)| ≤ 2 ^ f.precision := by
      exact_mod_cast f.abs_roundHalfEven_le q
    refine iff_of_true ?_ ?_
    · exact ((mul_le_mul_of_nonneg_right hdigits hpos.le).trans hpow).trans_lt f.limit_lt
    · rw [hq]
      exact (mul_lt_mul_of_pos_right (f.abs_div_lt q) hpos).trans_le hpow
  · rw [hq, limit, ← htop, zpow_add₀ two_ne_zero, zpow_natCast, mul_lt_mul_iff_left₀ hpos,
      mul_lt_mul_iff_left₀ hpos, ← abs_roundHalfEven_lt_iff]
    exact_mod_cast Iff.rfl
  · rcases eq_or_ne q 0 with rfl | hq0
    · refine iff_of_true ?_ ?_
      · rw [zero_div, ← Int.cast_zero, roundHalfEven_intCast, Int.cast_zero, abs_zero, zero_mul]
        exact zero_lt_two_zpow _
      · rw [abs_zero]
        exact (zero_lt_two_zpow _).trans_le (zpow_le_limit (sub_one_lt f.maxExp))
    have hdigits := f.le_abs_div (f.minExp_le.trans_lt hhigh) hq0
    have hrounded : (2 : ℚ) ^ (f.precision - 1) ≤ |(roundHalfEven (q / 2 ^ f.exponent q) : ℚ)| := by
      exact_mod_cast le_abs_roundHalfEven (n := 2 ^ (f.precision - 1)) (by exact_mod_cast hdigits)
    have hbound : (2 : ℚ) ^ (f.precision + f.maxExp) ≤ 2 ^ (f.precision - 1) * 2 ^ f.exponent q := by
      rw [← zpow_natCast, ← zpow_add₀ two_ne_zero]
      exact zpow_le_zpow_right₀ one_le_two (by have := f.precision_pos; omega)
    refine iff_of_false ?_ ?_
    · exact (hbound.trans (mul_le_mul_of_nonneg_right hrounded hpos.le)).not_gt
    · rw [hq]
      exact ((f.limit_lt.le.trans hbound).trans (mul_le_mul_of_nonneg_right hdigits hpos.le)).not_gt

theorem holds_intCast {m : Int} (hm : |m| < 2 ^ f.precision) (hmin : f.minExp ≤ 0) (hmax : 0 ≤ f.maxExp) :
    f.Holds m := ⟨m, 0, hm, hmin, hmax, by rw [zpow_zero, mul_one]⟩

end Format

end Binary
