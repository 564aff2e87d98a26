import Netra.Lib.Cell
import Netra.Lib.Numeric
import Netra.Types
/-!
# The zone heatmap (`ZoneHeatmap.update`)

`backend/services/analytics/heatmap.py` reads the whole grid of a camera from
Redis, counts every person in a cell and writes the grid back. Here is the key of
one camera and any number of updates, which take turns at their statements: the
counts add up when none of them writes between the read and the write of another
(`heatmap_counts_iff`).
-/
namespace Netra.Heatmap

open Calls Cell PyLib

def gridCols : Nat := 32
def gridRows : Nat := 18

/-- `grid[cy, cx]` -/
abbrev Grid := Fin gridRows → Fin gridCols → Nat

/-- `np.zeros((_GRID_ROWS, _GRID_COLS))` -/
def zeros : Grid := fun _ _ => 0

/-- `grid.sum()` -/
def total (g : Grid) : Nat := ∑ r, ∑ c, g r c

/-- Index `i` of an axis of length `n`: a negative one counts from the end, and one
outside the axis is an `IndexError`. -/
def npIndex (n : Nat) (i : Int) : Option (Fin n) :=
  if h : 0 ≤ i ∧ i < n then some ⟨i.toNat, by omega⟩
  else if h : i < 0 ∧ 0 ≤ i + n then some ⟨(i + n).toNat, by omega⟩
  else none

/-- `grid[cy, cx] += 1.0` -/
def increment (g : Grid) (cell : Int × Int) : Option Grid := do
  let cy ← npIndex gridRows cell.1
  let cx ← npIndex gridCols cell.2
  return Function.update g cy (Function.update (g cy) cx (g cy cx + 1))

/-- The arguments of `update`, but for the camera. -/
structure Update where
  persons : List PersonDetection
  frameWidth : Nat := 1280
  frameHeight : Nat := 720
  width_pos : 0 < frameWidth
  height_pos : 0 < frameHeight

namespace Update

/-- `(cy, cx)` of a person. -/
def cellOf (u : Update) (p : PersonDetection) : Int × Int :=
  let cx := trunc (p.bbox.cx / u.frameWidth * gridCols)
  let cy := trunc (p.bbox.cy / u.frameHeight * gridRows)
  let cx := max 0 (min ((gridCols : Int) - 1) cx)
  let cy := max 0 (min ((gridRows : Int) - 1) cy)
  (cy, cx)

/-- The loop over the persons. -/
def count (u : Update) (g : Grid) : Option Grid := u.persons.foldlM (fun g p => increment g (u.cellOf p)) g

/-- The call; `none` when it raises. The cell is what Redis holds for the camera. -/
def prog (u : Update) : Prog (Stmt (Option Grid)) (Option Grid) (Option Unit) :=
  if u.persons = [] then .ret (some ())
  else
    .stmt .get fun raw =>
      match u.count (raw.getD zeros) with
      | some grid => .stmt (.set (some grid)) fun _ => .ret (some ())
      | none => .ret none

end Update

/-! ## One update -/

/-- `cell` is one of the grid, counted from its corner. -/
def Inside (cell : Int × Int) : Prop := (0 ≤ cell.1 ∧ cell.1 < gridRows) ∧ 0 ≤ cell.2 ∧ cell.2 < gridCols

theorem clamp_mem {n : Nat} (hn : 0 < n) (i : Int) :
    0 ≤ max 0 (min ((n : Int) - 1) i) ∧ max 0 (min ((n : Int) - 1) i) < n := by
  omega

theorem inside_cellOf (u : Update) (p : PersonDetection) : Inside (u.cellOf p) :=
  ⟨clamp_mem (by decide) _, clamp_mem (by decide) _⟩

theorem npIndex_of_mem {n : Nat} {i : Int} (h : 0 ≤ i ∧ i < n) : ∃ k, npIndex n i = some k :=
  ⟨_, dif_pos h⟩

theorem total_zeros : total zeros = 0 := by simp [total, zeros]

theorem total_update (g : Grid) (r : Fin gridRows) (c : Fin gridCols) :
    total (Function.update g r (Function.update (g r) c (g r c + 1))) = total g + 1 := by
  have hrow := sum_update_add (g r) (Finset.mem_univ c) (g r c + 1)
  have hsums (k : Fin gridRows) : ∑ j, Function.update g r (Function.update (g r) c (g r c + 1)) k j =
      Function.update (fun k => ∑ j, g k j) r (∑ j, Function.update (g r) c (g r c + 1) j) k := by
    by_cases hk : k = r
    · subst hk
      rw [Function.update_self, Function.update_self]
    · rw [Function.update_of_ne hk, Function.update_of_ne hk]
  have hrows := sum_update_add (fun k => ∑ j, g k j) (Finset.mem_univ r)
    (∑ j, Function.update (g r) c (g r c + 1) j)
  calc total (Function.update g r (Function.update (g r) c (g r c + 1)))
      = ∑ k, Function.update (fun k => ∑ j, g k j) r (∑ j, Function.update (g r) c (g r c + 1) j) k :=
        Finset.sum_congr rfl fun k _ => hsums k
    _ = (∑ k, ∑ j, g k j) + 1 := by omega

/-- A cell of the grid can be incremented, and then there is one more. -/
theorem increment_spec {cell : Int × Int} (h : Inside cell) (g : Grid) :
    ∃ g', increment g cell = some g' ∧ total g' = total g + 1 := by
  obtain ⟨cy, hy⟩ := npIndex_of_mem h.1
  obtain ⟨cx, hx⟩ := npIndex_of_mem h.2
  refine ⟨_, ?_, total_update g cy cx⟩
  simp [increment, hy, hx]

/-- An update raises no error and counts its persons. -/
theorem count_spec (u : Update) (g : Grid) : ∃ g', u.count g = some g' ∧ total g' = total g + u.persons.length := by
  unfold Update.count
  generalize u.persons = ps
  induction ps generalizing g with
  | nil => exact ⟨g, rfl, (Nat.add_zero _).symm⟩
  | cons p ps ih =>
    obtain ⟨g₁, hone, htotal⟩ := increment_spec (inside_cellOf u p) g
    obtain ⟨g₂, hrest, hsum⟩ := ih g₁
    refine ⟨g₂, ?_, ?_⟩
    · rw [List.foldlM_cons, hone]
      exact hrest
    · rw [hsum, htotal, List.length_cons, Nat.add_assoc, Nat.add_comm 1]

/-! ## Updates that take turns -/

/-- The counts in what Redis holds. -/
def counts (raw : Option Grid) : Nat := total (raw.getD zeros)

theorem prog_eq {u : Update} (h : u.persons ≠ []) :
    u.prog = rewrite (fun raw => u.count (raw.getD zeros)) (some ()) := by
  rw [Update.prog, if_neg h, rewrite]
  congr 1
  funext raw
  obtain ⟨g, hg, -⟩ := count_spec u (raw.getD zeros)
  rw [hg]

theorem adds : Adds Update.prog counts fun u => u.persons.length := by
  intro u
  by_cases h : u.persons = []
  · refine .inl ⟨List.length_eq_zero_iff.2 h, some (), ?_⟩
    rw [Update.prog, if_pos h]
  · refine .inr ⟨List.length_pos_iff.2 h, _, _, prog_eq h, fun raw => ?_⟩
    obtain ⟨g, hg, htotal⟩ := count_spec u (raw.getD zeros)
    rw [hg]
    exact htotal

/-- What Redis holds for the camera after `turns`, each the next statement of one of
the updates. -/
def gridAfter (us : List Update) (turns : List Nat) : Option Grid := (cellAfter Update.prog none us turns).store

def Finished (us : List Update) (turns : List Nat) : Prop := (cellAfter Update.prog none us turns).Idle

/-- The grid sums to the number of persons, each counted in a cell inside it. -/
def Counted (us : List Update) (turns : List Nat) : Prop :=
  counts (gridAfter us turns) = (us.map fun u => u.persons.length).sum ∧
    ∀ u ∈ us, ∀ p ∈ u.persons, Inside (u.cellOf p)

/-- No update writes between the read and the write of another. -/
def NeverBetween (us : List Update) (turns : List Nat) : Prop :=
  Mealy.Always (turn Update.prog) Alone (started Update.prog none us) turns

theorem heatmap_counts_iff (us : List Update) (turns : List Nat) (h : Finished us turns) :
    Counted us turns ↔ NeverBetween us turns := by
  have hempty : counts none = 0 := total_zeros
  have hmeasure := measure_iff adds none us turns h
  rw [hempty, Nat.zero_add] at hmeasure
  exact (and_iff_left fun u _ p _ => inside_cellOf u p).trans hmeasure

/-- One person in the middle of the frame. -/
def sighting : Update where
  persons := [{ trackId := 1, cameraId := "cam", bbox := ⟨610, 300, 670, 420⟩, confidence := 0.9, keypoints := [],
                timestamp := 0 }]
  width_pos := by decide
  height_pos := by decide

theorem started_sightings :
    started Update.prog none [sighting, sighting] =
      started (fun u => rewrite (fun raw => u.count (raw.getD zeros)) (some ())) none [sighting, sighting] := by
  have hprog := prog_eq (u := sighting) (List.cons_ne_nil _ _)
  refine started_congr (fun u hu => ?_) none
  rcases List.mem_pair.1 hu with rfl | rfl <;> exact hprog

/-- One update after the other. -/
theorem counted_in_turn : Counted [sighting, sighting] [0, 0, 1, 1] := by
  have hfinished : Finished [sighting, sighting] [0, 0, 1, 1] := by
    rw [Finished, cellAfter, started_sightings]
    rintro (_ | _ | j) <;> rfl
  refine (heatmap_counts_iff _ _ hfinished).2 ?_
  rw [NeverBetween, started_sightings]
  refine ⟨?_, ?_, ?_, ?_, trivial⟩
  · rintro ⟨q, y, hq, hset⟩
    cases hq
    cases hset
  · rintro - (_ | _ | j) hj ⟨q, y, hq, hset⟩
    · exact hj rfl
    · cases hq
      cases hset
    · cases hq
  · rintro ⟨q, y, hq, hset⟩
    cases hq
    cases hset
  · rintro - (_ | _ | j) hj ⟨q, y, hq, hset⟩
    · cases hq
    · exact hj rfl
    · cases hq

/-- Two updates read the empty grid, and the second to write knows of one person. -/
theorem not_counted_overlapping :
    ¬ ∀ (us : List Update) (turns : List Nat), Finished us turns → Counted us turns := by
  intro hclaim
  have hfinished : Finished [sighting, sighting] [0, 1, 0, 1] := by
    rw [Finished, cellAfter, started_sightings]
    rintro (_ | _ | j) <;> rfl
  have hgrid : gridAfter [sighting, sighting] [0, 1, 0, 1] = sighting.count zeros := by
    rw [gridAfter, cellAfter, started_sightings]
    rfl
  have hsum := (hclaim _ _ hfinished).1
  obtain ⟨g, hg, htotal⟩ := count_spec sighting zeros
  rw [hgrid, hg, counts, Option.getD_some, htotal, total_zeros] at hsum
  exact absurd hsum (by decide)

end Netra.Heatmap
