import Mathlib.Algebra.Order.Field.Rat
import Mathlib.Algebra.Order.Field.Basic
import Mathlib.Tactic.FieldSimp
import Mathlib.Tactic.Linarith
import Mathlib.Tactic.NormNum
import Mathlib.Tactic.Ring
/-!
# Skeletons in their own frame

`_normalise_skeleton` (`backend/services/shopformer/model.py`), with exact
numbers: each frame is moved to the midpoint of its hips and scaled by its torso.
A similarity of the plane moves hips and shoulders along, so it makes no
difference; the normal form of a skeleton is such an image of it, which makes
normalising idempotent.
-/
namespace Netra.Shopformer

/-- One frame of the array: `k` keypoints. -/
abbrev Skeleton (k : Nat) := Vector (ℚ × ℚ) k

def kpLHip : Nat := 11
def kpRHip : Nat := 12
def kpLSh : Nat := 5
def kpRSh : Nat := 6

/-- `hip_cx`, `hip_cy`, `sh_cy` -/
structure Anchors where
  hipCx : ℚ
  hipCy : ℚ
  shCy : ℚ

variable {k : Nat}

/-- The anchors of a frame; `none` is an `IndexError`. -/
def anchors (f : Skeleton k) : Option Anchors := do
  let lHip ← f[kpLHip]?
  let rHip ← f[kpRHip]?
  let lSh ← f[kpLSh]?
  let rSh ← f[kpRSh]?
  return { hipCx := (lHip.1 + rHip.1) / 2, hipCy := (lHip.2 + rHip.2) / 2, shCy := (lSh.2 + rSh.2) / 2 }

/-- `max(abs(hip_cy - sh_cy), 1e-6)` -/
def Anchors.torso (a : Anchors) : ℚ := max |a.hipCy - a.shCy| 1e-6

/-- `out[t, :, 0] = xs` -/
def setXs (out : Skeleton k) (xs : Vector ℚ k) : Skeleton k := out.zipWith (fun p x => (x, p.2)) xs

/-- `out[t, :, 1] = ys` -/
def setYs (out : Skeleton k) (ys : Vector ℚ k) : Skeleton k := out.zipWith (fun p y => (p.1, y)) ys

/-- The body of the loop: `f` is the frame of `arr`, and what is set are the columns
of its copy. -/
def normaliseFrame (f : Skeleton k) : Option (Skeleton k) := do
  let a ← anchors f
  let out := setXs f (f.map fun p => (p.1 - a.hipCx) / a.torso)
  return setYs out (f.map fun p => (p.2 - a.hipCy) / a.torso)

/-- `_normalise_skeleton` -/
def normaliseSkeleton (arr : List (Skeleton k)) : Option (List (Skeleton k)) := arr.mapM normaliseFrame

/-- The vertical distance of the midpoints of hips and shoulders. -/
def torsoHeight (f : Skeleton k) : Option ℚ := (anchors f).map fun a => |a.hipCy - a.shCy|

/-- The torso is not too short to scale by. -/
def LongTorso (f : Skeleton k) : Prop := ∃ height, torsoHeight f = some height ∧ 1e-6 ≤ height

/-! ## One frame -/

/-- A keypoint as the anchors see it. -/
def Anchors.centre (a : Anchors) (p : ℚ × ℚ) : ℚ × ℚ := ((p.1 - a.hipCx) / a.torso, (p.2 - a.hipCy) / a.torso)

theorem normaliseFrame_eq (f : Skeleton k) : normaliseFrame f = (anchors f).map fun a => f.map a.centre := by
  rw [normaliseFrame]
  cases anchors f with
  | none => rfl
  | some a =>
    refine congrArg some (Vector.ext fun i hi => ?_)
    simp [setXs, setYs, Anchors.centre]

/-! ## Similarities -/

/-- A uniform scale and a translation. -/
structure Similarity where
  dx : ℚ
  dy : ℚ
  s : ℚ
  pos : 0 < s

namespace Similarity

def apply (m : Similarity) (p : ℚ × ℚ) : ℚ × ℚ := (m.s * p.1 + m.dx, m.s * p.2 + m.dy)

/-- A frame moved. -/
def move (m : Similarity) (f : Skeleton k) : Skeleton k := f.map m.apply

def onAnchors (m : Similarity) (a : Anchors) : Anchors where
  hipCx := m.s * a.hipCx + m.dx
  hipCy := m.s * a.hipCy + m.dy
  shCy := m.s * a.shCy + m.dy

/-- The anchors move along. -/
theorem anchors_move (m : Similarity) (f : Skeleton k) : anchors (m.move f) = (anchors f).map m.onAnchors := by
  simp only [anchors, move, Vector.getElem?_map]
  cases f[kpLHip]? with
  | none => rfl
  | some lHip =>
    cases f[kpRHip]? with
    | none => rfl
    | some rHip =>
      cases f[kpLSh]? with
      | none => rfl
      | some lSh =>
        cases f[kpRSh]? with
        | none => rfl
        | some rSh =>
          simp [onAnchors, apply]
          refine ⟨?_, ?_, ?_⟩ <;> ring

/-- The anchors see a keypoint as they did before both were moved. -/
theorem centre_move (m : Similarity) {a : Anchors} (h : 1e-6 ≤ |a.hipCy - a.shCy|)
    (h' : 1e-6 ≤ |(m.onAnchors a).hipCy - (m.onAnchors a).shCy|) (p : ℚ × ℚ) :
    (m.onAnchors a).centre (m.apply p) = a.centre p := by
  have hscale : (m.onAnchors a).hipCy - (m.onAnchors a).shCy = m.s * (a.hipCy - a.shCy) := by
    simp only [onAnchors]
    ring
  have htorso : a.torso = |a.hipCy - a.shCy| := max_eq_left h
  have htorso' : (m.onAnchors a).torso = m.s * a.torso := by
    rw [Anchors.torso, max_eq_left h', hscale, abs_mul, abs_of_pos m.pos, htorso]
  have hpos : 0 < a.torso := lt_of_lt_of_le (by norm_num) (le_max_right _ _)
  have hs := m.pos.ne'
  rw [Anchors.centre, Anchors.centre, htorso', apply, onAnchors]
  ext
  · field_simp
    ring
  · field_simp
    ring

/-- Normalising does not see a similarity. -/
theorem normaliseFrame_move (m : Similarity) {f : Skeleton k} (h : LongTorso f) (h' : LongTorso (m.move f)) :
    ∃ out, normaliseFrame f = some out ∧ normaliseFrame (m.move f) = some out := by
  obtain ⟨height, hheight, hlong⟩ := h
  obtain ⟨height', hheight', hlong'⟩ := h'
  obtain ⟨a, ha, rfl⟩ := Option.map_eq_some_iff.1 hheight
  rw [torsoHeight, anchors_move, ha] at hheight'
  obtain rfl := Option.some.inj hheight'
  refine ⟨f.map a.centre, by rw [normaliseFrame_eq, ha, Option.map_some], ?_⟩
  rw [normaliseFrame_eq, anchors_move, ha, Option.map_some, Option.map_some, move, Vector.map_map]
  exact congrArg (fun g => some (f.map g)) (funext (m.centre_move hlong hlong'))

end Similarity

/-! ## Normal form -/

/-- The similarity that takes the hips to the origin and the torso to one. -/
def Anchors.toOrigin (a : Anchors) : Similarity where
  dx := -a.hipCx / a.torso
  dy := -a.hipCy / a.torso
  s := 1 / a.torso
  pos := one_div_pos.2 (lt_of_lt_of_le (by norm_num) (le_max_right _ _))

theorem Anchors.apply_toOrigin (a : Anchors) : a.toOrigin.apply = a.centre := by
  funext p
  rw [Similarity.apply, toOrigin, centre]
  ext <;> ring

/-- A normal form is an image of the skeleton, and its torso is one. -/
theorem normaliseFrame_spec {f : Skeleton k} (h : LongTorso f) :
    ∃ m : Similarity, normaliseFrame f = some (m.move f) ∧ LongTorso (m.move f) := by
  obtain ⟨height, hheight, hlong⟩ := h
  obtain ⟨a, ha, rfl⟩ := Option.map_eq_some_iff.1 hheight
  refine ⟨a.toOrigin, ?_, 1, ?_, by norm_num⟩
  · rw [normaliseFrame_eq, ha, Option.map_some, Similarity.move, a.apply_toOrigin]
  · have htorso : a.torso = |a.hipCy - a.shCy| := max_eq_left hlong
    have hpos : 0 < a.torso := lt_of_lt_of_le (by norm_num) (le_max_right _ _)
    have hone : (a.toOrigin.onAnchors a).hipCy - (a.toOrigin.onAnchors a).shCy = (a.hipCy - a.shCy) / a.torso := by
      simp only [Similarity.onAnchors, Anchors.toOrigin]
      ring
    rw [torsoHeight, Similarity.anchors_move, ha, Option.map_some, Option.map_some, hone, abs_div, ← htorso,
      abs_of_pos hpos, div_self hpos.ne']

theorem normaliseFrame_twice {f : Skeleton k} (h : LongTorso f) :
    ∃ out, normaliseFrame f = some out ∧ normaliseFrame out = some out := by
  obtain ⟨m, hout, hlong⟩ := normaliseFrame_spec h
  obtain ⟨out, hf, hmoved⟩ := m.normaliseFrame_move h hlong
  obtain rfl := Option.some.inj (hout.symm.trans hf)
  exact ⟨_, hout, hmoved⟩

/-! ## Sequences -/

theorem normaliseSkeleton_map {α : Type} {xs : List α} {g out : α → Skeleton k}
    (h : ∀ x ∈ xs, normaliseFrame (g x) = some (out x)) : normaliseSkeleton (xs.map g) = some (xs.map out) := by
  unfold normaliseSkeleton
  induction xs with
  | nil => rfl
  | cons x xs ih =>
    obtain ⟨hx, hxs⟩ := List.forall_mem_cons.1 h
    rw [List.map_cons, List.mapM_cons, hx, ih hxs]
    rfl

/-- The normal form of a frame that has one. -/
def normalForm (f : Skeleton k) : Skeleton k := (normaliseFrame f).getD f

theorem normaliseFrame_normalForm {f : Skeleton k} (h : LongTorso f) :
    normaliseFrame f = some (normalForm f) ∧ normaliseFrame (normalForm f) = some (normalForm f) := by
  obtain ⟨out, hout, htwice⟩ := normaliseFrame_twice h
  have hform : normalForm f = out := by rw [normalForm, hout, Option.getD_some]
  rw [hform]
  exact ⟨hout, htwice⟩

/-- A sequence and one whose frames are moved have the same normal form, and a normal
form is its own. -/
theorem normalise_invariant (k : Nat) :
    (∀ xs : List (Similarity × Skeleton k), (∀ x ∈ xs, LongTorso x.2 ∧ LongTorso (x.1.move x.2)) →
      ∃ outs, normaliseSkeleton (xs.map fun x => x.2) = some outs ∧
        normaliseSkeleton (xs.map fun x => x.1.move x.2) = some outs) ∧
    ∀ arr : List (Skeleton k), (∀ f ∈ arr, LongTorso f) →
      ∃ outs, normaliseSkeleton arr = some outs ∧ normaliseSkeleton outs = some outs := by
  constructor
  · intro xs h
    refine ⟨xs.map fun x => normalForm x.2, normaliseSkeleton_map fun x hx => ?_, normaliseSkeleton_map fun x hx => ?_⟩
    · exact (normaliseFrame_normalForm (h x hx).1).1
    · obtain ⟨hlong, hlong'⟩ := h x hx
      obtain ⟨out, hout, hmoved⟩ := x.1.normaliseFrame_move hlong hlong'
      rw [hmoved, ← hout, (normaliseFrame_normalForm hlong).1]
  · intro arr h
    have honce : normaliseSkeleton (arr.map fun f => f) = some (arr.map normalForm) :=
      normaliseSkeleton_map fun f hf => (normaliseFrame_normalForm (h f hf)).1
    rw [List.map_id'] at honce
    exact ⟨_, honce, normaliseSkeleton_map fun f hf => (normaliseFrame_normalForm (h f hf)).2⟩

/-- The face, shoulders and arms at height 40, the hips at `hips`. -/
def upright (hips : ℚ) : Skeleton 13 :=
  Vector.ofFn fun i => if i.val < 11 then (100 + i.val, 40) else (100 + i.val, hips)

/-- Twice as large, and further to the right. -/
def nearer : Similarity := ⟨200, -30, 2, by norm_num⟩

/-- Smaller, and further to the left. -/
def farther : Similarity := ⟨-40, 25, 1 / 2, by norm_num⟩

/-- Two frames, which are moved differently. -/
def approaching : List (Similarity × Skeleton 13) := [(farther, upright 90), (nearer, upright 80)]

theorem normalise_invariant_approaching :
    (∃ outs, normaliseSkeleton (approaching.map fun x => x.2) = some outs ∧
        normaliseSkeleton (approaching.map fun x => x.1.move x.2) = some outs) ∧
      ∃ outs, normaliseSkeleton (approaching.map fun x => x.2) = some outs ∧ normaliseSkeleton outs = some outs := by
  have hfirst : LongTorso (upright 90) := ⟨50, by decide +kernel, by norm_num⟩
  have hfirst' : LongTorso (farther.move (upright 90)) := ⟨25, by decide +kernel, by norm_num⟩
  have hsecond : LongTorso (upright 80) := ⟨40, by decide +kernel, by norm_num⟩
  have hsecond' : LongTorso (nearer.move (upright 80)) := ⟨80, by decide +kernel, by norm_num⟩
  exact ⟨(normalise_invariant 13).1 approaching (by simpa [approaching] using ⟨⟨hfirst, hfirst'⟩, hsecond, hsecond'⟩),
    (normalise_invariant 13).2 _ (by simpa [approaching] using ⟨hfirst, hsecond⟩)⟩

end Netra.Shopformer
