import Netra.Behavior.Hands
/-!
# Left and right

Swapping the sides of a skeleton changes neither its centres nor the distance of
the nearer hand. The region loop takes the hands in turn and returns from the
first one that fits anything, so the reported type can change: `mirror_iff`.
-/
namespace Netra.Behavior

/-- The index of the same joint on the other side, for wrists, hips and shoulders. -/
def otherSide : Nat → Nat
  | 5 => 6
  | 6 => 5
  | 9 => 10
  | 10 => 9
  | 11 => 12
  | 12 => 11
  | idx => idx

/-- The skeleton with its sides swapped. -/
def swapSides (keypoints : List Keypoint) : List Keypoint :=
  keypoints.mapIdx fun idx k => (keypoints[otherSide idx]?).getD k

/-- `x` is above the shoulders, and `y` in the torso region below them. -/
def Split (shoulder : Option Point) (hip x y : Point) : Prop :=
  Above shoulder x ∧ ¬ Above shoulder y ∧ Torso shoulder hip y

/-- A hand is near the hips, and the two fit different regions of the first loop. -/
def HandsSplit (h : Host) (w : Settings) (keypoints : List Keypoint) (threshold : ℚ) : Prop :=
  ∃ l r hip, kp w keypoints kpLeftWrist = some l ∧ kp w keypoints kpRightWrist = some r ∧
    hipCentre w keypoints = some hip ∧ (Near h w keypoints threshold l ∨ Near h w keypoints threshold r) ∧
    (Split (shoulderCentre w keypoints) hip l r ∨ Split (shoulderCentre w keypoints) hip r l)

/-! ## The loops on swapped hands -/

section
variable {shoulder : Option Point} {hip l r : Point}

/-- Hands that are split give the region of the one looked at first. -/
theorem loops_split {c : ConcealmentType} (hc : Loops shoulder hip l r c) :
    (Split shoulder hip l r → c = .handToHoodie) ∧ (Split shoulder hip r l → c = .handToShirt) := by
  unfold Split
  cases hc <;> tauto

/-- Hands that are not split give one region in either order. -/
theorem loops_swap {c c' : ConcealmentType} (hc : Loops shoulder hip l r c) (hc' : Loops shoulder hip r l c')
    (hl : ¬ Split shoulder hip l r) (hr : ¬ Split shoulder hip r l) : c = c' := by
  unfold Split at hl hr
  cases hc <;> cases hc' <;> tauto

theorem loopRegion_swap : loopRegion shoulder hip [some r, some l] = loopRegion shoulder hip [some l, some r] ↔
    ¬ (Split shoulder hip l r ∨ Split shoulder hip r l) := by
  have hlr : Loops shoulder hip l r (loopRegion shoulder hip [some l, some r]) := loops_spec
  have hrl : Loops shoulder hip r l (loopRegion shoulder hip [some r, some l]) := loops_spec
  constructor
  · rintro hsame (hsplit | hsplit)
    · rw [(loops_split hlr).1 hsplit, (loops_split hrl).2 hsplit] at hsame
      cases hsame
    · rw [(loops_split hlr).2 hsplit, (loops_split hrl).1 hsplit] at hsame
      cases hsame
  · rintro hno
    obtain ⟨hl, hr⟩ := not_or.1 hno
    exact loops_swap hrl hlr hr hl

/-- With a hand hidden there is only one order. -/
theorem loopRegion_hidden (x : Option Point) :
    loopRegion shoulder hip [none, x] = loopRegion shoulder hip [x, none] := by
  cases x with
  | none => rfl
  | some x => exact loopRegion_one.2.trans loopRegion_one.1.symm

end

/-! ## Swapped skeletons -/

theorem midpoint_comm (a b : Option Point) : midpoint a b = midpoint b a := by
  cases a with
  | none => cases b <;> rfl
  | some a =>
    cases b with
    | none => rfl
    | some b => rw [midpoint, midpoint, add_comm a.1, add_comm a.2]

theorem otherSide_lt {n idx : Nat} (hn : 13 ≤ n) : otherSide idx < n ↔ idx < n := by
  unfold otherSide
  split <;> omega

theorem getElem?_swapSides {keypoints : List Keypoint} (hlen : 13 ≤ keypoints.length) (idx : Nat) :
    (swapSides keypoints)[idx]? = keypoints[otherSide idx]? := by
  rw [swapSides, List.getElem?_mapIdx]
  by_cases hidx : idx < keypoints.length
  · have hother := (otherSide_lt hlen).2 hidx
    rw [List.getElem?_eq_getElem hidx, List.getElem?_eq_getElem hother]
    rfl
  · have hother := (otherSide_lt hlen).not.2 hidx
    rw [List.getElem?_eq_none (not_lt.1 hidx), List.getElem?_eq_none (not_lt.1 hother)]
    rfl

section
variable {w : Settings} {keypoints : List Keypoint}

theorem kp_swapSides (hlen : 13 ≤ keypoints.length) (idx : Nat) :
    kp w (swapSides keypoints) idx = kp w keypoints (otherSide idx) := by
  rw [kp, kp, getElem?_swapSides hlen]

theorem hipCentre_swapSides (hlen : 13 ≤ keypoints.length) :
    hipCentre w (swapSides keypoints) = hipCentre w keypoints := by
  rw [hipCentre, kp_swapSides hlen, kp_swapSides hlen, midpoint_comm]
  rfl

theorem shoulderCentre_swapSides (hlen : 13 ≤ keypoints.length) :
    shoulderCentre w (swapSides keypoints) = shoulderCentre w keypoints := by
  rw [shoulderCentre, kp_swapSides hlen, kp_swapSides hlen, midpoint_comm]
  rfl

/-- The distance that is reported, with any type. -/
theorem classify_dist (h : Host) (w : Settings) (keypoints : List Keypoint) (threshold : ℚ) :
    (classifyConcealment h w keypoints threshold).2 =
      min (dist h (kp w keypoints kpLeftWrist) (hipCentre w keypoints))
        (dist h (kp w keypoints kpRightWrist) (hipCentre w keypoints)) := by
  unfold classifyConcealment hipCentre
  dsimp only
  split
  · rfl
  · split
    · rfl
    · split
      · rfl
      · split <;> rfl

theorem classify_dist_swapSides (h : Host) (hlen : 13 ≤ keypoints.length) (threshold : ℚ) :
    (classifyConcealment h w (swapSides keypoints) threshold).2 = (classifyConcealment h w keypoints threshold).2 := by
  rw [classify_dist, classify_dist, hipCentre_swapSides hlen, kp_swapSides hlen, kp_swapSides hlen, min_comm]
  rfl

theorem someNear_swapSides (h : Host) (hlen : 13 ≤ keypoints.length) (threshold : ℚ) :
    SomeNear h w (swapSides keypoints) threshold ↔ SomeNear h w keypoints threshold := by
  rw [someNear_iff, someNear_iff, ← classify_dist h w (swapSides keypoints) threshold,
    ← classify_dist h w keypoints threshold, classify_dist_swapSides h hlen]

/-- The type, for the hands `lw` and `rw`. -/
theorem classify_type_near {h : Host} {threshold : ℚ} {hip : Point} (hhip : hipCentre w keypoints = some hip)
    (hnear : SomeNear h w keypoints threshold) : (classifyConcealment h w keypoints threshold).1 =
      loopRegion (shoulderCentre w keypoints) hip [kp w keypoints kpLeftWrist, kp w keypoints kpRightWrist] := by
  have hdist := (someNear_iff h w keypoints threshold).1 hnear
  rw [hhip] at hdist
  rw [classify_type, hhip]
  exact if_pos hdist

theorem classify_type_far {h : Host} {threshold : ℚ}
    (hfar : hipCentre w keypoints = none ∨ ¬ SomeNear h w keypoints threshold) :
    (classifyConcealment h w keypoints threshold).1 = .none := by
  rw [classify_type]
  cases hhip : hipCentre w keypoints with
  | none => rfl
  | some hip =>
    rw [hhip, someNear_iff, hhip] at hfar
    exact if_neg (hfar.resolve_left (Option.some_ne_none hip))

end

/-- Swapping the sides leaves type and distance as they are exactly when the hands,
one of them near the hips, are not split. -/
theorem mirror_iff (h : Host) (w : Settings) (keypoints : List Keypoint) (threshold : ℚ)
    (hlen : 13 ≤ keypoints.length) :
    classifyConcealment h w (swapSides keypoints) threshold = classifyConcealment h w keypoints threshold ↔
      ¬ HandsSplit h w keypoints threshold := by
  rw [Prod.ext_iff, and_iff_left (classify_dist_swapSides h hlen threshold)]
  by_cases hfar : hipCentre w keypoints = none ∨ ¬ SomeNear h w keypoints threshold
  · rw [classify_type_far hfar, classify_type_far (by rwa [hipCentre_swapSides hlen, someNear_swapSides h hlen])]
    refine iff_of_true rfl ?_
    rintro ⟨l, r, hip, hl, hr, hhip, hnear, -⟩
    rcases hfar with hnone | hfar
    · rw [hnone] at hhip
      cases hhip
    · exact hfar (hnear.elim (fun hn => ⟨l, .inl hl, hn⟩) fun hn => ⟨r, .inr hr, hn⟩)
  · obtain ⟨hhip, hnear⟩ := not_or.1 hfar
    rw [not_not] at hnear
    obtain ⟨hip, hhip⟩ := Option.ne_none_iff_exists'.1 hhip
    rw [classify_type_near hhip hnear,
      classify_type_near (by rwa [hipCentre_swapSides hlen]) ((someNear_swapSides h hlen threshold).2 hnear),
      shoulderCentre_swapSides hlen, kp_swapSides hlen, kp_swapSides hlen]
    have hother : otherSide kpLeftWrist = kpRightWrist ∧ otherSide kpRightWrist = kpLeftWrist := ⟨rfl, rfl⟩
    rw [hother.1, hother.2, HandsSplit, hhip]
    obtain ⟨x, hx, hxnear⟩ := hnear
    cases hl : kp w keypoints kpLeftWrist with
    | none => simp [loopRegion_hidden]
    | some l =>
      cases hr : kp w keypoints kpRightWrist with
      | none => simp [loopRegion_hidden]
      | some r =>
        rw [loopRegion_swap]
        have hsome : Near h w keypoints threshold l ∨ Near h w keypoints threshold r := by
          rw [hl, hr] at hx
          rcases hx with hx | hx <;> obtain rfl := Option.some.inj hx
          · exact .inl hxnear
          · exact .inr hxnear
        simp [hsome]

/-- The left hand at the chest, the right one above the shoulders. -/
def reaching : List Keypoint :=
  List.replicate 5 ⟨0, 0, 0⟩ ++ [⟨140, 200, 0.9⟩, ⟨140, 200, 0.9⟩, ⟨0, 0, 0⟩, ⟨0, 0, 0⟩, ⟨140, 300, 0.9⟩,
    ⟨140, 190, 0.9⟩, ⟨140, 370, 0.9⟩, ⟨140, 370, 0.9⟩]

/-- Both hands at the hips. -/
def atHips : List Keypoint :=
  List.replicate 5 ⟨0, 0, 0⟩ ++ [⟨130, 200, 0.9⟩, ⟨150, 200, 0.9⟩, ⟨0, 0, 0⟩, ⟨0, 0, 0⟩, ⟨120, 360, 0.9⟩,
    ⟨160, 365, 0.9⟩, ⟨130, 370, 0.9⟩, ⟨150, 370, 0.9⟩]

theorem mirror_iff_atHips :
    classifyConcealment .reference .default (swapSides atHips) 110 =
      classifyConcealment .reference .default atHips 110 := by
  refine (mirror_iff .reference .default atHips 110 (by decide)).2 ?_
  have hleft : kp .default atHips kpLeftWrist = some (120, 360) := by
    decide +kernel
  have hright : kp .default atHips kpRightWrist = some (160, 365) := by
    decide +kernel
  have hshoulder : shoulderCentre .default atHips = some (140, 200) := by
    decide +kernel
  rintro ⟨l, r, hip, hl, hr, -, -, hsplit⟩
  rw [hleft] at hl
  rw [hright] at hr
  obtain rfl := Option.some.inj hl
  obtain rfl := Option.some.inj hr
  rw [hshoulder] at hsplit
  rcases hsplit with ⟨habove, -⟩ | ⟨habove, -⟩ <;> rw [above_some] at habove <;> exact absurd habove (by decide +kernel)

theorem mirror_fails :
    ¬ ∀ (h : Host) (w : Settings) (keypoints : List Keypoint) (threshold : ℚ), 13 ≤ keypoints.length →
      classifyConcealment h w (swapSides keypoints) threshold = classifyConcealment h w keypoints threshold := by
  intro hall
  exact absurd (hall .reference .default reaching 110 (by decide)) (by decide +kernel)

end Netra.Behavior
