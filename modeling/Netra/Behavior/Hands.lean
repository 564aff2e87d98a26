import Netra.Behavior.Fsm
/-!
# Which hand conceals

`classify_concealment` asks whether some wrist is near the hips, and then takes
the first wrist whose height fits a region, near or not. `right_hand_iff` says
when the reported region is that of a wrist that is near.
-/
namespace Netra.Behavior

/-! ## Heights -/

section
variable (shoulder : Option Point) (hip x : Point)

/-- Above the shoulder centre, if there is one. -/
def Above : Prop := ∃ s, shoulder = some s ∧ x.2 < s.2

/-- More than 20 px above the hip centre, which is looked at with a shoulder centre only. -/
def Torso : Prop := shoulder.isSome ∧ x.2 < hip.2 - 20

/-- More than 20 px below the hip centre. -/
def Below : Prop := hip.2 + 20 < x.2

/-- The region test of a concealment type. -/
def Fits : ConcealmentType → Prop
  | .handToHoodie => Above shoulder x
  | .handToShirt => x.2 < hip.2 - 20
  | .handToPants => Below hip x
  | .handToPocket => True
  | _ => False

/-- The far hand `far` decides a region that the near hand `near` is not in; `first`
says that the far hand is the left one, which is looked at first. -/
def FarDecides (first : Prop) (far near : Point) : Prop :=
  (Above shoulder far ∧ ¬ Above shoulder near ∧ (first ∨ ¬ Torso shoulder hip near)) ∨
  (¬ Above shoulder far ∧ Torso shoulder hip far ∧ ¬ Torso shoulder hip near ∧ (first ∨ ¬ Above shoulder near)) ∨
  (¬ Above shoulder far ∧ ¬ Torso shoulder hip far ∧ ¬ Above shoulder near ∧ ¬ Torso shoulder hip near ∧
    Below hip far ∧ ¬ Below hip near)

end

section
variable (h : Host) (w : Settings) (keypoints : List Keypoint) (threshold : ℚ)

def hipCentre : Option Point := midpoint (kp w keypoints kpLeftHip) (kp w keypoints kpRightHip)

def shoulderCentre : Option Point := midpoint (kp w keypoints kpLeftShoulder) (kp w keypoints kpRightShoulder)

/-- The hand is within the threshold of the hip centre. -/
def Near (x : Point) : Prop := dist h (some x) (hipCentre w keypoints) ≤ threshold

/-- A reported concealment is that of a visible hand near the hips. -/
def RightHand : Prop :=
  (classifyConcealment h w keypoints threshold).1 ≠ .none →
    ∃ x hip, (kp w keypoints kpLeftWrist = some x ∨ kp w keypoints kpRightWrist = some x) ∧
      hipCentre w keypoints = some hip ∧ Near h w keypoints threshold x ∧
      Fits (shoulderCentre w keypoints) hip x (classifyConcealment h w keypoints threshold).1

/-- One hand is near the hips, the other is not and decides. -/
def FarHandDecides : Prop :=
  ∃ l r hip, kp w keypoints kpLeftWrist = some l ∧ kp w keypoints kpRightWrist = some r ∧
    hipCentre w keypoints = some hip ∧
    ((¬ Near h w keypoints threshold l ∧ Near h w keypoints threshold r ∧
        FarDecides (shoulderCentre w keypoints) hip True l r) ∨
      (¬ Near h w keypoints threshold r ∧ Near h w keypoints threshold l ∧
        FarDecides (shoulderCentre w keypoints) hip False r l))

end

/-! ## The region loops -/

/-- The region that the loops find. -/
def loopRegion (shoulder : Option Point) (hip : Point) (wrists : List (Option Point)) : ConcealmentType :=
  let torso := match shoulder with
    | some shoulder => torsoRegion shoulder hip wrists
    | none => none
  (torso.orElse fun _ => pantsRegion hip wrists).getD .handToPocket

section
variable {shoulder : Option Point} {hip x l r : Point}

theorem loopRegion_none : loopRegion none hip [some l, some r] =
    if hip.2 + 20 < l.2 then .handToPants else if hip.2 + 20 < r.2 then .handToPants else .handToPocket := by
  simp only [loopRegion, pantsRegion]
  split_ifs <;> rfl

theorem loopRegion_some (s : Point) : loopRegion (some s) hip [some l, some r] =
    if l.2 < s.2 then .handToHoodie else if l.2 < hip.2 - 20 then .handToShirt
    else if r.2 < s.2 then .handToHoodie else if r.2 < hip.2 - 20 then .handToShirt
    else loopRegion none hip [some l, some r] := by
  simp only [loopRegion, torsoRegion, pantsRegion]
  split_ifs <;> rfl

/-- What the loops make of two visible hands. -/
inductive Loops (shoulder : Option Point) (hip l r : Point) : ConcealmentType → Prop
  | leftHoodie : Above shoulder l → Loops shoulder hip l r .handToHoodie
  | leftShirt : ¬ Above shoulder l → Torso shoulder hip l → Loops shoulder hip l r .handToShirt
  | rightHoodie : ¬ Above shoulder l → ¬ Torso shoulder hip l → Above shoulder r → Loops shoulder hip l r .handToHoodie
  | rightShirt : ¬ Above shoulder l → ¬ Torso shoulder hip l → ¬ Above shoulder r → Torso shoulder hip r →
      Loops shoulder hip l r .handToShirt
  | pants : ¬ Above shoulder l → ¬ Torso shoulder hip l → ¬ Above shoulder r → ¬ Torso shoulder hip r →
      (Below hip l ∨ Below hip r) → Loops shoulder hip l r .handToPants
  | pocket : ¬ Above shoulder l → ¬ Torso shoulder hip l → ¬ Above shoulder r → ¬ Torso shoulder hip r →
      ¬ Below hip l → ¬ Below hip r → Loops shoulder hip l r .handToPocket

theorem above_some {s : Point} : Above (some s) x ↔ x.2 < s.2 := by
  simp [Above]

theorem torso_some {s : Point} : Torso (some s) hip x ↔ x.2 < hip.2 - 20 := by
  simp [Torso]

theorem not_above_none : ¬ Above none x := by
  simp [Above]

theorem not_torso_none : ¬ Torso none hip x := by
  simp [Torso]

theorem loops_below (hal : ¬ Above shoulder l) (htl : ¬ Torso shoulder hip l) (har : ¬ Above shoulder r)
    (htr : ¬ Torso shoulder hip r) : Loops shoulder hip l r (loopRegion none hip [some l, some r]) := by
  rw [loopRegion_none]
  split
  · rename_i hl
    exact .pants hal htl har htr (.inl hl)
  · rename_i hl
    split
    · rename_i hr
      exact .pants hal htl har htr (.inr hr)
    · rename_i hr
      exact .pocket hal htl har htr hl hr

theorem loops_spec : Loops shoulder hip l r (loopRegion shoulder hip [some l, some r]) := by
  cases shoulder with
  | none => exact loops_below not_above_none not_torso_none not_above_none not_torso_none
  | some s =>
    rw [loopRegion_some]
    split
    · rename_i hal
      exact .leftHoodie (above_some.2 hal)
    · rename_i hal
      rw [← above_some] at hal
      split
      · rename_i htl
        exact .leftShirt hal (torso_some.2 htl)
      · rename_i htl
        rw [← torso_some (s := s)] at htl
        split
        · rename_i har
          exact .rightHoodie hal htl (above_some.2 har)
        · rename_i har
          rw [← above_some] at har
          split
          · rename_i htr
            exact .rightShirt hal htl har (torso_some.2 htr)
          · rename_i htr
            rw [← torso_some (s := s)] at htr
            exact loops_below hal htl har htr

/-- One of two hands fits the region they give. -/
theorem fits_some {c : ConcealmentType} (hc : Loops shoulder hip l r c) :
    Fits shoulder hip l c ∨ Fits shoulder hip r c := by
  cases hc with
  | leftHoodie hal => exact .inl hal
  | leftShirt _ htl => exact .inl htl.2
  | rightHoodie _ _ har => exact .inr har
  | rightShirt _ _ _ htr => exact .inr htr.2
  | pants _ _ _ _ hb => exact hb
  | pocket => exact .inl trivial

/-- A second look at a hand changes nothing. -/
theorem loopRegion_one : loopRegion shoulder hip [some x, none] = loopRegion shoulder hip [some x, some x] ∧
    loopRegion shoulder hip [none, some x] = loopRegion shoulder hip [some x, some x] := by
  simp only [loopRegion, torsoRegion, pantsRegion]
  constructor <;> cases shoulder <;> dsimp only <;> split_ifs <;> rfl

theorem fits_shirt (hs : shoulder.isSome) : Fits shoulder hip x .handToShirt ↔ Torso shoulder hip x :=
  (and_iff_right hs).symm

/-- The left hand fits the region of both unless the right one decides otherwise. -/
theorem fits_left {c : ConcealmentType} (hc : Loops shoulder hip l r c) :
    Fits shoulder hip l c ↔ ¬ FarDecides shoulder hip False r l := by
  unfold FarDecides
  cases hc with
  | leftHoodie hal =>
    have hfit : Fits shoulder hip l .handToHoodie := hal
    tauto
  | leftShirt hal htl =>
    have hfit : Fits shoulder hip l .handToShirt := htl.2
    tauto
  | rightHoodie hal htl har =>
    have hfit : ¬ Fits shoulder hip l .handToHoodie := hal
    tauto
  | rightShirt hal htl har htr =>
    have hfit : ¬ Fits shoulder hip l .handToShirt := fun hf => htl ((fits_shirt htr.1).1 hf)
    tauto
  | pants hal htl har htr hb =>
    have hfit : Fits shoulder hip l .handToPants ↔ Below hip l := Iff.rfl
    tauto
  | pocket hal htl har htr hbl hbr =>
    have hfit : Fits shoulder hip l .handToPocket := trivial
    tauto

/-- The right hand fits the region of both unless the left one decides otherwise. -/
theorem fits_right {c : ConcealmentType} (hc : Loops shoulder hip l r c) :
    Fits shoulder hip r c ↔ ¬ FarDecides shoulder hip True l r := by
  unfold FarDecides
  cases hc with
  | leftHoodie hal =>
    have hfit : Fits shoulder hip r .handToHoodie ↔ Above shoulder r := Iff.rfl
    tauto
  | leftShirt hal htl =>
    have hfit : Fits shoulder hip r .handToShirt ↔ Torso shoulder hip r := fits_shirt htl.1
    tauto
  | rightHoodie hal htl har =>
    have hfit : Fits shoulder hip r .handToHoodie := har
    tauto
  | rightShirt hal htl har htr =>
    have hfit : Fits shoulder hip r .handToShirt := htr.2
    tauto
  | pants hal htl har htr hb =>
    have hfit : Fits shoulder hip r .handToPants ↔ Below hip r := Iff.rfl
    tauto
  | pocket hal htl har htr hbl hbr =>
    have hfit : Fits shoulder hip r .handToPocket := trivial
    tauto

theorem loops_ne_none {c : ConcealmentType} (hc : Loops shoulder hip l r c) : c ≠ .none := by
  cases hc <;> exact ConcealmentType.noConfusion

theorem loopRegion_ne_none (lw rw : Option Point) : loopRegion shoulder hip [lw, rw] ≠ .none := by
  cases lw with
  | none =>
    cases rw with
    | none => cases shoulder <;> exact ConcealmentType.noConfusion
    | some r => exact loopRegion_one.2 ▸ loops_ne_none loops_spec
  | some l =>
    cases rw with
    | none => exact loopRegion_one.1 ▸ loops_ne_none loops_spec
    | some r => exact loops_ne_none loops_spec

/-- Whichever hands are visible, and whichever of them are `N`. -/
theorem hands_iff (shoulder : Option Point) (hip : Point) {N : Point → Prop} {lw rw : Option Point}
    (hN : ∃ x, (lw = some x ∨ rw = some x) ∧ N x) :
    (∃ x, (lw = some x ∨ rw = some x) ∧ N x ∧ Fits shoulder hip x (loopRegion shoulder hip [lw, rw])) ↔
      ¬ ∃ l r, lw = some l ∧ rw = some r ∧
        ((¬ N l ∧ N r ∧ FarDecides shoulder hip True l r) ∨ (¬ N r ∧ N l ∧ FarDecides shoulder hip False r l)) := by
  cases lw with
  | none =>
    cases rw with
    | none => simp at hN
    | some r =>
      have hr : N r := by simpa using hN
      have hfit : Fits shoulder hip r (loopRegion shoulder hip [none, some r]) :=
        loopRegion_one.2 ▸ (fits_some loops_spec).elim id id
      simp [hr, hfit]
  | some l =>
    cases rw with
    | none =>
      have hl : N l := by simpa using hN
      have hfit : Fits shoulder hip l (loopRegion shoulder hip [some l, none]) :=
        loopRegion_one.1 ▸ (fits_some loops_spec).elim id id
      simp [hl, hfit]
    | some r =>
      have hloops : Loops shoulder hip l r (loopRegion shoulder hip [some l, some r]) := loops_spec
      generalize loopRegion shoulder hip [some l, some r] = c at hloops
      have hfl := fits_left hloops
      have hfr := fits_right hloops
      have hsome := fits_some hloops
      simp only [Option.some.injEq, or_and_right, exists_or, exists_eq_left', exists_and_left] at hN ⊢
      tauto

end

/-! ## The classifier -/

section
variable {h : Host} {w : Settings} {keypoints : List Keypoint} {threshold : ℚ}

/-- A hand is near the hips. -/
def SomeNear (h : Host) (w : Settings) (keypoints : List Keypoint) (threshold : ℚ) : Prop :=
  ∃ x, (kp w keypoints kpLeftWrist = some x ∨ kp w keypoints kpRightWrist = some x) ∧ Near h w keypoints threshold x

theorem not_dist_none {b : Option Point} : ¬ dist h none b ≤ (threshold : WithTop ℚ) := by
  simp [dist]

theorem someNear_iff (h : Host) (w : Settings) (keypoints : List Keypoint) (threshold : ℚ) :
    SomeNear h w keypoints threshold ↔
      min (dist h (kp w keypoints kpLeftWrist) (hipCentre w keypoints))
        (dist h (kp w keypoints kpRightWrist) (hipCentre w keypoints)) ≤ threshold := by
  rw [min_le_iff]
  constructor
  · rintro ⟨x, hx | hx, hnear⟩
    · exact .inl (hx ▸ hnear)
    · exact .inr (hx ▸ hnear)
  · rintro (hle | hle)
    · cases hx : kp w keypoints kpLeftWrist with
      | none => exact absurd (hx ▸ hle) not_dist_none
      | some x => exact ⟨x, .inl hx, by rwa [hx] at hle⟩
    · cases hx : kp w keypoints kpRightWrist with
      | none => exact absurd (hx ▸ hle) not_dist_none
      | some x => exact ⟨x, .inr hx, by rwa [hx] at hle⟩

/-- The type is that of the loops when a hand is near. -/
theorem classify_type : (classifyConcealment h w keypoints threshold).1 =
    match hipCentre w keypoints with
    | none => .none
    | some hip =>
      if min (dist h (kp w keypoints kpLeftWrist) (some hip)) (dist h (kp w keypoints kpRightWrist) (some hip)) ≤
          threshold then
        loopRegion (shoulderCentre w keypoints) hip [kp w keypoints kpLeftWrist, kp w keypoints kpRightWrist]
      else .none := by
  unfold classifyConcealment hipCentre
  dsimp only
  cases midpoint (kp w keypoints kpLeftHip) (kp w keypoints kpRightHip) with
  | none =>
    dsimp only
    split <;> rfl
  | some hip =>
    dsimp only
    split
    · rename_i hfar
      rw [if_neg (not_le.2 hfar)]
    · rename_i hnear
      rw [if_pos (not_lt.1 hnear)]
      unfold loopRegion shoulderCentre
      dsimp only
      cases midpoint (kp w keypoints kpLeftShoulder) (kp w keypoints kpRightShoulder) with
      | none => cases pantsRegion hip [kp w keypoints kpLeftWrist, kp w keypoints kpRightWrist] <;> rfl
      | some shoulder =>
        dsimp only
        cases torsoRegion shoulder hip [kp w keypoints kpLeftWrist, kp w keypoints kpRightWrist] with
        | none => cases pantsRegion hip [kp w keypoints kpLeftWrist, kp w keypoints kpRightWrist] <;> rfl
        | some c => rfl

/-- The reported region is that of a hand near the hips exactly when no hand away
from them decides it against one that is near. -/
theorem right_hand_iff (h : Host) (w : Settings) (keypoints : List Keypoint) (threshold : ℚ) :
    RightHand h w keypoints threshold ↔ ¬ FarHandDecides h w keypoints threshold := by
  unfold RightHand FarHandDecides
  rw [classify_type]
  cases hhip : hipCentre w keypoints with
  | none => simp
  | some hip =>
    have hsome := someNear_iff h w keypoints threshold
    rw [hhip] at hsome
    dsimp only
    by_cases hnear : SomeNear h w keypoints threshold
    · rw [if_pos (hsome.1 hnear)]
      have hands := hands_iff (shoulderCentre w keypoints) hip hnear
      simp only [loopRegion_ne_none, ne_eq, not_false_eq_true, true_imp_iff, Option.some.injEq, exists_and_left,
        exists_eq_left'] at hands ⊢
      exact hands
    · rw [if_neg (hsome.not.1 hnear)]
      refine iff_of_true (fun hne => absurd rfl hne) ?_
      rintro ⟨l, r, -, hl, hr, -, ⟨-, hn, -⟩ | ⟨-, hn, -⟩⟩
      · exact hnear ⟨r, .inr hr, hn⟩
      · exact hnear ⟨l, .inl hl, hn⟩

/-- The left wrist is above the shoulders, the right one at the hips. -/
def waving : List Keypoint :=
  List.replicate 5 ⟨0, 0, 0⟩ ++ [⟨140, 200, 0.9⟩, ⟨140, 200, 0.9⟩, ⟨0, 0, 0⟩, ⟨0, 0, 0⟩, ⟨140, 100, 0.9⟩,
    ⟨140, 370, 0.9⟩, ⟨140, 370, 0.9⟩, ⟨140, 370, 0.9⟩]

theorem right_hand_fails :
    ¬ ∀ (h : Host) (w : Settings) (keypoints : List Keypoint) (threshold : ℚ), RightHand h w keypoints threshold := by
  intro hall
  have htype : (classifyConcealment .reference .default waving 110).1 = .handToHoodie := by
    decide +kernel
  have hleft : kp .default waving kpLeftWrist = some (140, 100) := by
    decide +kernel
  have hright : kp .default waving kpRightWrist = some (140, 370) := by
    decide +kernel
  have hshoulder : shoulderCentre .default waving = some (140, 200) := by
    decide +kernel
  have hclaim := hall .reference .default waving 110
  rw [RightHand, htype, hleft, hright, hshoulder] at hclaim
  obtain ⟨x, hip, hx, -, hnear, hfits⟩ := hclaim ConcealmentType.noConfusion
  rcases hx with hx | hx <;> obtain rfl := Option.some.inj hx
  · have hfar : ¬ dist .reference (some (140, 100)) (hipCentre .default waving) ≤ (110 : ℚ) := by
      decide +kernel
    exact hfar hnear
  · rw [Fits, above_some] at hfits
    exact absurd hfits (by decide +kernel)

end

end Netra.Behavior
