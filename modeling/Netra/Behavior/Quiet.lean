import Netra.Behavior.Causes
import Mathlib.Tactic.Linarith
import Mathlib.Tactic.Positivity
/-!
# Tracks without goods

As long as the FSM is told of no shelf interaction and no pickup of a track, it knows of
no pick and no concealment either, so the only signal it can emit is `SPEED_SPIKE`. The
signals are more than 3 s apart and the score has drained in between: it never gets past
the weight of one of them (`step_clean`).
-/
namespace Netra.Behavior.TheftRiskFSM

open PyLib

/-- No pick and no concealment is remembered, and the score is what is left of the last
speed spike. -/
structure Clean (w : Settings) (ctx : TrackContext) : Prop where
  pick : ctx.lastPickTs = 0
  conceal : ctx.lastConcealTs = 0
  score : ctx.riskScore ≤ 3 / 2
  drained : ctx.riskScore ≤ max 0 (3 / 2 - w.fsmDecayRate * (ctx.lastDecayTs - ctx.lastSpeedSpikeTs))

/-- Nothing to do with goods is delivered for track `k`. -/
def NoGoods (c : Call) (k : Int) : Prop := ¬ Delivers c .shelfInteraction k ∧ ¬ Delivers c .itemPickup k

section
variable {h : Host} {w : Settings} {cam : String} {t : ℚ} {assoc : List AssociationEvent}

theorem clean_fresh (w : Settings) (t : ℚ) : Clean w (getOrCreate t none) :=
  ⟨rfl, rfl, by norm_num [getOrCreate], le_max_left _ _⟩

/-! ## One update -/

/-- Without goods the only signal left is the speed spike. -/
theorem names_update_clean {ctx : TrackContext} (hc : Clean w ctx)
    (hshelf : ¬ hasType .shelfInteraction assoc = true) (hpick : ¬ hasType .itemPickup assoc = true)
    (p : PersonDetection) :
    names (update h w cam ctx p assoc t).2 = (memory ctx).spikeNames assoc t ∧
      memory (update h w cam ctx p assoc t).1 = (memory ctx).spike assoc t := by
  have hshelf' : (memory ctx).shelf assoc = memory ctx := by
    rw [Memory.shelf, if_neg hshelf]
    rfl
  have hpick' : (memory ctx).pick assoc t = memory ctx := by
    rw [Memory.pick, if_neg hpick]
  have hnopick : ¬ 0 < (memory ctx).lastPickTs := by
    rw [show (memory ctx).lastPickTs = ctx.lastPickTs from rfl, hc.pick]
    exact lt_irrefl 0
  have hnoconceal : ¬ 0 < (memory ctx).lastConcealTs := by
    rw [show (memory ctx).lastConcealTs = ctx.lastConcealTs from rfl, hc.conceal]
    exact lt_irrefl 0
  have hconceals : ¬ (memory ctx).conceals h w t p.keypoints = true := by
    intro hco
    simp only [Memory.conceals, Bool.and_eq_true, decide_eq_true_eq] at hco
    exact hnopick hco.1.2.1
  have hconceal : (memory ctx).conceal h w t p.keypoints = memory ctx := by
    rw [Memory.conceal, if_neg hconceals]
  constructor
  · rw [names_update, hshelf', hpick', hconceal, Memory.shelfNames, if_neg hshelf, Memory.pickNames, if_neg hpick,
      Memory.concealNames, if_neg hconceals, Memory.exitNames, if_neg hnoconceal]
    rfl
  · rw [memory_update, Memory.next, hshelf', hpick', hconceal]

theorem weightSum_update_clean {ctx : TrackContext} (hc : Clean w ctx)
    (hshelf : ¬ hasType .shelfInteraction assoc = true) (hpick : ¬ hasType .itemPickup assoc = true)
    (p : PersonDetection) :
    weightSum (update h w cam ctx p assoc t).2 = if (memory ctx).spikes assoc t then 3 / 2 else 0 := by
  have hweight : weightOf "SPEED_SPIKE" = 3 / 2 := by
    decide +kernel
  rw [weightSum_update, (names_update_clean hc hshelf hpick p).1, Memory.spikeNames]
  split
  · simp [hweight]
  · rfl

/-- The drained score follows the clock, forwards and backwards. -/
theorem decay_drained {ctx : TrackContext} (hc : Clean w ctx) (hrate : 0 ≤ w.fsmDecayRate) (t : ℚ) :
    (decay w ctx t).riskScore ≤ max 0 (3 / 2 - w.fsmDecayRate * (t - ctx.lastSpeedSpikeTs)) := by
  have hold := hc.drained
  have hgap : w.fsmDecayRate * (t - ctx.lastDecayTs) ≤ w.fsmDecayRate * max 0 (t - ctx.lastDecayTs) :=
    mul_le_mul_of_nonneg_left (le_max_right _ _) hrate
  have hmore : 0 ≤ w.fsmDecayRate * max 0 (t - ctx.lastDecayTs) := mul_nonneg hrate (le_max_left _ _)
  unfold decay
  dsimp only
  refine max_le (le_max_left _ _) ?_
  rcases le_max_iff.1 hold with hzero | hlast
  · exact le_trans (by linarith) (le_max_left _ _)
  · refine le_trans ?_ (le_max_right _ _)
    linarith

theorem decay_le {ctx : TrackContext} (hc : Clean w ctx) (hrate : 0 ≤ w.fsmDecayRate) (t : ℚ) :
    (decay w ctx t).riskScore ≤ 3 / 2 := by
  have hmore : 0 ≤ w.fsmDecayRate * max 0 (t - ctx.lastDecayTs) := mul_nonneg hrate (le_max_left _ _)
  have hscore := hc.score
  unfold decay
  dsimp only
  refine max_le (by norm_num) ?_
  linarith

theorem clean_update {ctx : TrackContext} (hrate : 1 / 2 ≤ w.fsmDecayRate) (hc : Clean w ctx)
    (hshelf : ¬ hasType .shelfInteraction assoc = true) (hpick : ¬ hasType .itemPickup assoc = true)
    (p : PersonDetection) : Clean w (update h w cam ctx p assoc t).1 := by
  have hpos : 0 ≤ w.fsmDecayRate := le_trans (by norm_num) hrate
  have hmem : memory (update h w cam ctx p assoc t).1 = (memory ctx).spike assoc t :=
    (names_update_clean hc hshelf hpick p).2
  have hscore := riskScore_update h w cam assoc t ctx p
  rw [weightSum_update_clean hc hshelf hpick] at hscore
  have hspikeTs : (update h w cam ctx p assoc t).1.lastSpeedSpikeTs =
      if (memory ctx).spikes assoc t then t else ctx.lastSpeedSpikeTs := congrArg Memory.lastSpeedSpikeTs hmem
  have hdrained := decay_drained hc hpos t
  have hle := decay_le hc hpos t
  have hpickTs := (congrArg Memory.lastPickTs hmem).trans hc.pick
  have hconcealTs := (congrArg Memory.lastConcealTs hmem).trans hc.conceal
  by_cases hspike : (memory ctx).spikes assoc t = true
  · -- the last spike is more than 3 s ago: the score is 0 by now
    have hlate : 3 < t - ctx.lastSpeedSpikeTs := of_decide_eq_true (Bool.and_eq_true_iff.1 hspike).2
    have hempty : 3 / 2 - w.fsmDecayRate * (t - ctx.lastSpeedSpikeTs) ≤ 0 := by nlinarith
    rw [max_eq_left hempty] at hdrained
    rw [if_pos hspike] at hscore hspikeTs
    have hone : (update h w cam ctx p assoc t).1.riskScore ≤ 3 / 2 := by
      rw [hscore]
      linarith
    refine ⟨hpickTs, hconcealTs, hone, ?_⟩
    rw [hspikeTs, lastDecayTs_update, sub_self, mul_zero, sub_zero]
    exact hone.trans (le_max_right _ _)
  · rw [if_neg hspike, add_zero] at hscore
    rw [if_neg hspike] at hspikeTs
    refine ⟨hpickTs, hconcealTs, ?_, ?_⟩
    · rw [hscore]
      exact hle
    · rw [hscore, hspikeTs, lastDecayTs_update]
      exact hdrained

/-! ## One call -/

theorem clean_turns (hrate : 1 / 2 ≤ w.fsmDecayRate) (hshelf : ¬ hasType .shelfInteraction assoc = true)
    (hpick : ¬ hasType .itemPickup assoc = true) {o : Option TrackContext} (ho : ∀ ctx, o = some ctx → Clean w ctx)
    {us : List (PersonDetection × List AssociationEvent)} (hus : ∀ u ∈ us, u.2 = assoc) (cam : String) :
    (∀ ctx, Mealy.after (trackTurn h w cam t) o us = some ctx → Clean w ctx) ∧
      ∀ bev ∈ (Mealy.outs (trackTurn h w cam t) o us).flatten, bev.fsmScore ≤ 3 / 2 := by
  induction us generalizing o with
  | nil => exact ⟨ho, fun bev hbev => by cases hbev⟩
  | cons u us ih =>
    obtain ⟨p, as⟩ := u
    obtain rfl : as = assoc := hus (p, as) List.mem_cons_self
    have hmet : Clean w (getOrCreate t o) := by
      cases o with
      | none => exact clean_fresh w t
      | some ctx => exact ho ctx rfl
    have hnext : Clean w (update h w cam (getOrCreate t o) p as t).1 := clean_update hrate hmet hshelf hpick p
    obtain ⟨hafter, houts⟩ := ih (o := (trackTurn h w cam t o (p, as)).1)
      (fun ctx hctx => Option.some.inj hctx ▸ hnext) fun u hu => hus u (List.mem_cons_of_mem _ hu)
    refine ⟨hafter, fun bev hbev => ?_⟩
    rw [Mealy.outs_cons, List.flatten_cons, List.mem_append] at hbev
    rcases hbev with hbev | hbev
    · rw [List.mem_singleton.1 hbev]
      exact hnext.score
    · exact houts bev hbev

/-- A call that delivers no goods for a track leaves it clean, and reports a low score. -/
theorem step_clean (hrate : 1 / 2 ≤ w.fsmDecayRate) {fsm : TheftRiskFSM} {c : Call} {k : Int} (hno : NoGoods c k)
    (hclean : ∀ ctx, fsm.tracks.get? k = some ctx → Clean w ctx) :
    (∀ ctx, (step h w fsm c).1.tracks.get? k = some ctx → Clean w ctx) ∧
      ∀ bev ∈ (step h w fsm c).2, bev.trackId = k → bev.fsmScore ≤ 3 / 2 := by
  have hshelf : ¬ hasType .shelfInteraction (assocOf c.assoc k) = true := fun hty => hno.1 (hasType_assocOf.1 hty)
  have hpick : ¬ hasType .itemPickup (assocOf c.assoc k) = true := fun hty => hno.2 (hasType_assocOf.1 hty)
  have hturns := clean_turns (h := h) (t := c.timestamp) hrate hshelf hpick hclean trackUpdates_assoc
  obtain ⟨hafter, houts⟩ := hturns fsm.cameraId
  constructor
  · intro ctx hctx
    rw [track_after] at hctx
    exact hafter ctx (Option.filter_eq_some_iff.1 hctx).1
  · intro bev hbev hk
    refine houts bev ?_
    rw [← track_events]
    exact List.mem_filter.2 ⟨hbev, by simpa using hk⟩

/-- What every event of a call says. -/
theorem event_of_mem {fsm : TheftRiskFSM} {c : Call} {bev : BehaviorEvent} (hbev : bev ∈ (step h w fsm c).2) :
    0 ≤ bev.fsmScore ∧ bev.timestamp = c.timestamp ∧ ∃ p ∈ c.persons, p.trackId = bev.trackId := by
  obtain ⟨j, hj⟩ := List.mem_iff_getElem?.1 hbev
  rw [event_getElem?] at hj
  obtain ⟨p, hp, rfl⟩ := Option.map_eq_some_iff.1 hj
  refine ⟨?_, rfl, p, List.mem_of_getElem? hp, rfl⟩
  have hscore := riskScore_update h w fsm.cameraId (assocOf c.assoc p.trackId) c.timestamp (getOrCreate c.timestamp
    ((tracksMid h w fsm c (c.persons.take j)).get? p.trackId)) p
  have hsum := weightSum_update_nonneg h w fsm.cameraId (assocOf c.assoc p.trackId) c.timestamp (getOrCreate c.timestamp
    ((tracksMid h w fsm c (c.persons.take j)).get? p.trackId)) p
  have hdecay : 0 ≤ (decay w (getOrCreate c.timestamp
    ((tracksMid h w fsm c (c.persons.take j)).get? p.trackId)) c.timestamp).riskScore := le_max_left _ _
  unfold behaviorEvent
  dsimp only
  rw [hscore]
  exact add_nonneg hdecay hsum

end

end Netra.Behavior.TheftRiskFSM
