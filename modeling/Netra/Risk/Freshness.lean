import Netra.Risk.Runs
import Mathlib.Tactic.Linarith
/-!
# Which ShopFormer score a behaviour event uses

`update_shopformer` keeps one score a track, the last to arrive, and
`update_behavior` uses it while it is less than 5 s old. As long as nothing is
pruned that is the last score received (`cached_run`), which is the right one if
none of the others is newer (`used_score`).
-/
namespace Netra.Risk

open PyLib

/-- The scores of track `k`, in the order they arrived. -/
def received (k : Int) (ops : List RiskOp) : List ShopFormerScore :=
  ops.filterMap fun
    | .shopformer s => if s.trackId = k then some s else none
    | _ => none

/-- The score is less than 5 s old at `t`, and not from after it. -/
def InWindow (t : ℚ) (s : ShopFormerScore) : Prop := t - 5 < s.timestamp ∧ s.timestamp ≤ t

/-- A score of the window with the greatest timestamp. -/
def Freshest (t : ℚ) (scores : List ShopFormerScore) (s : ShopFormerScore) : Prop :=
  s ∈ scores ∧ InWindow t s ∧ ∀ s' ∈ scores, InWindow t s' → s'.timestamp ≤ s.timestamp

/-- `x` is the freshest score at `t`, or 0 if the window has none. -/
def RightScore (t : ℚ) (scores : List ShopFormerScore) (x : ℚ) : Prop :=
  (∃ s, Freshest t scores s ∧ x = s.anomalyScore) ∨ ((∀ s ∈ scores, ¬ InWindow t s) ∧ x = 0)

/-- The ShopFormer contribution that `update_behavior` uses for a call after `ops`. -/
def usedScore (h : Host) (w : Settings) (cam : String) (ops : List RiskOp) (c : BehaviorCall) : ℚ :=
  sfScore (stateFor (engineAfter h w cam ops) c) c.bev.timestamp

/-- The state caches the score `o`, or none yet. -/
def Caches (o : Option ShopFormerScore) (st : TrackRiskState) : Prop :=
  st.lastShopformerScore = (o.map (·.anomalyScore)).getD 0 ∧ st.lastShopformerTs = (o.map (·.timestamp)).getD 0

section
variable {h : Host} {w : Settings} {cam : String}

theorem received_concat (k : Int) (ops : List RiskOp) (op : RiskOp) :
    received k (ops ++ [op]) = received k ops ++ received k [op] := by
  rw [received, List.filterMap_append]
  rfl

theorem received_score (k : Int) (s : ShopFormerScore) :
    received k [.shopformer s] = if s.trackId = k then [s] else [] := by
  unfold received
  split <;> rename_i hk <;> simp [hk]

/-! ## The cache -/

theorem caches_init (cam : String) (k : Int) : Caches none (((RiskEngine.init cam).states.get? k).getD {}) :=
  ⟨rfl, rfl⟩

theorem caches_step {e : RiskEngine} {k : Int} {ops : List RiskOp} {op : RiskOp}
    (hst : Caches (received k ops).getLast? ((e.states.get? k).getD {})) (hop : ∀ now, op ≠ .prune now) :
    Caches (received k (ops ++ [op])).getLast? (((step h w e op).1.states.get? k).getD {}) := by
  rw [received_concat]
  cases op with
  | shopformer s =>
    rw [received_score]
    simp only [step, RiskEngine.updateShopformer, Dict.get?_set]
    by_cases hk : s.trackId = k
    · rw [if_pos hk, if_pos hk.symm, List.getLast?_concat]
      exact ⟨rfl, rfl⟩
    · rw [if_neg hk, if_neg (Ne.symm hk), List.append_nil]
      exact hst
  | behavior c =>
    -- a behaviour event leaves the cached score alone
    rw [show received k [.behavior c] = [] from rfl, List.append_nil]
    have hs := step_cases (h := h) (w := w) e (.behavior c) k
    generalize (step h w e (.behavior c)).1.states.get? k = o at hs
    cases hs with
    | other _ => exact hst
    | quiet hk hst' _ | raised hk hst' _ =>
      subst hk hst'
      exact hst
  | prune now => exact absurd rfl (hop now)

/-- Until a state is pruned, it caches the last score that arrived for its track. -/
theorem cached_run (h : Host) (w : Settings) (cam : String) {ops : List RiskOp} (hops : ∀ now, RiskOp.prune now ∉ ops)
    (k : Int) :
    Caches (received k ops).getLast? (((engineAfter h w cam ops).states.get? k).getD {}) := by
  induction ops using List.reverseRecOn with
  | nil => exact caches_init cam k
  | append_singleton ops op ih =>
    rw [engineAfter_concat]
    have hprefix : ∀ now, RiskOp.prune now ∉ ops := fun now hm => hops now (List.mem_append_left _ hm)
    refine caches_step (ih hprefix) fun now hnow => hops now ?_
    rw [hnow]
    exact List.mem_append_right _ List.mem_cons_self

/-! ## The score that is used -/

theorem usedScore_eq {ops : List RiskOp} (hops : ∀ now, RiskOp.prune now ∉ ops) (c : BehaviorCall) :
    usedScore h w cam ops c =
      match (received c.bev.trackId ops).getLast? with
      | none => 0
      | some s => if c.bev.timestamp - 5 < s.timestamp then s.anomalyScore else 0 := by
  obtain ⟨hscore, hts⟩ := cached_run h w cam hops c.bev.trackId
  unfold usedScore sfScore stateFor counted
  dsimp only
  rw [hscore, hts]
  cases (received c.bev.trackId ops).getLast? with
  | none => exact ite_self 0
  | some s =>
    refine if_congr ?_ rfl rfl
    rw [Option.map_some, Option.getD_some]
    exact sub_lt_comm

/-- `last` is not from after `t`, and no score that is not from after `t` is newer. -/
def Latest (t : ℚ) (scores : List ShopFormerScore) (last : ShopFormerScore) : Prop :=
  last.timestamp ≤ t ∧ ∀ s ∈ scores, s.timestamp ≤ t → s.timestamp ≤ last.timestamp

/-- The last score received is used while it is less than 5 s old, whatever arrived
before it. It is the right one if it is the latest. -/
theorem used_score (h : Host) (w : Settings) (cam : String) (ops : List RiskOp)
    (hops : ∀ now, RiskOp.prune now ∉ ops) (c : BehaviorCall) :
    (received c.bev.trackId ops = [] → usedScore h w cam ops c = 0) ∧
      ∀ last, (received c.bev.trackId ops).getLast? = some last →
        (InWindow c.bev.timestamp last → usedScore h w cam ops c = last.anomalyScore) ∧
        (last.timestamp ≤ c.bev.timestamp - 5 → usedScore h w cam ops c = 0) ∧
        (Latest c.bev.timestamp (received c.bev.trackId ops) last →
          RightScore c.bev.timestamp (received c.bev.trackId ops) (usedScore h w cam ops c)) := by
  rw [usedScore_eq hops]
  generalize received c.bev.trackId ops = scores
  constructor
  · rintro rfl
    rfl
  · intro last hlast
    simp only [hlast]
    refine ⟨fun hin => if_pos hin.1, fun hold => if_neg (not_lt.2 hold), ?_⟩
    rintro ⟨hbefore, hnewest⟩
    split
    · rename_i hfresh
      exact .inl ⟨last, ⟨List.mem_of_getLast? hlast, ⟨hfresh, hbefore⟩, fun s hs hin => hnewest s hs hin.2⟩, rfl⟩
    · rename_i hold
      refine .inr ⟨fun s hs hin => hold ?_, rfl⟩
      exact lt_of_lt_of_le hin.1 (hnewest s hs hin.2)

def scoreAt (timestamp anomalyScore : ℚ) : ShopFormerScore :=
  { cameraId := "cam-01", trackId := 1, anomalyScore, reconstructionError := 0, embedding := [],
    poseSequenceLen := 24, timestamp }

def browsingAt (timestamp : ℚ) : BehaviorCall :=
  { bev := { cameraId := "cam-01", trackId := 1, fsmState := .browsing, fsmScore := 0, timestamp },
    uuid := "incident-1" }

/-- Scores of 998 and 1000, a behaviour event of 1001. -/
theorem used_score_inOrder :
    usedScore .reference .default "cam-01" [.shopformer (scoreAt 998 0.2), .shopformer (scoreAt 1000 0.9)]
        (browsingAt 1001) = 0.9 ∧
      RightScore 1001 [scoreAt 998 0.2, scoreAt 1000 0.9]
        (usedScore .reference .default "cam-01" [.shopformer (scoreAt 998 0.2), .shopformer (scoreAt 1000 0.9)]
          (browsingAt 1001)) := by
  have hin : InWindow 1001 (scoreAt 1000 0.9) := by
    norm_num [InWindow, scoreAt]
  have hlatest : Latest 1001 [scoreAt 998 0.2, scoreAt 1000 0.9] (scoreAt 1000 0.9) := by
    norm_num [Latest, scoreAt]
  obtain ⟨-, hlast⟩ := used_score .reference .default "cam-01"
    [.shopformer (scoreAt 998 0.2), .shopformer (scoreAt 1000 0.9)] (by simp) (browsingAt 1001)
  obtain ⟨hused, -, hright⟩ := hlast (scoreAt 1000 0.9) rfl
  exact ⟨hused hin, hright hlatest⟩

/-- The score of 998 arrives last. -/
theorem right_score_fails :
    ¬ ∀ (h : Host) (w : Settings) (cam : String) (ops : List RiskOp) (c : BehaviorCall),
      (∀ now, RiskOp.prune now ∉ ops) →
        RightScore c.bev.timestamp (received c.bev.trackId ops) (usedScore h w cam ops c) := by
  intro hall
  have hused : usedScore .reference .default "cam-01" [.shopformer (scoreAt 1000 0.9), .shopformer (scoreAt 998 0.2)]
      (browsingAt 1001) = 0.2 := by
    decide +kernel
  have hclaim := hall .reference .default "cam-01" [.shopformer (scoreAt 1000 0.9), .shopformer (scoreAt 998 0.2)]
    (browsingAt 1001) (by simp)
  rw [hused] at hclaim
  have hin : InWindow 1001 (scoreAt 1000 0.9) := by
    norm_num [InWindow, scoreAt]
  rcases hclaim with ⟨s, ⟨hs, -, hnewest⟩, hx⟩ | ⟨hnone, -⟩
  · have hnew : 1000 ≤ s.timestamp := hnewest (scoreAt 1000 0.9) List.mem_cons_self hin
    rcases List.mem_pair.1 hs with rfl | rfl
    · norm_num [scoreAt] at hx
    · norm_num [scoreAt] at hnew
  · exact hnone (scoreAt 1000 0.9) List.mem_cons_self hin

end

end Netra.Risk
