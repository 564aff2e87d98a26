import Netra.Behavior.Worker
import Netra.Risk.Worker
/-!
# Do the workers get on?

Both workers read their side stream with `BLOCK 0`. `never_stuck_iff` says when
a worker gets to every entry of its main stream without a new side entry, and
`edge_risk_asleep` that it gets to none where nobody feeds the side stream.
-/
namespace Netra.Pipeline

open RedisStream Consumer

variable {σ ε α β ω : Type}

/-- By steps of its own the worker gets every entry of its main stream that its
group has not been given. -/
def NeverStuck (C : Consumer σ ε α β ω) (s : State σ α β) : Prop :=
  ∀ j, s.main.delivered ≤ j → j < s.main.entries.length → C.Delivers s j

theorem neverStuck_iff [Nonempty ε] {C : Consumer σ ε α β ω} (hside : 0 < C.sideCount) (hmain : 0 < C.mainCount)
    (s : State σ α β) : NeverStuck C s ↔ s.main.pending.length ≤ C.mainCount * C.mainReads s := by
  have hle := s.main.le
  unfold NeverStuck
  rw [Stream.length_pending]
  constructor
  · intro hall
    by_contra hlong
    have hj := (delivers_iff hside hmain s _).1
      (hall (s.main.delivered + C.mainCount * C.mainReads s) (by omega) (by omega))
    unfold reach at hj
    omega
  · intro hshort j _ hj
    refine (delivers_iff hside hmain s j).2 ?_
    unfold reach
    omega

section
variable (h : Host) (w : Settings)

/-- The behaviour worker after `acts`. -/
def behaviorAfter (acts : List (Action Unit AssociationEvent Behavior.DetectionEvent)) :
    State Behavior.Worker AssociationEvent Behavior.DetectionEvent := (Behavior.Worker.run h w).after {} acts

/-- The risk worker after `acts`, started at `lastPrune`. -/
def riskAfter (lastPrune : ℚ) (acts : List (Action Risk.HostCalls ShopFormerScore BehaviorEvent)) :
    State Risk.Worker ShopFormerScore BehaviorEvent := (Risk.Worker.run h w).after { lastPrune } acts

/-- The workers get to every main entry iff their own side reads, and the main read
they may be coming to, make room for as many batches as are pending. -/
theorem never_stuck_iff :
    (∀ acts, NeverStuck (Behavior.Worker.run h w) (behaviorAfter h w acts) ↔
      (behaviorAfter h w acts).main.pending.length ≤
        10 * (reads 50 (behaviorAfter h w acts).side.pending.length +
          (atMain (behaviorAfter h w acts).pc).toNat)) ∧
    (∀ lastPrune acts, NeverStuck (Risk.Worker.run h w) (riskAfter h w lastPrune acts) ↔
      (riskAfter h w lastPrune acts).main.pending.length ≤
        20 * (reads 20 (riskAfter h w lastPrune acts).side.pending.length +
          (atMain (riskAfter h w lastPrune acts).pc).toNat)) := by
  have hhost : Nonempty Risk.HostCalls := ⟨0, ""⟩
  constructor
  · intro acts
    exact neverStuck_iff (Nat.succ_pos 49) (Nat.succ_pos 9) (behaviorAfter h w acts)
  · intro lastPrune acts
    exact neverStuck_iff (Nat.succ_pos 19) (Nat.succ_pos 19) (riskAfter h w lastPrune acts)

end

/-! ## Asleep -/

/-- A worker that waits for its side stream is given nothing. -/
theorem not_neverStuck {C : Consumer σ ε α β ω} {s : State σ α β} (hpc : s.pc = .readSide)
    (hside : s.side.pending = []) (hmain : s.main.delivered < s.main.entries.length) : ¬ NeverStuck C s := by
  intro hall
  obtain ⟨s', hsteps, hj⟩ := hall s.main.delivered (Nat.le_refl _) hmain
  have hnone (x : ε) : C.work x s = none := by
    simp [work, hpc, hside]
  rcases hsteps.cases_head with rfl | ⟨s'', ⟨x, items, hw⟩, -⟩
  · exact Nat.lt_irrefl _ hj
  · rw [hnone x] at hw
    cases hw

def someFrame : Behavior.DetectionEvent :=
  { cameraId := "cam-01", persons := [], items := [], frameSeq := 0, timestamp := 1000 }

def someBehavior : BehaviorEvent :=
  { cameraId := "cam-01", trackId := 1, fsmState := .browsing, fsmScore := 0, timestamp := 1000 }

/-- One entry on the main stream and none on the side stream: neither worker gets it. -/
theorem never_stuck_fails :
    (¬ ∀ h w acts, NeverStuck (Behavior.Worker.run h w) (behaviorAfter h w acts)) ∧
      ¬ ∀ h w lastPrune acts, NeverStuck (Risk.Worker.run h w) (riskAfter h w lastPrune acts) := by
  constructor
  · intro hall
    exact not_neverStuck rfl rfl Nat.zero_lt_one (hall .reference .default [.addMain someFrame])
  · intro hall
    exact not_neverStuck rfl rfl Nat.zero_lt_one (hall .reference .default 1000 [.addMain someBehavior])

/-- With no ShopFormer service the risk worker is never given a behaviour event. -/
theorem edge_risk_asleep (h : Host) (w : Settings) (lastPrune : ℚ)
    {acts : List (Action Risk.HostCalls ShopFormerScore BehaviorEvent)}
    (hno : ∀ a ∈ acts, ∀ score, a ≠ .addSide score) :
    (riskAfter h w lastPrune acts).main.delivered = 0 := by
  have hasleep : (riskAfter h w lastPrune acts).pc = .readSide ∧
      (riskAfter h w lastPrune acts).side.pending = [] ∧
      (riskAfter h w lastPrune acts).main.delivered = 0 := by
    induction acts using List.reverseRecOn with
    | nil => exact ⟨rfl, rfl, rfl⟩
    | append_singleton acts a ih =>
      obtain ⟨hpc, hside, hmain⟩ := ih fun b hb => hno b (List.mem_append_left _ hb)
      have hafter : riskAfter h w lastPrune (acts ++ [a]) =
          ((Risk.Worker.run h w).step (riskAfter h w lastPrune acts) a).1 := Mealy.after_concat ..
      rw [hafter]
      cases a with
      | work x => simp [Consumer.step, work, hpc, hside, hmain]
      | addSide score => exact absurd rfl (hno _ (by simp) score)
      | addMain b => exact ⟨hpc, hside, hmain⟩
  exact hasleep.2.2

end Netra.Pipeline
