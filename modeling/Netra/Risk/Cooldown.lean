import Netra.Risk.Runs
import Mathlib.Algebra.Order.Group.Abs
import Mathlib.Tactic.Linarith
/-!
# One incident per track per cool-down window

The cool-down is kept in event time in the state of the track, and
`prune_stale` drops that state by wall-clock age. While the state is there,
incidents of the track stay 30 s apart whatever the order of the timestamps
(`held_step`, `apart_of_held`). A drop forgets `last_incident_ts`, and an event
that arrives late can then raise a second incident inside the window.
`one_per_window_iff` says that nothing else can.
-/
namespace Netra.Risk

open PyLib

/-- At least one cool-down window apart. -/
def Apart (t u : ℚ) : Prop := incidentCooldownSec ≤ |t - u|

section
variable (h : Host) (w : Settings) (cam : String)

/-- Any two incidents of the run for one track are a window apart. -/
def OnePerWindow (ops : List RiskOp) : Prop :=
  (incidents h w cam ops).Pairwise fun i j => i.trackId = j.trackId → Apart i.timestamp j.timestamp

/-- At some point of the run the state of track `k` had `last_incident_ts` `t`. -/
def Recorded (ops : List RiskOp) (k : Int) (t : ℚ) : Prop :=
  ∃ pre post st, ops = pre ++ post ∧ (engineAfter h w cam pre).states.get? k = some st ∧ st.lastIncidentTs = t

/-- `prune_stale` dropped the state of track `k` after it had recorded `t`. -/
def Forgotten (ops : List RiskOp) (k : Int) (t : ℚ) : Prop :=
  ∃ pre now post, ops = pre ++ .prune now :: post ∧ Recorded h w cam pre k t ∧
    ∃ st, (engineAfter h w cam pre).states.get? k = some st ∧ RiskEngine.isStale now pruneMaxAgeSec st = true

/-- `c` is above the threshold and outside the cool-down the engine still knows
of, but within a window of a `last_incident_ts` that was forgotten. -/
def LateAlarm (ops : List RiskOp) (c : BehaviorCall) : Prop :=
  Raises h w (engineAfter h w cam ops) c ∧
    ∃ t, Forgotten h w cam ops c.bev.trackId t ∧ ¬ Apart t c.bev.timestamp

/-- No behaviour event of the run is a late alarm. -/
def NoLateAlarm (ops : List RiskOp) : Prop :=
  ∀ pre c post, ops = pre ++ .behavior c :: post → ¬ LateAlarm h w cam pre c

end

variable {h : Host} {w : Settings} {cam : String}

/-! ## What the states record -/

/-- A step leaves `last_incident_ts` alone, unless it raises an incident. -/
theorem step_last {e : RiskEngine} {op : RiskOp} {k : Int} {st : TrackRiskState}
    (hst : (step h w e op).1.states.get? k = some st) :
    st.lastIncidentTs = ((e.states.get? k).getD {}).lastIncidentTs ∨
      ∃ c, op = .behavior c ∧ c.bev.trackId = k ∧ Raises h w e c ∧ st.lastIncidentTs = c.bev.timestamp := by
  have hs := step_cases (h := h) (w := w) e op k
  rw [hst] at hs
  generalize ho : some st = o at hs
  cases hs with
  | other _ => exact .inl (by rw [← ho]; rfl)
  | score _ hst' =>
    cases ho
    exact .inl (by rw [← hst'])
  | quiet hk hst' _ =>
    cases ho
    exact .inl (by simp only [hst', stateFor, counted, hk])
  | raised hk _ hr =>
    cases ho
    exact .inr ⟨_, rfl, hk, hr, rfl⟩
  | dropped => cases ho

theorem recorded_append {ops : List RiskOp} {k : Int} {t : ℚ} (hr : Recorded h w cam ops k t)
    (more : List RiskOp) : Recorded h w cam (ops ++ more) k t := by
  obtain ⟨pre, post, st, rfl, hst⟩ := hr
  exact ⟨pre, post ++ more, st, by simp, hst⟩

theorem recorded_concat {ops : List RiskOp} {op : RiskOp} {k : Int} {t : ℚ}
    (hr : Recorded h w cam (ops ++ [op]) k t) : Recorded h w cam ops k t ∨
      ∃ st, (step h w (engineAfter h w cam ops) op).1.states.get? k = some st ∧ st.lastIncidentTs = t := by
  obtain ⟨pre, post, st, he, hst⟩ := hr
  rcases List.eq_nil_or_concat post with rfl | ⟨post', op', rfl⟩
  · rw [List.append_nil] at he
    rw [← he, engineAfter_concat] at hst
    exact .inr ⟨st, hst⟩
  · rw [List.concat_eq_append, ← List.append_assoc] at he
    exact .inl ⟨pre, post', st, (List.append_inj' he rfl).1, hst⟩

/-- A property of 0 and of every incident's time holds of every recorded time. -/
theorem recorded_induction {k : Int} (P : List RiskOp → ℚ → Prop) (h0 : ∀ ops, P ops 0)
    (hmono : ∀ ops op t, P ops t → P (ops ++ [op]) t)
    (hraise : ∀ ops c, c.bev.trackId = k → Raises h w (engineAfter h w cam ops) c →
      P ops ((((engineAfter h w cam ops).states.get? k).getD {}).lastIncidentTs) →
      P (ops ++ [.behavior c]) c.bev.timestamp)
    {ops : List RiskOp} {t : ℚ} (hr : Recorded h w cam ops k t) : P ops t := by
  induction ops using List.reverseRecOn generalizing t with
  | nil =>
    obtain ⟨pre, post, st, he, hst, -⟩ := hr
    obtain ⟨rfl, -⟩ := List.append_eq_nil_iff.1 he.symm
    simp [engineAfter, RiskEngine.init] at hst
  | append_singleton ops op ih =>
    have hlast : P ops ((((engineAfter h w cam ops).states.get? k).getD {}).lastIncidentTs) := by
      cases hst : (engineAfter h w cam ops).states.get? k with
      | none => exact h0 ops
      | some st => exact ih ⟨ops, [], st, by simp, hst, rfl⟩
    rcases recorded_concat hr with hr | ⟨st, hst, rfl⟩
    · exact hmono _ _ _ (ih hr)
    · rcases step_last hst with heq | ⟨c, rfl, hk, hraises, heq⟩
      · exact heq ▸ hmono _ _ _ hlast
      · exact heq ▸ hraise ops c hk hraises hlast

/-- A recorded time is the 0 of a fresh state or an incident of the track. -/
theorem recorded_cases {ops : List RiskOp} {k : Int} {t : ℚ} (hr : Recorded h w cam ops k t) :
    t = 0 ∨ ∃ i ∈ incidents h w cam ops, i.trackId = k ∧ i.timestamp = t := by
  refine recorded_induction
    (fun ops t => t = 0 ∨ ∃ i ∈ incidents h w cam ops, i.trackId = k ∧ i.timestamp = t) ?_ ?_ ?_ hr
  · exact fun _ => .inl rfl
  · rintro ops op t (rfl | ⟨i, hi, hk⟩)
    · exact .inl rfl
    · exact .inr ⟨i, by rw [incidents_concat]; exact List.mem_append_left _ hi, hk⟩
  · intro ops c hk hraises _
    have hout := (step_out (engineAfter h w cam ops) (.behavior c) _).2 ⟨c, rfl, hraises, rfl⟩
    refine .inr ⟨incidentOf h w (stateFor (engineAfter h w cam ops) c) c, ?_, hk, rfl⟩
    rw [incidents_concat]
    exact List.mem_append_right _ (Option.mem_toList.2 hout)

theorem recorded_nonneg {ops : List RiskOp} {k : Int} {t : ℚ} (hr : Recorded h w cam ops k t) : 0 ≤ t := by
  refine recorded_induction (fun _ t => 0 ≤ t) ?_ ?_ ?_ hr
  · exact fun _ => le_refl _
  · exact fun _ _ _ ht => ht
  · intro ops c hk hraises hlast
    have hcool := hraises.2
    simp only [stateFor, counted, hk, incidentCooldownSec] at hcool
    linarith

/-- An incident is recorded by the state it leaves behind. -/
theorem recorded_incident {ops : List RiskOp} {i : IncidentEvent} (hi : i ∈ incidents h w cam ops) :
    Recorded h w cam ops i.trackId i.timestamp := by
  obtain ⟨pre, c, post, rfl, hr, rfl⟩ := mem_incidents.1 hi
  refine ⟨pre ++ [.behavior c], post, ?_⟩
  have hs := step_cases (h := h) (w := w) (engineAfter h w cam pre) (.behavior c) c.bev.trackId
  rw [engineAfter_concat]
  generalize hg : (step h w (engineAfter h w cam pre) (.behavior c)).1.states.get? c.bev.trackId = o at hs
  cases hs with
  | other hk => exact absurd rfl (hk c rfl)
  | quiet _ _ hn => exact absurd hr hn
  | raised _ _ _ => exact ⟨_, by simp, hg, rfl⟩

/-! ## A state that is still there remembers -/

/-- The state of track `k` is there and knows of `t` or of a later incident. -/
def Held (e : RiskEngine) (k : Int) (t : ℚ) : Prop := ∃ st, e.states.get? k = some st ∧ t ≤ st.lastIncidentTs

theorem forgotten_append {ops : List RiskOp} {k : Int} {t : ℚ} (hf : Forgotten h w cam ops k t)
    (more : List RiskOp) : Forgotten h w cam (ops ++ more) k t := by
  obtain ⟨pre, now, post, rfl, hr, hst⟩ := hf
  exact ⟨pre, now, post ++ more, by simp, hr, hst⟩

/-- An operation keeps what the state remembers, unless it drops the track. -/
theorem held_step {e : RiskEngine} {k : Int} {t : ℚ} (hheld : Held e k t) (op : RiskOp) :
    Held (step h w e op).1 k t ∨ ∃ now st, op = .prune now ∧ e.states.get? k = some st ∧
      RiskEngine.isStale now pruneMaxAgeSec st = true := by
  obtain ⟨st, hst, hle⟩ := hheld
  have hs := step_cases (h := h) (w := w) e op k
  generalize hg : (step h w e op).1.states.get? k = o at hs
  cases hs with
  | other _ => exact .inl ⟨st, hg.trans hst, hle⟩
  | score hk hst' =>
    rw [hst, Option.getD_some] at hst'
    subst hst'
    exact .inl ⟨_, hg, hle⟩
  | @quiet c st' hk hst' _ =>
    have : st'.lastIncidentTs = st.lastIncidentTs := by simp [hst', stateFor, counted, hk, hst]
    exact .inl ⟨_, hg, by rwa [← this] at hle⟩
  | @raised c st' hk hst' hr =>
    have : st'.lastIncidentTs = st.lastIncidentTs := by simp [hst', stateFor, counted, hk, hst]
    have hcool := hr.2
    rw [← hst', this, incidentCooldownSec] at hcool
    exact .inl ⟨_, hg, by simp only; linarith⟩
  | dropped hst' hstale => exact .inr ⟨_, _, rfl, hst', hstale⟩

/-- Every recorded time is remembered or forgotten. -/
theorem held_or_forgotten {ops : List RiskOp} {k : Int} {t : ℚ} (hr : Recorded h w cam ops k t) :
    Held (engineAfter h w cam ops) k t ∨ Forgotten h w cam ops k t := by
  induction ops using List.reverseRecOn with
  | nil =>
    obtain ⟨pre, post, st, he, hst, rfl⟩ := hr
    obtain ⟨rfl, -⟩ := List.append_eq_nil_iff.1 he.symm
    exact .inl ⟨st, hst, le_refl _⟩
  | append_singleton ops op ih =>
    rw [engineAfter_concat]
    rcases recorded_concat hr with hrec | ⟨st, hst, rfl⟩
    · rcases ih hrec with hheld | hf
      · rcases held_step (h := h) (w := w) hheld op with hheld | ⟨now, st, rfl, hst, hstale⟩
        · exact .inl hheld
        · exact .inr ⟨ops, now, [], rfl, hrec, st, hst, hstale⟩
      · exact .inr (forgotten_append hf [op])
    · exact .inl ⟨st, hst, le_refl _⟩

/-- While the track is remembered, the cool-down keeps a new incident away. -/
theorem apart_of_held {e : RiskEngine} {t : ℚ} {c : BehaviorCall} (hheld : Held e c.bev.trackId t)
    (hr : Raises h w e c) : Apart t c.bev.timestamp := by
  obtain ⟨st, hst, hle⟩ := hheld
  have hcool := hr.2
  simp only [stateFor, counted, hst, Option.getD_some] at hcool
  rw [Apart, abs_sub_comm]
  exact (by linarith : incidentCooldownSec ≤ c.bev.timestamp - t).trans (le_abs_self _)

/-- No incident is raised in the first window of the epoch. -/
theorem apart_zero {ops : List RiskOp} {c : BehaviorCall} (hr : Raises h w (engineAfter h w cam ops) c) :
    Apart 0 c.bev.timestamp := by
  have hlast : 0 ≤ (stateFor (engineAfter h w cam ops) c).lastIncidentTs := by
    simp only [stateFor, counted]
    cases hst : (engineAfter h w cam ops).states.get? c.bev.trackId with
    | none => exact le_refl _
    | some st =>
      have hrec : Recorded h w cam ops c.bev.trackId st.lastIncidentTs := ⟨ops, [], st, by simp, hst, rfl⟩
      exact recorded_nonneg hrec
  have hcool := hr.2
  rw [Apart, abs_sub_comm]
  exact (by linarith : incidentCooldownSec ≤ c.bev.timestamp - 0).trans (le_abs_self _)

/-! ## The condition, one operation at a time -/

theorem onePerWindow_concat (ops : List RiskOp) (op : RiskOp) :
    OnePerWindow h w cam (ops ++ [op]) ↔ OnePerWindow h w cam ops ∧
      ∀ c, op = .behavior c → Raises h w (engineAfter h w cam ops) c →
        ∀ i ∈ incidents h w cam ops, i.trackId = c.bev.trackId → Apart i.timestamp c.bev.timestamp := by
  rw [OnePerWindow, incidents_concat, List.pairwise_append]
  constructor
  · rintro ⟨h1, -, h3⟩
    refine ⟨h1, ?_⟩
    rintro c rfl hr i hi hk
    have hout := (step_out (engineAfter h w cam ops) (.behavior c) _).2 ⟨c, rfl, hr, rfl⟩
    exact h3 i hi (incidentOf h w (stateFor (engineAfter h w cam ops) c) c) (Option.mem_toList.2 hout) hk
  · rintro ⟨h1, h2⟩
    refine ⟨h1, ?_, fun i hi j hj hk => ?_⟩
    · cases (step h w (engineAfter h w cam ops) op).2 <;> simp
    · obtain ⟨c, hop, hr, rfl⟩ := (step_out _ _ _).1 (Option.mem_toList.1 hj)
      exact h2 c hop hr i hi hk

theorem noLateAlarm_concat (ops : List RiskOp) (op : RiskOp) :
    NoLateAlarm h w cam (ops ++ [op]) ↔ NoLateAlarm h w cam ops ∧
      ∀ c, op = .behavior c → ¬ LateAlarm h w cam ops c := by
  constructor
  · intro hn
    refine ⟨fun pre c post he => hn pre c (post ++ [op]) (by simp [he]), ?_⟩
    rintro c rfl
    exact hn ops c [] rfl
  · rintro ⟨h1, h2⟩ pre c post he
    rcases Mealy.split_concat.1 he with ⟨rfl, ho, -⟩ | ⟨post', -, rfl⟩
    · exact h2 c ho.symm
    · exact h1 pre c post' rfl

/-- Incidents of a track are 30 s apart in a run exactly when no alarm-raising
event arrives, after `prune_stale` dropped its track's state, within 30 s of a
`last_incident_ts` that state had recorded. -/
theorem one_per_window_iff (h : Host) (w : Settings) (cam : String) (ops : List RiskOp) :
    OnePerWindow h w cam ops ↔ NoLateAlarm h w cam ops := by
  induction ops using List.reverseRecOn with
  | nil => simp [OnePerWindow, incidents, NoLateAlarm]
  | append_singleton ops op ih =>
    rw [onePerWindow_concat, noLateAlarm_concat, ih]
    refine and_congr_right fun _ => forall_congr' fun c => forall_congr' fun _ => ?_
    constructor
    · -- a forgotten time was an incident's, or the 0 of a fresh state
      rintro hall ⟨hr, t, ⟨pre, now, post, rfl, hrec, -⟩, hna⟩
      rcases recorded_cases (recorded_append hrec (.prune now :: post)) with rfl | ⟨i, hi, hk, rfl⟩
      · exact hna (apart_zero hr)
      · exact hna (hall hr i hi hk)
    · intro hlate hr i hi hk
      have hrec := recorded_incident hi
      rw [hk] at hrec
      rcases held_or_forgotten hrec with hheld | hf
      · exact apart_of_held hheld hr
      · by_contra hna
        exact hlate ⟨hr, _, hf, hna⟩

/-! ## A backlog breaks the window -/

/-- Every pruning is at a clock time no event processed before it lies beyond. -/
def PrunesBehindClock (ops : List RiskOp) : Prop :=
  ∀ pre now post, ops = pre ++ .prune now :: post →
    (∀ s, .shopformer s ∈ pre → s.timestamp ≤ now) ∧ ∀ c, .behavior c ∈ pre → c.bev.timestamp ≤ now

/-- A full score and a full FSM score for track 1 at `t`. -/
def alarmAt (t : ℚ) : List RiskOp := [
  .shopformer { cameraId := "cam-01", trackId := 1, anomalyScore := 1, reconstructionError := 2, embedding := [],
                poseSequenceLen := 24, timestamp := t },
  .behavior { bev := { cameraId := "cam-01", trackId := 1, fsmState := .highRiskExit, fsmScore := 20, timestamp := t }
              uuid := "incident" }]

/-- An alarm, a pruning 61 s later, and then the backlog: an alarm of the next second. -/
def backlog : List RiskOp := alarmAt 1000 ++ .prune 1061 :: alarmAt 1001

theorem backlog_prunes : PrunesBehindClock backlog := by
  intro pre now post he
  have hpre : pre = alarmAt 1000 ∧ now = 1061 := by
    rcases pre with _ | ⟨a, _ | ⟨b, _ | ⟨c, _ | ⟨d, _ | ⟨e, pre⟩⟩⟩⟩⟩ <;> simp_all [backlog, alarmAt]
  obtain ⟨rfl, rfl⟩ := hpre
  constructor
  · intro s hs
    simp only [alarmAt, List.mem_cons, RiskOp.shopformer.injEq, reduceCtorEq, List.not_mem_nil, or_false] at hs
    subst hs
    norm_num
  · intro c hc
    simp only [alarmAt, List.mem_cons, RiskOp.behavior.injEq, reduceCtorEq, List.not_mem_nil, or_false,
      false_or] at hc
    subst hc
    norm_num

theorem backlog_incidents :
    (incidents .reference .default "cam-01" backlog).map (fun i => (i.trackId, i.timestamp)) =
      [(1, 1000), (1, 1001)] := by
  decide +kernel

/-- Two incidents of one track, one second apart. -/
theorem backlog_breaks_window :
    ¬ ∀ (h : Host) (w : Settings) (cam : String) (ops : List RiskOp),
      PrunesBehindClock ops → OnePerWindow h w cam ops := by
  intro hall
  have hone := hall .reference .default "cam-01" backlog backlog_prunes
  have hmap : ((incidents .reference .default "cam-01" backlog).map fun i => (i.trackId, i.timestamp)).Pairwise
      fun a b => a.1 = b.1 → Apart a.2 b.2 := List.pairwise_map.2 hone
  rw [backlog_incidents] at hmap
  have hapart : Apart 1000 1001 := by simpa using hmap
  norm_num [Apart, incidentCooldownSec] at hapart

/-! ## When the queues keep up -/

/-- No behaviour event after a pruning is more than 30 s older than the clock was. -/
def QueueKeepsUp (ops : List RiskOp) : Prop :=
  ∀ pre now post, ops = pre ++ .prune now :: post →
    ∀ c, .behavior c ∈ post → now - incidentCooldownSec ≤ c.bev.timestamp

theorem held_old {e : RiskEngine} {k : Int} {t : ℚ} {st : TrackRiskState} {now : ℚ}
    (hheld : Held e k t) (hst : e.states.get? k = some st)
    (hs : RiskEngine.isStale now pruneMaxAgeSec st = true) : t + pruneMaxAgeSec < now := by
  obtain ⟨st', hst', hle⟩ := hheld
  rw [hst] at hst'
  cases hst'
  simp only [RiskEngine.isStale, decide_eq_true_eq] at hs
  have := le_max_right st.lastShopformerTs st.lastIncidentTs
  linarith

/-- A forgotten time is more than a minute older than some earlier pruning. -/
theorem forgotten_old {ops : List RiskOp} {k : Int} {t : ℚ} (hf : Forgotten h w cam ops k t) :
    ∃ pre now post, ops = pre ++ .prune now :: post ∧ t + pruneMaxAgeSec < now := by
  induction ops using List.reverseRecOn with
  | nil =>
    obtain ⟨pre, now, post, he, -⟩ := hf
    simp at he
  | append_singleton ops op ih =>
    obtain ⟨pre, now, post, he, hrec, st, hst, hs⟩ := hf
    have hlift : Forgotten h w cam ops k t →
        ∃ pre now post, ops ++ [op] = pre ++ .prune now :: post ∧ t + pruneMaxAgeSec < now := by
      intro hf
      obtain ⟨pre, now, post, rfl, hold⟩ := ih hf
      exact ⟨pre, now, post ++ [op], by simp, hold⟩
    rcases Mealy.split_concat.1 he with ⟨rfl, rfl, rfl⟩ | ⟨post', -, rfl⟩
    · rcases held_or_forgotten hrec with hheld | hf
      · exact ⟨pre, now, [], rfl, held_old hheld hst hs⟩
      · exact hlift hf
    · exact hlift ⟨pre, now, post', rfl, hrec, st, hst, hs⟩

/-- When no event is more than 30 s behind the clock of an earlier pruning, the
cool-down holds. -/
theorem one_per_window_of_prompt {ops : List RiskOp} (hq : QueueKeepsUp ops) : OnePerWindow h w cam ops := by
  refine (one_per_window_iff h w cam ops).2 ?_
  rintro pre c post rfl ⟨-, t, hf, hna⟩
  obtain ⟨pre', now, post', rfl, hold⟩ := forgotten_old hf
  have hc := hq pre' now (post' ++ .behavior c :: post) (by simp) c (by simp)
  apply hna
  rw [Apart, abs_sub_comm]
  simp only [pruneMaxAgeSec, incidentCooldownSec] at *
  exact (by linarith : (30 : ℚ) ≤ c.bev.timestamp - t).trans (le_abs_self _)

end Netra.Risk
