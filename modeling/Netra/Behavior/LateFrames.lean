import Netra.Behavior.Score
/-!
# Late frames

`_decay` sets its clock back on a frame that comes late, and the frame after it
is charged again for time that was charged before. `decays_once_iff` says when
what a run has taken off the score of a track is still paid for by the time it
covers.
-/
namespace Netra.Behavior.TheftRiskFSM

open PyLib

/-- The greatest timestamp of `bevs` and `t`. -/
def latest (t : ℚ) (bevs : List BehaviorEvent) : ℚ := bevs.foldl (fun t bev => max t bev.timestamp) t

section
variable (h : Host) (w : Settings)

/-- What `_decay` takes off the score at time `t`. -/
def taken (t : ℚ) (ctx : TrackContext) : ℚ := ctx.riskScore - (decay w ctx t).riskScore

/-- `_update` of a track, with what its `_decay` takes off. -/
def takenTurn (cam : String) (t : ℚ) (o : Option TrackContext) (u : PersonDetection × List AssociationEvent) :
    Option TrackContext × ℚ :=
  ((trackTurn h w cam t o u).1, taken w t (getOrCreate t o))

/-- What `_decay` takes off the score of track `k` in the run, in all. -/
def takenIn (k : Int) (fsm : TheftRiskFSM) : List Call → ℚ
  | [] => 0
  | c :: calls =>
    (Mealy.outs (takenTurn h w fsm.cameraId c.timestamp) (fsm.tracks.get? k) (trackUpdates c k)).sum +
      takenIn k (step h w fsm c).1 calls

/-- The same on the sightings of the track. -/
def takenFrom (cam : String) (o : Option TrackContext) (ss : List Sighting) : ℚ :=
  (Mealy.outs (fun o s => takenTurn h w cam s.time o (s.person, s.assoc)) o ss).sum

end

variable {h : Host} {w : Settings} {cam : String} {k : Int}

theorem takenFrom_cons (o : Option TrackContext) (s : Sighting) (ss : List Sighting) :
    takenFrom h w cam o (s :: ss) =
      taken w s.time (getOrCreate s.time o) + takenFrom h w cam (sightingTurn h w cam o s).1 ss := by
  rw [takenFrom, Mealy.outs_cons, List.sum_cons]
  rfl

theorem takenFrom_append (o : Option TrackContext) (ss ss' : List Sighting) :
    takenFrom h w cam o (ss ++ ss') =
      takenFrom h w cam o ss + takenFrom h w cam (Mealy.after (sightingTurn h w cam) o ss) ss' := by
  rw [takenFrom, Mealy.outs_append, List.sum_append]
  rfl

theorem takenIn_eq {fsm : TheftRiskFSM} {calls : List Call} (hkept : Kept h w k fsm calls) :
    takenIn h w k fsm calls = takenFrom h w fsm.cameraId (fsm.tracks.get? k) (sightings k calls) := by
  induction calls generalizing fsm with
  | nil => rfl
  | cons c calls ih =>
    obtain ⟨hc, hcalls⟩ := hkept
    rw [takenIn, ih hcalls, sightings_cons, takenFrom_append, context_kept hc]
    congr 1
    rw [takenFrom, sightingsIn, Mealy.outs_map]

/-- What is taken off is what leaks out of the accumulator. -/
theorem takenFrom_eq (ctx : TrackContext) (ss : List Sighting) :
    takenFrom h w cam (some ctx) ss =
      Leaky.leaked ctx.riskScore
        (turns w.fsmDecayRate ctx.lastDecayTs (Mealy.outs (sightingTurn h w cam) (some ctx) ss).flatten) := by
  induction ss generalizing ctx with
  | nil => rfl
  | cons s ss ih =>
    have hscore := riskScore_update h w cam s.assoc s.time ctx s.person
    rw [riskScore_decay] at hscore
    rw [takenFrom_cons, Mealy.outs_cons, sightingTurn_spec, getOrCreate_some, ih, hscore, lastDecayTs_update,
      List.flatten_cons, List.singleton_append, turns, Leaky.leaked]
    rfl

theorem takenFrom_new {ss : List Sighting} {first : BehaviorEvent} {rest : List BehaviorEvent}
    (hev : (Mealy.outs (sightingTurn h w cam) none ss).flatten = first :: rest) :
    takenFrom h w cam none ss =
      Leaky.leaked (weightSum first.signals) (turns w.fsmDecayRate first.timestamp rest) := by
  cases ss with
  | nil => simp at hev
  | cons s ss =>
    have hnew : takenFrom h w cam none (s :: ss) =
        takenFrom h w cam (some (getOrCreate s.time none)) (s :: ss) := rfl
    have houts : Mealy.outs (sightingTurn h w cam) none (s :: ss) =
        Mealy.outs (sightingTurn h w cam) (some (getOrCreate s.time none)) (s :: ss) := rfl
    have htime : first.timestamp = s.time := by
      rw [Mealy.outs_cons, List.flatten_cons] at hev
      obtain ⟨rfl, -⟩ := List.cons.inj hev
      rfl
    rw [hnew, takenFrom_eq, ← houts, hev, turns, Leaky.leaked, htime]
    simp [Leaky.pour, Leaky.sink, getOrCreate]

theorem rise_eq_latest {t : ℚ} {bevs : List BehaviorEvent}
    (hsorted : (t :: bevs.map (·.timestamp)).Pairwise (· ≤ ·)) : rise t bevs = latest t bevs - t := by
  induction bevs generalizing t with
  | nil => simp [rise, latest]
  | cons bev bevs ih =>
    obtain ⟨hle, hrest⟩ := List.pairwise_cons.1 hsorted
    have hfirst : t ≤ bev.timestamp := hle _ List.mem_cons_self
    have hlatest : latest t (bev :: bevs) = latest bev.timestamp bevs := by
      rw [latest, List.foldl_cons, max_eq_right hfirst]
      rfl
    rw [rise, ih hrest, hlatest, max_eq_right (sub_nonneg.2 hfirst)]
    ring

/-- The decays of a run are paid for by its time exactly when, from some event on, the
forward steps of the clock and the weights from before that event are. -/
theorem decays_once_iff (h : Host) (w : Settings) {fsm : TheftRiskFSM} {k : Int} (hnew : fsm.tracks.get? k = none)
    {calls : List Call} (hkept : Kept h w k fsm calls) {first : BehaviorEvent} {rest : List BehaviorEvent}
    (hev : eventsOf h w fsm k calls = first :: rest) :
    takenIn h w k fsm calls ≤ w.fsmDecayRate * (latest first.timestamp rest - first.timestamp) ↔
      ∃ pre e post, first :: rest = pre ++ e :: post ∧
        weightsOf pre + w.fsmDecayRate * rise e.timestamp post ≤
          w.fsmDecayRate * (latest first.timestamp rest - first.timestamp) := by
  have hrun := (track_run hkept).2
  rw [hnew, hev] at hrun
  have hturns : ⟨0, weightSum first.signals⟩ :: turns w.fsmDecayRate first.timestamp rest =
      turns w.fsmDecayRate first.timestamp (first :: rest) := by
    rw [turns, sub_self, max_self, mul_zero]
  rw [takenIn_eq hkept, hnew, takenFrom_new hrun.symm, Leaky.leaked_le_iff, hturns]
  refine (split_turns (R := fun p _ post => p + Leaky.drained post ≤ _)).trans ?_
  simp only [drained_turns]

/-- Nothing is charged twice when no clock runs backwards. -/
theorem decays_once_sorted (h : Host) (w : Settings) {fsm : TheftRiskFSM} {k : Int} (hnew : fsm.tracks.get? k = none)
    {calls : List Call} (hkept : Kept h w k fsm calls) {first : BehaviorEvent} {rest : List BehaviorEvent}
    (hev : eventsOf h w fsm k calls = first :: rest)
    (hsorted : ((first :: rest).map (·.timestamp)).Pairwise (· ≤ ·)) :
    takenIn h w k fsm calls ≤ w.fsmDecayRate * (latest first.timestamp rest - first.timestamp) := by
  refine (decays_once_iff h w hnew hkept hev).2 ⟨[], first, rest, rfl, ?_⟩
  rw [rise_eq_latest hsorted]
  simp [weightsOf]

/-- A look a second after the pick. -/
theorem decays_once_iff_pick :
    takenIn .reference .default 7 { cameraId := "cam-01" } [sevenAt 100 [.itemPickup], sevenAt 101 []] ≤ 1.8 := by
  have hkept : Kept .reference .default 7 { cameraId := "cam-01" } [sevenAt 100 [.itemPickup], sevenAt 101 []] :=
    kept_of_inCall (by decide)
  refine ((decays_once_iff .reference .default (Dict.get?_empty 7) hkept rfl).2 ⟨[], _, _, rfl, ?_⟩).trans ?_
  · decide +kernel
  · decide +kernel

/-- A look at 90, between two at 100, has the pick's four points decay in no time. -/
def lateLook : List Call := [sevenAt 100 [.itemPickup], sevenAt 90 [], sevenAt 100 []]

theorem decays_once_fails :
    ¬ ∀ (h : Host) (w : Settings) (fsm : TheftRiskFSM) (k : Int), fsm.tracks.get? k = none →
      ∀ calls : List Call, (∀ c ∈ calls, inCall k c) →
      ∀ first rest, eventsOf h w fsm k calls = first :: rest →
        takenIn h w k fsm calls ≤ w.fsmDecayRate * (latest first.timestamp rest - first.timestamp) := by
  intro hall
  have hclaim := hall .reference .default { cameraId := "cam-01" } 7 (Dict.get?_empty 7) lateLook (by decide) _ _ rfl
  exact absurd hclaim (by decide +kernel)

end Netra.Behavior.TheftRiskFSM
