import Netra.Behavior.Track
import Netra.Lib.Leaky
import Mathlib.Tactic.Linarith
import Mathlib.Tactic.Ring
/-!
# The theft score in closed form

The score of a track is a leaky accumulator: an event drains it for the time
since the last one and pours in the weights of its signals. `score_closed_form`
reads the score off the events alone, and shows that calls without a signal
leave no trace in it.
-/
namespace Netra.Behavior.TheftRiskFSM

open PyLib

/-- The turns that events are, from the clock `t` on. -/
def turns (r : ℚ) (t : ℚ) : List BehaviorEvent → List (Leaky.Turn ℚ)
  | [] => []
  | bev :: bevs => ⟨r * max 0 (bev.timestamp - t), weightSum bev.signals⟩ :: turns r bev.timestamp bevs

/-- The weights of all the signals of `bevs`. -/
def weightsOf (bevs : List BehaviorEvent) : ℚ := (bevs.map fun bev => weightSum bev.signals).sum

/-- How far the clock moves forward along `bevs`, from `t` on. -/
def rise (t : ℚ) : List BehaviorEvent → ℚ
  | [] => 0
  | bev :: bevs => max 0 (bev.timestamp - t) + rise bev.timestamp bevs

section
variable (h : Host) (w : Settings)

/-- `calls'` is `calls` with further calls in between, none of which emits a signal
for track `k` in the run of `calls'` from `fsm`. -/
inductive Inserted (k : Int) : TheftRiskFSM → List Call → List Call → Prop
  | nil {fsm : TheftRiskFSM} : Inserted k fsm [] []
  | both {fsm : TheftRiskFSM} {c : Call} {calls calls' : List Call} :
      Inserted k (step h w fsm c).1 calls calls' → Inserted k fsm (c :: calls) (c :: calls')
  | insert {fsm : TheftRiskFSM} {c : Call} {calls calls' : List Call} :
      (∀ bev ∈ (step h w fsm c).2, bev.trackId = k → bev.signals = []) →
      Inserted k (step h w fsm c).1 calls calls' → Inserted k fsm calls (c :: calls')

end

/-! ## Turns of events -/

section
variable {r t : ℚ}

theorem inflow_turns (bevs : List BehaviorEvent) : Leaky.inflow (turns r t bevs) = weightsOf bevs := by
  induction bevs generalizing t with
  | nil => rfl
  | cons bev bevs ih =>
    rw [turns, Leaky.inflow_cons, ih, weightsOf, weightsOf, List.map_cons, List.sum_cons]

theorem drained_turns (bevs : List BehaviorEvent) : Leaky.drained (turns r t bevs) = r * rise t bevs := by
  induction bevs generalizing t with
  | nil => simp [turns, rise]
  | cons bev bevs ih => rw [turns, Leaky.drained_cons, ih, rise, mul_add]

/-- The splits of the turns are those of the events. -/
theorem split_turns {R : ℚ → ℚ → List (Leaky.Turn ℚ) → Prop} {bevs : List BehaviorEvent} :
    (∃ pre e post, turns r t bevs = pre ++ e :: post ∧ R (Leaky.inflow pre) e.inflow post) ↔
      ∃ pre bev post, bevs = pre ++ bev :: post ∧
        R (weightsOf pre) (weightSum bev.signals) (turns r bev.timestamp post) := by
  induction bevs generalizing t R with
  | nil => simp [turns]
  | cons bev bevs ih =>
    have hrest := ih (t := bev.timestamp) (R := fun q => R (weightSum bev.signals + q))
    constructor
    · rintro ⟨pre, e, post, hsplit, hR⟩
      rcases List.cons_eq_append_iff.1 hsplit with ⟨rfl, he⟩ | ⟨pre', rfl, htail⟩
      · cases he
        exact ⟨[], bev, bevs, rfl, hR⟩
      · rw [Leaky.inflow_cons] at hR
        obtain ⟨pre, bev', post, rfl, hR⟩ := hrest.1 ⟨pre', e, post, htail, hR⟩
        exact ⟨bev :: pre, bev', post, rfl, by simpa [weightsOf] using hR⟩
    · rintro ⟨pre, bev', post, hsplit, hR⟩
      rcases List.cons_eq_append_iff.1 hsplit with ⟨rfl, he⟩ | ⟨pre', rfl, rfl⟩
      · cases he
        exact ⟨[], _, _, rfl, hR⟩
      · have hR' : R (weightSum bev.signals + weightsOf pre') (weightSum bev'.signals)
            (turns r bev'.timestamp post) := by
          simpa [weightsOf] using hR
        obtain ⟨pre, e, post', htail, hR⟩ := hrest.2 ⟨pre', bev', post, rfl, hR'⟩
        exact ⟨_ :: pre, e, post', by rw [turns, htail, List.cons_append], by rwa [Leaky.inflow_cons]⟩

/-- When no clock runs backwards, it moves as far as from the first to the last. -/
theorem rise_sorted {bevs : List BehaviorEvent} {bev : BehaviorEvent}
    (hsorted : (t :: (bevs ++ [bev]).map (·.timestamp)).Pairwise (· ≤ ·)) :
    rise t (bevs ++ [bev]) = bev.timestamp - t := by
  induction bevs generalizing t with
  | nil =>
    have hle : t ≤ bev.timestamp := by simpa using hsorted
    rw [List.nil_append, rise, rise, max_eq_right (sub_nonneg.2 hle), add_zero]
  | cons b bevs ih =>
    rw [List.cons_append, List.map_cons] at hsorted
    obtain ⟨hle, hrest⟩ := List.pairwise_cons.1 hsorted
    rw [List.cons_append, rise, ih hrest, max_eq_right (sub_nonneg.2 (hle _ List.mem_cons_self))]
    ring

/-- From an event on, the clock moves as far as to the last one. -/
theorem rise_split {before pre post : List BehaviorEvent} {e bev : BehaviorEvent}
    (hsorted : ((pre ++ [bev]).map (·.timestamp)).Pairwise (· ≤ ·)) (hsplit : pre ++ [bev] = before ++ e :: post) :
    rise e.timestamp post = bev.timestamp - e.timestamp := by
  have htail : ((e :: post).map (·.timestamp)).Pairwise (· ≤ ·) := by
    rw [hsplit, List.map_append] at hsorted
    exact (List.pairwise_append.1 hsorted).2.1
  rcases List.eq_nil_or_concat' post with rfl | ⟨post', last, rfl⟩
  · obtain ⟨-, hlast⟩ := List.append_inj' hsplit rfl
    obtain rfl := List.singleton_inj.1 hlast
    rw [rise, sub_self]
  · rw [← List.cons_append, ← List.append_assoc] at hsplit
    obtain ⟨-, hlast⟩ := List.append_inj' hsplit rfl
    obtain rfl := List.singleton_inj.1 hlast
    exact rise_sorted htail

end

/-! ## The score is a level -/

section
variable {h : Host} {w : Settings} {cam : String}

theorem riskScore_decay (ctx : TrackContext) (now : ℚ) :
    (decay w ctx now).riskScore = Leaky.sink ctx.riskScore (w.fsmDecayRate * max 0 (now - ctx.lastDecayTs)) := rfl

/-- The score that each event reports, from a context on. -/
theorem score_run (ctx : TrackContext) (ss : List Sighting) {pre : List BehaviorEvent} {bev : BehaviorEvent}
    (hev : (Mealy.outs (sightingTurn h w cam) (some ctx) ss).flatten = pre ++ [bev]) :
    bev.fsmScore = Leaky.level ctx.riskScore (turns w.fsmDecayRate ctx.lastDecayTs (pre ++ [bev])) := by
  induction ss generalizing ctx pre with
  | nil => simp at hev
  | cons s ss ih =>
    have hscore := riskScore_update h w cam s.assoc s.time ctx s.person
    rw [riskScore_decay] at hscore
    rw [Mealy.outs_cons, sightingTurn_spec, getOrCreate_some, List.flatten_cons, List.singleton_append] at hev
    cases pre with
    | nil =>
      obtain ⟨rfl, -⟩ := List.cons.inj hev
      exact hscore
    | cons b pre =>
      obtain ⟨rfl, htail⟩ := List.cons.inj hev
      rw [ih _ htail, lastDecayTs_update, List.cons_append, turns, Leaky.level_cons, hscore]
      rfl

/-- A new track has its first event's weights. -/
theorem score_new {ss : List Sighting} {first bev : BehaviorEvent} {pre rest : List BehaviorEvent}
    (hev : (Mealy.outs (sightingTurn h w cam) none ss).flatten = pre ++ [bev])
    (hfirst : pre ++ [bev] = first :: rest) :
    bev.fsmScore = Leaky.level (weightSum first.signals) (turns w.fsmDecayRate first.timestamp rest) := by
  cases ss with
  | nil => simp at hev
  | cons s ss =>
    have hnew : Mealy.outs (sightingTurn h w cam) none (s :: ss) =
        Mealy.outs (sightingTurn h w cam) (some (getOrCreate s.time none)) (s :: ss) := rfl
    rw [hnew] at hev
    have hscore := score_run _ _ hev
    have htime : first.timestamp = s.time := by
      rw [Mealy.outs_cons, List.flatten_cons, hfirst] at hev
      obtain ⟨rfl, -⟩ := List.cons.inj hev
      rfl
    rw [hscore, hfirst, turns, Leaky.level_cons, htime]
    simp [Leaky.pour, Leaky.sink, getOrCreate]

/-- The score of the last event of a new track, as a maximum over the events it may
have started afresh at. -/
theorem isGreatest_score {ss : List Sighting} {pre : List BehaviorEvent} {bev : BehaviorEvent}
    (hev : (Mealy.outs (sightingTurn h w cam) none ss).flatten = pre ++ [bev])
    (hsorted : ((pre ++ [bev]).map (·.timestamp)).Pairwise (· ≤ ·)) :
    IsGreatest {x | ∃ before e rest, pre ++ [bev] = before ++ e :: rest ∧
      x = weightsOf (e :: rest) - w.fsmDecayRate * (bev.timestamp - e.timestamp)} bev.fsmScore := by
  obtain ⟨first, rest, hfirst⟩ : ∃ first rest, pre ++ [bev] = first :: rest :=
    List.exists_cons_of_ne_nil (by simp)
  have hturns : ⟨0, weightSum first.signals⟩ :: turns w.fsmDecayRate first.timestamp rest =
      turns w.fsmDecayRate first.timestamp (pre ++ [bev]) := by
    rw [hfirst, turns, sub_self, max_self, mul_zero]
  have hset : {x | Leaky.Afresh (⟨0, weightSum first.signals⟩ :: turns w.fsmDecayRate first.timestamp rest) x} =
      {x | ∃ before e rest, pre ++ [bev] = before ++ e :: rest ∧
        x = weightsOf (e :: rest) - w.fsmDecayRate * (bev.timestamp - e.timestamp)} := by
    ext x
    rw [hturns]
    refine (split_turns (R := fun _ q post => x = q + Leaky.inflow post - Leaky.drained post)).trans ?_
    refine exists_congr fun before => exists_congr fun e => exists_congr fun post => and_congr_right fun hsplit => ?_
    rw [inflow_turns, drained_turns, rise_split hsorted hsplit, weightsOf, weightsOf, List.map_cons, List.sum_cons]
  rw [score_new hev hfirst, ← hset]
  exact Leaky.isGreatest_level _ _

theorem timestamps_outs (ss : List Sighting) (o : Option TrackContext) :
    (Mealy.outs (sightingTurn h w cam) o ss).flatten.map (·.timestamp) = ss.map (·.time) := by
  induction ss generalizing o with
  | nil => rfl
  | cons s ss ih =>
    rw [Mealy.outs_cons, List.flatten_cons, List.map_append, ih, sightingTurn_spec]
    rfl

theorem score_nonneg {ss : List Sighting} {o : Option TrackContext}
    (hnonneg : ∀ ctx, o = some ctx → 0 ≤ ctx.riskScore) :
    ∀ bev ∈ (Mealy.outs (sightingTurn h w cam) o ss).flatten, 0 ≤ bev.fsmScore := by
  induction ss generalizing o with
  | nil => simp
  | cons s ss ih =>
    have hscore := riskScore_update h w cam s.assoc s.time (getOrCreate s.time o) s.person
    have hpos : 0 ≤ (update h w cam (getOrCreate s.time o) s.person s.assoc s.time).1.riskScore := by
      rw [hscore, riskScore_decay]
      exact add_nonneg (Leaky.sink_nonneg _ _) (weightSum_update_nonneg ..)
    rw [Mealy.outs_cons, sightingTurn_spec, List.flatten_cons, List.singleton_append]
    refine List.forall_mem_cons.2 ⟨hpos, ih fun ctx hctx => ?_⟩
    obtain rfl := Option.some.inj hctx
    exact hpos

/-! ## Calls without a signal -/

variable {t : ℚ} {o o' : Option TrackContext} {k : Int}

/-- Contexts that calls from `t` on tell apart neither by signals nor by scores. -/
structure SameLater (w : Settings) (t : ℚ) (o o' : Option TrackContext) : Prop where
  memory : memory (getOrCreate t o) = memory (getOrCreate t o')
  clock : (getOrCreate t o).lastDecayTs ≤ t
  score : ∀ t' ≥ t, (decay w (getOrCreate t' o) t').riskScore = (decay w (getOrCreate t' o') t').riskScore

theorem memory_getOrCreate (t t' : ℚ) (o : Option TrackContext) :
    memory (getOrCreate t o) = memory (getOrCreate t' o) := by
  cases o <;> rfl

theorem SameLater.mono (hs : SameLater w t o o') {t' : ℚ} (ht : t ≤ t') : SameLater w t' o o' where
  memory := by
    rw [memory_getOrCreate t' t, memory_getOrCreate t' t]
    exact hs.memory
  clock := by
    cases o with
    | none => exact le_refl t'
    | some ctx => exact hs.clock.trans ht
  score u hu := hs.score u (ht.trans hu)

theorem SameLater.new (t : ℚ) : SameLater w t none none := ⟨rfl, le_refl t, fun _ _ => rfl⟩

/-- Contexts with one memory emit the same signals. -/
theorem names_congr {ctx ctx' : TrackContext} (hm : memory ctx = memory ctx') (p : PersonDetection)
    (assoc : List AssociationEvent) :
    names (update h w cam ctx p assoc t).2 = names (update h w cam ctx' p assoc t).2 := by
  rw [names_update, names_update, hm]

/-- A call that both tracks are in. -/
theorem SameLater.both (hs : SameLater w t o o') (h : Host) (cam : String) (p : PersonDetection)
    (assoc : List AssociationEvent) :
    SameLater w t (some (update h w cam (getOrCreate t o) p assoc t).1)
        (some (update h w cam (getOrCreate t o') p assoc t).1) ∧
      (update h w cam (getOrCreate t o) p assoc t).1.riskScore =
        (update h w cam (getOrCreate t o') p assoc t).1.riskScore := by
  have hscore : (update h w cam (getOrCreate t o) p assoc t).1.riskScore =
      (update h w cam (getOrCreate t o') p assoc t).1.riskScore := by
    rw [riskScore_update, riskScore_update, hs.score t (le_refl t), weightSum_update, weightSum_update,
      names_congr hs.memory]
  refine ⟨⟨?_, ?_, fun t' _ => ?_⟩, hscore⟩
  · rw [getOrCreate_some, getOrCreate_some, memory_update, memory_update, hs.memory]
  · exact (lastDecayTs_update ..).le
  · rw [getOrCreate_some, getOrCreate_some, riskScore_decay, riskScore_decay, hscore, lastDecayTs_update,
      lastDecayTs_update]

/-- A call that one of them is in, and that emits nothing. -/
theorem SameLater.insert (hr : 0 ≤ w.fsmDecayRate) (hs : SameLater w t o o') {p : PersonDetection}
    {assoc : List AssociationEvent} (hquiet : (update h w cam (getOrCreate t o) p assoc t).2 = []) :
    SameLater w t (some (update h w cam (getOrCreate t o) p assoc t).1) o' := by
  have hnames : names (update h w cam (getOrCreate t o) p assoc t).2 = [] := by
    rw [hquiet]
    rfl
  refine ⟨?_, (lastDecayTs_update ..).le, fun t' ht => ?_⟩
  · rw [getOrCreate_some, memory_update_quiet _ _ _ _ _ _ _ hnames]
    exact hs.memory
  · have hscore : (update h w cam (getOrCreate t o) p assoc t).1.riskScore =
        (decay w (getOrCreate t o) t).riskScore := by
      rw [riskScore_update, hquiet]
      simp [weightSum]
    rw [← hs.score t' ht, getOrCreate_some, riskScore_decay, hscore, lastDecayTs_update,
      riskScore_decay, riskScore_decay]
    have hlater : 0 ≤ t' - t := sub_nonneg.2 ht
    have hclock := hs.clock
    cases o with
    | none => simp [getOrCreate, Leaky.sink, mul_nonneg hr (le_max_left 0 (t' - t))]
    | some ctx =>
      change ctx.lastDecayTs ≤ t at hclock
      have hboth : 0 ≤ t' - ctx.lastDecayTs := sub_nonneg.2 (hclock.trans ht)
      rw [Leaky.sink_sink _ (mul_nonneg hr (le_max_left 0 _)), ← mul_add]
      change Leaky.sink ctx.riskScore (w.fsmDecayRate * (max 0 (t - ctx.lastDecayTs) + max 0 (t' - t))) =
        Leaky.sink ctx.riskScore (w.fsmDecayRate * max 0 (t' - ctx.lastDecayTs))
      rw [max_eq_right (sub_nonneg.2 hclock), max_eq_right hlater, max_eq_right hboth]
      congr 2
      ring

/-- Sightings that both tracks get. -/
theorem SameLater.run (hs : SameLater w t o o') (h : Host) (cam : String) {ss : List Sighting}
    (hsorted : (t :: ss.map (·.time)).Pairwise (· ≤ ·)) {u : ℚ} (hu : ∀ x ∈ t :: ss.map (·.time), x ≤ u) :
    SameLater w u (Mealy.after (sightingTurn h w cam) o ss) (Mealy.after (sightingTurn h w cam) o' ss) ∧
      (Mealy.outs (sightingTurn h w cam) o ss).flatten.map (·.fsmScore) =
        (Mealy.outs (sightingTurn h w cam) o' ss).flatten.map (·.fsmScore) := by
  induction ss generalizing t o o' with
  | nil => exact ⟨hs.mono (hu t List.mem_cons_self), rfl⟩
  | cons s ss ih =>
    obtain ⟨hle, hrest⟩ := List.pairwise_cons.1 hsorted
    obtain ⟨hnext, hscore⟩ := (hs.mono (hle s.time (by simp))).both h cam s.person s.assoc
    obtain ⟨hafter, hscores⟩ := ih hnext hrest fun x hx => hu x (List.mem_cons_of_mem _ hx)
    refine ⟨hafter, ?_⟩
    rw [Mealy.outs_cons, Mealy.outs_cons, List.flatten_cons, List.flatten_cons, List.map_append, List.map_append]
    rw [sightingTurn_spec, sightingTurn_spec] at *
    exact congrArg₂ (· ++ ·) (congrArg (fun x => [x]) hscore) hscores

/-- Sightings that one of them gets, and that emit nothing. -/
theorem SameLater.quiet (hr : 0 ≤ w.fsmDecayRate) (hs : SameLater w t o o') {ss : List Sighting}
    (hquiet : ∀ bev ∈ (Mealy.outs (sightingTurn h w cam) o ss).flatten, bev.signals = [])
    (hsorted : (t :: ss.map (·.time)).Pairwise (· ≤ ·)) {u : ℚ} (hu : ∀ x ∈ t :: ss.map (·.time), x ≤ u) :
    SameLater w u (Mealy.after (sightingTurn h w cam) o ss) o' := by
  induction ss generalizing t o with
  | nil => exact hs.mono (hu t List.mem_cons_self)
  | cons s ss ih =>
    obtain ⟨hle, hrest⟩ := List.pairwise_cons.1 hsorted
    rw [Mealy.outs_cons, sightingTurn_spec, List.flatten_cons, List.singleton_append] at hquiet
    obtain ⟨hnow, hlater⟩ := List.forall_mem_cons.1 hquiet
    have hnext := (hs.mono (hle s.time (by simp))).insert hr hnow
    exact ih hnext hlater hrest fun x hx => hu x (List.mem_cons_of_mem _ hx)

/-- Where the clock stands between two parts of a run. -/
theorem sorted_split {u : ℚ} {xs ys : List ℚ} (hsorted : (t :: (xs ++ ys)).Pairwise (· ≤ ·))
    (hu : ∀ x ∈ t :: (xs ++ ys), x ≤ u) :
    (t :: xs).Pairwise (· ≤ ·) ∧
      ∃ t', (∀ x ∈ t :: xs, x ≤ t') ∧ (t' :: ys).Pairwise (· ≤ ·) ∧ ∀ x ∈ t' :: ys, x ≤ u := by
  obtain ⟨init, t', hlast⟩ := (List.eq_nil_or_concat' (t :: xs)).resolve_left (List.cons_ne_nil t xs)
  rw [← List.cons_append, hlast] at hsorted hu
  rw [hlast]
  refine ⟨(List.pairwise_append.1 hsorted).1, ?_⟩
  rw [List.append_assoc, List.singleton_append] at hsorted hu
  obtain ⟨-, htail, hcross⟩ := List.pairwise_append.1 hsorted
  refine ⟨t', fun x hx => ?_, htail, fun x hx => hu x (List.mem_append_right _ hx)⟩
  rcases List.mem_append.1 hx with hx | hx
  · exact hcross x hx t' List.mem_cons_self
  · exact (List.mem_singleton.1 hx).le

/-- Calls without a signal in between change nothing. -/
theorem Inserted.sameLater (hr : 0 ≤ w.fsmDecayRate) {fsm fsm' : TheftRiskFSM} {calls calls' : List Call}
    (hi : Inserted h w k fsm calls calls') (hcam : fsm'.cameraId = fsm.cameraId)
    (hs : SameLater w t (fsm.tracks.get? k) (fsm'.tracks.get? k)) (hkept : Kept h w k fsm calls')
    (hkept' : Kept h w k fsm' calls) (hsorted : (t :: (sightings k calls').map (·.time)).Pairwise (· ≤ ·)) {u : ℚ}
    (hu : ∀ x ∈ t :: (sightings k calls').map (·.time), x ≤ u) :
    SameLater w u ((Mealy.after (step h w) fsm calls').tracks.get? k)
      ((Mealy.after (step h w) fsm' calls).tracks.get? k) := by
  induction hi generalizing fsm' t with
  | nil => exact hs.mono (hu t List.mem_cons_self)
  | @both fsm c calls calls' hi ih =>
    rw [sightings_cons, List.map_append] at hsorted hu
    obtain ⟨hnowSorted, t', hnow, hlater, hu'⟩ := sorted_split hsorted hu
    have hnext := (hs.run h fsm.cameraId hnowSorted hnow).1
    refine ih hcam ?_ hkept.2 hkept'.2 hlater hu'
    rw [context_kept hkept.1, context_kept hkept'.1, hcam]
    exact hnext
  | @insert fsm c calls calls' hquiet hi ih =>
    rw [sightings_cons, List.map_append] at hsorted hu
    obtain ⟨hnowSorted, t', hnow, hlater, hu'⟩ := sorted_split hsorted hu
    have hnone : ∀ bev ∈ (Mealy.outs (sightingTurn h w fsm.cameraId) (fsm.tracks.get? k)
        (sightingsIn k c)).flatten, bev.signals = [] := by
      intro bev hbev
      rw [← events_step] at hbev
      obtain ⟨hmem, hk⟩ := List.mem_filter.1 hbev
      exact hquiet bev hmem (of_decide_eq_true hk)
    refine ih hcam ?_ hkept.2 hkept' hlater hu'
    rw [context_kept hkept.1]
    exact hs.quiet hr hnone hnowSorted hnow

/-- A time from which a run starts. -/
theorem exists_start {xs : List ℚ} {u : ℚ} (hsorted : (xs ++ [u]).Pairwise (· ≤ ·)) :
    ∃ t, (t :: xs).Pairwise (· ≤ ·) ∧ ∀ x ∈ t :: xs, x ≤ u := by
  obtain ⟨hxs, -, hle⟩ := List.pairwise_append.1 hsorted
  have hu : ∀ x ∈ xs, x ≤ u := fun x hx => hle x hx u List.mem_cons_self
  cases xs with
  | nil => exact ⟨u, List.pairwise_singleton _ _, by simp⟩
  | cons x xs =>
    obtain ⟨hx, -⟩ := List.pairwise_cons.1 hxs
    refine ⟨x, List.pairwise_cons.2 ⟨List.forall_mem_cons.2 ⟨le_refl x, hx⟩, hxs⟩, ?_⟩
    exact List.forall_mem_cons.2 ⟨hu x List.mem_cons_self, hu⟩

theorem cameraId_after (fsm : TheftRiskFSM) (calls : List Call) :
    (Mealy.after (step h w) fsm calls).cameraId = fsm.cameraId :=
  Mealy.after_inv (step h w) (·.cameraId = fsm.cameraId) _ rfl (fun _ _ hs => hs) calls

/-! ## Main result -/

/-- A track that is detected once in a call has one event there. -/
theorem events_once {c : Call} (honce : c.persons.countP (·.trackId = k) = 1) :
    ∃ s, sightingsIn k c = [s] ∧ s.time = c.timestamp ∧ ∀ fsm : TheftRiskFSM,
      (step h w fsm c).2.filter (·.trackId = k) =
        [behaviorEvent w fsm.cameraId s.person.trackId s.time
          (update h w fsm.cameraId (getOrCreate s.time (fsm.tracks.get? k)) s.person s.assoc s.time)] := by
  rw [List.countP_eq_length_filter, List.length_eq_one_iff] at honce
  obtain ⟨p, hp⟩ := honce
  have hin : sightingsIn k c = [⟨c.timestamp, p, assocOf c.assoc k⟩] := by
    rw [sightingsIn, trackUpdates, hp]
    rfl
  refine ⟨_, hin, rfl, fun fsm => ?_⟩
  rw [events_step, hin]
  rfl

theorem eventsOf_concat (fsm : TheftRiskFSM) (k : Int) (calls : List Call) (c : Call) :
    eventsOf h w fsm k (calls ++ [c]) =
      eventsOf h w fsm k calls ++ (step h w (Mealy.after (step h w) fsm calls) c).2.filter (·.trackId = k) := by
  rw [eventsOf, Mealy.outs_append, List.flatten_append, List.filter_append, Mealy.outs_cons, Mealy.outs_nil,
    List.flatten_singleton]
  rfl

/-- A new track has one score in a call, with and without the calls that emit nothing. -/
theorem Inserted.score (hr : 0 ≤ w.fsmDecayRate) {fsm : TheftRiskFSM} (hnew : fsm.tracks.get? k = none)
    {calls calls' : List Call} {c : Call} (hi : Inserted h w k fsm calls calls')
    (hkept : Kept h w k fsm calls) (hkept' : Kept h w k fsm calls') (honce : c.persons.countP (·.trackId = k) = 1)
    (hsorted : ((sightings k (calls' ++ [c])).map (·.time)).Pairwise (· ≤ ·)) :
    ((step h w (Mealy.after (step h w) fsm calls') c).2.filter (·.trackId = k)).map (·.fsmScore) =
      ((step h w (Mealy.after (step h w) fsm calls) c).2.filter (·.trackId = k)).map (·.fsmScore) := by
  obtain ⟨s, hs, -, hlast⟩ := events_once (h := h) (w := w) honce
  have htimes : (sightings k (calls' ++ [c])).map (·.time) = (sightings k calls').map (·.time) ++ [s.time] := by
    rw [sightings, List.flatMap_append, List.flatMap_singleton, hs, List.map_append]
    rfl
  rw [htimes] at hsorted
  obtain ⟨t, ht, hbound⟩ := exists_start hsorted
  have hsame := hi.sameLater hr rfl (by rw [hnew]; exact .new t) hkept' hkept ht hbound
  rw [hlast, hlast, cameraId_after, cameraId_after]
  exact congrArg (fun x => [x]) (hsame.both h fsm.cameraId s.person s.assoc).2

end

/-- The score reported in a call is the most that the weights since some earlier
call come to, less the decay since then. Further calls without a signal do not
change it. -/
theorem score_closed_form (h : Host) (w : Settings) (hr : 0 ≤ w.fsmDecayRate) {fsm : TheftRiskFSM} {k : Int}
    (hnew : fsm.tracks.get? k = none) {calls : List Call} {c : Call} (hkept : Kept h w k fsm (calls ++ [c]))
    (honce : c.persons.countP (·.trackId = k) = 1)
    (hsorted : ((sightings k (calls ++ [c])).map (·.time)).Pairwise (· ≤ ·)) :
    ∃ bev, (step h w (Mealy.after (step h w) fsm calls) c).2.filter (·.trackId = k) = [bev] ∧
      IsGreatest {x | ∃ before e rest, eventsOf h w fsm k (calls ++ [c]) = before ++ e :: rest ∧
        x = weightsOf (e :: rest) - w.fsmDecayRate * (c.timestamp - e.timestamp)} bev.fsmScore ∧
      0 ≤ bev.fsmScore ∧
      ∀ calls', Inserted h w k fsm calls calls' → Kept h w k fsm (calls' ++ [c]) →
        ((sightings k (calls' ++ [c])).map (·.time)).Pairwise (· ≤ ·) →
        ((step h w (Mealy.after (step h w) fsm calls') c).2.filter (·.trackId = k)).map (·.fsmScore) =
          [bev.fsmScore] := by
  obtain ⟨s, -, hstime, hlast⟩ := events_once (h := h) (w := w) honce
  obtain ⟨bev, hbev⟩ : ∃ bev, [bev] = (step h w (Mealy.after (step h w) fsm calls) c).2.filter (·.trackId = k) :=
    ⟨_, (hlast _).symm⟩
  have htime : bev.timestamp = c.timestamp := by
    rw [hlast, List.singleton_inj] at hbev
    rw [hbev, ← hstime]
    rfl
  have hevents : eventsOf h w fsm k (calls ++ [c]) = eventsOf h w fsm k calls ++ [bev] := by
    rw [eventsOf_concat, hbev]
  have hrun := (track_run hkept).2
  rw [hnew, hevents] at hrun
  have htimes : ((eventsOf h w fsm k calls ++ [bev]).map (·.timestamp)).Pairwise (· ≤ ·) := by
    rw [hrun, timestamps_outs]
    exact hsorted
  refine ⟨bev, hbev.symm, ?_, ?_, fun calls' hi hkept' hsorted' => ?_⟩
  · rw [hevents, ← htime]
    exact isGreatest_score hrun.symm htimes
  · exact score_nonneg (o := none) (fun ctx hctx => by cases hctx) bev (by rw [← hrun]; simp)
  · obtain ⟨hk, -⟩ := Mealy.always_append.1 hkept
    obtain ⟨hk', -⟩ := Mealy.always_append.1 hkept'
    rw [hi.score hr hnew hk hk' honce hsorted', ← hbev, List.map_singleton]

/-- A pick at 100 and a shelf interaction a second later: 4 - 1.8 + 2, with and
without a look in between. -/
theorem score_closed_form_pick :
    ((step .reference .default (Mealy.after (step .reference .default) { cameraId := "cam-01" }
        [sevenAt 100 [.itemPickup], sevenAt 100.5 []]) (sevenAt 101 [.shelfInteraction])).2.filter
          (·.trackId = 7)).map (·.fsmScore) = [4.2] := by
  have hkept : Kept .reference .default 7 { cameraId := "cam-01" }
      ([sevenAt 100 [.itemPickup]] ++ [sevenAt 101 [.shelfInteraction]]) := by
    unfold Kept
    decide +kernel
  have hkept' : Kept .reference .default 7 { cameraId := "cam-01" }
      ([sevenAt 100 [.itemPickup], sevenAt 100.5 []] ++ [sevenAt 101 [.shelfInteraction]]) := by
    unfold Kept
    decide +kernel
  have hquiet : Inserted .reference .default 7 { cameraId := "cam-01" } [sevenAt 100 [.itemPickup]]
      [sevenAt 100 [.itemPickup], sevenAt 100.5 []] := .both (.insert (by decide) .nil)
  obtain ⟨bev, hbev, -, -, hsame⟩ :=
    score_closed_form .reference .default (by decide +kernel) (Dict.get?_empty 7) hkept (by decide)
      (by decide +kernel)
  rw [hsame _ hquiet hkept' (by decide +kernel)]
  have hscore : ([bev].map (·.fsmScore)) = [4.2] := by
    rw [← hbev]
    decide +kernel
  exact hscore

end Netra.Behavior.TheftRiskFSM
