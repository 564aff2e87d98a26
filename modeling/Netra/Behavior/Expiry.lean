import Netra.Behavior.Track
/-!
# When a track expires

`process` prunes a context only in a frame the track is not in. A track that is
away for more than 10 s is forgotten if such a frame is processed late enough,
and otherwise goes on where it was: `expiry_iff`.
-/
namespace Netra.Behavior.TheftRiskFSM

open PyLib

/-- For each call with track `k`, whether a call since the one before it (at `last`)
came more than 10 s later than that. -/
def expiries (k : Int) (last : Option ℚ) (late : Bool) : List Call → List Bool
  | [] => []
  | c :: calls =>
    if inCall k c then late :: expiries k (some c.timestamp) false calls
    else expiries k last (late || last.any (10 < c.timestamp - ·)) calls

/-- Calls at one time, both with track `k` or both without it. -/
def SamePlace (k : Int) (c c' : Call) : Prop := c.timestamp = c'.timestamp ∧ inCall k c = inCall k c'

section
variable (h : Host) (w : Settings)

/-- A call with the track, on a context that may have expired before it. -/
def blockTurn (cam : String) (k : Int) (v : Option TrackContext) (b : Bool × Call) :
    Option TrackContext × List BehaviorEvent :=
  let o := if b.1 then none else v
  (Mealy.after (sightingTurn h w cam) o (sightingsIn k b.2),
    (Mealy.outs (sightingTurn h w cam) o (sightingsIn k b.2)).flatten)

end

variable {h : Host} {w : Settings} {cam : String} {k : Int}

/-- A call without the track drops a context that is more than 10 s old. -/
theorem context_step_out (fsm : TheftRiskFSM) {c : Call} (hc : ¬ inCall k c) :
    (step h w fsm c).1.tracks.get? k =
      (fsm.tracks.get? k).filter fun ctx => !decide (10 < c.timestamp - ctx.lastTs) := by
  have hout : k ∉ c.persons.map (·.trackId) := fun hin => hc (decide_eq_true hin)
  rw [context_step, sightingsIn_eq_nil hc, Mealy.after_nil]
  simp [dropped, hout]

/-- The events of a run are those of its calls with the track, and of what expired
before each. -/
theorem eventsOf_blocks (fsm : TheftRiskFSM) {last : Option ℚ} (late : Bool) {v : Option TrackContext}
    (hctx : fsm.tracks.get? k = if late then none else v) (hlast : v.map (·.lastTs) = last) (calls : List Call) :
    eventsOf h w fsm k calls =
      (Mealy.outs (blockTurn h w fsm.cameraId k) v
        ((expiries k last late calls).zip (calls.filter (inCall k)))).flatten := by
  induction calls generalizing fsm last late v with
  | nil => rfl
  | cons c calls ih =>
    by_cases hc : inCall k c
    · obtain ⟨ctx, hnew, hts⟩ := context_seen h w fsm.cameraId hc (fsm.tracks.get? k)
      have hstep := context_step_in (h := h) (w := w) fsm hc
      have hrest := ih (step h w fsm c).1 false (hstep.trans hnew) (by rw [Option.map_some, hts])
      rw [eventsOf_cons, events_step, hrest, expiries, if_pos hc, List.filter_cons_of_pos hc, List.zip_cons_cons,
        Mealy.outs_cons, List.flatten_cons, blockTurn, ← hctx, hnew]
      rfl
    · rw [eventsOf_cons, events_step, sightingsIn_eq_nil hc, expiries, if_neg hc, List.filter_cons_of_neg hc]
      refine ih (step h w fsm c).1 _ ?_ hlast
      rw [context_step_out fsm hc, hctx]
      subst hlast
      cases late with
      | true => rfl
      | false =>
        cases v with
        | none => rfl
        | some ctx => by_cases hold : 10 < c.timestamp - ctx.lastTs <;> simp [Option.filter_some, hold]

/-! ## Placements -/

theorem expiries_congr {calls calls' : List Call} (hplace : List.Forall₂ (SamePlace k) calls calls')
    (last : Option ℚ) (late : Bool) : expiries k last late calls = expiries k last late calls' := by
  induction hplace generalizing last late with
  | nil => rfl
  | cons hc _ ih => simp only [expiries, hc.1, hc.2, ih]

/-- Nothing expires before the first call with the track. -/
theorem expiries_new (calls : List Call) :
    expiries k none false calls = [] ∨ ∃ later, expiries k none false calls = false :: later := by
  induction calls with
  | nil => exact .inl rfl
  | cons c calls ih =>
    by_cases hc : inCall k c
    · exact .inr ⟨_, by rw [expiries, if_pos hc]⟩
    · rw [expiries, if_neg hc]
      exact ih

theorem length_expiries (last : Option ℚ) (late : Bool) (calls : List Call) :
    (expiries k last late calls).length = (calls.filter (inCall k)).length := by
  induction calls generalizing last late with
  | nil => rfl
  | cons c calls ih =>
    by_cases hc : inCall k c
    · rw [expiries, if_pos hc, List.filter_cons_of_pos hc, List.length_cons, List.length_cons, ih]
    · rw [expiries, if_neg hc, List.filter_cons_of_neg hc, ih]

/-! ## Telling contexts apart -/

def atShelf (k : Int) (t : ℚ) : PersonDetection :=
  { trackId := k, cameraId := "", bbox := ⟨0, 0, 0, 0⟩, confidence := 1, keypoints := [], timestamp := t }

def interaction (k : Int) (t : ℚ) : AssociationEvent :=
  { cameraId := "", trackId := k, eventType := .shelfInteraction, timestamp := t }

/-- A call at the same place that delivers the track, if it is there, a shelf
interaction. -/
def shelved (k : Int) (c : Call) : Call where
  persons := if inCall k c then [atShelf k c.timestamp] else []
  assoc := [interaction k c.timestamp]
  timestamp := c.timestamp

theorem inCall_shelved (c : Call) : inCall k (shelved k c) = inCall k c := by
  rw [inCall, shelved]
  cases inCall k c <;> simp [atShelf]

theorem samePlace_shelved (calls : List Call) : List.Forall₂ (SamePlace k) calls (calls.map (shelved k)) := by
  induction calls with
  | nil => exact .nil
  | cons c calls ih => exact .cons ⟨rfl, (inCall_shelved c).symm⟩ ih

theorem filter_map_shelved (calls : List Call) :
    (calls.map (shelved k)).filter (inCall k) = (calls.filter (inCall k)).map (shelved k) := by
  rw [List.filter_map]
  exact congrArg _ (List.filter_congr fun c _ => inCall_shelved c)

/-- Only the times of the calls are left. -/
theorem filter_shelved (calls : List Call) : (calls.map (shelved k)).filter (inCall k) =
    ((calls.filter (inCall k)).map (·.timestamp)).map fun t => ⟨[atShelf k t], [interaction k t], t⟩ := by
  rw [filter_map_shelved, List.map_map]
  refine List.map_congr_left fun c hc => ?_
  rw [shelved, if_pos (List.mem_filter.1 hc).2]
  rfl

/-- A second shelf interaction of a context is reported as repeated. -/
def reportsRepeat (bev : BehaviorEvent) : Bool := "REPEATED_SHELF_INTERACTION" ∈ names bev.signals

/-- Whether each call reports a repeated interaction: it does unless the context is new. -/
def repeats (known : Bool) : List Bool → List Bool
  | [] => []
  | late :: lates => (known && !late) :: repeats true lates

theorem repeats_injective {ls ls' : List Bool} (h : repeats true ls = repeats true ls') : ls = ls' := by
  induction ls generalizing ls' with
  | nil =>
    cases ls' with
    | nil => rfl
    | cons l' ls' => simp [repeats] at h
  | cons l ls ih =>
    cases ls' with
    | nil => simp [repeats] at h
    | cons l' ls' =>
      rw [repeats, repeats] at h
      obtain ⟨hl, hrest⟩ := List.cons.inj h
      have hl : l = l' := by simpa using hl
      rw [ih hrest, hl]

/-- A shelf interaction on a context that is new, or that knows of one. -/
theorem shelved_turn (h : Host) (w : Settings) (cam : String) {c : Call} (hc : inCall k c) {o : Option TrackContext}
    (ho : ∀ ctx, o = some ctx → 0 < ctx.repeatedShelf) :
    ∃ ctx bev, Mealy.after (sightingTurn h w cam) o (sightingsIn k (shelved k c)) = some ctx ∧
      0 < ctx.repeatedShelf ∧ (Mealy.outs (sightingTurn h w cam) o (sightingsIn k (shelved k c))).flatten = [bev] ∧
      reportsRepeat bev = o.isSome := by
  have hin : sightingsIn k (shelved k c) =
      [⟨c.timestamp, atShelf k c.timestamp, [interaction k c.timestamp]⟩] := by
    simp [sightingsIn, trackUpdates, shelved, hc, assocOf, atShelf, interaction]
  rw [hin]
  refine ⟨_, _, rfl, ?_, rfl, ?_⟩
  · have hmem := congrArg Memory.repeatedShelf (memory_update h w cam [interaction k c.timestamp] c.timestamp
      (getOrCreate c.timestamp o) (atShelf k c.timestamp))
    exact Nat.lt_of_lt_of_eq (Nat.succ_pos _) hmem.symm
  · have hrep (ctx : TrackContext) : "REPEATED_SHELF_INTERACTION" ∈
        names (update h w cam ctx (atShelf k c.timestamp) [interaction k c.timestamp] c.timestamp).2 ↔
          0 < ctx.repeatedShelf := by
      rw [mem_names_update]
      simp [hasType, Memory.conceals, interaction, atShelf]
    cases o with
    | none => exact decide_eq_false ((hrep _).not.2 (Nat.lt_irrefl 0))
    | some ctx => exact decide_eq_true ((hrep ctx).2 (ho ctx rfl))

/-- With shelf interactions alone, the events tell what expired. -/
theorem repeats_blocks {v : Option TrackContext} (hv : ∀ ctx, v = some ctx → 0 < ctx.repeatedShelf) {lates : List Bool}
    {calls : List Call} (hlen : lates.length = calls.length) (hin : ∀ c ∈ calls, inCall k c) :
    (Mealy.outs (blockTurn h w cam k) v (lates.zip (calls.map (shelved k)))).flatten.map reportsRepeat =
      repeats v.isSome lates := by
  induction lates generalizing v calls with
  | nil => rfl
  | cons late lates ih =>
    cases calls with
    | nil => simp at hlen
    | cons c calls =>
      obtain ⟨hc, hcalls⟩ := List.forall_mem_cons.1 hin
      have ho : ∀ ctx, (if late then none else v) = some ctx → 0 < ctx.repeatedShelf := by
        intro ctx hctx
        cases late with
        | true => cases hctx
        | false => exact hv ctx hctx
      obtain ⟨ctx, bev, hctx, hpos, hbev, hrep⟩ := shelved_turn h w cam hc ho
      have hrest := ih (v := some ctx) (fun ctx' hctx' => Option.some.inj hctx' ▸ hpos) (Nat.succ.inj hlen) hcalls
      rw [List.map_cons, List.zip_cons_cons, Mealy.outs_cons, List.flatten_cons, List.map_append, blockTurn, hctx, hbev,
        hrest, repeats, List.map_singleton, hrep]
      cases late <;> cases v <;> rfl

/-! ## Coming back -/

theorem gap_none (fsm : TheftRiskFSM) {gap : List Call} (hgap : ∀ g ∈ gap, ¬ inCall k g)
    (hctx : fsm.tracks.get? k = none) : (Mealy.after (step h w) fsm gap).tracks.get? k = none := by
  induction gap generalizing fsm with
  | nil => exact hctx
  | cons g gap ih =>
    obtain ⟨hg, hgap⟩ := List.forall_mem_cons.1 hgap
    refine ih (step h w fsm g).1 hgap ?_
    rw [context_step_out fsm hg, hctx]
    rfl

/-- A context outlasts calls without the track unless one comes more than 10 s after it. -/
theorem gap_some (fsm : TheftRiskFSM) {gap : List Call} (hgap : ∀ g ∈ gap, ¬ inCall k g) {ctx : TrackContext}
    (hctx : fsm.tracks.get? k = some ctx) :
    (Mealy.after (step h w) fsm gap).tracks.get? k = none ↔ ∃ g ∈ gap, 10 < g.timestamp - ctx.lastTs := by
  induction gap generalizing fsm with
  | nil => simp [hctx]
  | cons g gap ih =>
    obtain ⟨hg, hgap⟩ := List.forall_mem_cons.1 hgap
    have hstep := context_step_out (h := h) (w := w) fsm hg
    rw [hctx, Option.filter_some] at hstep
    rw [Mealy.after_cons]
    by_cases hold : 10 < g.timestamp - ctx.lastTs
    · rw [if_neg (by simp [hold])] at hstep
      exact iff_of_true (gap_none _ hgap hstep) ⟨g, List.mem_cons_self, hold⟩
    · rw [if_pos (by simp [hold])] at hstep
      rw [ih (step h w fsm g).1 hgap hstep, List.exists_mem_cons_iff, or_iff_right hold]

/-- The events of the track are the same in any two runs at two placements, whatever
its detections and events, exactly when the same absences expire in both; and an
absence expires exactly when a call in it comes more than 10 s after its start. -/
theorem expiry_iff (h : Host) (w : Settings) (cam : String) (k : Int) {calls calls' : List Call}
    (htimes : (calls.filter (inCall k)).map (·.timestamp) = (calls'.filter (inCall k)).map (·.timestamp)) :
    ((∀ run run', List.Forall₂ (SamePlace k) calls run → List.Forall₂ (SamePlace k) calls' run' →
        run.filter (inCall k) = run'.filter (inCall k) →
        eventsOf h w { cameraId := cam } k run = eventsOf h w { cameraId := cam } k run') ↔
      expiries k none false calls = expiries k none false calls') ∧
    ∀ pre d gap, inCall k d → (∀ g ∈ gap, ¬ inCall k g) →
      ((fsmAfter h w cam (pre ++ d :: gap)).tracks.get? k = none ↔ ∃ g ∈ gap, 10 < g.timestamp - d.timestamp) := by
  have hblocks (run : List Call) : eventsOf h w { cameraId := cam } k run =
      (Mealy.outs (blockTurn h w cam k) none ((expiries k none false run).zip (run.filter (inCall k)))).flatten :=
    eventsOf_blocks _ false rfl rfl run
  have hshelved (run : List Call) :
      (eventsOf h w { cameraId := cam } k (run.map (shelved k))).map reportsRepeat =
        repeats false (expiries k none false run) := by
    rw [hblocks, ← expiries_congr (samePlace_shelved run), filter_map_shelved]
    exact repeats_blocks (fun _ hctx => by cases hctx) (length_expiries _ _ _) fun c hc => (List.mem_filter.1 hc).2
  refine ⟨⟨fun hall => ?_, fun hexp run run' hrun hrun' hsame => ?_⟩, fun pre d gap hd hgap => ?_⟩
  · have hfilters : (calls.map (shelved k)).filter (inCall k) = (calls'.map (shelved k)).filter (inCall k) := by
      rw [filter_shelved, filter_shelved, htimes]
    have hrepeats := congrArg (List.map reportsRepeat)
      (hall _ _ (samePlace_shelved calls) (samePlace_shelved calls') hfilters)
    rw [hshelved, hshelved] at hrepeats
    rcases expiries_new (k := k) calls with h0 | ⟨later, h0⟩ <;>
      rcases expiries_new (k := k) calls' with h0' | ⟨later', h0'⟩ <;> rw [h0, h0'] at hrepeats ⊢
    · cases hrepeats
    · cases hrepeats
    · rw [repeats_injective (List.cons.inj hrepeats).2]
  · rw [hblocks, hblocks, hsame, ← expiries_congr hrun, ← expiries_congr hrun', hexp]
  · rw [fsmAfter, Mealy.after_append, Mealy.after_cons]
    obtain ⟨ctx, hctx, hts⟩ := context_seen h w cam hd
      ((Mealy.after (step h w) { cameraId := cam } pre).tracks.get? k)
    have hseen : (step h w (Mealy.after (step h w) { cameraId := cam } pre) d).1.tracks.get? k = some ctx := by
      rw [context_step_in _ hd, ← hctx]
      congr 2
      exact cameraId_fsmAfter cam pre
    rw [gap_some _ hgap hseen, hts]

/-- Eight seconds away, with and without a call in between. -/
theorem expiry_iff_short : eventsOf .reference .default { cameraId := "cam-01" } 7
      [sevenAt 100 [.shelfInteraction], ⟨[], [], 105⟩, sevenAt 108 [.shelfInteraction]] =
    eventsOf .reference .default { cameraId := "cam-01" } 7
      [sevenAt 100 [.shelfInteraction], sevenAt 108 [.shelfInteraction]] := by
  have hrefl (calls : List Call) : List.Forall₂ (SamePlace 7) calls calls :=
    List.forall₂_same.2 fun _ _ => ⟨rfl, rfl⟩
  exact (expiry_iff .reference .default "cam-01" 7 (by decide +kernel)).1.2 (by decide +kernel) _ _ (hrefl _) (hrefl _)
    rfl

theorem expiry_fails :
    ¬ ∀ (h : Host) (w : Settings) (cam : String) (k : Int) (calls calls' : List Call),
      (calls.map (·.timestamp)).Pairwise (· ≤ ·) → (calls'.map (·.timestamp)).Pairwise (· ≤ ·) →
      calls.filter (inCall k) = calls'.filter (inCall k) →
      eventsOf h w { cameraId := cam } k calls = eventsOf h w { cameraId := cam } k calls' := by
  intro hall
  have hclaim := hall .reference .default "cam-01" 7
    [sevenAt 100 [.shelfInteraction], sevenAt 112 [.shelfInteraction]]
    [sevenAt 100 [.shelfInteraction], ⟨[], [], 111⟩, sevenAt 112 [.shelfInteraction]]
    (by decide +kernel) (by decide +kernel) rfl
  exact absurd hclaim (by decide +kernel)

end Netra.Behavior.TheftRiskFSM
