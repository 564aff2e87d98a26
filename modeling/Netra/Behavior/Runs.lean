import Netra.Behavior.Update
/-!
# Runs of the state machine

A run is a list of `process` calls on a fresh FSM. `track_after` and
`track_events` say what one call does to one track; `event_getElem?` says which
context the event of the `j`-th person was made from.
-/
namespace Netra.Behavior.TheftRiskFSM

open PyLib

/-- The arguments of one `process` call. -/
structure Call where
  persons : List PersonDetection
  assoc : List AssociationEvent
  timestamp : ℚ

section
variable (h : Host) (w : Settings)

def step (fsm : TheftRiskFSM) (c : Call) : TheftRiskFSM × List BehaviorEvent :=
  process h w fsm c.persons c.assoc c.timestamp

/-- The FSM of camera `cam` after `calls`. -/
def fsmAfter (cam : String) (calls : List Call) : TheftRiskFSM :=
  Mealy.after (step h w) { cameraId := cam } calls

/-- The contexts after the updates of `persons`, a part of the call. -/
def tracksMid (fsm : TheftRiskFSM) (c : Call) (persons : List PersonDetection) : Dict Int TrackContext :=
  Mealy.after (Mealy.keyed (fun c => c.1.trackId) (personTurn h w fsm.cameraId c.timestamp)) fsm.tracks
    (updates persons c.assoc)

/-- Whether the pruning at the end of the call drops a context of track `k`. -/
def dropped (c : Call) (k : Int) (ctx : TrackContext) : Bool :=
  k ∉ c.persons.map (·.trackId) && 10 < c.timestamp - ctx.lastTs

variable {h w}

theorem cameraId_fsmAfter (cam : String) (calls : List Call) : (fsmAfter h w cam calls).cameraId = cam :=
  Mealy.after_inv (step h w) (·.cameraId = cam) _ rfl (fun _ _ hs => hs) calls

theorem cameraId_of_mem {fsm : TheftRiskFSM} {c : Call} {bev : BehaviorEvent} (hbev : bev ∈ (step h w fsm c).2) :
    bev.cameraId = fsm.cameraId := by
  obtain ⟨o, ho, hmem⟩ := List.mem_flatten.1 hbev
  obtain ⟨pre, call, post, -, rfl⟩ := (Mealy.mem_outs _ _ _ _).1 ho
  exact List.mem_singleton.1 hmem ▸ rfl

theorem fsmAfter_concat (cam : String) (calls : List Call) (c : Call) :
    fsmAfter h w cam (calls ++ [c]) = (step h w (fsmAfter h w cam calls) c).1 :=
  Mealy.after_concat _ _ _ _

/-- A context after the call is one from its person loop that was not dropped. -/
theorem get?_step (fsm : TheftRiskFSM) (c : Call) (k : Int) :
    (step h w fsm c).1.tracks.get? k = ((tracksMid h w fsm c c.persons).get? k).filter (!dropped c k ·) :=
  Dict.get?_filter _ _ _

theorem tracksMid_concat (fsm : TheftRiskFSM) (c : Call) (persons : List PersonDetection) (p : PersonDetection)
    (k : Int) :
    (tracksMid h w fsm c (persons ++ [p])).get? k =
      if p.trackId = k then
        some (update h w fsm.cameraId (getOrCreate c.timestamp ((tracksMid h w fsm c persons).get? k)) p
          (assocOf c.assoc k) c.timestamp).1
      else (tracksMid h w fsm c persons).get? k := by
  simp only [tracksMid, updates, List.map_append, List.map_cons, List.map_nil, Mealy.after_concat,
    Mealy.get?_keyed]
  split
  · rename_i hk
    subst hk
    rfl
  · rfl

/-- The event of the `j`-th person comes from the context the persons before it left. -/
theorem event_getElem? (fsm : TheftRiskFSM) (c : Call) (j : Nat) :
    (step h w fsm c).2[j]? = c.persons[j]?.map fun p =>
      behaviorEvent w fsm.cameraId p.trackId c.timestamp
        (update h w fsm.cameraId
          (getOrCreate c.timestamp ((tracksMid h w fsm c (c.persons.take j)).get? p.trackId)) p
          (assocOf c.assoc p.trackId) c.timestamp) := by
  have hturn : ∀ (d : Dict Int TrackContext) (i : PersonDetection × List AssociationEvent),
      (Mealy.keyed (fun i => i.1.trackId) (personTurn h w fsm.cameraId c.timestamp) d i).2 =
        [behaviorEvent w fsm.cameraId i.1.trackId c.timestamp
          (update h w fsm.cameraId (getOrCreate c.timestamp (d.get? i.1.trackId)) i.1 i.2 c.timestamp)] := by
    intro d i
    simp only [Mealy.keyed, personTurn]
  simp only [step, process]
  rw [Mealy.getElem?_flatten_outs _ _ hturn]
  simp only [updates, tracksMid, List.getElem?_map, Option.map_map, List.map_take, Function.comp_def]

end

/-! ## One track of a call -/

/-- The turns of one track in a call, on the context of the track. -/
def trackTurn (h : Host) (w : Settings) (cam : String) (t : ℚ) :
    Option TrackContext → PersonDetection × List AssociationEvent → Option TrackContext × List BehaviorEvent :=
  Mealy.single (personTurn h w cam t)

/-- The updates of track `k` in a call. -/
def trackUpdates (c : Call) (k : Int) : List (PersonDetection × List AssociationEvent) :=
  (c.persons.filter (·.trackId = k)).map fun p => (p, assocOf c.assoc k)

theorem trackUpdates_assoc {c : Call} {k : Int} : ∀ u ∈ trackUpdates c k, u.2 = assocOf c.assoc k := by
  intro u hu
  obtain ⟨p, -, rfl⟩ := List.mem_map.1 hu
  rfl

/-- `last_conceal_ts`, 0 for a track that is not there. -/
def concealOf (o : Option TrackContext) : ℚ := (o.map (·.lastConcealTs)).getD 0

/-- Some event of `bevs` has a signal whose name is among `sigs`. -/
def Signals (bevs : List BehaviorEvent) (sigs : List String) : Prop :=
  ∃ bev ∈ bevs, ∃ name ∈ names bev.signals, name ∈ sigs

/-- How many signals of that name `bevs` has. -/
def signalCount (name : String) (bevs : List BehaviorEvent) : Nat :=
  (bevs.flatMap fun bev => names bev.signals).count name

section
variable {h : Host} {w : Settings} {cam : String} {t : ℚ}

theorem updates_filter (c : Call) (k : Int) :
    (updates c.persons c.assoc).filter (fun i => i.1.trackId = k) = trackUpdates c k := by
  rw [updates, List.filter_map]
  refine List.map_congr_left fun p hp => ?_
  have hk : p.trackId = k := by simpa using (List.mem_filter.1 hp).2
  rw [hk]

theorem track_events (fsm : TheftRiskFSM) (c : Call) (k : Int) :
    (step h w fsm c).2.filter (·.trackId = k) =
      (Mealy.outs (trackTurn h w fsm.cameraId c.timestamp) (fsm.tracks.get? k) (trackUpdates c k)).flatten := by
  have htag : ∀ (o : Option TrackContext) (i : PersonDetection × List AssociationEvent),
      ∀ bev ∈ (personTurn h w fsm.cameraId c.timestamp o i).2, bev.trackId = i.1.trackId := by
    intro o i bev hbev
    rw [List.mem_singleton.1 hbev]
    rfl
  rw [← updates_filter]
  exact Mealy.outs_keyed _ _ _ htag _ _ _

theorem track_after (fsm : TheftRiskFSM) (c : Call) (k : Int) :
    (step h w fsm c).1.tracks.get? k =
      (Mealy.after (trackTurn h w fsm.cameraId c.timestamp) (fsm.tracks.get? k) (trackUpdates c k)).filter
        (!dropped c k ·) := by
  rw [get?_step, tracksMid, Mealy.get?_after_keyed, updates_filter]
  rfl

theorem signals_append {bevs bevs' : List BehaviorEvent} {sigs : List String} :
    Signals (bevs ++ bevs') sigs ↔ Signals bevs sigs ∨ Signals bevs' sigs := by
  simp only [Signals, List.mem_append, or_and_right, exists_or]

theorem signals_turn (o : Option TrackContext) (p : PersonDetection) (assoc : List AssociationEvent)
    (sigs : List String) : Signals (Mealy.outs (trackTurn h w cam t) o [(p, assoc)]).flatten sigs ↔
      ∃ name ∈ names (update h w cam (getOrCreate t o) p assoc t).2, name ∈ sigs := by
  simp [Signals, trackTurn, Mealy.single, personTurn, behaviorEvent]

theorem signalCount_append (name : String) (bevs bevs' : List BehaviorEvent) :
    signalCount name (bevs ++ bevs') = signalCount name bevs + signalCount name bevs' := by
  simp [signalCount]

theorem signalCount_turn (name : String) (o : Option TrackContext) (p : PersonDetection)
    (assoc : List AssociationEvent) : signalCount name (trackTurn h w cam t o (p, assoc)).2 =
      (names (update h w cam (getOrCreate t o) p assoc t).2).count name := by
  simp [signalCount, trackTurn, Mealy.single, personTurn, behaviorEvent]

theorem concealOf_getOrCreate (o : Option TrackContext) : (getOrCreate t o).lastConcealTs = concealOf o := by
  cases o <;> rfl

/-- `last_conceal_ts` after a turn: set by a concealment, kept otherwise. -/
theorem concealOf_turn (h : Host) (w : Settings) (cam : String) (ht : 0 < t) (o : Option TrackContext)
    (p : PersonDetection) (assoc : List AssociationEvent) :
    concealOf (trackTurn h w cam t o (p, assoc)).1 =
      (concealed h w assoc t (memory (getOrCreate t o)) p.keypoints).lastConcealTs ∧
    (0 < concealOf (trackTurn h w cam t o (p, assoc)).1 ↔ 0 < concealOf o ∨
      ∃ name ∈ names (update h w cam (getOrCreate t o) p assoc t).2, name ∈ handTo) := by
  have hctx : concealOf (trackTurn h w cam t o (p, assoc)).1 =
      (memory (update h w cam (getOrCreate t o) p assoc t).1).lastConcealTs := rfl
  have hmem : (memory (getOrCreate t o)).lastConcealTs = concealOf o := concealOf_getOrCreate o
  rw [hctx, memory_update]
  refine ⟨rfl, ?_⟩
  rw [handTo_update, ← hmem]
  simp only [Memory.next, Memory.spike, Memory.conceal]
  split
  · rename_i hc
    simp [hc, ht]
  · rename_i hc
    rw [or_iff_left hc]
    exact Iff.rfl

variable {assoc : List AssociationEvent}

/-- A concealment is remembered through the turns of a call. -/
theorem concealOf_after (h : Host) (w : Settings) (cam : String) (ht : 0 < t) (o : Option TrackContext)
    {us : List (PersonDetection × List AssociationEvent)} (hus : ∀ u ∈ us, u.2 = assoc) :
    0 < concealOf (Mealy.after (trackTurn h w cam t) o us) ↔
      0 < concealOf o ∨ Signals (Mealy.outs (trackTurn h w cam t) o us).flatten handTo := by
  induction us using List.reverseRecOn with
  | nil => simp [Signals]
  | append_singleton us u ih =>
    obtain ⟨p, as⟩ := u
    have hih := ih fun u hu => hus u (List.mem_append_left _ hu)
    rw [Mealy.after_concat, (concealOf_turn h w cam ht _ _ _).2, hih, Mealy.outs_append, List.flatten_append,
      signals_append, signals_turn, or_assoc]

/-- The exit signals of a track in a call. -/
theorem exit_after (ht : 0 < t) (o : Option TrackContext) {us : List (PersonDetection × List AssociationEvent)}
    (hus : ∀ u ∈ us, u.2 = assoc) :
    Signals (Mealy.outs (trackTurn h w cam t) o us).flatten ["EXIT_AFTER_CONCEALMENT"] ↔
      us ≠ [] ∧ (∃ ev ∈ assoc, isExit ev = true) ∧ 0 < concealOf (Mealy.after (trackTurn h w cam t) o us) := by
  induction us using List.reverseRecOn with
  | nil => simp [Signals]
  | append_singleton us u ih =>
    obtain ⟨p, as⟩ := u
    obtain rfl : as = assoc := hus (p, as) (by simp)
    have hih := ih fun u hu => hus u (List.mem_append_left _ hu)
    rw [Mealy.outs_append, List.flatten_append, signals_append, signals_turn, hih, Mealy.after_concat]
    generalize Mealy.after (trackTurn h w cam t) o us = mid
    obtain ⟨hval, hpos⟩ := concealOf_turn h w cam ht mid p as
    simp only [List.mem_singleton, exists_eq_right, exit_update, ← hval]
    constructor
    · rintro (⟨-, hev, hmid⟩ | ⟨hmid, hev⟩)
      · exact ⟨by simp, hev, hpos.2 (.inl hmid)⟩
      · exact ⟨by simp, hev, hmid⟩
    · rintro ⟨-, hev, hmid⟩
      exact .inr ⟨hmid, hev⟩

/-- A spike signal needs a delivered speed spike. -/
theorem spike_after (o : Option TrackContext) {us : List (PersonDetection × List AssociationEvent)}
    (hus : ∀ u ∈ us, u.2 = assoc)
    (hs : Signals (Mealy.outs (trackTurn h w cam t) o us).flatten ["SPEED_SPIKE"]) :
    hasType .speedSpike assoc = true := by
  induction us using List.reverseRecOn with
  | nil => simp [Signals] at hs
  | append_singleton us u ih =>
    obtain ⟨p, as⟩ := u
    obtain rfl : as = assoc := hus (p, as) (by simp)
    rw [Mealy.outs_append, List.flatten_append, signals_append, signals_turn] at hs
    rcases hs with hs | hs
    · exact ih (fun u hu => hus u (List.mem_append_left _ hu)) hs
    · simp only [List.mem_singleton, exists_eq_right, spike_update, Memory.spikes, Bool.and_eq_true] at hs
      exact hs.1

/-- A signal that each update with an event of type `ty` emits once. -/
theorem signalCount_turns {name : String} {ty : AssocEventType}
    (hone : ∀ ctx p, (names (update h w cam ctx p assoc t).2).count name = if hasType ty assoc then 1 else 0)
    (o : Option TrackContext) {us : List (PersonDetection × List AssociationEvent)} (hus : ∀ u ∈ us, u.2 = assoc) :
    signalCount name (Mealy.outs (trackTurn h w cam t) o us).flatten =
      if hasType ty assoc then us.length else 0 := by
  induction us generalizing o with
  | nil => simp [signalCount]
  | cons u us ih =>
    obtain ⟨p, as⟩ := u
    obtain rfl : as = assoc := hus (p, as) (List.mem_cons_self ..)
    have hrest := ih (trackTurn h w cam t o (p, as)).1 fun u hu => hus u (List.mem_cons_of_mem _ hu)
    rw [Mealy.outs_cons, List.flatten_cons, signalCount_append, signalCount_turn, hone, hrest]
    split
    · rw [List.length_cons, Nat.add_comm]
    · rfl

theorem lastTs_after (h : Host) (w : Settings) (cam : String) (t : ℚ) (o : Option TrackContext)
    {us : List (PersonDetection × List AssociationEvent)} (hus : us ≠ []) :
    ∃ ctx, Mealy.after (trackTurn h w cam t) o us = some ctx ∧ ctx.lastTs = t := by
  rcases List.eq_nil_or_concat us with rfl | ⟨us', u, rfl⟩
  · exact absurd rfl hus
  · rw [List.concat_eq_append, Mealy.after_concat]
    exact ⟨_, rfl, rfl⟩

end

end Netra.Behavior.TheftRiskFSM
