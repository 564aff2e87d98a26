import Netra.Association.Spikes
import Netra.Lib.Noninterference
import Netra.Pipeline.Frames
/-!
# Tracks do not interfere

What a camera reports about track `a` depends on the frame times, the items and
the detections of `a` only. Each component satisfies the unwinding conditions
for an observer of `a`; the pruning loops look at `a` alone.
-/
namespace Netra.Pipeline

open PyLib Association Behavior Risk

variable {h : Host} {w : Settings} {a : Int}

theorem mem_trackIds_congr {ps qs : List PersonDetection}
    (hp : ps.filter (·.trackId = a) = qs.filter (·.trackId = a)) :
    a ∈ ps.map (·.trackId) ↔ a ∈ qs.map (·.trackId) := by
  have hmem (l : List PersonDetection) : a ∈ l.map (·.trackId) ↔ l.filter (·.trackId = a) ≠ [] := by
    simp [List.filter_eq_nil_iff]
  rw [hmem, hmem, hp]

/-! ## The association engine -/

/-- Engines an observer of track `a` cannot tell apart. -/
structure SameEngine (a : Int) (e e' : AssociationEngine) : Prop where
  cameraId : e.cameraId = e'.cameraId
  zones : e.zones = e'.zones
  lastItems : e.lastItems = e'.lastItems
  person : e.persons.get? a = e'.persons.get? a

/-- A turn of the person loop never looks at the other persons. -/
theorem personTurn_congr {e e' : AssociationEngine} (hc : e.cameraId = e'.cameraId) (hz : e.zones = e'.zones)
    (hl : e.lastItems = e'.lastItems) : Association.personTurn h w e = Association.personTurn h w e' := by
  cases e
  cases e'
  cases hc
  cases hz
  cases hl
  rfl

theorem processFrame_isolated {e e' : AssociationEngine} (he : SameEngine a e e') (items : List ItemDetection)
    (t : ℚ) {ps qs : List PersonDetection} (hp : ps.filter (·.trackId = a) = qs.filter (·.trackId = a)) :
    SameEngine a (processFrame h w e ps items t).1 (processFrame h w e' qs items t).1 ∧
      (processFrame h w e ps items t).2.filter (·.trackId = a) =
        (processFrame h w e' qs items t).2.filter (·.trackId = a) := by
  obtain ⟨hc, hz, hl, hs⟩ := he
  let e₁ : AssociationEngine := { e with lastItems := registerItems e.lastItems items t }
  let e₁' : AssociationEngine := { e' with lastItems := registerItems e'.lastItems items t }
  have hturn : Association.personTurn h w e₁ = Association.personTurn h w e₁' :=
    personTurn_congr hc hz (by simp only [e₁, e₁', hl])
  let gone := h.setDiff e.lastItems.keys (items.map (·.itemId))
  have hu := Mealy.unwinding_only PersonDetection.trackId (Association.personTurn h w e₁ items gone t) a
    AssociationEvent.trackId Association.personTurn_tag
  have hview : ps.filterMap (Mealy.only PersonDetection.trackId a) =
      qs.filterMap (Mealy.only PersonDetection.trackId a) := by
    rwa [Mealy.filterMap_only, Mealy.filterMap_only]
  obtain ⟨hstate, hout⟩ := hu.run hs hview
  rw [Mealy.filterMap_only, Mealy.filterMap_only] at hout
  have hgone : h.setDiff e'.lastItems.keys (items.map (·.itemId)) = gone := by simp only [gone, hl]
  have hseen := mem_trackIds_congr hp
  simp only [processFrame, hgone]
  refine ⟨⟨hc, hz, by simp only [hl], ?_⟩, ?_⟩
  · simp only [Dict.get?_filter, hseen]
    rw [← hturn]
    exact congrArg _ hstate
  · rw [← hturn]
    exact hout

/-! ## The confirmation buffer -/

/-- Buffers an observer of track `a` of camera `cam` cannot tell apart. -/
structure SameVotes (a : Int) (cam : String) (b b' : SignalConfirmationBuffer) : Prop where
  required : b.required = b'.required
  ageThreshSec : b.ageThreshSec = b'.ageThreshSec
  majority : b.majority = b'.majority
  bufs : ∀ ty, b.bufs (cam, a, ty) = b'.bufs (cam, a, ty)
  lastTs : ∀ ty, b.lastTs (cam, a, ty) = b'.lastTs (cam, a, ty)

theorem sameVotes_equiv (a : Int) (cam : String) : Equivalence (SameVotes a cam) where
  refl _ := ⟨rfl, rfl, rfl, fun _ => rfl, fun _ => rfl⟩
  symm h := ⟨h.1.symm, h.2.symm, h.3.symm, fun ty => (h.4 ty).symm, fun ty => (h.5 ty).symm⟩
  trans h h' := ⟨h.1.trans h'.1, h.2.trans h'.2, h.3.trans h'.3, fun ty => (h.4 ty).trans (h'.4 ty),
    fun ty => (h.5 ty).trans (h'.5 ty)⟩

open SignalConfirmationBuffer

/-- A turn passes its own event or nothing. -/
theorem eventTurn_mem {cam : String} {now : ℚ} {b : SignalConfirmationBuffer} {ev e : AssociationEvent}
    (he : e ∈ (eventTurn cam now b ev).2) : e = ev := by
  unfold eventTurn at he
  dsimp only at he
  split at he
  all_goals split at he
  all_goals simp_all

theorem eventTurn_hidden {cam : String} {now : ℚ} (b : SignalConfirmationBuffer) {ev : AssociationEvent}
    (hev : ev.trackId ≠ a) : SameVotes a cam b (eventTurn cam now b ev).1 ∧
      (eventTurn cam now b ev).2.filterMap (Mealy.only AssociationEvent.trackId a) = [] := by
  have hkey (ty : AssocEventType) : (cam, a, ty) ≠ sig cam ev := by
    intro he
    simp only [sig, Prod.mk.injEq] at he
    exact hev he.2.1.symm
  refine ⟨⟨rfl, rfl, rfl, fun ty => ?_, fun ty => ?_⟩, ?_⟩
  · exact (Function.update_of_ne (hkey ty) _ _).symm
  · exact (Function.update_of_ne (hkey ty) _ _).symm
  · refine List.filterMap_eq_nil_iff.2 fun e he => Mealy.only_eq_none.2 ?_
    rw [eventTurn_mem he]
    exact hev

theorem eventTurn_seen {cam : String} {now : ℚ} {b b' : SignalConfirmationBuffer} (hb : SameVotes a cam b b')
    {ev : AssociationEvent} (hev : ev.trackId = a) :
    SameVotes a cam (eventTurn cam now b ev).1 (eventTurn cam now b' ev).1 ∧
      (eventTurn cam now b ev).2 = (eventTurn cam now b' ev).2 := by
  obtain ⟨hr, ht, hm, hbuf, hlast⟩ := hb
  have hkey : sig cam ev = (cam, a, ev.eventType) := by rw [sig, hev]
  simp only [eventTurn, hkey, hr, ht, hm, hbuf ev.eventType, hlast ev.eventType]
  refine ⟨⟨rfl, rfl, rfl, fun ty => ?_, fun ty => ?_⟩, trivial⟩
  · simp only [Function.update_apply, hbuf ty]
  · simp only [Function.update_apply, hlast ty]

theorem unwinding_eventTurn (a : Int) (cam : String) (now : ℚ) :
    Mealy.Unwinding (eventTurn cam now) (Mealy.only AssociationEvent.trackId a)
      (Mealy.only AssociationEvent.trackId a) (SameVotes a cam) where
  equiv := sameVotes_equiv a cam
  hidden b ev hev := eventTurn_hidden b (Mealy.only_eq_none.1 hev)
  seen b b' ev ev' x hb hev hev' := by
    obtain ⟨hk, rfl⟩ := Mealy.only_eq_some.1 hev
    obtain ⟨-, rfl⟩ := Mealy.only_eq_some.1 hev'
    obtain ⟨h1, h2⟩ := eventTurn_seen hb hk
    exact ⟨h1, congrArg _ h2⟩

theorem mem_sigs_congr {cam : String} {evs evs' : List AssociationEvent} (ty : AssocEventType)
    (hevs : evs.filter (·.trackId = a) = evs'.filter (·.trackId = a)) :
    (cam, a, ty) ∈ evs.map (sig cam) ↔ (cam, a, ty) ∈ evs'.map (sig cam) := by
  have hmem (l : List AssociationEvent) :
      (cam, a, ty) ∈ l.map (sig cam) ↔ ∃ ev ∈ l.filter (·.trackId = a), ev.eventType = ty := by
    simp [sig, and_assoc]
  rw [hmem, hmem, hevs]

theorem filter_isolated {cam : String} {b b' : SignalConfirmationBuffer} (hb : SameVotes a cam b b') (t : ℚ)
    {evs evs' : List AssociationEvent} (hevs : evs.filter (·.trackId = a) = evs'.filter (·.trackId = a)) :
    SameVotes a cam (b.filter evs cam t).1 (b'.filter evs' cam t).1 ∧
      (b.filter evs cam t).2.filter (·.trackId = a) = (b'.filter evs' cam t).2.filter (·.trackId = a) := by
  have hview : evs.filterMap (Mealy.only AssociationEvent.trackId a) =
      evs'.filterMap (Mealy.only AssociationEvent.trackId a) := by
    rwa [Mealy.filterMap_only, Mealy.filterMap_only]
  obtain ⟨⟨hr, ht, hm, hbuf, hlast⟩, hout⟩ := (unwinding_eventTurn a cam t).run hb hview
  rw [Mealy.filterMap_only, Mealy.filterMap_only] at hout
  unfold SignalConfirmationBuffer.filter
  rw [hb.required]
  split
  · exact ⟨hb, hevs⟩
  · refine ⟨⟨hr, ht, hm, fun ty => ?_, hlast⟩, hout⟩
    simp only [pushUnseen, hr, ht, hbuf ty, hlast ty, mem_sigs_congr ty hevs]

/-! ## The state machine -/

/-- FSMs an observer of track `a` cannot tell apart. -/
structure SameFsm (a : Int) (m m' : TheftRiskFSM) : Prop where
  cameraId : m.cameraId = m'.cameraId
  track : m.tracks.get? a = m'.tracks.get? a

open TheftRiskFSM

theorem filterMap_updates {ps qs : List PersonDetection}
    (hp : ps.filter (·.trackId = a) = qs.filter (·.trackId = a)) {evs evs' : List AssociationEvent}
    (hevs : evs.filter (·.trackId = a) = evs'.filter (·.trackId = a)) :
    (updates ps evs).filterMap (Mealy.only (fun c => c.1.trackId) a) =
      (updates qs evs').filterMap (Mealy.only (fun c => c.1.trackId) a) := by
  have hup (l : List PersonDetection) (es : List AssociationEvent) :
      (updates l es).filter (fun c => decide (c.1.trackId = a)) =
        (l.filter (·.trackId = a)).map fun p => (p, es.filter (·.trackId = a)) := by
    rw [updates, List.filter_map]
    refine List.map_congr_left fun p hp => ?_
    have hk : p.trackId = a := by simpa using (List.mem_filter.1 hp).2
    rw [assocOf, hk]
  rw [Mealy.filterMap_only, Mealy.filterMap_only, hup, hup, hp, hevs]

theorem process_isolated {m m' : TheftRiskFSM} (hm : SameFsm a m m') (t : ℚ) {ps qs : List PersonDetection}
    (hp : ps.filter (·.trackId = a) = qs.filter (·.trackId = a)) {evs evs' : List AssociationEvent}
    (hevs : evs.filter (·.trackId = a) = evs'.filter (·.trackId = a)) :
    SameFsm a (process h w m ps evs t).1 (process h w m' qs evs' t).1 ∧
      (process h w m ps evs t).2.filter (·.trackId = a) =
        (process h w m' qs evs' t).2.filter (·.trackId = a) := by
  obtain ⟨hc, hs⟩ := hm
  have hu := Mealy.unwinding_only (fun c => c.1.trackId) (TheftRiskFSM.personTurn h w m.cameraId t) a
    BehaviorEvent.trackId (by simp [TheftRiskFSM.personTurn, behaviorEvent])
  obtain ⟨hstate, hout⟩ := hu.run hs (filterMap_updates hp hevs)
  rw [Mealy.filterMap_only, Mealy.filterMap_only] at hout
  have hseen := mem_trackIds_congr hp
  simp only [process]
  refine ⟨⟨hc, ?_⟩, ?_⟩
  · simp only [Dict.get?_filter, hseen]
    rw [← hc]
    exact congrArg _ hstate
  · rw [← hc]
    exact hout

/-! ## The risk engine -/

/-- An incident up to its `incident_id`. -/
def eraseId (i : IncidentEvent) : IncidentEvent := { i with incidentId := "" }

/-- What `update_behavior` depends on, for track `a`. -/
def lowCall (a : Int) (c : BehaviorCall) : Option (BehaviorEvent × Int) :=
  if c.bev.trackId = a then some (c.bev, c.interactionEventCount) else none

def obsIncident (a : Int) (i : IncidentEvent) : Option IncidentEvent :=
  if i.trackId = a then some (eraseId i) else none

/-- The `uuid4()` goes into the incident and nowhere else. -/
theorem behaviorTurn_congr (st : Option TrackRiskState) {c c' : BehaviorCall} (hbev : c.bev = c'.bev)
    (hn : c.interactionEventCount = c'.interactionEventCount) :
    (behaviorTurn h w st c).1 = (behaviorTurn h w st c').1 ∧
      (behaviorTurn h w st c).2.map eraseId = (behaviorTurn h w st c').2.map eraseId := by
  obtain ⟨bev, n, uuid⟩ := c
  obtain ⟨bev', n', uuid'⟩ := c'
  cases hbev
  cases hn
  have hc : counted st ⟨bev, n, uuid⟩ = counted st ⟨bev, n, uuid'⟩ := rfl
  simp only [behaviorTurn, hc]
  split
  · exact ⟨rfl, rfl⟩
  · split
    · exact ⟨rfl, rfl⟩
    · exact ⟨rfl, rfl⟩

theorem behaviorTurn_tag {st : Option TrackRiskState} {c : BehaviorCall} {i : IncidentEvent}
    (hi : (behaviorTurn h w st c).2 = some i) : i.trackId = c.bev.trackId := by
  simp only [behaviorTurn] at hi
  split at hi
  · cases hi
  · split at hi
    · cases hi
    · cases hi
      rfl

theorem unwinding_riskTurn (h : Host) (w : Settings) (a : Int) :
    Mealy.Unwinding (riskTurn h w) (lowCall a) (obsIncident a)
      (fun e e' => e.states.get? a = e'.states.get? a) where
  equiv := ⟨fun _ => rfl, Eq.symm, Eq.trans⟩
  hidden e c hc := by
    have hk : c.bev.trackId ≠ a := by
      intro hk
      simp [lowCall, hk] at hc
    refine ⟨?_, List.filterMap_eq_nil_iff.2 fun i hi => ?_⟩
    · simp only [riskTurn, RiskEngine.updateBehavior, Mealy.get?_keyed, if_neg hk]
    · have htag := behaviorTurn_tag (Option.mem_toList.1 hi)
      rw [obsIncident, if_neg (htag ▸ hk)]
  seen e e' c c' x he hc hc' := by
    have hk : c.bev.trackId = a := by
      by_contra hk
      simp [lowCall, hk] at hc
    have hk' : c'.bev.trackId = a := by
      by_contra hk
      simp [lowCall, hk] at hc'
    rw [lowCall, if_pos hk] at hc
    rw [lowCall, if_pos hk', ← hc, Option.some.injEq, Prod.mk.injEq] at hc'
    obtain ⟨h1, h2⟩ := behaviorTurn_congr (h := h) (w := w) (e.states.get? a) hc'.1.symm hc'.2.symm
    refine ⟨?_, ?_⟩
    · simp only [riskTurn, RiskEngine.updateBehavior, Mealy.get?_keyed, if_pos hk, if_pos hk', ← he]
      simp only [Mealy.single, h1]
    · simp only [riskTurn, RiskEngine.updateBehavior, Mealy.keyed, hk, hk', ← he]
      have hobs (o : Option IncidentEvent) (ho : ∀ i, o = some i → i.trackId = a) :
          o.toList.filterMap (obsIncident a) = (o.map eraseId).toList := by
        cases o with
        | none => rfl
        | some i => simp [obsIncident, ho i rfl]
      rw [hobs _ fun i hi => (behaviorTurn_tag hi).trans hk,
        hobs _ fun i hi => (behaviorTurn_tag hi).trans hk', h2]

theorem filterMap_behaviorCalls (uuid : Nat → String) (bevs : List BehaviorEvent) :
    (behaviorCalls uuid bevs).filterMap (lowCall a) =
      (bevs.filter (·.trackId = a)).map fun bev => (bev, 0) := by
  have hsplit : lowCall a ∘ (fun p : BehaviorEvent × Nat => { bev := p.1, uuid := uuid p.2 }) =
      (fun bev => (Mealy.only BehaviorEvent.trackId a bev).map fun bev => (bev, 0)) ∘ Prod.fst := by
    funext p
    simp only [Function.comp_apply, lowCall, Mealy.only]
    split <;> rfl
  rw [behaviorCalls, List.filterMap_map, hsplit, ← List.filterMap_map, List.zipIdx_map_fst,
    ← List.map_filterMap, Mealy.filterMap_only]

/-! ## The camera -/

/-- Frames with the same time, items and detections of track `a`. -/
structure SameFrame (a : Int) (fr fr' : Frame) : Prop where
  timestamp : fr.timestamp = fr'.timestamp
  items : fr.items = fr'.items
  persons : fr.persons.filter (·.trackId = a) = fr'.persons.filter (·.trackId = a)

/-- What a frame reports about track `a`, incidents up to their id. -/
def CameraOut.about (a : Int) (o : CameraOut) :
    List AssociationEvent × List BehaviorEvent × List IncidentEvent :=
  (o.assoc.filter (·.trackId = a), o.behavior.filter (·.trackId = a),
    (o.incidents.filter (·.trackId = a)).map eraseId)

/-- Cameras an observer of track `a` cannot tell apart. -/
structure SameCamera (a : Int) (s s' : Camera) : Prop where
  engine : SameEngine a s.engine s'.engine
  votes : SameVotes a s.engine.cameraId s.confirmer s'.confirmer
  fsm : SameFsm a s.fsm s'.fsm
  risk : s.risk.states.get? a = s'.risk.states.get? a

theorem cameraStep_isolated {s s' : Camera} {fr fr' : Frame} (hs : SameCamera a s s')
    (hf : SameFrame a fr fr') : SameCamera a (cameraStep h w s fr).1 (cameraStep h w s' fr').1 ∧
      (cameraStep h w s fr).2.about a = (cameraStep h w s' fr').2.about a := by
  obtain ⟨he, hv, hm, hr⟩ := hs
  obtain ⟨ht, hi, hp⟩ := hf
  obtain ⟨he₁, hevs⟩ := processFrame_isolated (h := h) (w := w) he fr.items fr.timestamp hp
  obtain ⟨hv₁, hconf⟩ := filter_isolated hv fr.timestamp hevs
  obtain ⟨hm₁, hbevs⟩ := process_isolated (h := h) (w := w) hm fr.timestamp hp hconf
  have hcalls := (filterMap_behaviorCalls fr.uuid _).trans
    ((congrArg _ hbevs).trans (filterMap_behaviorCalls fr'.uuid _).symm)
  obtain ⟨hr₁, hinc⟩ := (unwinding_riskTurn h w a).run hr hcalls
  simp only [cameraStep, frontStep, ← ht, ← hi, ← he.cameraId]
  refine ⟨⟨he₁, hv₁, hm₁, hr₁⟩, ?_⟩
  have hobs (l : List IncidentEvent) :
      (l.filter (·.trackId = a)).map eraseId = l.filterMap (obsIncident a) := by
    rw [← Mealy.filterMap_only, List.map_filterMap]
    refine List.filterMap_congr fun i _ => ?_
    simp only [Mealy.only, obsIncident]
    split <;> rfl
  simp only [CameraOut.about, hobs]
  exact congrArg₂ Prod.mk hevs (congrArg₂ Prod.mk hbevs hinc)

theorem sameCamera_refl (a : Int) (s : Camera) : SameCamera a s s :=
  ⟨⟨rfl, rfl, rfl, rfl⟩, (sameVotes_equiv a _).refl _, ⟨rfl, rfl⟩, rfl⟩

/-- Two runs of a fresh camera on frames that agree on track `a` report the same
about `a` in every frame. -/
theorem tracks_do_not_interfere (h : Host) (w : Settings) (cam : String) (zones : List ZoneConfig) (a : Int)
    (frames frames' : List Frame) (hsame : List.Forall₂ (SameFrame a) frames frames') :
    (Mealy.outs (cameraStep h w) (.init w cam zones) frames).map (CameraOut.about a) =
      (Mealy.outs (cameraStep h w) (.init w cam zones) frames').map (CameraOut.about a) := by
  have hrel := Mealy.outs_rel (cameraStep h w) (cameraStep h w) (SameCamera a) (SameFrame a)
    (fun o o' => o.about a = o'.about a) (fun _ _ _ _ => cameraStep_isolated)
    (sameCamera_refl a (.init w cam zones)) hsame
  rwa [← List.forall₂_eq_eq_eq, List.forall₂_map_left_iff, List.forall₂_map_right_iff]

/-- A detection of track `k` at `x`. -/
def standing (k : Int) (x t : ℚ) : PersonDetection :=
  { trackId := k, cameraId := "cam-01", bbox := ⟨x, 0, x + 40, 200⟩, confidence := 1, keypoints := [],
    timestamp := t }

/-- Track 1 alone, and next to a track 2 that comes and goes. -/
theorem tracks_do_not_interfere_passerBy :
    (Mealy.outs (cameraStep .reference .default) (.init .default "cam-01" [])
        [⟨[standing 1 0 1000], [], 1000, fun _ => "a"⟩, ⟨[standing 1 5 1001], [], 1001, fun _ => "a"⟩]).map
      (CameraOut.about 1) =
    (Mealy.outs (cameraStep .reference .default) (.init .default "cam-01" [])
        [⟨[standing 2 90 1000, standing 1 0 1000], [], 1000, fun _ => "b"⟩,
         ⟨[standing 1 5 1001], [], 1001, fun _ => "b"⟩]).map (CameraOut.about 1) := by
  refine tracks_do_not_interfere .reference .default "cam-01" [] 1 _ _
    (.cons ⟨rfl, rfl, ?_⟩ (.cons ⟨rfl, rfl, ?_⟩ .nil))
  · simp [standing]
  · simp [standing]

end Netra.Pipeline
