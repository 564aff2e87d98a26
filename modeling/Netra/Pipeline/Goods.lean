import Netra.Association.Pickups
import Netra.Behavior.Quiet
import Netra.Lib.Fed
import Netra.Pipeline.Services
/-!
# Who touched goods

The association engine says that a track handles goods when its box is near an item, or
on the last place of an item that has vanished: every `SHELF_INTERACTION` and
`ITEM_PICKUP` of a track has a frame that shows just that (`goods_engine`). The behaviour
worker gives a track more than the score of a speed spike only when it has been told of
goods, so there is such a frame behind it, too (`worker_turn`).
-/
namespace Netra.Pipeline

open PyLib RedisStream Association Behavior

/-- An item that is not in `d` any more was on this person less than 1.5 s before. -/
def OnVanished (frames : List DetectionEvent) (d : DetectionEvent) (p : PersonDetection) : Prop :=
  ∃ d' ∈ frames, d'.cameraId = d.cameraId ∧ d.timestamp - 1.5 < d'.timestamp ∧
    ∃ it ∈ d'.items, it.itemId ∉ d.items.map (·.itemId) ∧ bboxOverlap p.bbox it.bbox 0.3 = true

/-- A frame of camera `cam` shows track `k` within 80 px of an item, or on a vanished one. -/
def Touched (frames : List DetectionEvent) (cam : String) (k : Int) : Prop :=
  ∃ d ∈ frames, d.cameraId = cam ∧
    ∃ p ∈ d.persons, p.trackId = k ∧ (itemsNearBBox p.bbox d.items 80 ≠ [] ∨ OnVanished frames d p)

/-- The event is about goods. -/
def AboutGoods (ev : AssociationEvent) : Prop := ev.eventType = .shelfInteraction ∨ ev.eventType = .itemPickup

/-- An event about goods has its frame. -/
def EventOk (frames : List DetectionEvent) (ev : AssociationEvent) : Prop :=
  AboutGoods ev → Touched frames ev.cameraId ev.trackId

/-- The engine is that of camera `cam`, and its registry is what the camera has shown. -/
structure RegistryOf (frames : List DetectionEvent) (cam : String) (e : AssociationEngine) : Prop where
  camera : e.cameraId = cam
  items : ∀ x v, e.lastItems.get? x = some v →
    ∃ d ∈ frames, d.cameraId = cam ∧ d.timestamp = v.2 ∧ ∃ it ∈ d.items, it.itemId = x ∧ it.bbox = v.1

section
variable {frames frames' : List DetectionEvent}

theorem OnVanished.mono (hsub : frames ⊆ frames') {d : DetectionEvent} {p : PersonDetection}
    (hp : OnVanished frames d p) : OnVanished frames' d p := by
  obtain ⟨d', hd', hrest⟩ := hp
  exact ⟨d', hsub hd', hrest⟩

theorem Touched.mono (hsub : frames ⊆ frames') {cam : String} {k : Int} (ht : Touched frames cam k) :
    Touched frames' cam k := by
  obtain ⟨d, hd, hcam, p, hp, hk, hgoods⟩ := ht
  exact ⟨d, hsub hd, hcam, p, hp, hk, hgoods.imp_right (OnVanished.mono hsub)⟩

theorem EventOk.mono (hsub : frames ⊆ frames') {ev : AssociationEvent} (hev : EventOk frames ev) :
    EventOk frames' ev := fun hgoods => (hev hgoods).mono hsub

theorem RegistryOf.mono (hsub : frames ⊆ frames') {cam : String} {e : AssociationEngine}
    (he : RegistryOf frames cam e) : RegistryOf frames' cam e := by
  refine ⟨he.camera, fun x v hv => ?_⟩
  obtain ⟨d, hd, hrest⟩ := he.items x v hv
  exact ⟨d, hsub hd, hrest⟩

end

variable {h : Host} {w : Settings} {loadZones : String → List ZoneConfig} {frames : List DetectionEvent}

theorem registryOf_init (frames : List DetectionEvent) (cam : String) (zones : List ZoneConfig) :
    RegistryOf frames cam (.init cam zones) :=
  ⟨rfl, fun x v hv => by simp [AssociationEngine.init] at hv⟩

theorem registryOf_registered {e : AssociationEngine} {d : DetectionEvent} (hd : d ∈ frames)
    (he : RegistryOf frames d.cameraId e) : RegistryOf frames d.cameraId (registered e d.items d.timestamp) := by
  refine ⟨he.camera, fun x v hv => ?_⟩
  unfold registered registerItems at hv
  dsimp only at hv
  rw [Dict.get?_filter, Option.filter_eq_some_iff, get?_fill] at hv
  rcases Option.or_eq_some_iff.1 hv.1 with hnew | ⟨-, hold⟩
  · obtain ⟨it, hit, rfl⟩ := Option.map_eq_some_iff.1 hnew
    have hid : it.itemId = x := by simpa using List.find?_some hit
    exact ⟨d, hd, rfl, rfl, it, List.mem_reverse.1 (List.mem_of_find?_eq_some hit), hid, rfl⟩
  · exact he.items x v hold

/-! ## The events of a person -/

theorem near_of_shelf {e : AssociationEngine} {st : PersonState} {p : PersonDetection} {items : List ItemDetection}
    {t : ℚ} {ev : AssociationEvent} (hev : ev ∈ shelfEvents w e (nearShelf st p.bbox items) p t) :
    itemsNearBBox p.bbox items 80 ≠ [] := by
  intro hnone
  have hzero : nearShelf st p.bbox items = 0 := by
    rw [nearShelf, if_neg (not_not.2 hnone)]
  rw [hzero] at hev
  simp [shelfEvents] at hev

theorem vanished_of_pickup {e : AssociationEngine} {d : DetectionEvent} {p : PersonDetection}
    (he : RegistryOf frames d.cameraId (registered e d.items d.timestamp)) {ev : AssociationEvent}
    (hev : ev ∈ pickupEvents (registered e d.items d.timestamp) (registered e d.items d.timestamp).lastItems
      (disappeared h e d.items) p d.timestamp) : OnVanished frames d p := by
  obtain ⟨x, hx, rfl⟩ := List.mem_map.1 hev
  obtain ⟨hgone, hpick⟩ := List.mem_filter.1 hx
  rw [disappeared, (h.setDiff_perm _ _).mem_iff, List.mem_filter, decide_eq_true_iff] at hgone
  unfold picked at hpick
  split at hpick
  · cases hpick
  · rename_i lastBBox lastTs hget
    simp only [Bool.and_eq_true, decide_eq_true_iff] at hpick
    obtain ⟨d', hd', hcam, hts, it, hit, rfl, hbox⟩ := he.items x _ hget
    refine ⟨d', hd', hcam, ?_, it, hit, hgone.2, ?_⟩
    · rw [hts]
      exact hpick.1
    · rw [hbox]
      exact hpick.2

theorem not_goods_of_zone {e : AssociationEngine} {st : PersonState} {p : PersonDetection} {t : ℚ}
    {ev : AssociationEvent} (hev : ev ∈ zoneEvents h e st p t) : ¬ AboutGoods ev := by
  obtain ⟨zone, -, hzone⟩ := List.mem_filterMap.1 hev
  split at hzone <;> split at hzone <;> cases hzone <;> simp [AboutGoods]

theorem not_goods_of_spike {e : AssociationEngine} {st : PersonState} {p : PersonDetection} {t : ℚ}
    {ev : AssociationEvent} (hev : ev ∈ (speedSpike h w e st p t).2) : ¬ AboutGoods ev := by
  unfold speedSpike at hev
  split at hev
  · cases hev
  · dsimp only at hev
    split at hev
    · split at hev
      · rw [List.mem_singleton.1 hev]
        simp [AboutGoods]
      · cases hev
    · cases hev

/-- What the engine says of goods, the frame shows. -/
theorem goods_person {e : AssociationEngine} {d : DetectionEvent} (hd : d ∈ frames) {p : PersonDetection}
    (hp : p ∈ d.persons) (he : RegistryOf frames d.cameraId (registered e d.items d.timestamp)) {st : PersonState} :
    ∀ ev ∈ (updatePerson h w (registered e d.items d.timestamp) st p d.items (disappeared h e d.items)
      d.timestamp).2, EventOk frames ev := by
  intro ev hev hgoods
  have hcam : ev.cameraId = d.cameraId := (updatePerson_camera ev hev).trans he.camera
  have hk : ev.trackId = p.trackId := updatePerson_tag ev hev
  refine ⟨d, hd, hcam.symm, p, hp, hk.symm, ?_⟩
  simp only [updatePerson, List.mem_append] at hev
  rcases hev with ((hev | hev) | hev) | hev
  · exact absurd hgoods (not_goods_of_zone hev)
  · exact .inl (near_of_shelf hev)
  · exact .inr (vanished_of_pickup he hev)
  · exact absurd hgoods (not_goods_of_spike hev)

/-- A frame keeps the registry true, and every event about goods has its frame. -/
theorem goods_engine {o : Option AssociationEngine} {d : DetectionEvent} (hd : d ∈ frames)
    (ho : ∀ e, o = some e → RegistryOf frames d.cameraId e) :
    RegistryOf frames d.cameraId (engineTurn h w loadZones o d).1 ∧
      ∀ ev ∈ (engineTurn h w loadZones o d).2, EventOk frames ev := by
  have he : RegistryOf frames d.cameraId (o.getD (.init d.cameraId (loadZones d.cameraId))) := by
    cases o with
    | none => exact registryOf_init frames d.cameraId _
    | some e => exact ho e rfl
  have hreg := registryOf_registered hd he
  refine ⟨⟨hreg.camera, hreg.items⟩, fun ev hev => ?_⟩
  obtain ⟨out, hout, hmem⟩ := List.mem_flatten.1 hev
  obtain ⟨pre, p, post, hsplit, rfl⟩ := (Mealy.mem_outs _ _ _ _).1 hout
  refine goods_person hd ?_ hreg ev hmem
  rw [hsplit]
  simp

/-! ## Behaviour events -/

/-- A frame shows the track at that time. -/
def Seen (frames : List DetectionEvent) (cam : String) (k : Int) (t : ℚ) : Prop :=
  ∃ d ∈ frames, d.cameraId = cam ∧ d.timestamp = t ∧ ∃ p ∈ d.persons, p.trackId = k

/-- A behaviour event has its frame, and a score that a speed spike cannot explain has
goods behind it. -/
structure BehaviorOk (frames : List DetectionEvent) (bev : BehaviorEvent) : Prop where
  seen : Seen frames bev.cameraId bev.trackId bev.timestamp
  score : 0 ≤ bev.fsmScore
  goods : 3 / 2 < bev.fsmScore → Touched frames bev.cameraId bev.trackId

section
variable {frames frames' : List DetectionEvent} {cam : String} {k : Int}

theorem Seen.mono (hsub : frames ⊆ frames') {t : ℚ} (hs : Seen frames cam k t) : Seen frames' cam k t := by
  obtain ⟨d, hd, hrest⟩ := hs
  exact ⟨d, hsub hd, hrest⟩

theorem BehaviorOk.mono (hsub : frames ⊆ frames') {bev : BehaviorEvent} (hb : BehaviorOk frames bev) :
    BehaviorOk frames' bev := ⟨hb.seen.mono hsub, hb.score, fun hhigh => (hb.goods hhigh).mono hsub⟩

end

/-! ## The behaviour worker -/

/-- The events in the buffers have their frames, and so has every track that the FSMs
know of more than speed spikes. -/
structure WorkerOk (w : Settings) (frames : List DetectionEvent) (v : Behavior.Worker) : Prop where
  named : v.Named
  buffered : ∀ cam, ∀ e ∈ v.buffered cam, e.data.cameraId = cam ∧ EventOk frames e.data
  tracks : ∀ cam k ctx, (v.fsm cam).tracks.get? k = some ctx → Touched frames cam k ∨ TheftRiskFSM.Clean w ctx

section
variable {h : Host} {w : Settings} {frames frames' : List DetectionEvent} {v : Behavior.Worker}

theorem WorkerOk.mono (hsub : frames ⊆ frames') (hv : WorkerOk w frames v) : WorkerOk w frames' v where
  named := hv.named
  buffered cam e he := ⟨(hv.buffered cam e he).1, (hv.buffered cam e he).2.mono hsub⟩
  tracks cam k ctx hctx := (hv.tracks cam k ctx hctx).imp_left (Touched.mono hsub)

theorem workerOk_init (w : Settings) (frames : List DetectionEvent) : WorkerOk w frames {} where
  named := Behavior.Worker.named_init
  buffered _ _ he := by cases he
  tracks _ _ _ hctx := by cases hctx

/-- The buffer passes events that it was given. -/
theorem filter_subset (b : SignalConfirmationBuffer) (evs : List AssociationEvent) (cam : String) (t : ℚ) :
    (b.filter evs cam t).2 ⊆ evs := by
  intro ev hev
  unfold SignalConfirmationBuffer.filter at hev
  split at hev
  · exact hev
  · obtain ⟨out, hout, hmem⟩ := List.mem_flatten.1 hev
    obtain ⟨pre, ev', post, hsplit, rfl⟩ := (Mealy.mem_outs _ _ _ _).1 hout
    rw [eventTurn_mem hmem, hsplit]
    simp

/-- A call of a camera that never showed the track at goods. -/
theorem noGoods_call {d : DetectionEvent} {evs : List AssociationEvent}
    (hevs : ∀ ev ∈ evs, ev.cameraId = d.cameraId ∧ EventOk frames ev) {k : Int} (hno : ¬ Touched frames d.cameraId k) :
    TheftRiskFSM.NoGoods ⟨d.persons, evs, d.timestamp⟩ k := by
  constructor
  · rintro ⟨ev, hev, hk, hty⟩
    obtain ⟨hcam, hok⟩ := hevs ev hev
    exact hno (hcam ▸ hk ▸ hok (.inl hty))
  · rintro ⟨ev, hev, hk, hty⟩
    obtain ⟨hcam, hok⟩ := hevs ev hev
    exact hno (hcam ▸ hk ▸ hok (.inr hty))

theorem worker_detection (hrate : 1 / 2 ≤ w.fsmDecayRate) (hv : WorkerOk w frames v) {d : DetectionEvent}
    (hd : d ∈ frames) : WorkerOk w frames (v.onDetection h w d).1 ∧
      ∀ bev ∈ (v.onDetection h w d).2.published, BehaviorOk frames bev := by
  obtain ⟨hfsm, hpub⟩ := Behavior.Worker.onDetection_fsm (h := h) (w := w) v d
  have hevs : ∀ ev ∈ (((v.confirmers.get? d.cameraId).getD (.ofSettings w)).filter
      ((v.buffered d.cameraId).map (·.data)) d.cameraId d.timestamp).2,
      ev.cameraId = d.cameraId ∧ EventOk frames ev := by
    intro ev hev
    obtain ⟨e, he, rfl⟩ := List.mem_map.1 (filter_subset _ _ _ _ hev)
    exact hv.buffered d.cameraId e he
  generalize (((v.confirmers.get? d.cameraId).getD (.ofSettings w)).filter
    ((v.buffered d.cameraId).map (·.data)) d.cameraId d.timestamp).2 = evs at hfsm hpub hevs
  have hstep (k : Int) (hno : ¬ Touched frames d.cameraId k) :=
    TheftRiskFSM.step_clean (h := h) hrate (noGoods_call hevs hno) fun ctx hctx =>
      (hv.tracks d.cameraId k ctx hctx).resolve_left hno
  refine ⟨⟨?_, ?_, ?_⟩, ?_⟩
  · exact Behavior.Worker.named_turn (h := h) (w := w) hv.named ((), .main ⟨0, d⟩)
  · intro cam e he
    rw [Behavior.Worker.buffered_onDetection] at he
    split at he
    · cases he
    · exact hv.buffered cam e he
  · intro cam k ctx hctx
    rw [hfsm] at hctx
    split at hctx
    · rename_i hcam
      subst hcam
      by_cases htouched : Touched frames d.cameraId k
      · exact .inl htouched
      · exact .inr ((hstep k htouched).1 ctx hctx)
    · exact hv.tracks cam k ctx hctx
  · intro bev hbev
    rw [hpub] at hbev
    have hcam : bev.cameraId = d.cameraId :=
      (TheftRiskFSM.cameraId_of_mem hbev).trans (hv.named d.cameraId)
    obtain ⟨hscore, htime, hperson⟩ := TheftRiskFSM.event_of_mem hbev
    refine ⟨⟨d, hd, hcam.symm, htime.symm, hperson⟩, hscore, fun hhigh => ?_⟩
    by_contra hno
    rw [hcam] at hno
    exact absurd hhigh (not_lt.2 ((hstep bev.trackId hno).2 bev hbev rfl))

theorem worker_turn (hrate : 1 / 2 ≤ w.fsmDecayRate) (hv : WorkerOk w frames v)
    {i : Item AssociationEvent DetectionEvent} (hi : Consumer.ItemOk (EventOk frames) (· ∈ frames) i) :
    WorkerOk w frames (v.turn h w ((), i)).1 ∧ ∀ bev ∈ (v.turn h w ((), i)).2.published, BehaviorOk frames bev := by
  cases i with
  | side e =>
    refine ⟨⟨hv.named, fun cam e' he' => ?_, hv.tracks⟩, fun bev hbev => by cases hbev⟩
    have hadd := Behavior.Worker.buffered_onAssoc v e cam
    rw [show (v.turn h w ((), .side e)).1 = v.onAssoc e from rfl, hadd] at he'
    split at he'
    · rename_i hcam
      rcases List.mem_append.1 he' with he' | he'
      · exact hv.buffered cam e' he'
      · rw [List.mem_singleton.1 he']
        exact ⟨hcam.symm, hi⟩
    · exact hv.buffered cam e' he'
  | idle =>
    refine ⟨⟨hv.named, fun cam e he => ?_, hv.tracks⟩, fun bev hbev => by cases hbev⟩
    rw [show (v.turn h w ((), .idle)).1 = v.onIdle from rfl, Behavior.Worker.buffered_onIdle] at he
    split at he
    · exact hv.buffered cam e (List.mem_of_mem_filter he)
    · exact hv.buffered cam e he
  | main e => exact worker_detection hrate hv hi

end

end Netra.Pipeline
