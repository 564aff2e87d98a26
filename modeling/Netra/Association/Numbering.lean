import Netra.Association.Registry
import Netra.Lib.Relabel
import Mathlib.Algebra.BigOperators.Fin
/-!
# Item numbering

Item ids are handed out anew in every frame, but the registry looks boxes up
under the id of an earlier frame. Everything but the pickups is independent of
the numbering (`sameButHeld_after`); the pickups of a frame are a sum of shares,
one for each remembered frame, and a share does not depend on the numbering
exactly when it counts none or all of the items, or all count the same.
-/
namespace Netra.Association

open PyLib

/-! ## Renumbering -/

/-- The items with their ids permuted among themselves. -/
def renumber (items : List ItemDetection) (σ : Equiv.Perm (Fin items.length)) : List ItemDetection :=
  List.ofFn fun i => { items[i] with itemId := (items[σ i]).itemId }

/-- The same frame but for the numbering of its items. -/
def Renumbered (d d' : Detections) : Prop := ∃ σ, d' = { d with items := renumber d.items σ }

/-- `(track_id, event_type)` of the events. -/
def kinds (evs : List AssociationEvent) : List (Int × AssocEventType) :=
  evs.map fun ev => (ev.trackId, ev.eventType)

/-- However the frames are renumbered, every frame has the same multiset of
`(track_id, event_type)`. -/
def NumberingFree (h : Host) (w : Settings) (cam : String) (zones : List ZoneConfig)
    (frames : List Detections) : Prop :=
  ∀ frames', List.Forall₂ Renumbered frames frames' →
    List.Forall₂ (fun evs evs' => (kinds evs).Perm (kinds evs')) (events h w cam zones frames)
      (events h w cam zones frames')

/-- Whenever a frame `d` is still remembered in `g`, the ids of `d` are all there
since, or all gone, or all items of `d` lie on as many detections of each track in `g`. -/
def Unambiguous (frames : List Detections) : Prop :=
  ∀ A d B g C, frames = A ++ d :: B ++ g :: C → Remembered d B g → ∀ a,
    (∀ it ∈ d.items, ¬ Gone it.itemId B g) ∨ (∀ it ∈ d.items, Gone it.itemId B g) ∨
      ∀ it ∈ d.items, ∀ it' ∈ d.items, overlapping g a it.bbox = overlapping g a it'.bbox

variable {h : Host} {w : Settings} {cam : String} {zones : List ZoneConfig}

theorem renumber_one (items : List ItemDetection) : renumber items 1 = items := by
  simp [renumber]

theorem renumber_bbox (items : List ItemDetection) (σ : Equiv.Perm (Fin items.length)) :
    (renumber items σ).map (·.bbox) = items.map (·.bbox) := by
  rw [renumber, List.map_ofFn]
  simp [Function.comp_def, List.ofFn_getElem_eq_map]

theorem renumber_ids (items : List ItemDetection) (σ : Equiv.Perm (Fin items.length)) :
    ((renumber items σ).map (·.itemId)).Perm (items.map (·.itemId)) := by
  have hperm := σ.ofFn_comp_perm fun i => (items[i]).itemId
  rw [renumber, List.map_ofFn]
  simpa [Function.comp_def, List.ofFn_getElem_eq_map] using hperm

theorem Renumbered.refl (d : Detections) : Renumbered d d := ⟨1, by rw [renumber_one]⟩

theorem renumbered_refl (frames : List Detections) : List.Forall₂ Renumbered frames frames :=
  List.forall₂_same.2 fun d _ => Renumbered.refl d

/-! ## What does not depend on the numbering -/

/-- A state up to the ids in `held_items`, which nothing reads. -/
def eraseHeld (st : PersonState) : PersonState := { st with heldItems := [] }

theorem eraseHeld_eq_iff {st st' : PersonState} :
    eraseHeld st = eraseHeld st' ↔ ∃ held, st' = { st with heldItems := held } := by
  constructor
  · intro he
    cases st
    cases st'
    simp only [eraseHeld, PersonState.mk.injEq] at he
    obtain ⟨h1, h2, h3, h4, h5, -, h6, h7, h8, h9⟩ := he
    subst h1 h2 h3 h4 h5 h6 h7 h8 h9
    exact ⟨_, rfl⟩
  · rintro ⟨held, rfl⟩
    rfl

theorem nearShelf_congr {st : PersonState} {b : BBox} {items items' : List ItemDetection}
    (hbox : items.map (·.bbox) = items'.map (·.bbox)) : nearShelf st b items = nearShelf st b items' := by
  have hnear (l : List ItemDetection) : itemsNearBBox b l 80 = [] ↔
      ∀ c ∈ l.map (·.bbox), ¬ (b.cx - c.cx) * (b.cx - c.cx) + (b.cy - c.cy) * (b.cy - c.cy) ≤ 80 * 80 := by
    simp [itemsNearBBox, List.filter_eq_nil_iff]
  have hiff : itemsNearBBox b items 80 ≠ [] ↔ itemsNearBBox b items' 80 ≠ [] := by
    rw [ne_eq, ne_eq, hnear, hnear, hbox]
  unfold nearShelf
  exact if_congr hiff rfl rfl

/-- The speed section passes `held_items` on. -/
theorem speedSpike_held (e : AssociationEngine) (st : PersonState) (held : List Int) (p : PersonDetection)
    (t : ℚ) : speedSpike h w e { st with heldItems := held } p t =
      ({ (speedSpike h w e st p t).1 with heldItems := held }, (speedSpike h w e st p t).2) := by
  obtain ⟨tid, cam, last, lastTs, zones, held', history, baseline, near, spikeTs⟩ := st
  unfold speedSpike
  dsimp only
  cases last with
  | none => rfl
  | some b =>
    dsimp only
    split
    · split
      · rfl
      · rfl
    · rfl

/-- One detection, in two engines whose zones agree, of two states that agree up
to the ids held, with items in the same places. -/
theorem updatePerson_sameButHeld {e e' : AssociationEngine} {items items' : List ItemDetection}
    (hc : e.cameraId = e'.cameraId) (hz : e.zones = e'.zones)
    (hbox : items.map (·.bbox) = items'.map (·.bbox)) {st st' : PersonState} (hst : eraseHeld st = eraseHeld st')
    (p : PersonDetection) (gone gone' : List Int) (t : ℚ) :
    eraseHeld (updatePerson h w e st p items gone t).1 =
        eraseHeld (updatePerson h w e' st' p items' gone' t).1 ∧
      (updatePerson h w e st p items gone t).2.filter (!isPickup ·) =
        (updatePerson h w e' st' p items' gone' t).2.filter (!isPickup ·) := by
  obtain ⟨held, rfl⟩ := eraseHeld_eq_iff.1 hst
  have hpick (en : AssociationEngine) (l : List Int) :
      (pickupEvents en en.lastItems l p t).filter (!isPickup ·) = [] := by
    refine List.filter_eq_nil_iff.2 fun ev hev => ?_
    simp [isPickup, (pickupEvents_spec ev hev).2]
  have hzone : zoneEvents h e st p t = zoneEvents h e' { st with heldItems := held } p t := by
    unfold zoneEvents
    rw [hc, hz]
  have hshelf (n : Nat) : shelfEvents w e n p t = shelfEvents w e' n p t := by
    unfold shelfEvents
    rw [hc]
  have hcur : currentZones h e p.bbox = currentZones h e' p.bbox := by
    unfold currentZones
    rw [hz]
  have hspike (mid : PersonState) : speedSpike h w e mid p t = speedSpike h w e' mid p t := by
    unfold speedSpike
    rw [hc]
  have hsame : nearShelf st p.bbox items = nearShelf st p.bbox items' := nearShelf_congr hbox
  have hnear : nearShelf st p.bbox items = nearShelf { st with heldItems := held } p.bbox items' := hsame
  unfold updatePerson
  dsimp only
  rw [hzone, hcur, hspike, hnear, hshelf]
  have hmid (ids : List Int) := speedSpike_held (h := h) (w := w) e'
    { st with
      activeZones := currentZones h e' p.bbox
      framesNearShelf := nearShelf { st with heldItems := held } p.bbox items'
      heldItems := [] } ids p t
  simp only [List.filter_append, hpick, hmid (st.heldItems ++ _), hmid (held ++ _)]
  exact ⟨rfl, trivial⟩

/-- Two engines that agree up to the registry and the ids held. -/
structure SameButHeld (e e' : AssociationEngine) : Prop where
  cameraId : e.cameraId = e'.cameraId
  zones : e.zones = e'.zones
  persons : ∀ k, (e.persons.get? k).map eraseHeld = (e'.persons.get? k).map eraseHeld

theorem stateOf_sameButHeld {e e' : AssociationEngine} (hc : e.cameraId = e'.cameraId)
    {o o' : Option PersonState} (ho : o.map eraseHeld = o'.map eraseHeld) (p : PersonDetection) (t : ℚ) :
    eraseHeld (stateOf e p t o) = eraseHeld (stateOf e' p t o') := by
  cases o with
  | none =>
    cases o' with
    | none => simp only [stateOf, Option.getD_none, hc]
    | some st' => simp at ho
  | some st =>
    cases o' with
    | none => simp at ho
    | some st' => exact Option.some_inj.1 ho

/-- Pruning looks at `last_ts` alone. -/
theorem prune_sameButHeld {o o' : Option PersonState} (ho : o.map eraseHeld = o'.map eraseHeld) (gone : Bool)
    (t : ℚ) : (o.filter fun st => !(gone && 5 < t - st.lastTs)).map eraseHeld =
      (o'.filter fun st => !(gone && 5 < t - st.lastTs)).map eraseHeld := by
  cases o with
  | none =>
    cases o' with
    | none => rfl
    | some st' => simp at ho
  | some st =>
    cases o' with
    | none => simp at ho
    | some st' =>
      obtain ⟨held, rfl⟩ := eraseHeld_eq_iff.1 (Option.some_inj.1 ho)
      rw [Option.filter_some, Option.filter_some]
      dsimp only
      split <;> rfl

/-- A frame and the frame renumbered, from engines that agree up to the ids held:
they agree again, and only the pickups may differ. -/
theorem step_sameButHeld {e e' : AssociationEngine} (he : SameButHeld e e') {d d' : Detections}
    (hd : Renumbered d d') : SameButHeld (step h w e d).1 (step h w e' d').1 ∧
      (step h w e d).2.filter (!isPickup ·) = (step h w e' d').2.filter (!isPickup ·) := by
  obtain ⟨σ, rfl⟩ := hd
  have hbox := (renumber_bbox d.items σ).symm
  obtain ⟨hpersons, hevents⟩ := Mealy.keyed_rel PersonDetection.trackId
    (personTurn h w (registered e d.items d.timestamp) d.items (disappeared h e d.items) d.timestamp)
    (personTurn h w (registered e' (renumber d.items σ) d.timestamp) (renumber d.items σ)
      (disappeared h e' (renumber d.items σ)) d.timestamp)
    (fun o o' => o.map eraseHeld = o'.map eraseHeld)
    (fun evs evs' => evs.filter (!isPickup ·) = evs'.filter (!isPickup ·))
    (fun o o' p ho => by
      have hc : (registered e d.items d.timestamp).cameraId =
          (registered e' (renumber d.items σ) d.timestamp).cameraId := he.cameraId
      have hturn := updatePerson_sameButHeld (h := h) (w := w) hc he.zones hbox
        (stateOf_sameButHeld hc ho p d.timestamp) p (disappeared h e d.items)
        (disappeared h e' (renumber d.items σ)) d.timestamp
      exact ⟨congrArg some hturn.1, hturn.2⟩)
    he.persons d.persons
  constructor
  · refine ⟨he.cameraId, he.zones, fun k => ?_⟩
    have hprune := prune_sameButHeld (hpersons k) (decide (k ∉ d.persons.map (·.trackId))) d.timestamp
    have hget (states : Dict Int PersonState) := Dict.get?_filter
      (fun tid (st : PersonState) => !(tid ∉ d.persons.map (·.trackId) && 5 < d.timestamp - st.lastTs)) states k
    exact (congrArg _ (hget _)).trans (hprune.trans (congrArg _ (hget _)).symm)
  · have hflat {outs outs' : List (List AssociationEvent)}
        (ho : List.Forall₂ (fun evs evs' => evs.filter (!isPickup ·) = evs'.filter (!isPickup ·)) outs outs') :
        outs.flatten.filter (!isPickup ·) = outs'.flatten.filter (!isPickup ·) := by
      induction ho with
      | nil => rfl
      | cons h0 _ ih =>
        rw [List.flatten_cons, List.flatten_cons, List.filter_append, List.filter_append, h0, ih]
    exact hflat hevents

/-- The engines after a run and after the renumbered run. -/
theorem sameButHeld_after {frames frames' : List Detections} (hf : List.Forall₂ Renumbered frames frames') :
    SameButHeld (engineAfter h w cam zones frames) (engineAfter h w cam zones frames') :=
  Mealy.after_rel (step h w) (step h w) SameButHeld Renumbered (fun _ _ _ _ he hd => (step_sameButHeld he hd).1)
    ⟨rfl, rfl, fun _ => rfl⟩ hf

/-! ## Pickups and the multiset of a frame -/

theorem count_kinds (evs : List AssociationEvent) (a : Int) (ty : AssocEventType) :
    (kinds evs).count (a, ty) = evs.countP fun ev => ev.trackId = a && ev.eventType = ty := by
  rw [kinds, List.count, List.countP_map]
  refine List.countP_congr fun ev _ => ?_
  simp

/-- Two frames that differ in pickups at most have the same multiset iff every
track has as many pickups in both. -/
theorem kinds_perm_iff {evs evs' : List AssociationEvent}
    (hrest : evs.filter (!isPickup ·) = evs'.filter (!isPickup ·)) :
    (kinds evs).Perm (kinds evs') ↔
      ∀ a, (evs.filter (·.trackId = a)).countP isPickup = (evs'.filter (·.trackId = a)).countP isPickup := by
  have hpick (l : List AssociationEvent) (a : Int) :
      (kinds l).count (a, .itemPickup) = (l.filter (·.trackId = a)).countP isPickup := by
    rw [count_kinds, List.countP_filter]
    refine List.countP_congr fun ev _ => ?_
    simp only [isPickup, Bool.and_eq_true, decide_eq_true_iff]
    exact And.comm
  have hother (l : List AssociationEvent) (a : Int) {ty : AssocEventType} (hty : ty ≠ .itemPickup) :
      (kinds l).count (a, ty) = (kinds (l.filter (!isPickup ·))).count (a, ty) := by
    rw [count_kinds, count_kinds, List.countP_filter]
    refine List.countP_congr fun ev _ => ?_
    simp only [isPickup, Bool.and_eq_true, Bool.not_eq_true', decide_eq_true_iff, decide_eq_false_iff_not]
    constructor
    · rintro ⟨ha, rfl⟩
      exact ⟨⟨ha, rfl⟩, hty⟩
    · exact fun hev => hev.1
  rw [List.perm_iff_count]
  constructor
  · intro hcount a
    rw [← hpick, ← hpick, hcount]
  · rintro hcount ⟨a, ty⟩
    by_cases hty : ty = .itemPickup
    · rw [hty, hpick, hpick, hcount]
    · rw [hother evs a hty, hother evs' a hty, hrest]

/-! ## Shares -/

theorem Renumbered.mem_ids {d d' : Detections} (hd : Renumbered d d') (x : Int) : x ∈ d.ids ↔ x ∈ d'.ids := by
  obtain ⟨σ, rfl⟩ := hd
  exact (renumber_ids d.items σ).mem_iff.symm

theorem Renumbered.nodup_ids {d d' : Detections} (hd : Renumbered d d') : d.ids.Nodup ↔ d'.ids.Nodup := by
  obtain ⟨σ, rfl⟩ := hd
  exact (renumber_ids d.items σ).nodup_iff.symm

theorem forall_mem_renumbered {B B' : List Detections} (hB : List.Forall₂ Renumbered B B')
    {P Q : Detections → Prop} (hPQ : ∀ m m', Renumbered m m' → (P m ↔ Q m')) : (∀ m ∈ B, P m) ↔ ∀ m ∈ B', Q m := by
  induction hB with
  | nil => simp
  | cons hm _ ih => rw [List.forall_mem_cons, List.forall_mem_cons, hPQ _ _ hm, ih]

/-- A share reads the ids and times of the frames after it, not how they are numbered. -/
theorem share_congr {B B' : List Detections} (hB : List.Forall₂ Renumbered B B') {g g' : Detections}
    (hg : Renumbered g g') (a : Int) (d : Detections) : share a d B g = share a d B' g' := by
  have hgone (x : Int) : Gone x B g ↔ Gone x B' g' :=
    and_congr (forall_mem_renumbered hB fun m m' hm => not_congr (hm.mem_ids x)) (not_congr (hg.mem_ids x))
  obtain ⟨σ, rfl⟩ := hg
  have hrem : Remembered d B g ↔ Remembered d B' { g with items := renumber g.items σ } := by
    refine and_congr (forall_mem_renumbered hB ?_) Iff.rfl
    rintro m m' ⟨τ, rfl⟩
    exact Iff.rfl
  unfold share
  congr 1
  refine List.map_congr_left fun it _ => ?_
  exact if_congr (and_congr (hgone _) hrem) rfl rfl

/-- The share of a renumbered frame, as a sum over its items. -/
theorem share_renumber {d : Detections} {B : List Detections} {g : Detections} (hr : Remembered d B g) (a : Int)
    (σ : Equiv.Perm (Fin d.items.length)) :
    share a { d with items := renumber d.items σ } B g =
      Relabel.total (fun i => Gone (d.items[i]).itemId B g) (fun i => overlapping g a (d.items[i]).bbox) σ := by
  have hr' : Remembered { d with items := renumber d.items σ } B g := hr
  simp only [share, hr', and_true]
  rw [renumber, List.map_ofFn, List.sum_ofFn]
  rfl

theorem share_forgotten {d : Detections} {B : List Detections} {g : Detections} (hr : ¬ Remembered d B g)
    (a : Int) : share a d B g = 0 := by
  simp [share, hr]

/-- When the share of a frame is the same under every numbering of it. -/
theorem share_invariant_iff {d : Detections} {B : List Detections} {g : Detections} (hr : Remembered d B g)
    (a : Int) : (∀ d', Renumbered d d' → share a d' B g = share a d B g) ↔
      (∀ it ∈ d.items, ¬ Gone it.itemId B g) ∨ (∀ it ∈ d.items, Gone it.itemId B g) ∨
        ∀ it ∈ d.items, ∀ it' ∈ d.items, overlapping g a it.bbox = overlapping g a it'.bbox := by
  have hall (P : ItemDetection → Prop) : (∀ i : Fin d.items.length, P d.items[i]) ↔ ∀ it ∈ d.items, P it :=
    Fin.forall_iff.trans List.forall_mem_iff_forall_getElem.symm
  have hone := share_renumber hr a 1
  rw [renumber_one] at hone
  have hbox (it : ItemDetection) :
      (∀ j : Fin d.items.length, overlapping g a it.bbox = overlapping g a (d.items[j]).bbox) ↔
        ∀ it' ∈ d.items, overlapping g a it.bbox = overlapping g a it'.bbox :=
    hall fun it' => overlapping g a it.bbox = overlapping g a it'.bbox
  rw [← hall fun it => ¬ Gone it.itemId B g, ← hall fun it => Gone it.itemId B g,
    ← hall fun it => ∀ it' ∈ d.items, overlapping g a it.bbox = overlapping g a it'.bbox]
  simp only [← hbox]
  refine Iff.trans ?_ Relabel.total_invariant_iff
  constructor
  · intro hinv σ
    rw [← share_renumber hr, ← hone]
    exact hinv _ ⟨σ, rfl⟩
  · rintro hinv d' ⟨σ, rfl⟩
    rw [share_renumber hr, hone]
    exact hinv σ

/-! ## The multiset of every frame -/

/-- In a frame of a run and of the renumbered run, the multisets agree iff every
track is due as many pickups. -/
theorem step_perm_iff {pre pre' : List Detections} (hpre : List.Forall₂ Renumbered pre pre') {g g' : Detections}
    (hg : Renumbered g g') (hn : ∀ d ∈ pre, d.ids.Nodup) :
    (kinds (step h w (engineAfter h w cam zones pre) g).2).Perm
        (kinds (step h w (engineAfter h w cam zones pre') g').2) ↔ ∀ a, due a pre g = due a pre' g' := by
  have hn' : ∀ d ∈ pre', d.ids.Nodup := (forall_mem_renumbered hpre fun _ _ hm => hm.nodup_ids).1 hn
  rw [kinds_perm_iff (step_sameButHeld (sameButHeld_after hpre) hg).2]
  refine forall_congr' fun a => ?_
  rw [pickups_eq hn, pickups_eq hn']

/-- Nothing before `d` has another share when `d` is renumbered. -/
theorem due_renumber {a : Int} {A : List Detections} {d d' : Detections} (hd : Renumbered d d')
    (B : List Detections) (g : Detections) :
    due a (A ++ d :: B) g + share a d' B g = due a (A ++ d' :: B) g + share a d B g := by
  induction A with
  | nil =>
    rw [List.nil_append, List.nil_append, due, due]
    omega
  | cons x A ih =>
    have hrest : List.Forall₂ Renumbered (A ++ d :: B) (A ++ d' :: B) :=
      List.rel_append (renumbered_refl A) (.cons hd (renumbered_refl B))
    have hshare := share_congr hrest (Renumbered.refl g) a x
    rw [List.cons_append, List.cons_append, due, due, hshare]
    omega

theorem due_congr {a : Int} {pre pre' : List Detections} (hpre : List.Forall₂ Renumbered pre pre')
    {g g' : Detections} (hg : Renumbered g g')
    (hinv : ∀ A d B, pre = A ++ d :: B → ∀ d', Renumbered d d' → share a d' B g = share a d B g) :
    due a pre g = due a pre' g' := by
  induction hpre with
  | nil => rfl
  | @cons d d' B B' hd hB ih =>
    rw [due, due, ← share_congr hB hg, hinv [] d B rfl d' hd]
    rw [ih fun A m B hB => hinv (d :: A) m B (by rw [hB, List.cons_append])]

/-- Two related runs are related call by call and up to every call. -/
theorem forall₂_cut {pre pre' post post' : List Detections} {g g' : Detections} (hlen : pre.length = pre'.length)
    (hrun : List.Forall₂ Renumbered (pre ++ g :: post) (pre' ++ g' :: post')) :
    List.Forall₂ Renumbered pre pre' ∧ Renumbered g g' := by
  have htake := List.forall₂_take_append _ _ _ hrun
  have hdrop := List.forall₂_drop_append _ _ _ hrun
  rw [List.take_left' hlen] at htake
  rw [List.drop_left' hlen, List.forall₂_cons] at hdrop
  exact ⟨htake, hdrop.1⟩

/-- The multisets of a run do not depend on the numbering of its frames exactly
when every remembered frame is unambiguous. -/
theorem numbering_free_iff {frames : List Detections} (hn : ∀ d ∈ frames, d.ids.Nodup) :
    NumberingFree h w cam zones frames ↔ Unambiguous frames := by
  have hpre {A B : List Detections} (hA : frames = A ++ B) : ∀ d ∈ A, d.ids.Nodup := fun d hd =>
    hn d (hA ▸ List.mem_append_left B hd)
  constructor
  · intro hfree A d B g C hframes hr a
    refine (share_invariant_iff hr a).1 fun d' hd => ?_
    -- renumber `d` alone: every other share stays
    have hbefore : List.Forall₂ Renumbered (A ++ d :: B) (A ++ d' :: B) :=
      List.rel_append (renumbered_refl A) (.cons hd (renumbered_refl B))
    have hrun : List.Forall₂ Renumbered frames (A ++ d' :: B ++ g :: C) := by
      rw [hframes]
      exact List.rel_append hbefore (renumbered_refl _)
    have hkinds := (Mealy.forall₂_outs_iff _ _ _ hrun.length_eq).1 (hfree _ hrun) (A ++ d :: B) g C
      (A ++ d' :: B) g C hframes rfl (by simp)
    have hdue := (step_perm_iff hbefore (.refl g) (hpre hframes)).1 hkinds a
    have hsum := due_renumber (a := a) (A := A) hd B g
    omega
  · intro hunamb frames' hrun
    refine (Mealy.forall₂_outs_iff _ _ _ hrun.length_eq).2 fun pre g post pre' g' post' hpost hpost' hlen => ?_
    rw [hpost, hpost'] at hrun
    obtain ⟨hrun, hg⟩ := forall₂_cut hlen hrun
    refine (step_perm_iff hrun hg (hpre hpost)).2 fun a => ?_
    refine due_congr hrun hg fun A d B hA d' hd => ?_
    -- a forgotten frame has no share under any numbering
    by_cases hr : Remembered d B g
    · exact (share_invariant_iff hr a).2 (hunamb A d B g post (by rw [hpost, hA]) hr a) d' hd
    · obtain ⟨σ, rfl⟩ := hd
      have hr' : ¬ Remembered { d with items := renumber d.items σ } B g := hr
      exact (share_forgotten hr' a).trans (share_forgotten hr a).symm

/-- Track 7 with the given items in view. -/
def shopperFrame (items : List ItemDetection) (t : ℚ) : Detections where
  persons := [{ trackId := 7, cameraId := "cam-01", bbox := ⟨80, 100, 120, 300⟩, confidence := 1, keypoints := [],
                timestamp := t }]
  items
  timestamp := t

/-- A bottle whose left edge is at `x`; the shopper stands at 80 to 120. -/
def bottle (itemId : Int) (x t : ℚ) : ItemDetection :=
  { itemId, cameraId := "cam-01", bbox := ⟨x, 150, x + 20, 170⟩, className := "bottle", confidence := 1,
    timestamp := t }

/-- The shopper takes the nearer of two bottles; the one left gets number 0. -/
def twoBottles : List Detections :=
  [shopperFrame [bottle 0 90 1000, bottle 1 400 1000] 1000, shopperFrame [bottle 0 400 1000.1] 1000.1]

/-- The same frames, with the two bottles of the first numbered the other way round. -/
def twoBottlesSwapped : List Detections :=
  [shopperFrame [bottle 1 90 1000, bottle 0 400 1000] 1000, shopperFrame [bottle 0 400 1000.1] 1000.1]

theorem twoBottles_nodup : ∀ d ∈ twoBottles, d.ids.Nodup := by decide

/-- The condition at those frames. -/
theorem numbering_free_iff_twoBottles :
    NumberingFree .reference .default "cam-01" [] twoBottles ↔ Unambiguous twoBottles :=
  numbering_free_iff twoBottles_nodup

theorem twoBottles_renumbered : List.Forall₂ Renumbered twoBottles twoBottlesSwapped := by
  have hswap : Renumbered (shopperFrame [bottle 0 90 1000, bottle 1 400 1000] 1000)
      (shopperFrame [bottle 1 90 1000, bottle 0 400 1000] 1000) :=
    ⟨(Equiv.swap 0 1 : Equiv.Perm (Fin 2)), rfl⟩
  exact .cons hswap (.cons (.refl _) .nil)

/-- The shopper's pickup is seen under one numbering and missed under the other. -/
theorem numbering_free_fails :
    ¬ ∀ (h : Host) (w : Settings) (cam : String) (zones : List ZoneConfig) (frames : List Detections),
      (∀ d ∈ frames, d.ids.Nodup) → NumberingFree h w cam zones frames := by
  intro hall
  have hrun := hall .reference .default "cam-01" [] twoBottles twoBottles_nodup _ twoBottles_renumbered
  have hsecond : (kinds (step .reference .default (engineAfter .reference .default "cam-01" []
      (twoBottles.take 1)) (shopperFrame [bottle 0 400 1000.1] 1000.1)).2).Perm
      (kinds (step .reference .default (engineAfter .reference .default "cam-01" []
      (twoBottlesSwapped.take 1)) (shopperFrame [bottle 0 400 1000.1] 1000.1)).2) :=
    (List.forall₂_cons.1 (List.forall₂_cons.1 hrun).2).1
  exact absurd hsecond (by decide +kernel)

end Netra.Association
