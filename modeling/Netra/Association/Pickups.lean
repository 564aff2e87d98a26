import Netra.Association.Registry
/-!
# Pickups under repeated item ids

`pickups_eq_sightings` counts the pickups of a track in a frame from the frames
before it, also when an id stands for several items of one frame: the registry
knows the last of them. What it drops at 2 s is too old for a pickup.
-/
namespace Netra.Association

open PyLib

/-- Box and time of the last item with id `x`. -/
def lastSighting (frames : List Detections) (x : Int) : Option (BBox × ℚ) :=
  ((frames.flatMap fun d => d.items.map fun it => (it, d.timestamp)).reverse.find? (·.1.itemId = x)).map
    fun s => (s.1.bbox, s.2)

/-- In frame `g`, item `x` is gone, was last seen less than 1.5 s ago, and lay on `p`. -/
def takes (frames : List Detections) (g : Detections) (p : PersonDetection) (x : Int) : Bool :=
  x ∉ g.ids && (lastSighting frames x).any fun v => g.timestamp - 1.5 < v.2 && bboxOverlap p.bbox v.1 0.3

/-- The item ids seen in `frames`. -/
def seenIds (frames : List Detections) : List Int := (frames.flatMap Detections.ids).dedup

/-- How many items the detections of track `a` take in frame `g`. -/
def pickups (a : Int) (frames : List Detections) (g : Detections) : Nat :=
  ((g.persons.filter (·.trackId = a)).map fun p => (seenIds frames).countP (takes frames g p)).sum

variable {h : Host} {w : Settings} {cam : String} {zones : List ZoneConfig}

/-! ## The registry -/

/-- The last item of `items` with id `x`, as the registry stores it. -/
def entryOf (items : List ItemDetection) (t : ℚ) (x : Int) : Option (BBox × ℚ) :=
  (items.reverse.find? (·.itemId = x)).map fun it => (it.bbox, t)

theorem lastSighting_concat (frames : List Detections) (g : Detections) (x : Int) :
    lastSighting (frames ++ [g]) x = (entryOf g.items g.timestamp x).or (lastSighting frames x) := by
  rw [lastSighting, List.flatMap_append, List.flatMap_singleton, List.reverse_append, List.find?_append,
    Option.map_or, ← List.map_reverse, List.find?_map, Option.map_map]
  rfl

theorem get?_fill (reg : Dict Int (BBox × ℚ)) (items : List ItemDetection) (t : ℚ) (x : Int) :
    (items.foldl (fun d it => d.set it.itemId (it.bbox, t)) reg).get? x =
      (entryOf items t x).or (reg.get? x) := by
  induction items using List.reverseRecOn with
  | nil => rfl
  | append_singleton items it ih =>
    rw [List.foldl_append, List.foldl_cons, List.foldl_nil, Dict.get?_set, ih, entryOf, entryOf, List.reverse_append,
      List.reverse_singleton, List.singleton_append, List.find?_cons]
    by_cases hx : x = it.itemId
    · simp [hx]
    · simp [hx, Ne.symm hx]

/-- The registry agrees with the sightings, up to what it has dropped. -/
structure RegistryOk (frames : List Detections) (reg : Dict Int (BBox × ℚ)) : Prop where
  sound : ∀ x v, reg.get? x = some v → lastSighting frames x = some v
  complete : ∀ x v now, lastSighting frames x = some v → (∀ d ∈ frames, d.timestamp ≤ now) → now - v.2 < 2 →
    reg.get? x = some v

theorem registryOk_register {frames : List Detections} {reg : Dict Int (BBox × ℚ)} (hr : RegistryOk frames reg)
    (g : Detections) : RegistryOk (frames ++ [g]) (registerItems reg g.items g.timestamp) := by
  refine ⟨fun x v hv => ?_, fun x v now hv hall hyoung => ?_⟩
  · rw [registerItems, Dict.get?_filter, Option.filter_eq_some_iff, get?_fill] at hv
    rw [lastSighting_concat]
    cases hg : entryOf g.items g.timestamp x with
    | some u => simpa [hg] using hv.1
    | none =>
      have hold : reg.get? x = some v := by simpa [hg] using hv.1
      simpa using hr.sound x v hold
  · have hnow : g.timestamp ≤ now := hall g (by simp)
    rw [registerItems, Dict.get?_filter, Option.filter_eq_some_iff, get?_fill]
    refine ⟨?_, decide_eq_true (by linarith)⟩
    rw [lastSighting_concat] at hv
    cases hg : entryOf g.items g.timestamp x with
    | some u => simpa [hg] using hv
    | none =>
      have hold : lastSighting frames x = some v := by simpa [hg] using hv
      simpa using hr.complete x v now hold (fun d hd => hall d (List.mem_append_left _ hd)) hyoung

theorem registryOk_after (h : Host) (w : Settings) (cam : String) (zones : List ZoneConfig)
    (frames : List Detections) :
    RegistryOk frames (engineAfter h w cam zones frames).lastItems := by
  refine Mealy.after_history (step h w) (fun frames e => RegistryOk frames e.lastItems) _ ?_ ?_ frames
  · exact ⟨fun x v hv => by simp [AssociationEngine.init] at hv, fun x v now hv => by simp [lastSighting] at hv⟩
  · intro frames e g hr
    exact registryOk_register hr g

/-! ## Pickups of a frame -/

theorem lastSighting_mem {frames : List Detections} {x : Int} {v : BBox × ℚ} (hv : lastSighting frames x = some v) :
    x ∈ seenIds frames := by
  obtain ⟨s, hs, -⟩ := Option.map_eq_some_iff.1 hv
  have hkey : s.1.itemId = x := by simpa using List.find?_some hs
  obtain ⟨d, hd, hin⟩ := List.mem_flatMap.1 (List.mem_reverse.1 (List.mem_of_find?_eq_some hs))
  obtain ⟨it, hit, rfl⟩ := List.mem_map.1 hin
  exact List.mem_dedup.2 (List.mem_flatMap.2 ⟨d, hd, List.mem_map.2 ⟨it, hit, hkey⟩⟩)

theorem takes_iff {frames : List Detections} {g : Detections} {p : PersonDetection} {x : Int} :
    takes frames g p x = true ↔ x ∉ g.ids ∧
      ∃ v, lastSighting frames x = some v ∧ g.timestamp - 1.5 < v.2 ∧ bboxOverlap p.bbox v.1 0.3 = true := by
  simp [takes, Option.any_eq_true]

theorem picked_iff {e : AssociationEngine} {frames : List Detections} (hr : RegistryOk frames e.lastItems)
    {g : Detections} (hmono : ∀ d ∈ frames, d.timestamp ≤ g.timestamp) (p : PersonDetection) (x : Int) :
    x ∈ disappeared h e g.items ∧ picked (registerItems e.lastItems g.items g.timestamp) p.bbox g.timestamp x = true ↔
      takes frames g p x = true := by
  have hgone : x ∈ disappeared h e g.items ↔ (∃ v, e.lastItems.get? x = some v) ∧ x ∉ g.ids := by
    have hkeys : x ∈ e.lastItems.keys ↔ ∃ v, e.lastItems.get? x = some v := by
      simp [Dict.keys, Dict.get?_eq_some_iff]
    rw [disappeared, (h.setDiff_perm _ _).mem_iff, List.mem_filter, List.mem_dedup, hkeys, decide_eq_true_iff]
    exact Iff.rfl
  rw [takes_iff, hgone]
  constructor
  · rintro ⟨⟨⟨v, hv⟩, hx⟩, hpick⟩
    rw [picked, get?_registerItems e.lastItems g.items g.timestamp hx, hv, Option.filter_some] at hpick
    by_cases hyoung : g.timestamp - v.2 < 2
    · rw [if_pos (decide_eq_true hyoung)] at hpick
      simp only [Bool.and_eq_true, decide_eq_true_iff] at hpick
      exact ⟨hx, v, hr.sound x v hv, hpick.1, hpick.2⟩
    · rw [if_neg (by simpa using hyoung)] at hpick
      simp at hpick
  · rintro ⟨hx, v, hv, hrecent, hover⟩
    have hyoung : g.timestamp - v.2 < 2 := by
      norm_num at hrecent ⊢
      linarith
    have hget := hr.complete x v g.timestamp hv hmono hyoung
    refine ⟨⟨⟨v, hget⟩, hx⟩, ?_⟩
    rw [picked, get?_registerItems e.lastItems g.items g.timestamp hx, hget, Option.filter_some,
      if_pos (decide_eq_true hyoung)]
    simp [hrecent, hover]

/-- The pickups of one detection. -/
theorem length_pickupEvents_eq {e : AssociationEngine} {frames : List Detections}
    (hr : RegistryOk frames e.lastItems) {g : Detections} (hmono : ∀ d ∈ frames, d.timestamp ≤ g.timestamp)
    (p : PersonDetection) :
    (pickupEvents e (registerItems e.lastItems g.items g.timestamp) (disappeared h e g.items) p
      g.timestamp).length = (seenIds frames).countP (takes frames g p) := by
  have hgone : (disappeared h e g.items).Nodup :=
    (h.setDiff_perm _ _).nodup_iff.2 ((List.nodup_dedup _).filter _)
  have hseen : (seenIds frames).Nodup := List.nodup_dedup _
  rw [pickupEvents, List.length_map, List.countP_eq_length_filter]
  refine ((List.perm_ext_iff_of_nodup (hgone.filter _) (hseen.filter _)).2 fun x => ?_).length_eq
  rw [List.mem_filter, List.mem_filter, picked_iff hr hmono, iff_and_self]
  intro htakes
  obtain ⟨-, v, hv, -⟩ := takes_iff.1 htakes
  exact lastSighting_mem hv

/-- The pickups of track `a` in frame `g` of a run, from the frames before it. -/
theorem pickups_eq_sightings {frames : List Detections} {g : Detections}
    (hmono : ∀ d ∈ frames, d.timestamp ≤ g.timestamp) (a : Int) :
    ((step h w (engineAfter h w cam zones frames) g).2.filter (·.trackId = a)).countP isPickup =
      pickups a frames g := by
  have hr := registryOk_after h w cam zones frames
  have hevents : (step h w (engineAfter h w cam zones frames) g).2.filter (·.trackId = a) = _ :=
    track_events g.persons g.items g.timestamp a
  rw [hevents, pickups]
  generalize (engineAfter h w cam zones frames).persons.get? a = o
  generalize hps : g.persons.filter (·.trackId = a) = ps
  clear hps hevents
  induction ps generalizing o with
  | nil => rfl
  | cons p ps ih =>
    have hturn : (trackTurn h w (engineAfter h w cam zones frames) g.items g.timestamp o p).2.countP isPickup = _ :=
      updatePerson_pickups (registered (engineAfter h w cam zones frames) g.items g.timestamp) _ p g.items
        (disappeared h (engineAfter h w cam zones frames) g.items) g.timestamp
    rw [Mealy.outs_cons, List.flatten_cons, List.countP_append, hturn, ih, List.map_cons, List.sum_cons]
    congr 1
    exact length_pickupEvents_eq hr hmono p

end Netra.Association
