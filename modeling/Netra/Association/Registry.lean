import Netra.Association.Spikes
/-!
# The item registry over a run

`last_items` keeps, under every item id, the box of the last frame that had the
id. `pickups_eq` counts the pickups of a track in a frame from the frames alone:
every earlier frame contributes the items whose id is gone since, as long as it
is remembered.
-/
namespace Netra.Association

open PyLib

/-- The detections of a frame. -/
structure Detections where
  persons : List PersonDetection
  items : List ItemDetection
  timestamp : ℚ

namespace Detections

def ids (d : Detections) : List Int := d.items.map (·.itemId)

end Detections

section
variable (h : Host) (w : Settings) (cam : String) (zones : List ZoneConfig)

def step (e : AssociationEngine) (d : Detections) : AssociationEngine × List AssociationEvent :=
  processFrame h w e d.persons d.items d.timestamp

/-- The engine of camera `cam` after `frames`. -/
def engineAfter (frames : List Detections) : AssociationEngine := Mealy.after (step h w) (.init cam zones) frames

/-- The events of every frame. -/
def events (frames : List Detections) : List (List AssociationEvent) :=
  Mealy.outs (step h w) (.init cam zones) frames

end

/-- Id `x` is in none of the frames `B` and not in `g`. -/
def Gone (x : Int) (B : List Detections) (g : Detections) : Prop := (∀ m ∈ B, x ∉ m.ids) ∧ x ∉ g.ids

/-- What `d` left in the registry is still there in frame `g`, after the frames
`B`, and counts for a pickup. -/
def Remembered (d : Detections) (B : List Detections) (g : Detections) : Prop :=
  (∀ m ∈ B, m.timestamp - d.timestamp < 2) ∧ g.timestamp - 1.5 < d.timestamp

instance (x : Int) (B : List Detections) (g : Detections) : Decidable (Gone x B g) :=
  inferInstanceAs (Decidable ((∀ m ∈ B, x ∉ m.ids) ∧ x ∉ g.ids))

instance (d : Detections) (B : List Detections) (g : Detections) : Decidable (Remembered d B g) :=
  inferInstanceAs (Decidable ((∀ m ∈ B, m.timestamp - d.timestamp < 2) ∧ g.timestamp - 1.5 < d.timestamp))

/-- The detections of track `a` in `g` that box `b` lies on. -/
def overlapping (g : Detections) (a : Int) (b : BBox) : Nat :=
  g.persons.countP fun p => p.trackId = a && bboxOverlap p.bbox b 0.3

/-- The pickups of track `a` in `g` that come from frame `d`, with `B` in between. -/
def share (a : Int) (d : Detections) (B : List Detections) (g : Detections) : Nat :=
  (d.items.map fun it => if Gone it.itemId B g ∧ Remembered d B g then overlapping g a it.bbox else 0).sum

/-- The pickups of track `a` in `g`, after `frames`. -/
def due (a : Int) : List Detections → Detections → Nat
  | [], _ => 0
  | d :: B, g => share a d B g + due a B g

variable {h : Host} {w : Settings} {cam : String} {zones : List ZoneConfig}

/-! ## Sums over the registry -/

/-- A sum over what the registry holds after `frames`. -/
def tally (φ : Int → BBox × ℚ → Nat) : List Detections → Nat
  | [] => 0
  | d :: B =>
    (d.items.map fun it =>
      if (∀ m ∈ B, it.itemId ∉ m.ids) ∧ ∀ m ∈ B, m.timestamp - d.timestamp < 2 then
        φ it.itemId (it.bbox, d.timestamp)
      else 0).sum + tally φ B

theorem tally_concat (φ : Int → BBox × ℚ → Nat) (frames : List Detections) (g : Detections) :
    tally φ (frames ++ [g]) =
      tally (fun x v => if x ∉ g.ids ∧ g.timestamp - v.2 < 2 then φ x v else 0) frames +
        (g.items.map fun it => φ it.itemId (it.bbox, g.timestamp)).sum := by
  induction frames with
  | nil => simp [tally]
  | cons d B ih =>
    rw [List.cons_append, tally, tally, ih, Nat.add_assoc]
    congr 2
    refine List.map_congr_left fun it _ => ?_
    rw [← ite_and]
    refine if_congr ?_ rfl rfl
    simp only [List.forall_mem_append, List.forall_mem_singleton]
    tauto

theorem total_registerItems (φ : Int → BBox × ℚ → Nat) (reg : Dict Int (BBox × ℚ)) (g : Detections)
    (hn : g.ids.Nodup) : Dict.total φ (registerItems reg g.items g.timestamp) =
      Dict.total (fun x v => if x ∉ g.ids ∧ g.timestamp - v.2 < 2 then φ x v else 0) reg +
        (g.items.map fun it => φ it.itemId (it.bbox, g.timestamp)).sum := by
  have hnow : g.timestamp - g.timestamp < 2 := by norm_num
  rw [registerItems, Dict.total_filter, Dict.total_foldl_set _ _ _ _ hn, Nat.add_comm]
  congr 1
  · refine Dict.total_congr fun x v _ => ?_
    by_cases hx : x ∈ g.ids
    · simp [Detections.ids] at hx ⊢
      simp [hx]
    · have hx' : x ∉ g.items.map (·.itemId) := hx
      simp only [if_neg hx', hx, not_false_eq_true, true_and, decide_eq_true_iff]
  · simp only [decide_eq_true_iff, if_pos hnow]

/-- The registry after a run, summed up frame by frame. -/
theorem total_lastItems (h : Host) (w : Settings) (cam : String) (zones : List ZoneConfig)
    (φ : Int → BBox × ℚ → Nat) {frames : List Detections}
    (hn : ∀ d ∈ frames, d.ids.Nodup) :
    Dict.total φ (engineAfter h w cam zones frames).lastItems = tally φ frames := by
  induction frames using List.reverseRecOn generalizing φ with
  | nil => rfl
  | append_singleton frames g ih =>
    have hlast : (engineAfter h w cam zones (frames ++ [g])).lastItems =
        registerItems (engineAfter h w cam zones frames).lastItems g.items g.timestamp := by
      rw [engineAfter, Mealy.after_concat]
      rfl
    rw [hlast, total_registerItems φ _ g (hn g (by simp)), tally_concat,
      ih _ fun d hd => hn d (List.mem_append_left _ hd)]

/-! ## Pickups of a frame -/

def isPickup (ev : AssociationEvent) : Bool := ev.eventType = .itemPickup

theorem get?_registerItems (reg : Dict Int (BBox × ℚ)) (items : List ItemDetection) (t : ℚ) {x : Int}
    (hx : x ∉ items.map (·.itemId)) :
    (registerItems reg items t).get? x = (reg.get? x).filter fun v => t - v.2 < 2 := by
  have hfold : (items.foldl (fun d it => d.set it.itemId (it.bbox, t)) reg).get? x = reg.get? x := by
    induction items generalizing reg with
    | nil => rfl
    | cons it items ih =>
      rw [List.map_cons, List.mem_cons, not_or] at hx
      rw [List.foldl_cons, ih _ hx.2, Dict.get?_set_ne _ _ hx.1]
  rw [registerItems, Dict.get?_filter, hfold]

/-- One pickup event for each vanished item that lies on the person. -/
theorem length_pickupEvents (e : AssociationEngine) (g : Detections) (p : PersonDetection) :
    (pickupEvents e (registerItems e.lastItems g.items g.timestamp) (disappeared h e g.items) p
        g.timestamp).length =
      Dict.total (fun x v =>
        if (x ∉ g.ids ∧ g.timestamp - 1.5 < v.2) ∧ bboxOverlap p.bbox v.1 0.3 = true then 1 else 0)
        e.lastItems := by
  have hperm := (h.setDiff_perm e.lastItems.keys (g.items.map (·.itemId))).countP_eq
    (picked (registerItems e.lastItems g.items g.timestamp) p.bbox g.timestamp)
  rw [pickupEvents, List.length_map, ← List.countP_eq_length_filter, disappeared, hperm,
    e.lastItems.keys_nodup.dedup, List.countP_filter, Dict.keys, List.countP_map, Dict.total_ite]
  refine List.countP_congr fun entry hentry => ?_
  obtain ⟨x, b, ts⟩ := entry
  have hget : e.lastItems.get? x = some (b, ts) := (Dict.get?_eq_some_iff _ _ _).2 hentry
  simp only [Function.comp_apply, Bool.and_eq_true, decide_eq_true_iff]
  by_cases hx : x ∈ g.ids
  · have hx' : x ∈ g.items.map (·.itemId) := hx
    simp [hx, hx']
  · have hx' : x ∉ g.items.map (·.itemId) := hx
    simp only [picked, get?_registerItems e.lastItems g.items g.timestamp hx', hget, hx, hx', Option.filter_some,
      not_false_eq_true, and_true, true_and, decide_eq_true_iff]
    -- what the registry drops at 2 s is too old for a pickup anyway
    by_cases hold : g.timestamp - ts < 2
    · simp [hold]
    · have hlate : ¬ g.timestamp - 1.5 < ts := by
        norm_num at hold ⊢
        linarith
      simp [hold, hlate]

/-- The pickups of one detection are those of its pickup section. -/
theorem updatePerson_pickups (e : AssociationEngine) (st : PersonState) (p : PersonDetection)
    (items : List ItemDetection) (gone : List Int) (t : ℚ) :
    (updatePerson h w e st p items gone t).2.countP isPickup = (pickupEvents e e.lastItems gone p t).length := by
  have hzone : (zoneEvents h e st p t).countP isPickup = 0 := by
    refine List.countP_eq_zero.2 fun ev hev => ?_
    rcases (zoneEvents_spec ev hev).2 with hty | hty <;> simp [isPickup, hty]
  have hshelf (n : Nat) : (shelfEvents w e n p t).countP isPickup = 0 := by
    refine List.countP_eq_zero.2 fun ev hev => ?_
    rcases (shelfEvents_spec ev hev).2 with hty | hty <;> simp [isPickup, hty]
  have hspike (st' : PersonState) : (speedSpike h w e st' p t).2.countP isPickup = 0 := by
    refine List.countP_eq_zero.2 fun ev hev => ?_
    simp [isPickup, (speedSpike_events ev hev).2]
  have hpick : (pickupEvents e e.lastItems gone p t).countP isPickup =
      (pickupEvents e e.lastItems gone p t).length :=
    List.countP_eq_length.2 fun ev hev => decide_eq_true (pickupEvents_spec ev hev).2
  simp only [updatePerson, List.countP_append, hzone, hshelf, hspike, hpick]
  omega

/-- The pickups of the detections `ps` of a track. -/
theorem trackTurn_pickups (e : AssociationEngine) (g : Detections) (o : Option PersonState)
    (ps : List PersonDetection) :
    (Mealy.outs (trackTurn h w e g.items g.timestamp) o ps).flatten.countP isPickup =
      Dict.total (fun x v => if x ∉ g.ids ∧ g.timestamp - 1.5 < v.2 then
        ps.countP (fun p => bboxOverlap p.bbox v.1 0.3) else 0) e.lastItems := by
  induction ps generalizing o with
  | nil =>
    have hzero (d : Dict Int (BBox × ℚ)) : Dict.total (fun _ _ => 0) d = 0 := by
      simp [Dict.total]
    simpa using (hzero e.lastItems).symm
  | cons p ps ih =>
    have hturn : (trackTurn h w e g.items g.timestamp o p).2.countP isPickup = _ :=
      updatePerson_pickups (registered e g.items g.timestamp) _ p g.items (disappeared h e g.items) g.timestamp
    have hlen : (pickupEvents (registered e g.items g.timestamp) (registered e g.items g.timestamp).lastItems
        (disappeared h e g.items) p g.timestamp).length = _ := length_pickupEvents e g p
    rw [Mealy.outs_cons, List.flatten_cons, List.countP_append, ih, hturn, hlen, ← Dict.total_add]
    refine Dict.total_congr fun x v _ => ?_
    by_cases hx : x ∉ g.ids ∧ g.timestamp - 1.5 < v.2
    · rw [if_pos hx, if_pos hx, List.countP_cons, Nat.add_comm]
      simp only [hx, true_and, and_true, not_false_eq_true]
    · rw [if_neg hx, if_neg hx, if_neg fun hand => hx hand.1]

theorem due_eq_tally (a : Int) (g : Detections) (frames : List Detections) :
    tally (fun x v => if x ∉ g.ids ∧ g.timestamp - 1.5 < v.2 then overlapping g a v.1 else 0) frames =
      due a frames g := by
  induction frames with
  | nil => rfl
  | cons d B ih =>
    rw [tally, due, ih, share]
    congr 2
    refine List.map_congr_left fun it _ => ?_
    rw [← ite_and]
    refine if_congr ?_ rfl rfl
    simp only [Gone, Remembered]
    tauto

/-- The pickups of track `a` in frame `g` of a run. -/
theorem pickups_eq {frames : List Detections} (hn : ∀ d ∈ frames, d.ids.Nodup) (g : Detections) (a : Int) :
    ((step h w (engineAfter h w cam zones frames) g).2.filter (·.trackId = a)).countP isPickup =
      due a frames g := by
  have hevents : (step h w (engineAfter h w cam zones frames) g).2.filter (·.trackId = a) = _ :=
    track_events g.persons g.items g.timestamp a
  rw [hevents, trackTurn_pickups, ← due_eq_tally, ← total_lastItems h w cam zones _ hn]
  simp only [List.countP_filter, overlapping, Bool.and_comm]

end Netra.Association
