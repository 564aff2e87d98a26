import Netra.Association.Registry
import Netra.Lib.Alternation
/-!
# Zone events of one track

For one track and one zone the engine is the machine of `Lib/Alternation`: it
remembers whether the track was inside at its last detection, and forgets that
when it drops a track it has not seen for 5 s. No event is emitted then, so a
track that was inside and comes back enters the zone again
(`zone_events_alternate_iff`).
-/
namespace Netra.Association

open PyLib Alternation

/-- What an event says about track `a` and the zone `name`: `true` for entering it,
`false` for leaving it. -/
def crossing (a : Int) (name : String) (ev : AssociationEvent) : Option Bool :=
  if ev.trackId = a ∧ ev.zoneName = some name then
    match ev.eventType with
    | .zoneEnter => some true
    | .zoneExit => some false
    | _ => none
  else none

/-- The detections of track `a` in a frame, as far as the zone goes. -/
def sighted (h : Host) (z : ZoneConfig) (a : Int) (d : Detections) : Frame ℚ where
  inside := (d.persons.filter (·.trackId = a)).map fun p => z.containsBBox h p.bbox
  time := d.timestamp

/-- What the state of a track remembers about the zone. -/
def remembered (z : ZoneConfig) (o : Option PersonState) : Option (Bool × ℚ) :=
  o.map fun st => (decide (z.name ∈ st.activeZones), st.lastTs)

variable {h : Host} {w : Settings} {e : AssociationEngine} {cam : String} {zones : List ZoneConfig} {z : ZoneConfig}

/-! ## One detection -/

/-- Under distinct names, only the zone itself yields something under its name. -/
theorem filterMap_zone {β : Type} (f : ZoneConfig → Option β) (hn : (zones.map (·.name)).Nodup) (hz : z ∈ zones)
    (hother : ∀ z' ∈ zones, z'.name ≠ z.name → f z' = none) : zones.filterMap f = (f z).toList := by
  induction zones with
  | nil => cases hz
  | cons z' zones ih =>
    rw [List.map_cons, List.nodup_cons] at hn
    have hrest : ∀ y ∈ zones, y.name ≠ z.name → f y = none := fun y hy => hother y (List.mem_cons_of_mem _ hy)
    rcases List.mem_cons.1 hz with rfl | hz
    · have hnone : zones.filterMap f = [] := by
        refine List.filterMap_eq_nil_iff.2 fun y hy => hrest y hy fun hname => hn.1 ?_
        exact hname ▸ List.mem_map_of_mem hy
      rw [List.filterMap_cons, hnone]
      cases f z <;> rfl
    · have hne : z'.name ≠ z.name := fun hname => hn.1 (hname ▸ List.mem_map_of_mem hz)
      rw [List.filterMap_cons, hother z' (List.mem_cons_self ..) hne]
      exact ih hn.2 hz hrest

theorem zoneEvents_crossings (hn : (e.zones.map (·.name)).Nodup) (hz : z ∈ e.zones) (st : PersonState)
    (p : PersonDetection) (t : ℚ) :
    (zoneEvents h e st p t).filterMap (crossing p.trackId z.name) =
      changes (decide (z.name ∈ st.activeZones)) [z.containsBBox h p.bbox] := by
  rw [zoneEvents, List.filterMap_filterMap, filterMap_zone _ hn hz]
  · by_cases hin : z.containsBBox h p.bbox = true <;> by_cases hact : z.name ∈ st.activeZones <;>
      simp [crossing, changes, hin, hact]
  · intro z' _ hname
    by_cases hin : z'.containsBBox h p.bbox = true <;> by_cases hact : z'.name ∈ st.activeZones <;>
      simp [crossing, hin, hact, hname]

theorem crossing_of_type {a : Int} {name : String} {ev : AssociationEvent}
    (hty : ev.eventType ≠ .zoneEnter ∧ ev.eventType ≠ .zoneExit) : crossing a name ev = none := by
  unfold crossing
  split
  · split
    · exact absurd ‹_› hty.1
    · exact absurd ‹_› hty.2
    · rfl
  · rfl

/-- Only the zone section has something to say about zones. -/
theorem updatePerson_crossings (hn : (e.zones.map (·.name)).Nodup) (hz : z ∈ e.zones) (st : PersonState)
    (p : PersonDetection) (items : List ItemDetection) (gone : List Int) (t : ℚ) :
    (updatePerson h w e st p items gone t).2.filterMap (crossing p.trackId z.name) =
      changes (decide (z.name ∈ st.activeZones)) [z.containsBBox h p.bbox] := by
  have hshelf (n : Nat) : (shelfEvents w e n p t).filterMap (crossing p.trackId z.name) = [] := by
    refine List.filterMap_eq_nil_iff.2 fun ev hev => crossing_of_type ?_
    rcases (shelfEvents_spec ev hev).2 with hty | hty <;> simp [hty]
  have hpick : (pickupEvents e e.lastItems gone p t).filterMap (crossing p.trackId z.name) = [] := by
    refine List.filterMap_eq_nil_iff.2 fun ev hev => crossing_of_type ?_
    simp [(pickupEvents_spec ev hev).2]
  have hspike (st' : PersonState) : (speedSpike h w e st' p t).2.filterMap (crossing p.trackId z.name) = [] := by
    refine List.filterMap_eq_nil_iff.2 fun ev hev => crossing_of_type ?_
    simp [(speedSpike_events ev hev).2]
  simp only [updatePerson, List.filterMap_append, hshelf, hpick, hspike, List.append_nil]
  exact zoneEvents_crossings hn hz st p t

theorem mem_currentZones (hn : (e.zones.map (·.name)).Nodup) (hz : z ∈ e.zones) (b : BBox) :
    z.name ∈ currentZones h e b ↔ z.containsBBox h b = true := by
  rw [currentZones, List.mem_map]
  constructor
  · rintro ⟨z', hz', hname⟩
    obtain ⟨hmem, hin⟩ := List.mem_filter.1 hz'
    exact List.inj_on_of_nodup_map hn hmem hz hname ▸ hin
  · exact fun hin => ⟨z, List.mem_filter.2 ⟨hz, hin⟩, rfl⟩

theorem updatePerson_remembered (hn : (e.zones.map (·.name)).Nodup) (hz : z ∈ e.zones) (st : PersonState)
    (p : PersonDetection) (items : List ItemDetection) (gone : List Int) (t : ℚ) :
    remembered z (some (updatePerson h w e st p items gone t).1) = some (z.containsBBox h p.bbox, t) := by
  have hzones : (updatePerson h w e st p items gone t).1.activeZones = currentZones h e p.bbox :=
    (speedSpike_frame _ p t).1
  have hlast : (updatePerson h w e st p items gone t).1.lastTs = t := rfl
  rw [remembered, Option.map_some, hzones, hlast]
  simp [mem_currentZones hn hz]

/-! ## One frame -/

theorem trackTurn_crossings (hn : (e.zones.map (·.name)).Nodup) (hz : z ∈ e.zones) (items : List ItemDetection) (t : ℚ)
    {a : Int} (o : Option PersonState) {ps : List PersonDetection} (hps : ∀ p ∈ ps, p.trackId = a) :
    (Mealy.outs (trackTurn h w e items t) o ps).flatten.filterMap (crossing a z.name) =
        changes (((remembered z o).map Prod.fst).getD false) (ps.map fun p => z.containsBBox h p.bbox) ∧
      remembered z (Mealy.after (trackTurn h w e items t) o ps) =
        if ps = [] then remembered z o
        else some ((ps.map fun p => z.containsBBox h p.bbox).getLastD
          (((remembered z o).map Prod.fst).getD false), t) := by
  induction ps generalizing o with
  | nil => exact ⟨rfl, rfl⟩
  | cons p ps ih =>
    obtain rfl := hps p (List.mem_cons_self ..)
    have hev := updatePerson_crossings (h := h) (w := w) (e := registered e items t) hn hz
      (stateOf (registered e items t) p t o) p items (disappeared h e items) t
    have hrem := updatePerson_remembered (h := h) (w := w) (e := registered e items t) hn hz
      (stateOf (registered e items t) p t o) p items (disappeared h e items) t
    have hflag : decide (z.name ∈ (stateOf (registered e items t) p t o).activeZones) =
        ((remembered z o).map Prod.fst).getD false := by
      cases o with
      | none => simp [stateOf, remembered]
      | some st => rfl
    have hturn : (trackTurn h w e items t o p).2.filterMap (crossing p.trackId z.name) = _ := hev
    have hnext : remembered z (trackTurn h w e items t o p).1 = _ := hrem
    obtain ⟨hevs, hafter⟩ := ih (trackTurn h w e items t o p).1 fun q hq => hps q (List.mem_cons_of_mem _ hq)
    rw [hnext] at hevs hafter
    refine ⟨?_, ?_⟩
    · rw [Mealy.outs_cons, List.flatten_cons, List.filterMap_append, hturn, hevs, hflag, List.map_cons, changes]
      by_cases hx : z.containsBBox h p.bbox = ((remembered z o).map Prod.fst).getD false <;> simp [changes, hx]
    · rw [Mealy.after_cons, hafter, if_neg (List.cons_ne_nil _ _), List.map_cons, List.getLastD_cons]
      cases ps with
      | nil => rfl
      | cons q ps => rfl

/-- A frame of the engine is a frame of the machine. -/
theorem step_crossings (hn : (e.zones.map (·.name)).Nodup) (hz : z ∈ e.zones) (a : Int) (d : Detections) :
    (step h w e d).2.filterMap (crossing a z.name) =
        (Alternation.step 5 (remembered z (e.persons.get? a)) (sighted h z a d)).2 ∧
      remembered z ((step h w e d).1.persons.get? a) =
        (Alternation.step 5 (remembered z (e.persons.get? a)) (sighted h z a d)).1 := by
  have hps : ∀ p ∈ d.persons.filter (·.trackId = a), p.trackId = a := fun p hp => by
    simpa using (List.mem_filter.1 hp).2
  obtain ⟨hevs, hafter⟩ := trackTurn_crossings (h := h) (w := w) hn hz d.items d.timestamp (e.persons.get? a) hps
  have hmine : (step h w e d).2.filterMap (crossing a z.name) =
      ((step h w e d).2.filter (·.trackId = a)).filterMap (crossing a z.name) := by
    rw [List.filterMap_filter]
    refine List.filterMap_congr fun ev _ => ?_
    by_cases hev : ev.trackId = a <;> simp [crossing, hev]
  have hturns : (step h w e d).2.filter (·.trackId = a) = _ := track_events d.persons d.items d.timestamp a
  have hstates : (step h w e d).1.persons.get? a = _ := track_after d.persons d.items d.timestamp a
  refine ⟨?_, ?_⟩
  · rw [hmine, hturns, hevs]
    rfl
  · have hempty : (sighted h z a d).inside = [] ↔ d.persons.filter (·.trackId = a) = [] := by
      rw [sighted, List.map_eq_nil_iff]
    have habsent : a ∉ d.persons.map (·.trackId) ↔ d.persons.filter (·.trackId = a) = [] := by
      simp [List.filter_eq_nil_iff]
    rw [hstates]
    by_cases hnone : d.persons.filter (·.trackId = a) = []
    · rw [Alternation.step_absent (hempty.2 hnone), hnone]
      cases hst : e.persons.get? a with
      | none => rfl
      | some st =>
        have hout := habsent.2 hnone
        by_cases hlate : 5 < d.timestamp - st.lastTs <;> simp [remembered, hout, sighted, hlate, Option.filter_some]
    · rw [Alternation.step_present (mt hempty.1 hnone)]
      rw [if_neg hnone] at hafter
      have hin : a ∈ d.persons.map (·.trackId) := not_not.1 (mt habsent.1 hnone)
      have hkeep (o : Option PersonState) :
          o.filter (fun st => !(a ∉ d.persons.map (·.trackId) && 5 < d.timestamp - st.lastTs)) = o := by
        cases o <;> simp [hin]
      rw [hkeep]
      exact hafter

/-! ## Runs -/

/-- What the events of a run say about track `a` and the zone, in order. -/
def crossings (h : Host) (w : Settings) (cam : String) (zones : List ZoneConfig) (z : ZoneConfig) (a : Int)
    (frames : List Detections) : List Bool :=
  (events h w cam zones frames).flatten.filterMap (crossing a z.name)

theorem outs_crossings (a : Int) (frames : List Detections) {e : AssociationEngine}
    (hn : (e.zones.map (·.name)).Nodup) (hz : z ∈ e.zones) :
    (Mealy.outs (step h w) e frames).flatten.filterMap (crossing a z.name) =
      (Mealy.outs (Alternation.step 5) (remembered z (e.persons.get? a)) (frames.map (sighted h z a))).flatten := by
  induction frames generalizing e with
  | nil => rfl
  | cons d frames ih =>
    obtain ⟨hevs, hnext⟩ := step_crossings (h := h) (w := w) hn hz a d
    rw [Mealy.outs_cons, List.flatten_cons, List.filterMap_append, hevs, List.map_cons, Mealy.outs_cons,
      List.flatten_cons, ← hnext]
    congr 1
    exact ih hn hz

/-- Track `a` is inside the zone at its last detection in frame `d`, is in none of
the frames `gap`, one of them more than 5 s after `d`, and inside the zone again
in a frame of `rest`. -/
def ForgottenInside (h : Host) (z : ZoneConfig) (a : Int) (d : Detections) (gap rest : List Detections) : Prop :=
  (∃ p, (d.persons.filter (·.trackId = a)).getLast? = some p ∧ z.containsBBox h p.bbox = true) ∧
    (∀ m ∈ gap, ∀ p ∈ m.persons, p.trackId ≠ a) ∧ (∃ m ∈ gap, 5 < m.timestamp - d.timestamp) ∧
    ∃ g ∈ rest, ∃ p ∈ g.persons, p.trackId = a ∧ z.containsBBox h p.bbox = true

theorem sighted_last (a : Int) (d : Detections) : (sighted h z a d).inside.getLast? = some true ↔
    ∃ p, (d.persons.filter (·.trackId = a)).getLast? = some p ∧ z.containsBBox h p.bbox = true := by
  rw [sighted, List.getLast?_map, Option.map_eq_some_iff]

theorem sighted_nil (a : Int) (d : Detections) :
    (sighted h z a d).inside = [] ↔ ∀ p ∈ d.persons, p.trackId ≠ a := by
  simp [sighted, List.filter_eq_nil_iff]

theorem sighted_true (a : Int) (d : Detections) : true ∈ (sighted h z a d).inside ↔
    ∃ p ∈ d.persons, p.trackId = a ∧ z.containsBBox h p.bbox = true := by
  simp [sighted, and_assoc]

theorem reenters_iff (a : Int) (frames : List Detections) :
    Reenters 5 (frames.map (sighted h z a)) ↔
      ∃ pre d gap rest, frames = pre ++ d :: gap ++ rest ∧ ForgottenInside h z a d gap rest := by
  constructor
  · rintro ⟨pre', d', rest', heq, hin, gap', later', rfl, habsent, ⟨m', hm', hlate⟩, g', hg', hback⟩
    obtain ⟨pre, tail, rfl, rfl, htail⟩ := List.map_eq_append_iff.1 heq
    obtain ⟨d, later, rfl, rfl, hlater⟩ := List.map_eq_cons_iff.1 htail
    obtain ⟨gap, rest, rfl, rfl, rfl⟩ := List.map_eq_append_iff.1 hlater
    obtain ⟨m, hm, rfl⟩ := List.mem_map.1 hm'
    obtain ⟨g, hg, rfl⟩ := List.mem_map.1 hg'
    refine ⟨pre, d, gap, rest, by simp, (sighted_last a d).1 hin, fun m hm => ?_, ⟨m, hm, hlate⟩,
      ⟨g, hg, (sighted_true a g).1 hback⟩⟩
    exact (sighted_nil a m).1 (habsent _ (List.mem_map_of_mem hm))
  · rintro ⟨pre, d, gap, rest, rfl, hin, habsent, ⟨m, hm, hlate⟩, g, hg, hback⟩
    refine ⟨pre.map (sighted h z a), sighted h z a d, (gap ++ rest).map (sighted h z a), by simp,
      (sighted_last a d).2 hin, gap.map (sighted h z a), rest.map (sighted h z a), by simp, fun m' hm' => ?_,
      ⟨_, List.mem_map_of_mem hm, hlate⟩, ⟨_, List.mem_map_of_mem hg, (sighted_true a g).2 hback⟩⟩
    obtain ⟨m, hm, rfl⟩ := List.mem_map.1 hm'
    exact (sighted_nil a m).2 (habsent m hm)

/-- The events of a track and a zone alternate, starting with `ZONE_ENTER`, unless
the track is forgotten inside the zone and comes back into it. -/
theorem zone_events_alternate_iff (hn : (zones.map (·.name)).Nodup) (hz : z ∈ zones) (a : Int)
    (frames : List Detections) :
    Alternates (crossings h w cam zones z a frames) ↔
      ¬ ∃ pre d gap rest, frames = pre ++ d :: gap ++ rest ∧ ForgottenInside h z a d gap rest := by
  rw [← reenters_iff, ← alternates_iff, crossings, events, outs_crossings a frames hn hz]
  rfl

/-- The exit zone, and track 7 standing at height `y` at time `t`. -/
def exitZone : ZoneConfig := { name := "exit_zone", polygon := [(0, 0), (100, 0), (100, 100), (0, 100)] }

def walker (y t : ℚ) : Detections where
  persons := [{ trackId := 7, cameraId := "cam-01", bbox := ⟨40, y - 10, 60, y + 10⟩, confidence := 1, keypoints := [],
                timestamp := t }]
  items := []
  timestamp := t

/-- A frame that shows nobody. -/
def nobody (t : ℚ) : Detections := { persons := [], items := [], timestamp := t }

theorem zone_events_alternate_seen :
    Alternates (crossings .reference .default "cam-01" [exitZone] exitZone 7
      [walker 50 1, nobody 3, walker 200 4, walker 50 5]) ↔
      ¬ ∃ pre d gap rest, [walker 50 1, nobody 3, walker 200 4, walker 50 5] = pre ++ d :: gap ++ rest ∧
        ForgottenInside .reference exitZone 7 d gap rest :=
  zone_events_alternate_iff (by decide) (by decide) 7 _

/-- Track 7 enters the exit zone, is hidden for 6 s, and enters it again. -/
theorem zone_events_fail : ¬ ∀ (h : Host) (w : Settings) (cam : String) (zones : List ZoneConfig) (z : ZoneConfig)
    (a : Int) (frames : List Detections), (zones.map (·.name)).Nodup → z ∈ zones →
      frames.Pairwise (·.timestamp ≤ ·.timestamp) → (∀ d ∈ frames, (d.persons.map (·.trackId)).Nodup) →
        Alternates (crossings h w cam zones z a frames) := by
  intro hall
  have hfail := hall .reference .default "cam-01" [exitZone] exitZone 7 [walker 50 1, nobody 7, walker 50 8]
    (by decide) (by decide) (by decide +kernel) (by decide)
  revert hfail
  decide +kernel

end Netra.Association
