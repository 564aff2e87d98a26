import Netra.Association.Engine
import Mathlib.Tactic.Linarith
/-!
# The tracks of one frame

`track_after` and `track_events` give what `process_frame` leaves behind and
emits for one track. `frame_spikes` is the rate limit on `SPEED_SPIKE`: at most
one in a frame, and only more than 2 s after `last_speed_spike_ts`.
-/
namespace Netra.Association

open PyLib

variable {h : Host} {w : Settings} {e : AssociationEngine}

/-! ## What each section emits -/

theorem zoneEvents_spec {st : PersonState} {p : PersonDetection} {t : ℚ} :
    ∀ ev ∈ zoneEvents h e st p t,
      ev.trackId = p.trackId ∧ (ev.eventType = .zoneEnter ∨ ev.eventType = .zoneExit) := by
  intro ev hev
  obtain ⟨zone, -, hz⟩ := List.mem_filterMap.1 hev
  split at hz
  · split at hz
    · cases hz
    · cases hz
      exact ⟨rfl, .inl rfl⟩
  · split at hz
    · cases hz
      exact ⟨rfl, .inr rfl⟩
    · cases hz

theorem shelfEvents_spec {n : Nat} {p : PersonDetection} {t : ℚ} :
    ∀ ev ∈ shelfEvents w e n p t,
      ev.trackId = p.trackId ∧ (ev.eventType = .shelfApproach ∨ ev.eventType = .shelfInteraction) := by
  intro ev hev
  rcases List.mem_append.1 hev with hev | hev
  · split at hev
    · obtain rfl := List.mem_singleton.1 hev
      exact ⟨rfl, .inl rfl⟩
    · cases hev
  · split at hev
    · obtain rfl := List.mem_singleton.1 hev
      exact ⟨rfl, .inr rfl⟩
    · cases hev

theorem pickupEvents_spec {lastItems : Dict Int (BBox × ℚ)} {gone : List Int} {p : PersonDetection} {t : ℚ} :
    ∀ ev ∈ pickupEvents e lastItems gone p t, ev.trackId = p.trackId ∧ ev.eventType = .itemPickup := by
  intro ev hev
  obtain ⟨id, -, rfl⟩ := List.mem_map.1 hev
  exact ⟨rfl, rfl⟩

/-- The speed section emits nothing, or one spike, more than 2 s after the last. -/
theorem speedSpike_spec (st : PersonState) (p : PersonDetection) (t : ℚ) :
    ((speedSpike h w e st p t).2 = [] ∧ (speedSpike h w e st p t).1.lastSpeedSpikeTs = st.lastSpeedSpikeTs) ∨
    (∃ ev, (speedSpike h w e st p t).2 = [ev] ∧ ev.trackId = p.trackId ∧ ev.eventType = .speedSpike ∧
      2 < t - st.lastSpeedSpikeTs ∧ (speedSpike h w e st p t).1.lastSpeedSpikeTs = t) := by
  unfold speedSpike
  split
  · exact .inl ⟨rfl, rfl⟩
  · dsimp only
    split
    · split
      · rename_i hspike
        exact .inr ⟨_, rfl, rfl, rfl, hspike.2.2, rfl⟩
      · exact .inl ⟨rfl, rfl⟩
    · exact .inl ⟨rfl, rfl⟩

theorem speedSpike_events {st : PersonState} {p : PersonDetection} {t : ℚ} :
    ∀ ev ∈ (speedSpike h w e st p t).2, ev.trackId = p.trackId ∧ ev.eventType = .speedSpike := by
  intro ev hev
  rcases speedSpike_spec st p t with ⟨hnone, -⟩ | ⟨spike, hone, htrack, hty, -⟩
  · rw [hnone] at hev
    cases hev
  · rw [hone] at hev
    obtain rfl := List.mem_singleton.1 hev
    exact ⟨htrack, hty⟩

/-- The speed section leaves the zones and the shelf count alone. -/
theorem speedSpike_frame (st : PersonState) (p : PersonDetection) (t : ℚ) :
    (speedSpike h w e st p t).1.activeZones = st.activeZones ∧
      (speedSpike h w e st p t).1.framesNearShelf = st.framesNearShelf := by
  unfold speedSpike
  split
  · exact ⟨rfl, rfl⟩
  · dsimp only
    split
    · split <;> exact ⟨rfl, rfl⟩
    · exact ⟨rfl, rfl⟩

theorem updatePerson_tag {st : PersonState} {p : PersonDetection} {items : List ItemDetection} {gone : List Int}
    {t : ℚ} : ∀ ev ∈ (updatePerson h w e st p items gone t).2, ev.trackId = p.trackId := by
  intro ev hev
  simp only [updatePerson, List.mem_append] at hev
  rcases hev with ((hev | hev) | hev) | hev
  · exact (zoneEvents_spec ev hev).1
  · exact (shelfEvents_spec ev hev).1
  · exact (pickupEvents_spec ev hev).1
  · exact (speedSpike_events ev hev).1

theorem personTurn_tag {items : List ItemDetection} {gone : List Int} {t : ℚ} (o : Option PersonState)
    (p : PersonDetection) : ∀ ev ∈ (personTurn h w e items gone t o p).2, ev.trackId = p.trackId :=
  updatePerson_tag

/-! ## One track of a frame -/

/-- The engine the person loop of a frame works with. -/
def registered (e : AssociationEngine) (items : List ItemDetection) (t : ℚ) : AssociationEngine :=
  { e with lastItems := registerItems e.lastItems items t }

/-- The item ids that were in the registry and are not in the frame. -/
def disappeared (h : Host) (e : AssociationEngine) (items : List ItemDetection) : List Int :=
  h.setDiff e.lastItems.keys (items.map (·.itemId))

/-- The turns of track `k` in a frame, on the state of the track. -/
def trackTurn (h : Host) (w : Settings) (e : AssociationEngine) (items : List ItemDetection) (t : ℚ) :
    Option PersonState → PersonDetection → Option PersonState × List AssociationEvent :=
  Mealy.single (personTurn h w (registered e items t) items (disappeared h e items) t)

theorem track_events (persons : List PersonDetection) (items : List ItemDetection) (t : ℚ) (k : Int) :
    (processFrame h w e persons items t).2.filter (·.trackId = k) =
      (Mealy.outs (trackTurn h w e items t) (e.persons.get? k) (persons.filter (·.trackId = k))).flatten :=
  Mealy.outs_keyed _ _ _ personTurn_tag _ _ _

theorem track_after (persons : List PersonDetection) (items : List ItemDetection) (t : ℚ) (k : Int) :
    (processFrame h w e persons items t).1.persons.get? k =
      (Mealy.after (trackTurn h w e items t) (e.persons.get? k) (persons.filter (·.trackId = k))).filter
        fun st => !(k ∉ persons.map (·.trackId) && 5 < t - st.lastTs) := by
  rw [trackTurn, ← Mealy.get?_after_keyed PersonDetection.trackId]
  exact Dict.get?_filter _ _ _

/-! ## Speed spikes -/

def isSpike (ev : AssociationEvent) : Bool := ev.eventType = .speedSpike

/-- `last_speed_spike_ts`, 0 for a track that is not there. -/
def spikeTs (o : Option PersonState) : ℚ := (o.map (·.lastSpeedSpikeTs)).getD 0

/-- A detection emits no spike, or one, more than 2 s after the last. -/
theorem updatePerson_spikes (st : PersonState) (p : PersonDetection) (items : List ItemDetection)
    (gone : List Int) (t : ℚ) :
    ((updatePerson h w e st p items gone t).2.filter isSpike = [] ∧
      (updatePerson h w e st p items gone t).1.lastSpeedSpikeTs = st.lastSpeedSpikeTs) ∨
    (∃ ev, (updatePerson h w e st p items gone t).2.filter isSpike = [ev] ∧ 2 < t - st.lastSpeedSpikeTs ∧
      (updatePerson h w e st p items gone t).1.lastSpeedSpikeTs = t) := by
  have hzone : (zoneEvents h e st p t).filter isSpike = [] := by
    refine List.filter_eq_nil_iff.2 fun ev hev => ?_
    rcases (zoneEvents_spec ev hev).2 with hty | hty <;> simp [isSpike, hty]
  have hshelf (n : Nat) : (shelfEvents w e n p t).filter isSpike = [] := by
    refine List.filter_eq_nil_iff.2 fun ev hev => ?_
    rcases (shelfEvents_spec ev hev).2 with hty | hty <;> simp [isSpike, hty]
  have hpick : (pickupEvents e e.lastItems gone p t).filter isSpike = [] := by
    refine List.filter_eq_nil_iff.2 fun ev hev => ?_
    simp [isSpike, (pickupEvents_spec ev hev).2]
  simp only [updatePerson, List.filter_append, hzone, hshelf, hpick, List.nil_append]
  rcases speedSpike_spec (h := h) (w := w) (e := e) { st with
      activeZones := currentZones h e p.bbox
      framesNearShelf := nearShelf st p.bbox items
      heldItems := st.heldItems ++ (pickupEvents e e.lastItems gone p t).filterMap (·.itemId) } p t with
    ⟨hnone, hkeep⟩ | ⟨ev, hone, -, hty, hgap, hset⟩
  · exact .inl ⟨by rw [hnone, List.filter_nil], hkeep⟩
  · have hpass : isSpike ev = true := decide_eq_true hty
    exact .inr ⟨ev, by rw [hone, List.filter_cons_of_pos hpass, List.filter_nil], hgap, hset⟩

/-- The spikes of one track in one frame. -/
theorem frame_spikes (o : Option PersonState) (items : List ItemDetection) (t : ℚ) (ps : List PersonDetection) :
    (((Mealy.outs (trackTurn h w e items t) o ps).flatten.filter isSpike = [] ∧
      spikeTs (Mealy.after (trackTurn h w e items t) o ps) = spikeTs o) ∨
    (∃ ev, (Mealy.outs (trackTurn h w e items t) o ps).flatten.filter isSpike = [ev] ∧ 2 < t - spikeTs o ∧
      spikeTs (Mealy.after (trackTurn h w e items t) o ps) = t)) := by
  induction ps using List.reverseRecOn with
  | nil => exact .inl ⟨rfl, rfl⟩
  | append_singleton ps p ih =>
    rw [Mealy.outs_append, Mealy.after_concat, List.flatten_append, List.filter_append]
    generalize Mealy.after (trackTurn h w e items t) o ps = mid at ih ⊢
    have hst : spikeTs mid = (stateOf (registered e items t) p t mid).lastSpeedSpikeTs := by
      cases mid <;> rfl
    have hlast : spikeTs (trackTurn h w e items t mid p).1 =
        (personTurn h w (registered e items t) items (disappeared h e items) t mid p).1.lastSpeedSpikeTs := rfl
    have hout : (Mealy.outs (trackTurn h w e items t) mid [p]).flatten =
        (personTurn h w (registered e items t) items (disappeared h e items) t mid p).2 := by
      simp [trackTurn, Mealy.single]
    rw [hlast, hout]
    have hturn := updatePerson_spikes (h := h) (w := w) (e := registered e items t)
      (stateOf (registered e items t) p t mid) p items (disappeared h e items) t
    rw [← hst] at hturn
    -- a second detection of the track finds the spike of the first at 0 s
    rcases hturn with ⟨hnone, hkeep⟩ | ⟨ev, hone, hgap, hset⟩
    · rw [personTurn, hnone, hkeep, List.append_nil]
      exact ih
    · rcases ih with ⟨hn, hk⟩ | ⟨ev', -, -, hk⟩
      · rw [personTurn, hone, hset, hn]
        exact .inr ⟨ev, rfl, hk ▸ hgap, rfl⟩
      · rw [hk] at hgap
        linarith

theorem lastTs_after (o : Option PersonState) (items : List ItemDetection) (t : ℚ) {ps : List PersonDetection}
    (hps : ps ≠ []) : ∃ st, Mealy.after (trackTurn h w e items t) o ps = some st ∧ st.lastTs = t := by
  rcases List.eq_nil_or_concat ps with rfl | ⟨ps', p, rfl⟩
  · exact absurd rfl hps
  · rw [List.concat_eq_append, Mealy.after_concat]
    exact ⟨_, rfl, rfl⟩

end Netra.Association
