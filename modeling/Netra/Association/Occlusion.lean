import Netra.Lib.Dict
import Netra.Lib.Machine
import Netra.Types
import Mathlib.Algebra.Order.Field.Basic
import Mathlib.Data.List.Enum
import Mathlib.Tactic.Linarith
import Mathlib.Tactic.NormNum
/-!
# Occlusion (`backend/services/association/occlusion.py`)

`OcclusionTracker` keeps, for each camera, when a track was last seen and whether
it is occluded. What the two dicts say of a track is read off the updates of its
camera: the last one it was in, and how far the later ones go (`occlusion_declared`).
-/
namespace Netra

open PyLib

/-! ## Overlap of boxes -/

namespace BBox

theorem iou_comm (a b : BBox) : a.iou b = b.iou a := by
  simp only [iou, max_comm a.x1, max_comm a.y1, min_comm a.x2, min_comm a.y2, add_comm (a.width * a.height)]

/-- Boxes that overlap, with the sides of their intersection. -/
theorem iou_cases (a b : BBox) : a.iou b = 0 ∨ ∃ w h : ℚ, 0 < w ∧ 0 < h ∧ w ≤ a.width ∧ h ≤ a.height ∧ w ≤ b.width ∧
    h ≤ b.height ∧ a.iou b = w * h / (a.width * a.height + b.width * b.height - w * h) := by
  simp only [iou]
  split_ifs with hempty hunion
  · exact .inl rfl
  · right
    obtain ⟨hx, hy⟩ := not_or.1 hempty
    have hx1 := le_max_left a.x1 b.x1
    have hx1' := le_max_right a.x1 b.x1
    have hx2 := min_le_left a.x2 b.x2
    have hx2' := min_le_right a.x2 b.x2
    have hy1 := le_max_left a.y1 b.y1
    have hy1' := le_max_right a.y1 b.y1
    have hy2 := min_le_left a.y2 b.y2
    have hy2' := min_le_right a.y2 b.y2
    refine ⟨_, _, sub_pos.2 (not_le.1 hx), sub_pos.2 (not_le.1 hy), ?_, ?_, ?_, ?_, rfl⟩ <;>
      simp only [width, height] <;> linarith
  · exact .inl rfl

/-- Whatever the boxes, also inverted or empty ones. -/
theorem iou_mem (a b : BBox) : 0 ≤ a.iou b ∧ a.iou b ≤ 1 := by
  rcases iou_cases a b with hzero | ⟨w, h, hw, hh, hwa, hha, hwb, hhb, hiou⟩
  · rw [hzero]
    norm_num
  · have hinter : 0 < w * h := mul_pos hw hh
    have ha : w * h ≤ a.width * a.height := mul_le_mul hwa hha hh.le (hw.le.trans hwa)
    have hb : w * h ≤ b.width * b.height := mul_le_mul hwb hhb hh.le (hw.le.trans hwb)
    have hunion : 0 < a.width * a.height + b.width * b.height - w * h := by linarith
    rw [hiou]
    exact ⟨div_nonneg hinter.le hunion.le, (div_le_one hunion).2 (by linarith)⟩

end BBox

namespace Association

def personOcclusionIou : ℚ := 0.35
def disappearFrames : Int := 3

structure OcclusionTracker where
  lastSeen : Dict String (Dict Int Int)
  occluded : Dict String (Dict Int Bool)

/-- The arguments of `update`. -/
structure Update where
  cameraId : String
  persons : List PersonDetection
  frameSeq : Int

namespace OcclusionTracker

def new : OcclusionTracker := ⟨.empty, .empty⟩

/-- `d[camera_id]` of a `defaultdict(dict)` -/
def ofCamera {α : Type} (d : Dict String (Dict Int α)) (cameraId : String) : Dict Int α := (d.get? cameraId).getD .empty

/-- The inner loop at the `j`-th person: one that is not the `i`-th overlaps `pa`. -/
def overlapped (pa : PersonDetection) (i : Nat) : List PersonDetection → Nat → Bool
  | [], _ => false
  | pb :: rest, j =>
    if i = j then overlapped pa i rest (j + 1)
    else if personOcclusionIou ≤ pa.bbox.iou pb.bbox then true
    else overlapped pa i rest (j + 1)

/-- `update` -/
def update (o : OcclusionTracker) (u : Update) : OcclusionTracker :=
  let seenIds := u.persons.map (·.trackId)
  let lastSeen := u.persons.foldl (fun d p => d.set p.trackId u.frameSeq) (ofCamera o.lastSeen u.cameraId)
  let occluded := u.persons.zipIdx.foldl (fun d (pa, i) => d.set pa.trackId (overlapped pa i u.persons 0))
    (ofCamera o.occluded u.cameraId)
  let occluded := lastSeen.items.foldl (fun d (trackId, lastFrame) =>
    if trackId ∉ seenIds then
      if disappearFrames ≤ u.frameSeq - lastFrame then d.set trackId true else d
    else d) occluded
  ⟨o.lastSeen.set u.cameraId lastSeen, o.occluded.set u.cameraId occluded⟩

def isOccluded (o : OcclusionTracker) (cameraId : String) (trackId : Int) : Bool :=
  ((ofCamera o.occluded cameraId).get? trackId).getD false

/-- The tracker after the updates `us`. -/
def after (o : OcclusionTracker) (us : List Update) : OcclusionTracker := us.foldl update o

/-! ## One update -/

def ids (u : Update) : List Int := u.persons.map (·.trackId)

/-- The frame in which the track was last seen. -/
def seenAt (o : OcclusionTracker) (cameraId : String) (trackId : Int) : Option Int :=
  (ofCamera o.lastSeen cameraId).get? trackId

/-- What is recorded of the track. -/
def state (o : OcclusionTracker) (cameraId : String) (trackId : Int) : Option Bool :=
  (ofCamera o.occluded cameraId).get? trackId

theorem overlapped_iff (pa : PersonDetection) (i : Nat) (persons : List PersonDetection) (j : Nat) :
    overlapped pa i persons j = true ↔
      ∃ n pb, persons[n]? = some pb ∧ i ≠ j + n ∧ personOcclusionIou ≤ pa.bbox.iou pb.bbox := by
  induction persons generalizing j with
  | nil => simp [overlapped]
  | cons pb rest ih =>
    have hrest : (∃ n p, rest[n]? = some p ∧ i ≠ j + 1 + n ∧ personOcclusionIou ≤ pa.bbox.iou p.bbox) ↔
        ∃ n p, (pb :: rest)[n + 1]? = some p ∧ i ≠ j + (n + 1) ∧ personOcclusionIou ≤ pa.bbox.iou p.bbox := by
      simp only [List.getElem?_cons_succ, Nat.add_assoc, Nat.add_comm 1]
    rw [overlapped]
    split_ifs with hself hover
    · rw [ih, hrest]
      constructor
      · rintro ⟨n, p, h⟩
        exact ⟨n + 1, p, h⟩
      · rintro ⟨n, p, hp, hn, hiou⟩
        cases n with
        | zero => exact absurd hself hn
        | succ n => exact ⟨n, p, hp, hn, hiou⟩
    · exact iff_of_true rfl ⟨0, pb, rfl, hself, hover⟩
    · rw [ih, hrest]
      constructor
      · rintro ⟨n, p, h⟩
        exact ⟨n + 1, p, h⟩
      · rintro ⟨n, p, hp, hn, hiou⟩
        cases n with
        | zero =>
          obtain rfl : pb = p := Option.some.inj hp
          exact absurd hiou hover
        | succ n => exact ⟨n, p, hp, hn, hiou⟩

/-- Another person of the frame overlaps the one of the track. -/
def HasOverlap (u : Update) (trackId : Int) : Prop :=
  ∃ pa ∈ u.persons, pa.trackId = trackId ∧
    ∃ pb ∈ u.persons, pb.trackId ≠ trackId ∧ personOcclusionIou ≤ pa.bbox.iou pb.bbox

/-- Where every person has a track of its own. -/
theorem overlapped_iff_hasOverlap {u : Update} (hn : (ids u).Nodup) {pa : PersonDetection} {i : Nat}
    (hi : u.persons[i]? = some pa) : overlapped pa i u.persons 0 = true ↔ HasOverlap u pa.trackId := by
  have hindex {n m : Nat} {p q : PersonDetection} (hp : u.persons[n]? = some p) (hq : u.persons[m]? = some q)
      (he : p.trackId = q.trackId) : n = m := by
    refine (List.getElem?_inj ?_ hn).1 ?_
    · rw [ids, List.length_map]
      exact (List.getElem?_eq_some_iff.1 hp).1
    · rw [ids, List.getElem?_map, List.getElem?_map, hp, hq, Option.map_some, Option.map_some, he]
  rw [overlapped_iff]
  simp only [Nat.zero_add]
  constructor
  · rintro ⟨n, pb, hpb, hne, hiou⟩
    exact ⟨pa, List.mem_of_getElem? hi, rfl, pb, List.mem_of_getElem? hpb, fun he => hne (hindex hi hpb he.symm), hiou⟩
  · rintro ⟨pa', hpa', hid, pb, hpb, hne, hiou⟩
    obtain ⟨m, hm⟩ := List.mem_iff_getElem?.1 hpa'
    obtain ⟨n, hpb⟩ := List.mem_iff_getElem?.1 hpb
    obtain rfl := hindex hm hi hid
    obtain rfl := Option.some.inj (hm.symm.trans hi)
    refine ⟨n, pb, hpb, ?_, hiou⟩
    rintro rfl
    exact hne (congrArg PersonDetection.trackId (Option.some.inj (hpb.symm.trans hi)))

section
variable {o : OcclusionTracker} {u : Update} {cameraId : String} {trackId : Int}

theorem ofCamera_set {α : Type} (d : Dict String (Dict Int α)) (c : String) (x : Dict Int α) :
    ofCamera (d.set c x) cameraId = if cameraId = c then x else ofCamera d cameraId := by
  rw [ofCamera, Dict.get?_set]
  split <;> rfl

/-- The updates of other cameras change nothing. -/
theorem update_other (h : u.cameraId ≠ cameraId) :
    (o.update u).seenAt cameraId trackId = o.seenAt cameraId trackId ∧
      (o.update u).state cameraId trackId = o.state cameraId trackId := by
  simp only [seenAt, state, update, ofCamera_set, if_neg (Ne.symm h), and_self]

theorem seenAt_update_of_mem (hn : (ids u).Nodup) (h : u.cameraId = cameraId) (hk : trackId ∈ ids u) :
    (o.update u).seenAt cameraId trackId = some u.frameSeq := by
  subst h
  obtain ⟨p, hp, rfl⟩ := List.mem_map.1 hk
  simp only [seenAt, update, ofCamera_set, if_true]
  exact Dict.get?_foldl_set_of_mem hn hp _

theorem seenAt_update_of_notMem (h : u.cameraId = cameraId) (hk : trackId ∉ ids u) :
    (o.update u).seenAt cameraId trackId = o.seenAt cameraId trackId := by
  subst h
  simp only [seenAt, update, ofCamera_set, if_true]
  exact Dict.get?_foldl_set_of_notMem hk _

/-- A track that is not in the frame and has been away for long enough. -/
def gone (seenIds : List Int) (frameSeq : Int) (e : Int × Int) : Bool :=
  e.1 ∉ seenIds && disappearFrames ≤ frameSeq - e.2

/-- The last loop of `update`. -/
theorem get?_foldl_disappeared (seenIds : List Int) (frameSeq : Int) (lastSeen : Dict Int Int) (d : Dict Int Bool) :
    (lastSeen.items.foldl (fun d (trackId, lastFrame) =>
      if trackId ∉ seenIds then
        if disappearFrames ≤ frameSeq - lastFrame then d.set trackId true else d
      else d) d).get? trackId =
    if trackId ∉ seenIds ∧ (lastSeen.get? trackId).any (fun f => disappearFrames ≤ frameSeq - f) then some true
    else d.get? trackId := by
  have hfilter : lastSeen.items.foldl (fun d (trackId, lastFrame) =>
      if trackId ∉ seenIds then
        if disappearFrames ≤ frameSeq - lastFrame then d.set trackId true else d
      else d) d = (lastSeen.items.filter (gone seenIds frameSeq)).foldl (fun d e => d.set e.1 true) d := by
    rw [List.foldl_filter]
    congr 1
    funext d e
    by_cases hseen : e.1 ∈ seenIds <;> simp [gone, hseen]
  have hmem : trackId ∈ (lastSeen.items.filter (gone seenIds frameSeq)).map Prod.fst ↔
      trackId ∉ seenIds ∧ (lastSeen.get? trackId).any (fun f => disappearFrames ≤ frameSeq - f) = true := by
    rw [List.mem_map, Option.any_eq_true]
    constructor
    · rintro ⟨⟨k, f⟩, he, rfl⟩
      obtain ⟨he, hgone⟩ := List.mem_filter.1 he
      obtain ⟨hseen, hgap⟩ := Bool.and_eq_true_iff.1 hgone
      exact ⟨of_decide_eq_true hseen, f, (Dict.get?_eq_some_iff _ _ _).2 he, hgap⟩
    · rintro ⟨hseen, f, hf, hgap⟩
      exact ⟨(trackId, f), List.mem_filter.2 ⟨(Dict.get?_eq_some_iff _ _ _).1 hf, by simp [gone, hseen, hgap]⟩, rfl⟩
  rw [hfilter]
  split_ifs with h
  · obtain ⟨e, he, rfl⟩ := List.mem_map.1 (hmem.2 h)
    have hnodup : ((lastSeen.items.filter (gone seenIds frameSeq)).map Prod.fst).Nodup :=
      lastSeen.nodup.sublist (List.filter_sublist.map Prod.fst)
    exact Dict.get?_foldl_set_of_mem hnodup he d
  · exact Dict.get?_foldl_set_of_notMem (fun hk => h (hmem.1 hk)) d

theorem ids_zipIdx (u : Update) : u.persons.zipIdx.map (fun x => x.1.trackId) = ids u := by
  rw [ids]
  conv_rhs => rw [← List.zipIdx_map_fst 0 u.persons]
  rw [List.map_map]
  rfl

/-- In a frame a track is occluded when somebody overlaps it. -/
theorem state_update_of_mem (hn : (ids u).Nodup) (h : u.cameraId = cameraId) (hk : trackId ∈ ids u) :
    ∃ b, (o.update u).state cameraId trackId = some b ∧ (b = true ↔ HasOverlap u trackId) := by
  subst h
  obtain ⟨pa, hpa, rfl⟩ := List.mem_map.1 hk
  obtain ⟨i, hi⟩ := List.mem_iff_getElem?.1 hpa
  refine ⟨_, ?_, overlapped_iff_hasOverlap hn hi⟩
  simp only [state, update, ofCamera_set, if_true]
  rw [get?_foldl_disappeared, if_neg fun hno => hno.1 hk]
  have hmem : (pa, i) ∈ u.persons.zipIdx := List.mem_zipIdx_iff_getElem?.2 hi
  exact Dict.get?_foldl_set_of_mem (ids_zipIdx u ▸ hn) hmem _

/-- Out of the frame it is occluded once it has been away for long enough. -/
theorem state_update_of_notMem (h : u.cameraId = cameraId) (hk : trackId ∉ ids u) :
    (o.update u).state cameraId trackId =
      if (o.seenAt cameraId trackId).any (fun f => disappearFrames ≤ u.frameSeq - f) then some true
      else o.state cameraId trackId := by
  subst h
  simp only [state, seenAt, update, ofCamera_set, if_true]
  rw [get?_foldl_disappeared, Dict.get?_foldl_set_of_notMem hk, Dict.get?_foldl_set_of_notMem (ids_zipIdx u ▸ hk)]
  exact if_congr (and_iff_right hk) rfl rfl

/-! ## A run of updates -/

/-- Some update of the camera comes three frames after the track was last seen, or later. -/
def Passed (cameraId : String) (f : Int) (us : List Update) : Prop :=
  ∃ v ∈ us, v.cameraId = cameraId ∧ f + 3 ≤ v.frameSeq

/-- None of the updates has the track in its frame. -/
def Absent (cameraId : String) (trackId : Int) (us : List Update) : Prop :=
  ∀ v ∈ us, v.cameraId = cameraId → trackId ∉ ids v

/-- An update that does not have the track in its frame. -/
theorem update_away (hk : u.cameraId = cameraId → trackId ∉ ids u) :
    (o.update u).seenAt cameraId trackId = o.seenAt cameraId trackId ∧
      (o.update u).state cameraId trackId =
        if u.cameraId = cameraId ∧ (o.seenAt cameraId trackId).any (fun f => f + 3 ≤ u.frameSeq) then some true
        else o.state cameraId trackId := by
  by_cases hc : u.cameraId = cameraId
  · have hgap (f : Int) : disappearFrames ≤ u.frameSeq - f ↔ f + 3 ≤ u.frameSeq := by
      rw [disappearFrames]
      omega
    refine ⟨seenAt_update_of_notMem hc (hk hc), ?_⟩
    rw [state_update_of_notMem hc (hk hc)]
    simp only [hc, true_and, hgap]
  · rw [if_neg fun h => hc h.1]
    exact update_other hc

theorem passed_concat {f : Int} {us : List Update} :
    Passed cameraId f (us ++ [u]) ↔ Passed cameraId f us ∨ (u.cameraId = cameraId ∧ f + 3 ≤ u.frameSeq) := by
  simp only [Passed, List.mem_append, List.mem_singleton, or_and_right, exists_or, exists_eq_left]

theorem Absent.of_concat {us : List Update} (h : Absent cameraId trackId (us ++ [u])) :
    Absent cameraId trackId us ∧ (u.cameraId = cameraId → trackId ∉ ids u) :=
  ⟨fun v hv => h v (List.mem_append_left _ hv), h u (by simp)⟩

theorem after_concat (o : OcclusionTracker) (us : List Update) (u : Update) :
    o.after (us ++ [u]) = (o.after us).update u := by rw [after, List.foldl_concat, ← after]

/-- Nothing is recorded of a track that was never there. -/
theorem state_after_of_unseen {us : List Update} (h : Absent cameraId trackId us)
    (hseen : o.seenAt cameraId trackId = none) :
    (o.after us).seenAt cameraId trackId = none ∧ (o.after us).state cameraId trackId = o.state cameraId trackId := by
  induction us using List.reverseRecOn with
  | nil => exact ⟨hseen, rfl⟩
  | append_singleton us u ih =>
    obtain ⟨hus, hu⟩ := h.of_concat
    obtain ⟨hnone, hstate⟩ := ih hus
    obtain ⟨hseen', hstate'⟩ := update_away (o := o.after us) hu
    rw [hnone] at hseen' hstate'
    rw [after_concat]
    exact ⟨hseen', hstate'.trans ((if_neg (by simp)).trans hstate)⟩

/-- While a track is away it becomes occluded with the first late update, and stays so. -/
theorem state_after_of_away {us : List Update} (h : Absent cameraId trackId us) {f : Int}
    (hseen : o.seenAt cameraId trackId = some f) :
    (o.after us).seenAt cameraId trackId = some f ∧
      (Passed cameraId f us → (o.after us).state cameraId trackId = some true) ∧
        (¬ Passed cameraId f us → (o.after us).state cameraId trackId = o.state cameraId trackId) := by
  induction us using List.reverseRecOn with
  | nil => exact ⟨hseen, fun ⟨v, hv, _⟩ => absurd hv List.not_mem_nil, fun _ => rfl⟩
  | append_singleton us u ih =>
    obtain ⟨hus, hu⟩ := h.of_concat
    obtain ⟨hsome, hpassed, hwaiting⟩ := ih hus
    obtain ⟨hseen', hstate'⟩ := update_away (o := o.after us) hu
    rw [hsome] at hseen' hstate'
    rw [after_concat, passed_concat]
    refine ⟨hseen', fun hp => ?_, fun hp => ?_⟩
    · by_cases hlate : u.cameraId = cameraId ∧ f + 3 ≤ u.frameSeq
      · exact hstate'.trans (if_pos (by simpa using hlate))
      · exact hstate'.trans ((if_neg (by simpa using hlate)).trans (hpassed (hp.resolve_right hlate)))
    · obtain ⟨hbefore, hlate⟩ := not_or.1 hp
      exact hstate'.trans ((if_neg (by simpa using hlate)).trans (hwaiting hbefore))

end

end OcclusionTracker

/-! ## What the tracker says -/

section
open OcclusionTracker

/-- What the updates `us` say of a track: nothing while it was never there; after the
update `u` that had it last, that a later one is three frames on, or that somebody
overlapped it in `u`. -/
structure Declared (us : List Update) (cameraId : String) (trackId : Int) (occluded : Bool) : Prop where
  unseen : Absent cameraId trackId us → occluded = false
  seen : ∀ pre u post, us = pre ++ u :: post → u.cameraId = cameraId → trackId ∈ ids u → Absent cameraId trackId post →
    (occluded = true ↔ Passed cameraId u.frameSeq post ∨ HasOverlap u trackId)

/-- In the frame just handled, whoever is occluded has an occluded partner. -/
def Partnered (o : OcclusionTracker) (u : Update) : Prop :=
  ∀ pa ∈ u.persons, o.isOccluded u.cameraId pa.trackId = true →
    ∃ pb ∈ u.persons, pb.trackId ≠ pa.trackId ∧ o.isOccluded u.cameraId pb.trackId = true

theorem isOccluded_of_state {o : OcclusionTracker} {cameraId : String} {trackId : Int} {b : Bool}
    (h : o.state cameraId trackId = some b) : o.isOccluded cameraId trackId = b := by
  rw [isOccluded, ← state, h, Option.getD_some]

theorem declared_after (us : List Update) (hn : ∀ u ∈ us, (ids u).Nodup) (cameraId : String) (trackId : Int) :
    Declared us cameraId trackId ((OcclusionTracker.new.after us).isOccluded cameraId trackId) where
  unseen h := by
    have hstate := (state_after_of_unseen (o := .new) h rfl).2
    rw [isOccluded, ← state, hstate]
    rfl
  seen := by
    rintro pre u post rfl hc hk habsent
    have hu : (ids u).Nodup := hn u (by simp)
    have hsplit : OcclusionTracker.new.after (pre ++ u :: post) =
        ((OcclusionTracker.new.after pre).update u).after post := by simp [after]
    obtain ⟨b, hstate, hoverlap⟩ := state_update_of_mem (o := OcclusionTracker.new.after pre) hu hc hk
    have hseen := seenAt_update_of_mem (o := OcclusionTracker.new.after pre) hu hc hk
    obtain ⟨-, hpassed, hwaiting⟩ := state_after_of_away habsent hseen
    rw [hsplit]
    by_cases hp : Passed cameraId u.frameSeq post
    · rw [isOccluded_of_state (hpassed hp)]
      exact iff_of_true rfl (.inl hp)
    · rw [isOccluded_of_state ((hwaiting hp).trans hstate), hoverlap]
      exact ⟨.inr, fun h => h.resolve_left hp⟩

theorem partnered_update (o : OcclusionTracker) {u : Update} (hn : (ids u).Nodup) : Partnered (o.update u) u := by
  have hoccluded {p : PersonDetection} (hp : p ∈ u.persons) :
      (o.update u).isOccluded u.cameraId p.trackId = true ↔ HasOverlap u p.trackId := by
    obtain ⟨b, hstate, hoverlap⟩ := state_update_of_mem (o := o) hn rfl (List.mem_map_of_mem hp)
    rw [isOccluded_of_state hstate, hoverlap]
  intro pa hpa hocc
  obtain ⟨pa', hpa', hid, pb, hpb, hne, hiou⟩ := (hoccluded hpa).1 hocc
  refine ⟨pb, hpb, hne, (hoccluded hpb).2 ⟨pb, hpb, rfl, pa', hpa', ?_, ?_⟩⟩
  · rw [hid]
    exact hne.symm
  · rwa [BBox.iou_comm]

/-- The tracker says what is declared, for any boxes, and an occluded person has an
occluded partner. -/
theorem occlusion_declared (us : List Update) (hn : ∀ u ∈ us, (ids u).Nodup) :
    (∀ cameraId trackId, Declared us cameraId trackId ((OcclusionTracker.new.after us).isOccluded cameraId trackId)) ∧
      (∀ a b : BBox, a.iou b = b.iou a ∧ 0 ≤ a.iou b ∧ a.iou b ≤ 1) ∧
        ∀ pre u post, us = pre ++ u :: post → Partnered (OcclusionTracker.new.after (pre ++ [u])) u := by
  refine ⟨declared_after us hn, fun a b => ⟨a.iou_comm b, a.iou_mem b⟩, ?_⟩
  rintro pre u post rfl
  rw [after_concat]
  exact partnered_update _ (hn u (by simp))

def person (trackId : Int) (x1 : ℚ) : PersonDetection where
  trackId := trackId
  cameraId := "cam"
  bbox := ⟨x1, 100, x1 + 200, 400⟩
  confidence := 0.9
  keypoints := []
  timestamp := 1

/-- Two persons who overlap, then an empty frame. -/
def sideBySide : List Update := [⟨"cam", [person 1 100, person 2 120], 1⟩, ⟨"cam", [], 2⟩]

theorem occlusion_declared_sideBySide :
    Declared sideBySide "cam" 1 ((OcclusionTracker.new.after sideBySide).isOccluded "cam" 1) :=
  (occlusion_declared sideBySide (by decide)).1 "cam" 1

example : (OcclusionTracker.new.after sideBySide).isOccluded "cam" 1 = true := by decide +kernel

end

end Association

end Netra
