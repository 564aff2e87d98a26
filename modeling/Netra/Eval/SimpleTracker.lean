import Netra.Lib.Dict
import Netra.Lib.Machine
import Netra.Lib.Matching
import Netra.Types
import Mathlib.Data.Finset.Lattice.Fold
import Mathlib.Order.Lattice.Nat
import Mathlib.Tactic.NormNum
/-!
# The tracker of the offline evaluation (`_SimpleTracker`)

`scripts/evaluate_video.py` matches the boxes of a frame greedily with those of the
frame before, by their IoU, and stores them in the order of the boxes. What it
returns is the set of the ids, as a list. The caller pairs that with the boxes,
which is right when the set happens to be listed in the order of the boxes
(`labels_right_iff`).
-/
namespace Netra.SimpleTracker

open PyLib Matching Argmax

/-- `x1, y1, x2, y2, conf` -/
structure Box extends BBox where
  conf : ℚ
  deriving DecidableEq, Repr

/-- How Python lists a set of ids: the order they were added in makes no difference. -/
structure SetListing where
  list : Finset Nat → List Nat
  nodup : ∀ s, (list s).Nodup
  mem_iff : ∀ s k, k ∈ list s ↔ k ∈ s

namespace SetListing

/-- The smallest first. -/
def ascending : SetListing where
  list s := (List.range (s.sup id + 1)).filter (· ∈ s)
  nodup s := List.nodup_range.filter _
  mem_iff s tid := by
    have hle (h : tid ∈ s) : tid ≤ s.sup id := Finset.le_sup (f := id) h
    simp only [List.mem_filter, List.mem_range, decide_eq_true_eq]
    exact ⟨fun h => h.2, fun h => ⟨Nat.lt_succ_of_le (hle h), h⟩⟩

/-- The other way round. -/
def reverse (order : SetListing) : SetListing where
  list s := (order.list s).reverse
  nodup s := List.nodup_reverse.2 (order.nodup s)
  mem_iff s id := List.mem_reverse.trans (order.mem_iff s id)

theorem perm (order : SetListing) {ids : List Nat} (h : ids.Nodup) : (order.list ids.toFinset).Perm ids :=
  (List.perm_ext_iff_of_nodup (order.nodup _) h).2 fun id => (order.mem_iff _ id).trans List.mem_toFinset

/-- There is one way to list a set of one id. -/
theorem list_eq (order : SetListing) {ids : List Nat} (h : ids.length ≤ 1) : order.list ids.toFinset = ids := by
  match ids, h with
  | [], _ => exact (order.perm List.nodup_nil).eq_nil
  | [id], _ => exact List.perm_singleton.1 (order.perm (List.nodup_singleton id))

end SetListing

/-- `_tracks` and `_next_id`. -/
structure Tracker where
  tracks : Dict Nat Box := Dict.empty
  nextId : Nat := 1

/-- The variables of the loop over the boxes. -/
structure Loop where
  newTracks : Dict Nat Box := Dict.empty
  assigned : Finset Nat := ∅
  nextId : Nat

/-- One turn of the loop over the tracks: `best_tid` and `best_iou`. -/
def offer (assigned : Finset Nat) (box : Box) (best : Option Nat × ℚ) (e : Nat × Box) : Option Nat × ℚ :=
  let ix1 := max box.x1 e.2.x1
  let iy1 := max box.y1 e.2.y1
  let ix2 := min box.x2 e.2.x2
  let iy2 := min box.y2 e.2.y2
  if ix1 < ix2 ∧ iy1 < iy2 then
    let inter := (ix2 - ix1) * (iy2 - iy1)
    let union := (box.x2 - box.x1) * (box.y2 - box.y1) + (e.2.x2 - e.2.x1) * (e.2.y2 - e.2.y1) - inter
    let iou := if 0 < union then inter / union else 0
    if best.2 < iou ∧ e.1 ∉ assigned then (some e.1, iou) else best
  else best

/-- One turn of the loop over the boxes. -/
def assign (tracks : Dict Nat Box) (l : Loop) (box : Box) : Loop :=
  let best := tracks.items.foldl (offer l.assigned box) (none, 3 / 10)
  let (bestTid, nextId) := match best.1 with
    | some tid => (tid, l.nextId)
    | none => (l.nextId, l.nextId + 1)
  { newTracks := l.newTracks.set bestTid box, assigned := insert bestTid l.assigned, nextId }

def update (order : SetListing) (t : Tracker) (boxes : List Box) : Tracker × List Nat :=
  let l := boxes.foldl (assign t.tracks) { nextId := t.nextId }
  ({ tracks := l.newTracks, nextId := l.nextId }, order.list l.assigned)

/-! ## The matching -/

/-- The IoU of a box with the one a track had. -/
def iou (box prev : Box) : ℚ := box.toBBox.iou prev.toBBox

/-- `ids` are what the boxes take, in the order of the boxes. -/
def Matched (t : Tracker) (boxes : List Box) (ids : List Nat) : Prop :=
  Greedy iou (3 / 10) t.tracks.items t.nextId ∅ boxes ids

/-- The IoU is worked out only where the boxes overlap; where they do not it is too
small anyway. -/
theorem offer_eq (assigned : Finset Nat) (box : Box) {best : Option Nat × ℚ} (h : 0 ≤ best.2) (e : Nat × Box) :
    offer assigned box best e =
      if best.2 < iou box e.2 ∧ e.1 ∉ assigned then (some e.1, iou box e.2) else best := by
  unfold offer iou BBox.iou BBox.width BBox.height
  dsimp only
  by_cases hover : max box.x1 e.2.x1 < min box.x2 e.2.x2 ∧ max box.y1 e.2.y1 < min box.y2 e.2.y2
  · have hnot : ¬ (min box.x2 e.2.x2 ≤ max box.x1 e.2.x1 ∨ min box.y2 e.2.y2 ≤ max box.y1 e.2.y1) := by
      rw [not_or, not_le, not_le]
      exact hover
    rw [if_pos hover, if_neg hnot]
  · have hnot : min box.x2 e.2.x2 ≤ max box.x1 e.2.x1 ∨ min box.y2 e.2.y2 ≤ max box.y1 e.2.y1 := by
      rw [not_and_or, not_lt, not_lt] at hover
      exact hover
    rw [if_neg hover, if_pos hnot, if_neg fun hlt => absurd hlt.1 (not_lt.2 h)]

/-- The loop over the tracks keeps the best of those nobody has taken. -/
theorem foldl_offer (assigned : Finset Nat) (box : Box) (items : List (Nat × Box)) (best : Option (Nat × Box) × ℚ)
    (h : 0 ≤ best.2) :
    items.foldl (offer assigned box) (best.1.map Prod.fst, best.2) =
      let r := keepBest (fun o => o.elim (3 / 10) fun e => iou box e.2) best ((free assigned items).map some)
      (r.1.map Prod.fst, r.2) := by
  induction items generalizing best with
  | nil => rfl
  | cons e es ih =>
    rw [List.foldl_cons, offer_eq assigned box h]
    by_cases hfree : e.1 ∉ assigned
    · have hcons : free assigned (e :: es) = e :: free assigned es := List.filter_cons_of_pos (by simpa using hfree)
      rw [hcons, List.map_cons, keepBest, List.foldl_cons, ← keepBest]
      by_cases hlt : best.2 < iou box e.2
      · rw [if_pos ⟨hlt, hfree⟩, Option.elim_some, if_pos hlt]
        exact ih (some e, iou box e.2) (h.trans hlt.le)
      · rw [if_neg fun hboth => hlt hboth.1, Option.elim_some, if_neg hlt]
        exact ih best h
    · have hcons : free assigned (e :: es) = free assigned es := List.filter_cons_of_neg (by simpa using hfree)
      rw [if_neg fun hboth => hfree hboth.2, hcons]
      exact ih best h

/-- What one turn does: the box is stored under the id it takes. -/
theorem assign_takes (tracks : Dict Nat Box) (l : Loop) (box : Box) :
    ∃ tid nextId, Takes iou (3 / 10) tracks.items l.nextId l.assigned box tid nextId ∧
      assign tracks l box =
        { newTracks := l.newTracks.set tid box, assigned := insert tid l.assigned, nextId } := by
  have hloop := congrArg Prod.fst (foldl_offer l.assigned box tracks.items (none, 3 / 10) (by norm_num))
  dsimp only [Option.map_none] at hloop
  unfold assign
  dsimp only
  rw [hloop]
  rcases keepBest_some_spec (fun e : Nat × Box => iou box e.2) (3 / 10) (free l.assigned tracks.items) with
    ⟨hnone, hle⟩ | ⟨e, hsome, hlt, hfirst⟩
  · rw [hnone]
    exact ⟨_, _, .fresh hle, rfl⟩
  · rw [hsome]
    exact ⟨_, _, .kept e hfirst hlt, rfl⟩

/-- What holds of the loop over the boxes after each turn. -/
structure Loop.Ok (tracks : Dict Nat Box) (l : Loop) : Prop where
  below : Below tracks.items l.nextId l.assigned
  stored : ∀ k, k ∉ l.assigned → l.newTracks.get? k = none

/-- The loop over the boxes stores them one after the other under the ids they take. -/
theorem foldl_assign {tracks : Dict Nat Box} (boxes : List Box) {l : Loop} (hl : l.Ok tracks) :
    ∃ ids, Greedy iou (3 / 10) tracks.items l.nextId l.assigned boxes ids ∧
      (boxes.foldl (assign tracks) l).newTracks.items = l.newTracks.items ++ ids.zip boxes ∧
      (boxes.foldl (assign tracks) l).assigned = l.assigned ∪ ids.toFinset ∧
      (boxes.foldl (assign tracks) l).Ok tracks ∧ l.nextId ≤ (boxes.foldl (assign tracks) l).nextId := by
  induction boxes generalizing l with
  | nil => exact ⟨[], .nil, by simp, by simp, hl, le_rfl⟩
  | cons box boxes ih =>
    obtain ⟨tid, nextId, htakes, hassign⟩ := assign_takes tracks l box
    have hfree := hl.stored tid (htakes.notMem hl.below)
    have hl' : (assign tracks l box).Ok tracks := by
      rw [hassign]
      refine ⟨htakes.below hl.below, fun k hk => ?_⟩
      rw [Finset.mem_insert, not_or] at hk
      exact (Dict.get?_set_ne _ _ hk.1).trans (hl.stored k hk.2)
    obtain ⟨ids, hids, hitems, hassigned, hok, hle⟩ := ih hl'
    rw [hassign] at hids hitems hassigned hle
    refine ⟨tid :: ids, .cons htakes hids, ?_, ?_, hok, ?_⟩
    · rw [List.foldl_cons, hassign, hitems, Dict.items_set_of_fresh _ _ hfree, List.append_assoc,
        List.singleton_append, List.zip_cons_cons]
    · rw [List.foldl_cons, hassign, hassigned, List.toFinset_cons, Finset.insert_union, Finset.union_insert]
    · rw [List.foldl_cons, hassign]
      exact (htakes.lt hl.below).2.trans hle

/-- Fresh ids are greater than those of the tracks. -/
def Tracker.Ok (t : Tracker) : Prop := ∀ e ∈ t.tracks.items, e.1 < t.nextId

theorem Tracker.Ok.below {t : Tracker} (ht : t.Ok) : Below t.tracks.items t.nextId ∅ :=
  ⟨ht, fun k hk => absurd hk (Finset.notMem_empty k)⟩

/-- A call stores the boxes under the ids they take, and lists the set of those. -/
theorem update_spec (order : SetListing) {t : Tracker} (ht : t.Ok) (boxes : List Box) :
    ∃ ids, Matched t boxes ids ∧ (update order t boxes).1.tracks.items = ids.zip boxes ∧
      (update order t boxes).2 = order.list ids.toFinset ∧ t.nextId ≤ (update order t boxes).1.nextId ∧
      ∀ id ∈ ids, id < (update order t boxes).1.nextId := by
  have hstart : Loop.Ok t.tracks { nextId := t.nextId } := ⟨ht.below, fun k _ => Dict.get?_empty k⟩
  obtain ⟨ids, hids, hitems, hassigned, hok, hle⟩ := foldl_assign boxes hstart
  rw [Finset.empty_union] at hassigned
  refine ⟨ids, hids, by rw [update, hitems]; rfl, by rw [update, hassigned], hle, fun id hid => ?_⟩
  exact hok.below.2 id (by rw [hassigned]; exact List.mem_toFinset.2 hid)

/-! ## Which box has which id -/

/-- What a call returns labels the boxes: the `i`-th id is that of the `i`-th track
stored, which has the `i`-th box. `seen` are the ids returned before. -/
structure Labelled (seen : List Nat) (before after : Tracker) (boxes : List Box) (ids : List Nat) : Prop where
  length : ids.length = boxes.length
  stored : after.tracks.items = ids.zip boxes
  nodup : ids.Nodup
  kept : ∀ p ∈ ids.zip boxes, p.1 ∈ seen → ∃ prev, before.tracks.get? p.1 = some prev ∧ 3 / 10 < iou p.2 prev
  fresh : ∀ pre id post, ids = pre ++ id :: post → id ∉ seen → ∀ j ∈ seen ++ pre, j < id

/-- The ids returned by all calls, in their order. -/
def seen (order : SetListing) (calls : List (List Box)) : List Nat := (Mealy.outs (update order) {} calls).flatten

def trackerAfter (order : SetListing) (calls : List (List Box)) : Tracker := Mealy.after (update order) {} calls

/-- Every call labels its boxes. -/
def LabelsRight (order : SetListing) (calls : List (List Box)) : Prop :=
  ∀ pre boxes post, calls = pre ++ boxes :: post →
    Labelled (seen order pre) (trackerAfter order pre) (update order (trackerAfter order pre) boxes).1 boxes
      (update order (trackerAfter order pre) boxes).2

/-- The ids the boxes take come in the order in which the set of them is listed. -/
def Listed (order : SetListing) (t : Tracker) (boxes : List Box) : Prop :=
  ∀ ids, Matched t boxes ids → order.list ids.toFinset = ids

/-- So it is in every call. -/
def InListedOrder (order : SetListing) (calls : List (List Box)) : Prop :=
  Mealy.Always (update order) (Listed order) {} calls

/-- The tracks have ids that were returned, and fresh ids are greater than those. -/
structure Inv (seen : List Nat) (t : Tracker) : Prop where
  returned : ∀ e ∈ t.tracks.items, e.1 ∈ seen
  lt : ∀ id ∈ seen, id < t.nextId

theorem Inv.ok {seen : List Nat} {t : Tracker} (h : Inv seen t) : t.Ok := fun e he => h.lt e.1 (h.returned e he)

theorem Inv.update (order : SetListing) {seen : List Nat} {t : Tracker} (h : Inv seen t) (boxes : List Box) :
    Inv (seen ++ (update order t boxes).2) (update order t boxes).1 := by
  obtain ⟨ids, hids, hitems, hlisted, hle, hlt⟩ := update_spec order h.ok boxes
  have hmem (id : Nat) : id ∈ (SimpleTracker.update order t boxes).2 ↔ id ∈ ids := by
    rw [hlisted, order.mem_iff, List.mem_toFinset]
  refine ⟨fun e he => ?_, fun id hid => ?_⟩
  · rw [hitems] at he
    exact List.mem_append_right _ ((hmem e.1).2 (List.of_mem_zip he).1)
  · rcases List.mem_append.1 hid with hid | hid
    · exact (h.lt id hid).trans_le hle
    · exact hlt id ((hmem id).1 hid)

section
variable (order : SetListing) (calls : List (List Box))

theorem seen_concat (boxes : List Box) :
    seen order (calls ++ [boxes]) = seen order calls ++ (update order (trackerAfter order calls) boxes).2 := by
  simp [seen, trackerAfter, Mealy.outs_append]

theorem trackerAfter_concat (boxes : List Box) :
    trackerAfter order (calls ++ [boxes]) = (update order (trackerAfter order calls) boxes).1 :=
  Mealy.after_concat ..

theorem inv_after : Inv (seen order calls) (trackerAfter order calls) := by
  induction calls using List.reverseRecOn with
  | nil => exact ⟨fun e he => absurd he List.not_mem_nil, fun id hid => absurd hid List.not_mem_nil⟩
  | append_singleton calls boxes ih =>
    rw [seen_concat, trackerAfter_concat]
    exact ih.update order boxes

/-- How sets are listed makes no difference to what is stored. -/
theorem trackerAfter_eq (order' : SetListing) : trackerAfter order calls = trackerAfter order' calls := by
  induction calls using List.reverseRecOn with
  | nil => rfl
  | append_singleton calls boxes ih =>
    rw [trackerAfter_concat, trackerAfter_concat, ih]
    rfl

end

/-- A call labels its boxes when they take their ids in the order in which those are
listed, and only then. -/
theorem labelled_iff (order : SetListing) {seen : List Nat} {t : Tracker} (h : Inv seen t) (boxes : List Box) :
    Labelled seen t (update order t boxes).1 boxes (update order t boxes).2 ↔ Listed order t boxes := by
  obtain ⟨ids, hids, hitems, hlisted, -, -⟩ := update_spec order h.ok boxes
  have hlen := hids.length_eq
  constructor
  · intro hright ids' hids'
    obtain rfl := hids.unique hids'
    -- the keys of what is stored are both
    have hkeys := congrArg (List.map Prod.fst) (hitems.symm.trans hright.stored)
    rw [List.map_fst_zip hlen.le, List.map_fst_zip hright.length.le] at hkeys
    rw [← hlisted, ← hkeys]
  · intro hinOrder
    rw [hlisted, hinOrder ids hids]
    have hbelow := h.ok.below
    refine ⟨hlen, hitems, (hids.nodup hbelow).1, fun p hp hseen => ?_, fun pre id post hsplit hnew j hj => ?_⟩
    · obtain ⟨prev, hprev, hlt⟩ := (hids.kept hbelow p hp).resolve_right (not_le.2 (h.lt p.1 hseen))
      exact ⟨prev, (Dict.get?_eq_some_iff _ _ _).2 hprev, hlt⟩
    · have hfresh : id ∉ t.tracks.items.map Prod.fst := by
        intro hmem
        obtain ⟨e, he, rfl⟩ := List.mem_map.1 hmem
        exact hnew (h.returned e he)
      have hid : id ∈ ids := by simp [hsplit]
      rcases List.mem_append.1 hj with hj | hj
      · exact (h.lt j hj).trans_le ((hids.mem_cases hbelow hid).resolve_left hfresh)
      · have hbefore := hids.fresh_gt hbelow
        rw [hsplit, List.pairwise_append] at hbefore
        exact hbefore.2.2 j hj id List.mem_cons_self hfresh

theorem labelsRight_iff (order : SetListing) (calls : List (List Box)) :
    LabelsRight order calls ↔ InListedOrder order calls := by
  rw [InListedOrder, Mealy.always_iff_forall]
  refine forall_congr' fun pre => forall_congr' fun boxes => forall_congr' fun post => imp_congr_right fun _ => ?_
  exact labelled_iff order (inv_after order pre) boxes

/-- A list without repetitions that reads the same backwards has one element at most. -/
theorem length_le_one_of_reverse {ids : List Nat} (h : ids.Nodup) (hrev : ids.reverse = ids) : ids.length ≤ 1 := by
  by_contra hlong
  have hfirst := List.getElem_reverse (l := ids) (i := 0) (by simp; omega)
  simp only [hrev] at hfirst
  have hindex := (h.getElem_inj_iff).1 hfirst
  omega

/-- Whatever the order of sets, the boxes are labelled right in just the runs in which
no frame has two of them. -/
theorem forall_labelsRight_iff (calls : List (List Box)) :
    (∀ order, LabelsRight order calls) ↔ ∀ boxes ∈ calls, boxes.length ≤ 1 := by
  constructor
  · intro hright boxes hboxes
    obtain ⟨pre, post, rfl⟩ := List.append_of_mem hboxes
    obtain ⟨ids, hids, -⟩ := update_spec .ascending (inv_after .ascending pre).ok boxes
    have hlisted (order : SetListing) : order.list ids.toFinset = ids := by
      refine (labelled_iff order (inv_after order pre) boxes).1 (hright order pre boxes post rfl) ids ?_
      rw [trackerAfter_eq order pre .ascending]
      exact hids
    have hback : ids.reverse = ids := by
      have hreverse : (SetListing.ascending.list ids.toFinset).reverse = ids := hlisted (.reverse .ascending)
      rwa [hlisted .ascending] at hreverse
    rw [← hids.length_eq]
    exact length_le_one_of_reverse (hids.nodup (inv_after _ _).ok.below).1 hback
  · intro hshort order pre boxes post he
    refine (labelled_iff order (inv_after order pre) boxes).2 fun ids hids => order.list_eq ?_
    rw [hids.length_eq]
    exact hshort boxes (by simp [he])

/-- When the ids come in the order in which the set of them is listed, in every call,
and only then, the boxes are labelled right. No order of sets can be relied on. -/
theorem labels_right_iff (calls : List (List Box)) :
    (∀ order, LabelsRight order calls ↔ InListedOrder order calls) ∧
      ((∀ order, LabelsRight order calls) ↔ ∀ boxes ∈ calls, boxes.length ≤ 1) :=
  ⟨fun order => labelsRight_iff order calls, forall_labelsRight_iff calls⟩

/-- Two boxes in one frame and, in the next, the same two the other way round. -/
theorem mislabelled_swapped :
    ¬ LabelsRight .ascending
      [[⟨⟨0, 0, 10, 10⟩, 1⟩, ⟨⟨20, 0, 30, 10⟩, 1⟩], [⟨⟨20, 0, 30, 10⟩, 1⟩, ⟨⟨0, 0, 10, 10⟩, 1⟩]] := by
  intro hright
  exact absurd (hright [_] _ [] rfl).stored (by decide +kernel)

end Netra.SimpleTracker
