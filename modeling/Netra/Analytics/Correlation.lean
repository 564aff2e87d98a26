import Netra.Lib.Greedy
import Netra.Store.Schema
import Mathlib.Data.Finset.Insert
import Mathlib.Data.Finset.Card
import Mathlib.Data.Rat.Floor
import Mathlib.Tactic.Linarith
/-!
# Incident groups (`IncidentCorrelator.groups`)

`backend/services/analytics/correlation.py` groups the recent incidents greedily:
each one that is not taken yet is a seed and takes those of other cameras within
the window. The groups are the greedy clusters of more than one incident, up to
the limit (`groupLoop_eq`).
-/
namespace Netra

open Table Store

namespace Analytics

/-- The columns `groups` selects. -/
structure Row where
  id : String
  cameraId : String
  riskScore : ℚ
  severity : String
  occurredAt : ℚ
  theftStage : String
  concealmentType : String
  deriving DecidableEq, Repr

def rowOf (i : Incident) : Row where
  id := i.id
  cameraId := i.cameraId
  riskScore := i.riskScore
  severity := i.severity
  occurredAt := i.occurredAt
  theftStage := i.theftStage
  concealmentType := i.concealmentType

/-- `WHERE i.status IN ('OPEN','CONFIRMED') ORDER BY i.occurred_at DESC LIMIT $1` -/
def recent (scan : Scan Incident) (limit : Nat) (db : Database) : List Row :=
  ((select scan (fun i => decide (i.status ∈ ["OPEN", "CONFIRMED"])) Incident.occurredAt db.incidents).take
    (limit * 5)).map rowOf

def correlationWindowSec : ℚ := 120

/-- `dt <= _CORRELATION_WINDOW_SEC and other["camera_id"] != inc["camera_id"]` -/
def joins (inc other : Row) : Bool :=
  decide (|inc.occurredAt - other.occurredAt| ≤ correlationWindowSec) && decide (other.cameraId ≠ inc.cameraId)

/-- One turn of the inner loop: `group` and `used`. -/
def offer (inc : Row) (st : List Row × Finset String) (other : Row) : List Row × Finset String :=
  if other.id ∈ st.2 then st
  else if joins inc other then (st.1 ++ [other], insert other.id st.2)
  else st

/-- The outer loop: what is left of it, `used` and `groups`. -/
def groupLoop (limit : Nat) (incidents : List Row) : List Row → Finset String → List (List Row) → List (List Row)
  | [], _, groups => groups
  | inc :: rest, used, groups =>
    if inc.id ∈ used then groupLoop limit incidents rest used groups
    else
      let (group, used) := incidents.foldl (offer inc) ([inc], insert inc.id used)
      let groups := if 1 < group.length then groups ++ [group] else groups
      if limit ≤ groups.length then groups else groupLoop limit incidents rest used groups

structure Group where
  incidents : List Row
  cameraCount : Nat
  deriving DecidableEq, Repr

/-- What `groups(limit)` returns when the query finds `rows`. -/
def groupsOf (limit : Nat) (rows : List Row) : List Group :=
  (groupLoop limit rows rows ∅ []).map fun g => ⟨g, (g.map Row.cameraId).toFinset.card⟩

def groups (scan : Scan Incident) (limit : Nat) (db : Database) : List Group := groupsOf limit (recent scan limit db)

/-! ## The query -/

theorem pairwise_recent (scan : Scan Incident) (limit : Nat) (db : Database) :
    (recent scan limit db).Pairwise fun a b => b.occurredAt ≤ a.occurredAt :=
  List.pairwise_map.2 (pairwise_select.sublist (List.take_sublist _ _))

theorem nodup_recent (scan : Scan Incident) (limit : Nat) (db : Database) :
    ((recent scan limit db).map Row.id).Nodup := by
  have hselected : ((select scan (fun i => decide (i.status ∈ ["OPEN", "CONFIRMED"])) Incident.occurredAt
      db.incidents).map Incident.id).Nodup :=
    (perm_select.map Incident.id).nodup_iff.2 (db.incidents_pk.sublist (List.filter_sublist.map Incident.id))
  rw [recent, List.map_map]
  exact hselected.sublist ((List.take_sublist _ _).map Incident.id)

/-! ## The inner loop -/

/-- What nobody has taken yet. -/
def untaken (used : Finset String) (rows : List Row) : List Row := rows.filter fun x => decide (x.id ∉ used)

theorem untaken_of_mem {used : Finset String} {inc : Row} (h : inc.id ∈ used) (rest : List Row) :
    untaken used (inc :: rest) = untaken used rest := by simp [untaken, h]

theorem untaken_of_notMem {used : Finset String} {inc : Row} (h : inc.id ∉ used) (rest : List Row) :
    untaken used (inc :: rest) = inc :: untaken used rest := by simp [untaken, h]

theorem untaken_append (used : Finset String) (rows rest : List Row) :
    untaken used (rows ++ rest) = untaken used rows ++ untaken used rest := List.filter_append _ _

theorem untaken_eq_nil {used : Finset String} {rows : List Row} (h : ∀ x ∈ rows, x.id ∈ used) :
    untaken used rows = [] := List.filter_eq_nil_iff.2 fun x hx => by simp [h x hx]

theorem untaken_insert {used : Finset String} {inc : Row} {rest : List Row} (h : inc.id ∉ rest.map Row.id) :
    untaken (insert inc.id used) rest = untaken used rest := by
  refine List.filter_congr fun x hx => ?_
  have hne : x.id ≠ inc.id := fun he => h (he ▸ List.mem_map_of_mem hx)
  simp [hne]

/-- What a seed takes. -/
def taken (inc : Row) (used : Finset String) (rows : List Row) : List Row := (untaken used rows).filter (joins inc)

theorem taken_of_mem {inc x : Row} {used : Finset String} (h : x.id ∈ used) (rest : List Row) :
    taken inc used (x :: rest) = taken inc used rest := by rw [taken, untaken_of_mem h, ← taken]

theorem taken_of_notMem {inc x : Row} {used : Finset String} (h : x.id ∉ used) (rest : List Row) :
    taken inc used (x :: rest) = (if joins inc x then [x] else []) ++ taken inc used rest := by
  rw [taken, untaken_of_notMem h, List.filter_cons, ← taken]
  split <;> rfl

theorem taken_insert {inc x : Row} {used : Finset String} {rest : List Row} (h : x.id ∉ rest.map Row.id) :
    taken inc (insert x.id used) rest = taken inc used rest := by rw [taken, untaken_insert h, ← taken]

theorem mem_map_taken {inc x : Row} {rest : List Row} (hnodup : (rest.map Row.id).Nodup) (used : Finset String)
    (hx : x ∈ rest) : x.id ∈ (taken inc used rest).map Row.id ↔ x.id ∉ used ∧ joins inc x = true := by
  rw [List.mem_map]
  constructor
  · rintro ⟨y, hy, he⟩
    obtain ⟨hy, hjoins⟩ := List.mem_filter.1 hy
    obtain ⟨hy, hused⟩ := List.mem_filter.1 hy
    obtain rfl := List.inj_on_of_nodup_map hnodup hy hx he
    exact ⟨of_decide_eq_true hused, hjoins⟩
  · rintro ⟨hused, hjoins⟩
    exact ⟨x, List.mem_filter.2 ⟨List.mem_filter.2 ⟨hx, decide_eq_true hused⟩, hjoins⟩, rfl⟩

/-- After a seed's turn the rest is what it left. -/
theorem untaken_union (inc : Row) {rest : List Row} (hnodup : (rest.map Row.id).Nodup) (used : Finset String) :
    untaken (used ∪ ((taken inc used rest).map Row.id).toFinset) rest =
      Greedy.left joins inc (untaken used rest) := by
  rw [Greedy.left, untaken, untaken, List.filter_filter]
  refine List.filter_congr fun x hx => ?_
  have hiff : x.id ∉ used ∪ ((taken inc used rest).map Row.id).toFinset ↔ x.id ∉ used ∧ ¬ joins inc x = true := by
    rw [Finset.mem_union, List.mem_toFinset, mem_map_taken hnodup used hx]
    tauto
  rw [decide_eq_decide.2 hiff, Bool.decide_and, Bool.and_comm]
  simp

/-- The seed takes those nobody has taken yet that join it. -/
theorem foldl_offer (inc : Row) (incidents group : List Row) (used : Finset String)
    (h : (incidents.map Row.id).Nodup) :
    incidents.foldl (offer inc) (group, used) =
      (group ++ taken inc used incidents, used ∪ ((taken inc used incidents).map Row.id).toFinset) := by
  induction incidents generalizing group used with
  | nil => simp [taken, untaken]
  | cons x incidents ih =>
    rw [List.map_cons, List.nodup_cons] at h
    obtain ⟨hx, h⟩ := h
    rw [List.foldl_cons, offer]
    by_cases hused : x.id ∈ used
    · rw [if_pos hused, ih _ _ h, taken_of_mem hused]
    · rw [if_neg hused, taken_of_notMem hused]
      by_cases hjoins : joins inc x = true
      · rw [if_pos hjoins, if_pos hjoins, ih _ _ h, taken_insert hx]
        simp
      · rw [if_neg hjoins, if_neg hjoins, ih _ _ h, List.nil_append]

/-! ## The outer loop -/

/-- Clusters of one incident are no groups. -/
def isGroup (c : List Row) : Bool := 1 < c.length

theorem filter_isGroup_cons (c : List Row) (cs : List (List Row)) :
    (c :: cs).filter isGroup = (if isGroup c then [c] else []) ++ cs.filter isGroup := by
  rw [List.filter_cons]
  split <;> rfl

theorem append_group (groups : List (List Row)) (group : List Row) :
    (if 1 < group.length then groups ++ [group] else groups) = groups ++ if isGroup group then [group] else [] := by
  by_cases h : 1 < group.length <;> simp [isGroup, h]

/-- The turn of a seed nobody has taken: its group, and what is untaken after it. -/
theorem seed_turn {incidents : List Row} (hnodup : (incidents.map Row.id).Nodup) {done rest : List Row} {inc : Row}
    (hsplit : incidents = (done ++ [inc]) ++ rest) {used : Finset String} (hdone : ∀ x ∈ done, x.id ∈ used) :
    ∃ used' : Finset String,
      incidents.foldl (offer inc) ([inc], insert inc.id used) = (inc :: taken inc used rest, used') ∧
      untaken used' rest = Greedy.left joins inc (untaken used rest) ∧ ∀ x ∈ done ++ [inc], x.id ∈ used' := by
  have hrest : inc.id ∉ rest.map Row.id ∧ (rest.map Row.id).Nodup := by
    rw [hsplit, List.append_assoc, List.map_append, List.singleton_append, List.map_cons] at hnodup
    exact List.nodup_cons.1 hnodup.of_append_right
  have hdone' : ∀ x ∈ done ++ [inc], x.id ∈ insert inc.id used := by
    intro x hx
    rcases List.mem_append.1 hx with hx | hx
    · exact Finset.mem_insert_of_mem (hdone x hx)
    · exact List.mem_singleton.1 hx ▸ Finset.mem_insert_self _ _
  have htaken : taken inc (insert inc.id used) incidents = taken inc used rest := by
    rw [hsplit, taken, untaken_append, untaken_eq_nil hdone', List.nil_append, untaken_insert hrest.1, ← taken]
  have hunion := untaken_union inc hrest.2 (insert inc.id used)
  rw [taken_insert hrest.1, untaken_insert hrest.1] at hunion
  refine ⟨_, ?_, hunion, fun x hx => Finset.mem_union_left _ (hdone' x hx)⟩
  rw [foldl_offer inc incidents _ _ hnodup, htaken, List.singleton_append]

/-- The loop appends the clusters of what is untaken, up to the limit. -/
theorem groupLoop_eq {limit : Nat} {incidents : List Row} (hnodup : (incidents.map Row.id).Nodup) {done rest : List Row}
    (hsplit : incidents = done ++ rest) {used : Finset String} (hdone : ∀ x ∈ done, x.id ∈ used)
    {groups : List (List Row)} (hlimit : groups.length < limit) :
    groupLoop limit incidents rest used groups =
      (groups ++ (Greedy.clusters joins (untaken used rest)).filter isGroup).take limit := by
  induction rest generalizing done used groups with
  | nil =>
    have hnil : untaken used [] = [] := rfl
    rw [groupLoop, hnil, Greedy.clusters_nil, List.filter_nil, List.append_nil, List.take_of_length_le hlimit.le]
  | cons inc rest ih =>
    have hsplit' : incidents = (done ++ [inc]) ++ rest := by rw [hsplit, List.append_assoc, List.singleton_append]
    by_cases hused : inc.id ∈ used
    · rw [groupLoop, if_pos hused, untaken_of_mem hused]
      refine ih hsplit' (fun x hx => ?_) hlimit
      rcases List.mem_append.1 hx with hx | hx
      · exact hdone x hx
      · exact List.mem_singleton.1 hx ▸ hused
    · obtain ⟨used', hturn, hleft, hused'⟩ := seed_turn hnodup hsplit' hdone
      rw [groupLoop, if_neg hused, hturn, untaken_of_notMem hused, Greedy.clusters_cons, ← taken, ← hleft,
        filter_isGroup_cons, ← List.append_assoc]
      dsimp only
      generalize inc :: taken inc used rest = group
      rw [append_group]
      by_cases hfull : limit ≤ (groups ++ if isGroup group then [group] else []).length
      · -- the loop breaks: there is no room for another group
        have hlength : (groups ++ if isGroup group then [group] else []).length = limit := by
          refine le_antisymm ?_ hfull
          rw [List.length_append]
          split <;> simp <;> omega
        rw [if_pos hfull, List.take_left' hlength]
      · rw [if_neg hfull]
        exact ih hsplit' hused' (not_le.1 hfull)

/-! ## The groups -/

section
variable {limit : Nat} {rows : List Row}

/-- The clusters of more than one incident, up to the limit. -/
theorem groupLoop_clusters (hnodup : (rows.map Row.id).Nodup) (hlimit : 1 ≤ limit) :
    groupLoop limit rows rows ∅ [] = ((Greedy.clusters joins rows).filter isGroup).take limit := by
  have huntaken : untaken ∅ rows = rows := by simp [untaken]
  have hsplit : rows = [] ++ rows := rfl
  rw [groupLoop_eq hnodup hsplit (by simp) (Nat.lt_of_lt_of_le Nat.one_pos hlimit), huntaken, List.nil_append]

theorem incidents_groupsOf (hnodup : (rows.map Row.id).Nodup) (hlimit : 1 ≤ limit) :
    (groupsOf limit rows).map Group.incidents = ((Greedy.clusters joins rows).filter isGroup).take limit := by
  rw [groupsOf, List.map_map, groupLoop_clusters hnodup hlimit]
  exact List.map_id _

theorem incidents_mem (hnodup : (rows.map Row.id).Nodup) (hlimit : 1 ≤ limit) {g : Group}
    (hg : g ∈ groupsOf limit rows) :
    g.incidents ∈ Greedy.clusters joins rows ∧ 1 < g.incidents.length ∧
      g.cameraCount = (g.incidents.map Row.cameraId).toFinset.card := by
  obtain ⟨c, hc, rfl⟩ := List.mem_map.1 hg
  rw [groupLoop_clusters hnodup hlimit] at hc
  obtain ⟨hc, hgroup⟩ := List.mem_filter.1 (List.mem_of_mem_take hc)
  exact ⟨hc, of_decide_eq_true hgroup, rfl⟩

theorem joins_iff {x y : Row} :
    joins x y = true ↔ |x.occurredAt - y.occurredAt| ≤ correlationWindowSec ∧ y.cameraId ≠ x.cameraId := by
  simp [joins]

/-- The seed and what it took lie in one window that ends with the seed. -/
theorem near_of_mem_clusters (hsorted : rows.Pairwise fun a b => b.occurredAt ≤ a.occurredAt) {c : List Row}
    (hc : c ∈ Greedy.clusters joins rows) {x y : Row} (hx : x ∈ c) (hy : y ∈ c) :
    |x.occurredAt - y.occurredAt| ≤ correlationWindowSec := by
  obtain ⟨seed, tl, rfl, htl⟩ := Greedy.exists_seed hc
  have hsorted := hsorted.sublist (Greedy.sublist_of_mem_clusters hc)
  have hwindow : ∀ z ∈ seed :: tl,
      seed.occurredAt - correlationWindowSec ≤ z.occurredAt ∧ z.occurredAt ≤ seed.occurredAt := by
    intro z hz
    rcases List.mem_cons.1 hz with rfl | hz
    · exact ⟨sub_le_self _ (by norm_num [correlationWindowSec]), le_rfl⟩
    · have hnear := (abs_le.1 (joins_iff.1 (htl z hz)).1).2
      exact ⟨by linarith, List.rel_of_pairwise_cons hsorted hz⟩
  obtain ⟨hxl, hxr⟩ := hwindow x hx
  obtain ⟨hyl, hyr⟩ := hwindow y hy
  rw [abs_le]
  constructor <;> linarith

/-- A seed that took something took it from another camera. -/
theorem two_le_cameras {c : List Row} (hc : c ∈ Greedy.clusters joins rows) (hlength : 1 < c.length) :
    2 ≤ (c.map Row.cameraId).toFinset.card := by
  obtain ⟨seed, tl, rfl, htl⟩ := Greedy.exists_seed hc
  cases tl with
  | nil => simp at hlength
  | cons x tl =>
    have hne := (joins_iff.1 (htl x List.mem_cons_self)).2
    have hpair : {seed.cameraId, x.cameraId} ⊆ ((seed :: x :: tl).map Row.cameraId).toFinset := by
      intro k hk
      rcases Finset.mem_insert.1 hk with rfl | hk
      · simp
      · simp [Finset.mem_singleton.1 hk]
    calc 2 = ({seed.cameraId, x.cameraId} : Finset String).card := (Finset.card_pair hne.symm).symm
      _ ≤ _ := Finset.card_le_card hpair

/-- What no group has is a cluster of its own, unless the limit was reached. -/
theorem alone_of_ungrouped (hnodup : (rows.map Row.id).Nodup) (hlimit : 1 ≤ limit)
    (hroom : (groupsOf limit rows).length < limit) {x : Row} (hx : x ∈ rows)
    (hno : ∀ g ∈ groupsOf limit rows, x ∉ g.incidents) : [x] ∈ Greedy.clusters joins rows := by
  have hincidents := incidents_groupsOf hnodup hlimit
  rw [← List.length_map Group.incidents, hincidents, List.length_take] at hroom
  rw [List.take_of_length_le (by omega)] at hincidents
  obtain ⟨c, hc, hxc⟩ : ∃ c ∈ Greedy.clusters joins rows, x ∈ c := Greedy.exists_mem_clusters hx
  by_cases hgroup : isGroup c = true
  · -- the cluster would be a group with `x` in it
    have hmem : c ∈ (groupsOf limit rows).map Group.incidents := hincidents ▸ List.mem_filter.2 ⟨hc, hgroup⟩
    obtain ⟨g, hg, rfl⟩ := List.mem_map.1 hmem
    exact absurd hxc (hno g hg)
  · obtain ⟨seed, tl, rfl, -⟩ := Greedy.exists_seed hc
    cases tl with
    | nil => exact List.mem_singleton.1 hxc ▸ hc
    | cons y tl => simp [isGroup] at hgroup

/-- Groups are disjoint, of two cameras or more and within the window, and there are
no more than the limit; below it, what they leave of different cameras is further
apart than the window. -/
structure SoundMaximal (limit : Nat) (rows : List Row) (groups : List Group) : Prop where
  disjoint : groups.Pairwise fun g h => ∀ x ∈ g.incidents, ∀ y ∈ h.incidents, x.id ≠ y.id
  sublist : ∀ g ∈ groups, g.incidents.Sublist rows
  cameras : ∀ g ∈ groups, 2 ≤ g.cameraCount ∧ ∃ x ∈ g.incidents, ∃ y ∈ g.incidents, x.cameraId ≠ y.cameraId
  near : ∀ g ∈ groups, ∀ x ∈ g.incidents, ∀ y ∈ g.incidents, |x.occurredAt - y.occurredAt| ≤ 120
  limited : groups.length ≤ limit
  maximal : groups.length < limit → ∀ x ∈ rows, ∀ y ∈ rows, (∀ g ∈ groups, x ∉ g.incidents ∧ y ∉ g.incidents) →
    x.cameraId ≠ y.cameraId → 120 < |x.occurredAt - y.occurredAt|

theorem soundMaximal_groupsOf (hlimit : 1 ≤ limit) (hnodup : (rows.map Row.id).Nodup)
    (hsorted : rows.Pairwise fun a b => b.occurredAt ≤ a.occurredAt) :
    SoundMaximal limit rows (groupsOf limit rows) where
  disjoint := by
    rw [← List.pairwise_map (f := Group.incidents) (R := fun c d : List Row => ∀ x ∈ c, ∀ y ∈ d, x.id ≠ y.id),
      incidents_groupsOf hnodup hlimit]
    exact (Greedy.disjoint_clusters Row.id hnodup).sublist ((List.take_sublist _ _).trans List.filter_sublist)
  sublist g hg := Greedy.sublist_of_mem_clusters (incidents_mem hnodup hlimit hg).1
  cameras g hg := by
    obtain ⟨hc, hlength, hcount⟩ := incidents_mem hnodup hlimit hg
    have htwo := two_le_cameras hc hlength
    obtain ⟨k, hk, k', hk', hne⟩ := Finset.one_lt_card.1 htwo
    rw [List.mem_toFinset, List.mem_map] at hk hk'
    obtain ⟨x, hx, rfl⟩ := hk
    obtain ⟨y, hy, rfl⟩ := hk'
    exact ⟨hcount ▸ htwo, x, hx, y, hy, hne⟩
  near g hg x hx y hy := near_of_mem_clusters hsorted (incidents_mem hnodup hlimit hg).1 hx hy
  limited := by
    rw [← List.length_map Group.incidents, incidents_groupsOf hnodup hlimit]
    exact List.length_take_le _ _
  maximal hroom x hx y hy hno hcamera := by
    have hx := alone_of_ungrouped hnodup hlimit hroom hx fun g hg => (hno g hg).1
    have hy := alone_of_ungrouped hnodup hlimit hroom hy fun g hg => (hno g hg).2
    have hne : x ≠ y := fun he => hcamera (he ▸ rfl)
    by_contra hnear
    -- within the window each would have taken the other
    rcases Greedy.not_joins_of_alone hx hy hne with h | h
    · exact absurd (joins_iff.2 ⟨not_lt.1 hnear, hcamera.symm⟩) (by simp [h])
    · exact absurd (joins_iff.2 ⟨abs_sub_comm y.occurredAt x.occurredAt ▸ not_lt.1 hnear, hcamera⟩) (by simp [h])

end

/-- What `groups(limit)` returns from a database. -/
theorem soundMaximal_groups (scan : Scan Incident) {limit : Nat} (hlimit : 1 ≤ limit) (db : Database) :
    SoundMaximal limit (recent scan limit db) (groups scan limit db) :=
  soundMaximal_groupsOf hlimit (nodup_recent scan limit db) (pairwise_recent scan limit db)

/-- The groups of any list of incidents with ids of their own, latest first. -/
theorem sound_maximal (limit : Nat) (rows : List Row) (hlimit : 1 ≤ limit) (hnodup : (rows.map Row.id).Nodup)
    (hsorted : rows.Pairwise fun a b => b.occurredAt ≤ a.occurredAt) :
    SoundMaximal limit rows (groupsOf limit rows) :=
  soundMaximal_groupsOf hlimit hnodup hsorted

def seen (id cameraId : String) (occurredAt : ℚ) : Row :=
  ⟨id, cameraId, 0.8, "HIGH", occurredAt, "CONCEALMENT", "SHIRT"⟩

/-- Two cameras see one theft; a third incident is five minutes older. -/
theorem sound_maximal_one_theft :
    SoundMaximal 20 [seen "inc_3" "cam_2" 460, seen "inc_2" "cam_1" 400, seen "inc_1" "cam_2" 100]
      (groupsOf 20 [seen "inc_3" "cam_2" 460, seen "inc_2" "cam_1" 400, seen "inc_1" "cam_2" 100]) :=
  sound_maximal 20 _ (by decide) (by decide) (by decide +kernel)

end Analytics

end Netra
