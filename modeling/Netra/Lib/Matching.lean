import Netra.Lib.Argmax
import Mathlib.Data.Finset.Insert
/-!
# Greedy matching with fresh ids

Tracks have ids. One after the other, items take the first best of the tracks
nobody has taken, when it scores more than `least`, and a fresh id otherwise.
-/
namespace Matching

open Argmax

variable {α β γ : Type} [LinearOrder γ]

/-- The tracks nobody has taken. -/
def free (taken : Finset Nat) (tracks : List (Nat × α)) : List (Nat × α) := tracks.filter fun e => e.1 ∉ taken

section
variable (score : β → α → γ) (least : γ) (tracks : List (Nat × α))

/-- What `b` takes: its id, and the next fresh one after that. -/
inductive Takes (next : Nat) (taken : Finset Nat) (b : β) : Nat → Nat → Prop where
  | kept (e : Nat × α) (hfirst : FirstMax (fun e => score b e.2) (free taken tracks) e)
      (habove : least < score b e.2) : Takes next taken b e.1 next
  | fresh (hnone : ∀ e ∈ free taken tracks, score b e.2 ≤ least) : Takes next taken b next (next + 1)

/-- The ids the items take, in their order. -/
inductive Greedy : Nat → Finset Nat → List β → List Nat → Prop where
  | nil {next : Nat} {taken : Finset Nat} : Greedy next taken [] []
  | cons {next next' id : Nat} {taken : Finset Nat} {b : β} {bs : List β} {ids : List Nat}
      (h : Takes score least tracks next taken b id next') (hrest : Greedy next' (insert id taken) bs ids) :
      Greedy next taken (b :: bs) (id :: ids)

/-- No id from `next` on is in use. -/
def Below (next : Nat) (taken : Finset Nat) : Prop := (∀ e ∈ tracks, e.1 < next) ∧ ∀ k ∈ taken, k < next

end

variable {score : β → α → γ} {least : γ} {tracks : List (Nat × α)} {next next' id : Nat} {taken : Finset Nat} {b : β}
  {bs : List β} {ids : List Nat}

/-! ## One item -/

theorem Takes.unique (h : Takes score least tracks next taken b id next') {id' m : Nat}
    (h' : Takes score least tracks next taken b id' m) : id = id' ∧ next' = m := by
  cases h with
  | kept e hfirst habove =>
    cases h' with
    | kept e' hfirst' habove' => exact ⟨congrArg Prod.fst (hfirst.unique hfirst'), rfl⟩
    | fresh hnone => exact absurd (hnone e hfirst.mem) (not_le.2 habove)
  | fresh hnone =>
    cases h' with
    | kept e hfirst habove => exact absurd (hnone e hfirst.mem) (not_le.2 habove)
    | fresh => exact ⟨rfl, rfl⟩

theorem Takes.notMem (h : Takes score least tracks next taken b id next') (hb : Below tracks next taken) :
    id ∉ taken := by
  cases h with
  | kept e hfirst habove => simpa using (List.mem_filter.1 hfirst.mem).2
  | fresh => exact fun hmem => lt_irrefl _ (hb.2 next hmem)

theorem Takes.lt (h : Takes score least tracks next taken b id next') (hb : Below tracks next taken) :
    id < next' ∧ next ≤ next' := by
  cases h with
  | kept e hfirst habove => exact ⟨hb.1 e (List.mem_filter.1 hfirst.mem).1, le_rfl⟩
  | fresh => exact ⟨Nat.lt_succ_self next, Nat.le_succ next⟩

theorem Takes.below (h : Takes score least tracks next taken b id next') (hb : Below tracks next taken) :
    Below tracks next' (insert id taken) := by
  obtain ⟨hid, hle⟩ := h.lt hb
  refine ⟨fun e he => (hb.1 e he).trans_le hle, fun k hk => ?_⟩
  rcases Finset.mem_insert.1 hk with rfl | hk
  · exact hid
  · exact (hb.2 k hk).trans_le hle

/-- It takes a track it scores enough with, or what no track has. -/
theorem Takes.cases_on (h : Takes score least tracks next taken b id next') :
    (∃ x, (id, x) ∈ tracks ∧ least < score b x) ∨ id = next := by
  cases h with
  | kept e hfirst habove => exact .inl ⟨e.2, (List.mem_filter.1 hfirst.mem).1, habove⟩
  | fresh => exact .inr rfl

/-! ## All of them -/

namespace Greedy

theorem unique (h : Greedy score least tracks next taken bs ids) {ids' : List Nat}
    (h' : Greedy score least tracks next taken bs ids') : ids = ids' := by
  induction h generalizing ids' with
  | nil =>
    cases h'
    rfl
  | cons h hrest ih =>
    cases h' with
    | cons h' hrest' =>
      obtain ⟨rfl, rfl⟩ := h.unique h'
      rw [ih hrest']

theorem length_eq (h : Greedy score least tracks next taken bs ids) : ids.length = bs.length := by
  induction h with
  | nil => rfl
  | cons h hrest ih => rw [List.length_cons, List.length_cons, ih]

theorem nodup (h : Greedy score least tracks next taken bs ids) (hb : Below tracks next taken) :
    ids.Nodup ∧ ∀ id ∈ ids, id ∉ taken := by
  induction h with
  | nil => exact ⟨List.nodup_nil, fun id hid => by cases hid⟩
  | cons h hrest ih =>
    obtain ⟨hnodup, hnew⟩ := ih (h.below hb)
    refine ⟨List.nodup_cons.2 ⟨fun hid => hnew _ hid (Finset.mem_insert_self _ _), hnodup⟩, fun j hj => ?_⟩
    rcases List.mem_cons.1 hj with rfl | hj
    · exact h.notMem hb
    · exact fun hmem => hnew j hj (Finset.mem_insert_of_mem hmem)

/-- Whoever has the id of a track scores enough with it. -/
theorem kept (h : Greedy score least tracks next taken bs ids) (hb : Below tracks next taken) :
    ∀ p ∈ ids.zip bs, (∃ x, (p.1, x) ∈ tracks ∧ least < score p.2 x) ∨ next ≤ p.1 := by
  induction h with
  | nil => exact fun p hp => by cases hp
  | cons h hrest ih =>
    intro p hp
    rw [List.zip_cons_cons] at hp
    rcases List.mem_cons.1 hp with rfl | hp
    · exact h.cases_on.imp_right fun heq => heq.ge
    · exact (ih (h.below hb) p hp).imp_right (h.lt hb).2.trans

theorem mem_cases (h : Greedy score least tracks next taken bs ids) (hb : Below tracks next taken) (hid : id ∈ ids) :
    id ∈ tracks.map Prod.fst ∨ next ≤ id := by
  have hfst : (ids.zip bs).map Prod.fst = ids := List.map_fst_zip h.length_eq.le
  rw [← hfst] at hid
  obtain ⟨p, hp, rfl⟩ := List.mem_map.1 hid
  exact (h.kept hb p hp).imp_left fun ⟨x, hx, _⟩ => List.mem_map_of_mem (f := Prod.fst) hx

/-- A fresh id is greater than those taken before it. -/
theorem fresh_gt (h : Greedy score least tracks next taken bs ids) (hb : Below tracks next taken) :
    ids.Pairwise fun j id => id ∉ tracks.map Prod.fst → j < id := by
  induction h with
  | nil => exact .nil
  | cons h hrest ih =>
    refine List.pairwise_cons.2 ⟨fun j hj hfresh => ?_, ih (h.below hb)⟩
    have hnext := (hrest.mem_cases (h.below hb) hj).resolve_left hfresh
    exact (h.lt hb).1.trans_le hnext

end Greedy

end Matching
