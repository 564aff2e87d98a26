import Mathlib.Data.List.Nodup
import Mathlib.Data.List.Pairwise
import Mathlib.Data.List.Perm.Basic
/-!
# Greedy clusters

The first item is the seed of a cluster and takes those of the others that join
it; what it leaves is clustered in the same way. Every item is in one cluster
(`perm_flatten_clusters`), a cluster is its seed and what joins it
(`exists_seed`), and no seed has left to a later cluster what joins it
(`pairwise_clusters`).
-/
namespace Greedy

variable {α : Type} (joins : α → α → Bool)

/-- What a seed leaves. -/
def left (x : α) (xs : List α) : List α := xs.filter fun y => !joins x y

def clusters : List α → List (List α)
  | [] => []
  | x :: xs => (x :: xs.filter (joins x)) :: clusters (left joins x xs)
  termination_by xs => xs.length
  decreasing_by exact Nat.lt_succ_of_le (List.length_filter_le _ _)

@[simp] theorem clusters_nil : clusters joins [] = [] := by rw [clusters]

theorem clusters_cons (x : α) (xs : List α) :
    clusters joins (x :: xs) = (x :: xs.filter (joins x)) :: clusters joins (left joins x xs) := by
  rw [clusters]

theorem perm_flatten_clusters (xs : List α) : (clusters joins xs).flatten.Perm xs := by
  induction xs using clusters.induct joins with
  | case1 => simp
  | case2 x xs ih =>
    rw [clusters_cons, List.flatten_cons, List.cons_append]
    exact ((ih.append_left _).trans (List.filter_append_perm (joins x) xs)).cons x

variable {joins} {xs c : List α}

/-- A cluster keeps the order of the items. -/
theorem sublist_of_mem_clusters (h : c ∈ clusters joins xs) : c.Sublist xs := by
  induction xs using clusters.induct joins with
  | case1 => simp at h
  | case2 x xs ih =>
    rw [clusters_cons] at h
    rcases List.mem_cons.1 h with rfl | h
    · exact List.filter_sublist.cons_cons x
    · exact ((ih h).trans (List.filter_sublist (l := xs))).cons x

theorem exists_seed (h : c ∈ clusters joins xs) : ∃ x tl, c = x :: tl ∧ ∀ y ∈ tl, joins x y = true := by
  induction xs using clusters.induct joins with
  | case1 => simp at h
  | case2 x xs ih =>
    rw [clusters_cons] at h
    rcases List.mem_cons.1 h with rfl | h
    · exact ⟨x, _, rfl, fun y hy => (List.mem_filter.1 hy).2⟩
    · exact ih h

theorem exists_mem_clusters {x : α} (h : x ∈ xs) : ∃ c ∈ clusters joins xs, x ∈ c :=
  List.mem_flatten.1 ((perm_flatten_clusters joins xs).mem_iff.2 h)

variable (joins) in
/-- The seed of `c` would have taken nothing of `d`. -/
def Refuses (c d : List α) : Prop := ∀ x tl, c = x :: tl → ∀ y ∈ d, joins x y = false

theorem pairwise_clusters (xs : List α) : (clusters joins xs).Pairwise (Refuses joins) := by
  induction xs using clusters.induct joins with
  | case1 => simp
  | case2 x xs ih =>
    rw [clusters_cons]
    refine List.pairwise_cons.2 ⟨fun d hd x' tl he y hy => ?_, ih⟩
    obtain ⟨rfl, -⟩ := List.cons.inj he
    -- `y` is one of those the seed `x` left
    have hleft := (List.mem_filter.1 ((sublist_of_mem_clusters hd).subset hy)).2
    simpa using hleft

/-- Of two items on their own, one could not join the other. -/
theorem not_joins_of_alone {x y : α} (hx : [x] ∈ clusters joins xs) (hy : [y] ∈ clusters joins xs) (hne : x ≠ y) :
    joins x y = false ∨ joins y x = false := by
  have hor : (clusters joins xs).Pairwise fun c d => Refuses joins c d ∨ Refuses joins d c :=
    (pairwise_clusters xs).imp .inl
  have : Std.Symm fun c d => Refuses joins c d ∨ Refuses joins d c := ⟨fun _ _ => Or.symm⟩
  rcases hor.forall hx hy (by simpa using hne) with h | h
  · exact .inl (h x [] rfl y (List.mem_singleton_self y))
  · exact .inr (h y [] rfl x (List.mem_singleton_self x))

/-- No key is in two clusters. -/
theorem disjoint_clusters {κ : Type} (key : α → κ) (h : (xs.map key).Nodup) :
    (clusters joins xs).Pairwise fun c d => ∀ x ∈ c, ∀ y ∈ d, key x ≠ key y := by
  have hflat : ((clusters joins xs).map (List.map key)).flatten.Nodup := by
    rw [← List.map_flatten]
    exact ((perm_flatten_clusters joins xs).map key).nodup_iff.2 h
  refine (List.pairwise_map.1 (List.nodup_flatten.1 hflat).2).imp fun {c d} hdisjoint x hx y hy he => ?_
  exact hdisjoint (List.mem_map_of_mem hx) (he ▸ List.mem_map_of_mem hy)

end Greedy
