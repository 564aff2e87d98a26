import Mathlib.Data.List.Nodup
import Mathlib.Order.Basic
/-!
# Gather and scatter

A batch is the elements of a list that `f` picks, with their places; the answers to
the batch are written back at these places. Each element picked gets the answer to its
own entry (`getElem?_scatter_of_some`), and the others stay as they are
(`getElem?_scatter_of_none`).
-/
namespace Batch

variable {α β γ : Type}

/-- What `f` picks, from place `n` on. -/
def gatherFrom (f : α → Option β) (n : Nat) : List α → List (Nat × β)
  | [] => []
  | a :: l => ((f a).map (n, ·)).toList ++ gatherFrom f (n + 1) l

def gather (f : α → Option β) (l : List α) : List (Nat × β) := gatherFrom f 0 l

def scatter (write : α → γ → α) (l : List α) (answers : List (Nat × γ)) : List α :=
  answers.foldl (fun l (i, c) => l.modify i (write · c)) l

/-- How many of the elements before place `k` are picked. -/
def rank (f : α → Option β) (l : List α) (k : Nat) : Nat := (l.take k).countP fun a => (f a).isSome

variable {f : α → Option β} {write : α → γ → α} {l : List α}

theorem le_of_mem_gatherFrom {n : Nat} {p : Nat × β} (hp : p ∈ gatherFrom f n l) : n ≤ p.1 := by
  induction l generalizing n with
  | nil => cases hp
  | cons a l ih =>
    rw [gatherFrom, List.mem_append, Option.mem_toList] at hp
    rcases hp with hp | hp
    · obtain ⟨b, -, rfl⟩ := Option.map_eq_some_iff.1 hp
      exact Nat.le_refl n
    · exact Nat.le_of_succ_le (ih hp)

theorem of_mem_gatherFrom {n i : Nat} {b : β} (hp : (i, b) ∈ gatherFrom f n l) :
    ∃ a, l[i - n]? = some a ∧ f a = some b := by
  induction l generalizing n with
  | nil => cases hp
  | cons a l ih =>
    rw [gatherFrom, List.mem_append, Option.mem_toList] at hp
    rcases hp with hp | hp
    · obtain ⟨c, hc, he⟩ := Option.map_eq_some_iff.1 hp
      obtain ⟨rfl, rfl⟩ := Prod.mk.inj he
      exact ⟨a, by rw [Nat.sub_self]; rfl, hc⟩
    · have hle := le_of_mem_gatherFrom hp
      obtain ⟨a', ha', hb⟩ := ih hp
      have hpos : i - n = (i - (n + 1)) + 1 := by omega
      exact ⟨a', by rw [hpos]; exact ha', hb⟩

/-- Each place is gathered at most once. -/
theorem nodup_gatherFrom (f : α → Option β) (n : Nat) (l : List α) : ((gatherFrom f n l).map Prod.fst).Nodup := by
  induction l generalizing n with
  | nil => exact List.nodup_nil
  | cons a l ih =>
    rw [gatherFrom, List.map_append]
    cases f a with
    | none => exact ih (n + 1)
    | some b =>
      refine List.nodup_cons.2 ⟨fun hmem => ?_, ih (n + 1)⟩
      obtain ⟨p, hp, rfl⟩ := List.mem_map.1 hmem
      exact absurd (le_of_mem_gatherFrom hp) (Nat.not_succ_le_self _)

/-- An element picked stands in the batch behind those picked before it. -/
theorem getElem?_gatherFrom {n k : Nat} {a : α} {b : β} (hk : l[k]? = some a) (hb : f a = some b) :
    (gatherFrom f n l)[rank f l k]? = some (n + k, b) := by
  induction l generalizing n k with
  | nil => cases hk
  | cons x l ih =>
    rw [gatherFrom]
    cases k with
    | zero =>
      obtain rfl := Option.some.inj hk
      simp [rank, hb]
    | succ k =>
      have hrest := ih (n := n + 1) (k := k) hk
      have hplace : n + 1 + k = n + (k + 1) := by omega
      rw [hplace] at hrest
      cases hx : f x with
      | none => simpa [rank, hx] using hrest
      | some c => simpa [rank, hx] using hrest

theorem getElem?_gather {k : Nat} {a : α} {b : β} (hk : l[k]? = some a) (hb : f a = some b) :
    (gather f l)[rank f l k]? = some (k, b) := by
  rw [gather, getElem?_gatherFrom hk hb, Nat.zero_add]

theorem getElem?_places {k : Nat} {a : α} {b : β} (hk : l[k]? = some a) (hb : f a = some b) :
    ((gather f l).map Prod.fst)[rank f l k]? = some k := by
  rw [List.getElem?_map, getElem?_gather hk hb]
  rfl

theorem length_scatter (write : α → γ → α) (l : List α) (answers : List (Nat × γ)) :
    (scatter write l answers).length = l.length := by
  induction answers generalizing l with
  | nil => rfl
  | cons p answers ih =>
    rw [scatter, List.foldl_cons, ← scatter, ih, List.length_modify]

/-- A place that no answer is for keeps its element. -/
theorem getElem?_scatter_of_notMem {answers : List (Nat × γ)} {k : Nat} (hk : k ∉ answers.map Prod.fst) (l : List α) :
    (scatter write l answers)[k]? = l[k]? := by
  induction answers generalizing l with
  | nil => rfl
  | cons p answers ih =>
    rw [List.map_cons, List.mem_cons, not_or] at hk
    rw [scatter, List.foldl_cons, ← scatter, ih hk.2, List.getElem?_modify_ne _ _ (Ne.symm hk.1)]

theorem getElem?_scatter_of_mem {answers : List (Nat × γ)} (hnodup : (answers.map Prod.fst).Nodup) {k : Nat} {c : γ}
    (hc : (k, c) ∈ answers) (l : List α) : (scatter write l answers)[k]? = l[k]?.map (write · c) := by
  induction answers generalizing l with
  | nil => cases hc
  | cons p answers ih =>
    rw [List.map_cons, List.nodup_cons] at hnodup
    rw [scatter, List.foldl_cons, ← scatter]
    rcases List.mem_cons.1 hc with rfl | hc
    · rw [getElem?_scatter_of_notMem hnodup.1]
      exact List.getElem?_modify_eq ..
    · rw [ih hnodup.2 hc, List.getElem?_modify_ne]
      intro he
      exact hnodup.1 (he ▸ List.mem_map_of_mem (f := Prod.fst) hc)

theorem map_fst_zip_sublist (is : List Nat) (answers : List γ) :
    ((is.zip answers).map Prod.fst).Sublist is := by
  induction is generalizing answers with
  | nil => exact .slnil
  | cons i is ih =>
    cases answers with
    | nil => exact List.nil_sublist _
    | cons c answers => exact (ih answers).cons_cons i

/-- An element that is not picked stays as it is. -/
theorem getElem?_scatter_of_none (answers : List γ) {k : Nat} {a : α} (hk : l[k]? = some a) (hf : f a = none) :
    (scatter write l (((gather f l).map Prod.fst).zip answers))[k]? = some a := by
  rw [getElem?_scatter_of_notMem, hk]
  intro hmem
  obtain ⟨⟨i, b⟩, hp, rfl⟩ := List.mem_map.1 ((map_fst_zip_sublist _ _).subset hmem)
  obtain ⟨a', ha', hb⟩ := of_mem_gatherFrom hp
  rw [Nat.sub_zero, hk] at ha'
  obtain rfl := Option.some.inj ha'
  cases hf.symm.trans hb

/-- An element without an answer stays as it is. -/
theorem getElem?_scatter_of_unanswered {answers : List γ} {k : Nat} {a : α} {b : β} (hk : l[k]? = some a)
    (hf : f a = some b) (hc : answers[rank f l k]? = none) :
    (scatter write l (((gather f l).map Prod.fst).zip answers))[k]? = some a := by
  rw [getElem?_scatter_of_notMem, hk]
  intro hmem
  obtain ⟨⟨i, c⟩, hp, rfl⟩ := List.mem_map.1 hmem
  obtain ⟨j, hj⟩ := List.mem_iff_getElem?.1 hp
  obtain ⟨hplace, hanswer⟩ := List.getElem?_zip_eq_some.1 hj
  have hj : j = rank f l i :=
    (List.getElem?_inj (List.getElem?_eq_some_iff.1 hplace).1 (nodup_gatherFrom f 0 l)).1
      (hplace.trans (getElem?_places hk hf).symm)
  rw [hj, hc] at hanswer
  cases hanswer

/-- An element that is picked gets the answer to its own entry of the batch. -/
theorem getElem?_scatter_of_some {answers : List γ} {k : Nat} {a : α} {b : β} {c : γ} (hk : l[k]? = some a)
    (hf : f a = some b) (hc : answers[rank f l k]? = some c) :
    (scatter write l (((gather f l).map Prod.fst).zip answers))[k]? = some (write a c) := by
  have hmem : (k, c) ∈ ((gather f l).map Prod.fst).zip answers :=
    List.mem_of_getElem? (List.getElem?_zip_eq_some.2 ⟨getElem?_places hk hf, hc⟩)
  have hnodup : ((((gather f l).map Prod.fst).zip answers).map Prod.fst).Nodup :=
    (nodup_gatherFrom f 0 l).sublist (map_fst_zip_sublist _ answers)
  rw [getElem?_scatter_of_mem hnodup hmem, hk]
  rfl

end Batch
