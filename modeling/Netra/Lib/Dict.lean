import Mathlib.Data.List.Nodup
import Mathlib.Data.List.DropRight
import Mathlib.Algebra.Ring.Nat
/-!
# Python containers

`Dict` is Python's `dict`: items with distinct keys, in insertion order.
`push` is `append` on a `collections.deque(maxlen=n)`, kept as a list.
-/
namespace PyLib

variable {κ α : Type}

/-! ## Dictionaries -/

/-- A `dict`; no two items share a key. -/
structure Dict (κ α : Type) where
  items : List (κ × α)
  nodup : (items.map Prod.fst).Nodup

namespace Dict

/-- `{}` -/
def empty : Dict κ α := ⟨[], by simp⟩

/-- `list(d)` -/
def keys (d : Dict κ α) : List κ := d.items.map Prod.fst

theorem keys_nodup (d : Dict κ α) : d.keys.Nodup := d.nodup

/-- `{k: v for k, v in d.items() if p k v}` -/
def filter (p : κ → α → Bool) (d : Dict κ α) : Dict κ α :=
  ⟨d.items.filter fun e => p e.1 e.2, (List.filter_sublist.map Prod.fst).nodup d.nodup⟩

/-- `sum(φ(k, v) for k, v in d.items())` -/
def total (φ : κ → α → Nat) (d : Dict κ α) : Nat := (d.items.map fun e => φ e.1 e.2).sum

theorem total_filter (φ : κ → α → Nat) (p : κ → α → Bool) (d : Dict κ α) :
    total φ (d.filter p) = total (fun k v => if p k v = true then φ k v else 0) d := by
  obtain ⟨l, hl⟩ := d
  simp only [total, filter]
  clear hl
  induction l with
  | nil => rfl
  | cons e es ih => by_cases h : p e.1 e.2 = true <;> simp [h, ih]

/-- Counting items. -/
theorem total_ite (P : κ → α → Prop) [∀ k v, Decidable (P k v)] (d : Dict κ α) :
    total (fun k v => if P k v then 1 else 0) d = d.items.countP fun e => P e.1 e.2 := by
  unfold total
  induction d.items with
  | nil => rfl
  | cons e es ih => by_cases h : P e.1 e.2 <;> simp [h, ih, Nat.add_comm]

theorem total_add (φ ψ : κ → α → Nat) (d : Dict κ α) :
    total (fun k v => φ k v + ψ k v) d = total φ d + total ψ d := by
  unfold total
  induction d.items with
  | nil => rfl
  | cons e es ih =>
    simp only [List.map_cons, List.sum_cons, ih]
    omega

variable [DecidableEq κ]

/-- `d.get(k)` -/
def get? (d : Dict κ α) (k : κ) : Option α := (d.items.find? fun e => e.1 = k).map Prod.snd

/-- The items after `d[k] = v`: a key that is there keeps its place. -/
def setItems (k : κ) (v : α) : List (κ × α) → List (κ × α)
  | [] => [(k, v)]
  | e :: es => if e.1 = k then (k, v) :: es else e :: setItems k v es

theorem mem_setItems {k : κ} {v : α} {l : List (κ × α)} {e : κ × α} (h : e ∈ setItems k v l) : e = (k, v) ∨ e ∈ l := by
  induction l with
  | nil => exact .inl (List.mem_singleton.1 h)
  | cons e' es ih =>
    unfold setItems at h
    split at h
    · exact (List.mem_cons.1 h).imp_right (List.mem_cons_of_mem _)
    · rcases List.mem_cons.1 h with rfl | h
      · exact .inr List.mem_cons_self
      · exact (ih h).imp_right (List.mem_cons_of_mem _)

theorem mem_keys_setItems {k j : κ} {v : α} {l : List (κ × α)} (h : j ∈ (setItems k v l).map Prod.fst) :
    j = k ∨ j ∈ l.map Prod.fst := by
  induction l with
  | nil => simpa [setItems] using h
  | cons e es ih =>
    unfold setItems at h
    split at h
    · simp only [List.map_cons, List.mem_cons] at h ⊢
      tauto
    · simp only [List.map_cons, List.mem_cons] at h ⊢
      rcases h with h | h
      · exact .inr (.inl h)
      · rcases ih h with h | h
        · exact .inl h
        · exact .inr (.inr h)

theorem nodup_setItems (k : κ) (v : α) (l : List (κ × α)) (h : (l.map Prod.fst).Nodup) :
    ((setItems k v l).map Prod.fst).Nodup := by
  induction l with
  | nil => simp [setItems]
  | cons e es ih =>
    simp only [List.map_cons, List.nodup_cons] at h
    unfold setItems
    split
    · rename_i he
      simp only [List.map_cons, List.nodup_cons]
      exact ⟨he ▸ h.1, h.2⟩
    · rename_i he
      simp only [List.map_cons, List.nodup_cons]
      refine ⟨fun hm => ?_, ih h.2⟩
      rcases mem_keys_setItems hm with hk | hm
      · exact he hk
      · exact h.1 hm

/-- `d[k] = v` -/
def set (d : Dict κ α) (k : κ) (v : α) : Dict κ α := ⟨setItems k v d.items, nodup_setItems k v d.items d.nodup⟩

/-- `d.pop(k, None)` as far as `d` is concerned. -/
def erase (d : Dict κ α) (k : κ) : Dict κ α := d.filter fun j _ => j ≠ k

@[simp] theorem get?_empty (k : κ) : (empty : Dict κ α).get? k = none := rfl

theorem get?_set (d : Dict κ α) (k j : κ) (v : α) :
    (d.set k v).get? j = if j = k then some v else d.get? j := by
  obtain ⟨l, hl⟩ := d
  simp only [set, get?]
  clear hl
  induction l with
  | nil => by_cases h : j = k <;> simp [setItems, h, Ne.symm]
  | cons e es ih =>
    by_cases he : e.1 = k
    · by_cases hj : j = k <;> simp [setItems, he, hj, Ne.symm]
    · simp only [setItems, he, if_false, List.find?_cons]
      by_cases hej : e.1 = j
      · have : j ≠ k := hej ▸ he
        simp [hej, this]
      · simpa [hej] using ih

@[simp] theorem get?_set_self (d : Dict κ α) (k : κ) (v : α) : (d.set k v).get? k = some v := by
  rw [get?_set, if_pos rfl]

theorem get?_set_ne (d : Dict κ α) {k j : κ} (v : α) (h : j ≠ k) : (d.set k v).get? j = d.get? j := by
  rw [get?_set, if_neg h]

theorem get?_eq_some_iff (d : Dict κ α) (k : κ) (v : α) : d.get? k = some v ↔ (k, v) ∈ d.items := by
  simp only [get?, Option.map_eq_some_iff]
  constructor
  · rintro ⟨e, he, rfl⟩
    have hk : e.1 = k := by simpa using List.find?_some he
    exact hk ▸ List.mem_of_find?_eq_some he
  · intro h
    obtain ⟨e, he⟩ : ∃ e, d.items.find? (fun e => e.1 = k) = some e := by
      rw [← Option.isSome_iff_exists, List.find?_isSome]
      exact ⟨_, h, by simp⟩
    have hk : e.1 = k := by simpa using List.find?_some he
    have : e = (k, v) := List.inj_on_of_nodup_map d.nodup (List.mem_of_find?_eq_some he) h hk
    exact ⟨e, he, by rw [this]⟩

theorem get?_filter (p : κ → α → Bool) (d : Dict κ α) (k : κ) :
    (d.filter p).get? k = (d.get? k).filter (p k) := by
  apply Option.ext
  intro v
  rw [get?_eq_some_iff, Option.filter_eq_some_iff, get?_eq_some_iff]
  simp [filter]

/-- A new key goes to the end. -/
theorem items_set_of_fresh (d : Dict κ α) {k : κ} (v : α) (h : d.get? k = none) :
    (d.set k v).items = d.items ++ [(k, v)] := by
  obtain ⟨l, hl⟩ := d
  simp only [set, get?, Option.map_eq_none_iff] at h ⊢
  clear hl
  induction l with
  | nil => rfl
  | cons e es ih =>
    by_cases he : e.1 = k
    · simp [he] at h
    · rw [List.find?_cons_of_neg (by simpa using he)] at h
      rw [setItems, if_neg he, ih h]
      rfl

/-- `{k: f k v for k, v in d.items()}` -/
def mapValues (f : κ → α → α) (d : Dict κ α) : Dict κ α :=
  ⟨d.items.map fun e => (e.1, f e.1 e.2), by
    have hkeys : (d.items.map fun e => (e.1, f e.1 e.2)).map Prod.fst = d.keys := by
      simp [keys, Function.comp_def]
    rw [hkeys]
    exact d.nodup⟩

theorem get?_mapValues (f : κ → α → α) (d : Dict κ α) (k : κ) :
    (d.mapValues f).get? k = (d.get? k).map (f k) := by
  apply Option.ext
  intro v
  simp only [get?_eq_some_iff, Option.map_eq_some_iff, mapValues, List.mem_map, Prod.mk.injEq]
  constructor
  · rintro ⟨e, he, rfl, rfl⟩
    exact ⟨e.2, he, rfl⟩
  · rintro ⟨v', he, rfl⟩
    exact ⟨_, he, rfl, rfl⟩

@[simp] theorem get?_erase_self (d : Dict κ α) (k : κ) : (d.erase k).get? k = none := by
  rw [erase, get?_filter]
  cases d.get? k <;> simp

theorem get?_erase_ne (d : Dict κ α) {k j : κ} (h : j ≠ k) : (d.erase k).get? j = d.get? j := by
  rw [erase, get?_filter]
  cases d.get? j <;> simp [h]

/-! ### Sums over a dictionary -/

theorem total_congr {φ ψ : κ → α → Nat} {d : Dict κ α} (h : ∀ k v, d.get? k = some v → φ k v = ψ k v) :
    total φ d = total ψ d := by
  unfold total
  congr 1
  refine List.map_congr_left fun e he => ?_
  exact h e.1 e.2 ((get?_eq_some_iff d e.1 e.2).2 he)

theorem sum_setItems (φ : κ → α → Nat) (k : κ) (v : α) {l : List (κ × α)} (hl : (l.map Prod.fst).Nodup) :
    ((setItems k v l).map fun e => φ e.1 e.2).sum =
      φ k v + (l.map fun e => if e.1 = k then 0 else φ e.1 e.2).sum := by
  induction l with
  | nil => simp [setItems]
  | cons e es ih =>
    simp only [List.map_cons, List.nodup_cons] at hl
    unfold setItems
    split
    · rename_i he
      have hrest : (es.map fun e => if e.1 = k then 0 else φ e.1 e.2) = es.map fun e => φ e.1 e.2 := by
        refine List.map_congr_left fun e' he' => if_neg fun hk => hl.1 ?_
        exact he.trans hk.symm ▸ List.mem_map_of_mem he'
      simp [he, hrest]
    · rename_i he
      simp only [List.map_cons, List.sum_cons, ih hl.2, if_neg he]
      omega

theorem total_set (φ : κ → α → Nat) (d : Dict κ α) (k : κ) (v : α) :
    total φ (d.set k v) = φ k v + total (fun j u => if j = k then 0 else φ j u) d :=
  sum_setItems φ k v d.nodup

/-- Filling in values leaves the other keys alone. -/
theorem get?_foldl_set_of_notMem {ι : Type} {key : ι → κ} {val : ι → α} {is : List ι} {k : κ}
    (h : k ∉ is.map key) (d : Dict κ α) : (is.foldl (fun d i => d.set (key i) (val i)) d).get? k = d.get? k := by
  induction is generalizing d with
  | nil => rfl
  | cons i is ih =>
    rw [List.map_cons, List.mem_cons, not_or] at h
    rw [List.foldl_cons, ih h.2, get?_set_ne d _ h.1]

theorem get?_foldl_set_of_mem {ι : Type} {key : ι → κ} {val : ι → α} {is : List ι} (hn : (is.map key).Nodup) {i : ι}
    (hi : i ∈ is) (d : Dict κ α) :
    (is.foldl (fun d i => d.set (key i) (val i)) d).get? (key i) = some (val i) := by
  induction is generalizing d with
  | nil => cases hi
  | cons j is ih =>
    rw [List.map_cons, List.nodup_cons] at hn
    rw [List.foldl_cons]
    rcases List.mem_cons.1 hi with rfl | hi
    · rw [get?_foldl_set_of_notMem hn.1, get?_set_self]
    · exact ih hn.2 hi _

/-- Filling in values under distinct keys: the new ones count, and the old ones under other keys. -/
theorem total_foldl_set {ι : Type} (key : ι → κ) (val : ι → α) (φ : κ → α → Nat) (d : Dict κ α) {is : List ι}
    (hn : (is.map key).Nodup) :
    total φ (is.foldl (fun d i => d.set (key i) (val i)) d) =
      (is.map fun i => φ (key i) (val i)).sum +
        total (fun j u => if j ∈ is.map key then 0 else φ j u) d := by
  induction is generalizing d with
  | nil => simp
  | cons i is ih =>
    simp only [List.map_cons, List.nodup_cons] at hn
    rw [List.foldl_cons, ih (d.set (key i) (val i)) hn.2, total_set, if_neg hn.1, List.map_cons, List.sum_cons]
    have hrest : total (fun j u => if j = key i then 0 else if j ∈ is.map key then 0 else φ j u) d =
        total (fun j u => if j ∈ List.map key (i :: is) then 0 else φ j u) d := by
      refine total_congr fun j u _ => ?_
      by_cases hj : j = key i <;> simp [hj]
    rw [hrest]
    omega

end Dict

/-! ## Bounded deques -/

/-- `dq.append(x)` for a `deque(maxlen=n)`, oldest element first. -/
def push (n : Nat) (dq : List α) (x : α) : List α := (dq ++ [x]).rtake n

theorem rtake_rtake {m n : Nat} (h : m ≤ n) (l : List α) : (l.rtake n).rtake m = l.rtake m := by
  simp only [List.rtake_eq_reverse_take_reverse, List.reverse_reverse, List.take_take, Nat.min_eq_left h]

theorem mem_of_mem_rtake {n : Nat} {l : List α} {x : α} (h : x ∈ l.rtake n) : x ∈ l := List.mem_of_mem_drop h

theorem rtake_rtake_append (n : Nat) (l : List α) (x : α) :
    (l.rtake n ++ [x]).rtake n = (l ++ [x]).rtake n := by
  cases n with
  | zero => simp [List.rtake_zero]
  | succ n =>
    rw [List.rtake_concat_succ, List.rtake_concat_succ]
    congr 1
    simp only [List.rtake_eq_reverse_take_reverse, List.reverse_reverse, List.take_take]
    congr 2
    omega

end PyLib
