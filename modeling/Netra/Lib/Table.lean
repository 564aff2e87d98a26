import Mathlib.Data.List.Nodup
import Mathlib.Data.List.Sort
import Mathlib.Algebra.BigOperators.Group.List.Basic
import Mathlib.Algebra.Ring.Nat
/-!
# Tables

A table is the list of its rows, in the order they came; `key` is its primary
key. An `INSERT ... ON CONFLICT (key) DO NOTHING` is `insertNew`, an `UPDATE`
is `updateWhere`, a `SELECT ... WHERE ... ORDER BY ... DESC` is `select` over a
`Scan`, since SQL leaves open how rows of equal rank are ordered.
-/
namespace Table

variable {ρ κ : Type}

/-- `UPDATE ... SET f WHERE p` -/
def updateWhere (p : ρ → Bool) (f : ρ → ρ) (rows : List ρ) : List ρ := rows.map fun r => if p r then f r else r

/-- The order in which a query meets the rows. -/
structure Scan (ρ : Type) where
  order : List ρ → List ρ
  perm : ∀ rows, (order rows).Perm rows

/-- Rows met in the order they came. -/
def Scan.forward (ρ : Type) : Scan ρ := ⟨id, fun _ => .refl _⟩

@[simp] theorem Scan.mem_order (scan : Scan ρ) (rows : List ρ) (r : ρ) : r ∈ scan.order rows ↔ r ∈ rows :=
  (scan.perm rows).mem_iff

/-- `SELECT * WHERE p ORDER BY rank DESC` -/
def select {β : Type} [LinearOrder β] (scan : Scan ρ) (p : ρ → Bool) (rank : ρ → β) (rows : List ρ) : List ρ :=
  ((scan.order rows).filter p).insertionSort fun a b => rank b ≤ rank a

/-! ## Updates -/

section
variable {p : ρ → Bool} {f : ρ → ρ}

@[simp] theorem mem_updateWhere {rows : List ρ} {r : ρ} :
    r ∈ updateWhere p f rows ↔ ∃ r' ∈ rows, (if p r' then f r' else r') = r := List.mem_map

/-- An update that finds no row writes none. -/
theorem updateWhere_of_forall_not {rows : List ρ} (h : ∀ r ∈ rows, p r = false) : updateWhere p f rows = rows := by
  unfold updateWhere
  calc rows.map (fun r => if p r then f r else r) = rows.map id :=
        List.map_congr_left fun r hr => by rw [h r hr]; rfl
    _ = rows := List.map_id rows

/-- A column an update does not set. -/
theorem map_updateWhere {g : ρ → κ} (hf : ∀ r, g (f r) = g r) (rows : List ρ) :
    (updateWhere p f rows).map g = rows.map g := by
  simp only [updateWhere, List.map_map]
  refine List.map_congr_left fun r _ => ?_
  simp only [Function.comp_apply]
  split
  · exact hf r
  · rfl

/-- A query on rows an update neither takes nor leaves there. -/
theorem filter_updateWhere {q : ρ → Bool} {rows : List ρ}
    (h : ∀ r ∈ rows, p r = true → q r = false ∧ q (f r) = false) :
    (updateWhere p f rows).filter q = rows.filter q := by
  induction rows with
  | nil => rfl
  | cons r rows ih =>
    have ih := ih fun r' hr' => h r' (List.mem_cons_of_mem _ hr')
    rw [updateWhere, List.map_cons, List.filter_cons, List.filter_cons, ← updateWhere, ih]
    by_cases hp : p r = true
    · obtain ⟨hq, hqf⟩ := h r List.mem_cons_self hp
      simp [hp, hq, hqf]
    · simp [hp]

end

section
variable [DecidableEq κ] (key : ρ → κ)

/-- `INSERT ... ON CONFLICT (key) DO NOTHING` -/
def insertNew (x : ρ) (rows : List ρ) : List ρ := if key x ∈ rows.map key then rows else rows ++ [x]

/-- The row of a key. -/
def row (k : κ) (rows : List ρ) : Option ρ := rows.find? fun r => key r = k

variable {key}

/-! ## Insertions -/

theorem insertNew_of_mem {x : ρ} {rows : List ρ} (h : key x ∈ rows.map key) : insertNew key x rows = rows :=
  if_pos h

theorem insertNew_of_notMem {x : ρ} {rows : List ρ} (h : key x ∉ rows.map key) :
    insertNew key x rows = rows ++ [x] := if_neg h

theorem mem_map_insertNew {x : ρ} {rows : List ρ} {k : κ} :
    k ∈ (insertNew key x rows).map key ↔ k = key x ∨ k ∈ rows.map key := by
  by_cases h : key x ∈ rows.map key
  · rw [insertNew_of_mem h]
    constructor
    · exact .inr
    · rintro (rfl | hk)
      · exact h
      · exact hk
  · rw [insertNew_of_notMem h, List.map_append, List.mem_append, List.map_singleton, List.mem_singleton, or_comm]

theorem nodup_insertNew {x : ρ} {rows : List ρ} (h : (rows.map key).Nodup) :
    ((insertNew key x rows).map key).Nodup := by
  by_cases hx : key x ∈ rows.map key
  · rwa [insertNew_of_mem hx]
  · rw [insertNew_of_notMem hx, List.map_append, List.map_singleton]
    exact List.nodup_append.2 ⟨h, List.nodup_singleton _, by
      rintro a ha b hb rfl
      exact hx (List.mem_singleton.1 hb ▸ ha)⟩

theorem mem_insertNew_cases {x r : ρ} {rows : List ρ} (hr : r ∈ insertNew key x rows) : r ∈ rows ∨ r = x := by
  by_cases hx : key x ∈ rows.map key
  · rw [insertNew_of_mem hx] at hr
    exact .inl hr
  · rw [insertNew_of_notMem hx, List.mem_append, List.mem_singleton] at hr
    exact hr

/-! ## The row of a key -/

theorem mem_of_row {k : κ} {rows : List ρ} {r : ρ} (h : row key k rows = some r) : r ∈ rows ∧ key r = k := by
  have hk := List.find?_some h
  exact ⟨List.mem_of_find?_eq_some h, of_decide_eq_true hk⟩

theorem row_of_mem {rows : List ρ} (h : (rows.map key).Nodup) {r : ρ} (hr : r ∈ rows) :
    row key (key r) rows = some r := by
  induction rows with
  | nil => simp at hr
  | cons x rows ih =>
    rw [List.map_cons, List.nodup_cons] at h
    rw [row, List.find?_cons]
    rcases List.mem_cons.1 hr with rfl | hr
    · simp
    · have hne : key x ≠ key r := fun he => h.1 (he ▸ List.mem_map_of_mem hr)
      rw [decide_eq_false hne]
      exact ih h.2 hr

theorem row_eq_none_iff {k : κ} {rows : List ρ} : row key k rows = none ↔ k ∉ rows.map key := by
  simp [row, List.find?_eq_none]

theorem isSome_row_iff {k : κ} {rows : List ρ} : (row key k rows).isSome ↔ k ∈ rows.map key := by
  simp [row, List.find?_isSome]

/-- An update that leaves keys alone writes each key's row in its place. -/
theorem row_updateWhere {p : ρ → Bool} {f : ρ → ρ} (hf : ∀ r, key (f r) = key r) (k : κ) (rows : List ρ) :
    row key k (updateWhere p f rows) = (row key k rows).map fun r => if p r then f r else r := by
  have hkey : ∀ r, key (if p r then f r else r) = key r := fun r => by split <;> simp [hf]
  rw [row, updateWhere, List.find?_map]
  congr 2
  exact funext fun r => by simp [hkey]

theorem row_insertNew (x : ρ) (k : κ) (rows : List ρ) :
    row key k (insertNew key x rows) = (row key k rows).or (if key x = k then some x else none) := by
  by_cases hx : key x ∈ rows.map key
  · rw [insertNew_of_mem hx]
    split
    · rename_i hk
      obtain ⟨r, hr⟩ := Option.isSome_iff_exists.1 (isSome_row_iff.2 (hk ▸ hx))
      rw [hr, Option.some_or]
    · rw [Option.or_none]
  · rw [insertNew_of_notMem hx, row, List.find?_append]
    congr 1
    by_cases hk : key x = k <;> simp [hk]

/-- Every row counts once under its key. -/
theorem count_map_key {rows : List ρ} (h : (rows.map key).Nodup) {k : κ} (hk : k ∈ rows.map key) :
    (rows.filter fun r => key r = k).length = 1 := by
  have hcount := List.count_eq_one_of_mem h hk
  rw [List.count, List.countP_map, List.countP_eq_length_filter] at hcount
  simpa [Function.comp_def, beq_eq_decide] using hcount

end

/-! ## Queries -/

section
variable {β : Type} [LinearOrder β] {scan : Scan ρ} {p : ρ → Bool} {rank : ρ → β} {rows : List ρ}

@[simp] theorem mem_select {r : ρ} : r ∈ select scan p rank rows ↔ r ∈ rows ∧ p r = true := by
  rw [select, List.mem_insertionSort, List.mem_filter, scan.mem_order]

theorem perm_select : (select scan p rank rows).Perm (rows.filter p) :=
  (List.perm_insertionSort _ _).trans ((scan.perm rows).filter p)

theorem pairwise_select : (select scan p rank rows).Pairwise fun a b => rank b ≤ rank a := by
  have : IsTrans ρ fun a b => rank b ≤ rank a := ⟨fun _ _ _ hab hbc => hbc.trans hab⟩
  have : Std.Total fun a b : ρ => rank b ≤ rank a := ⟨fun a b => le_total (rank b) (rank a)⟩
  exact List.pairwise_insertionSort (fun a b => rank b ≤ rank a) ((scan.order rows).filter p)

/-- `LIMIT 1` finds a row when there is one. -/
theorem head?_select_eq_none_iff : (select scan p rank rows).head? = none ↔ ∀ r ∈ rows, p r = false := by
  rw [List.head?_eq_none_iff, List.eq_nil_iff_forall_not_mem]
  simp

/-- `LIMIT 1` finds a row of the highest rank. -/
theorem head?_select {r : ρ} (h : (select scan p rank rows).head? = some r) :
    (r ∈ rows ∧ p r = true) ∧ ∀ r' ∈ rows, p r' = true → rank r' ≤ rank r := by
  refine ⟨mem_select.1 (List.mem_of_mem_head? h), fun r' hr' hp => ?_⟩
  have hsorted : (select scan p rank rows).Pairwise fun a b => rank b ≤ rank a := pairwise_select
  obtain ⟨tl, htl⟩ := List.head?_eq_some_iff.1 h
  have hmem : r' ∈ select scan p rank rows := mem_select.2 ⟨hr', hp⟩
  rw [htl] at hsorted hmem
  rcases List.mem_cons.1 hmem with rfl | hmem
  · exact le_rfl
  · exact List.rel_of_pairwise_cons hsorted hmem

end

/-! ## Joins -/

section
variable {τ : Type}

/-- `FROM rows LEFT JOIN others ON on` -/
def leftJoin (on : ρ → τ → Bool) (rows : List ρ) (others : List τ) : List (ρ × Option τ) :=
  rows.flatMap fun r =>
    match others.filter (on r) with
    | [] => [(r, none)]
    | matching => matching.map fun x => (r, some x)

variable {on : ρ → τ → Bool} {others : List τ}

theorem leftJoin_cons (r : ρ) (rows : List ρ) :
    leftJoin on (r :: rows) others = leftJoin on [r] others ++ leftJoin on rows others := by
  simp [leftJoin]

/-- A row is there once for each row it is joined with, and once if there is none. -/
theorem map_fst_leftJoin_singleton (r : ρ) :
    (leftJoin on [r] others).map Prod.fst = List.replicate (max 1 (others.countP (on r))) r := by
  rw [leftJoin, List.flatMap_singleton, List.countP_eq_length_filter]
  cases others.filter (on r) with
  | nil => rfl
  | cons x xs =>
    have hpos : max 1 (x :: xs).length = (x :: xs).length := max_eq_right (by simp)
    rw [hpos, List.map_map]
    exact List.map_const' ..

theorem length_leftJoin (rows : List ρ) :
    (leftJoin on rows others).length = (rows.map fun r => max 1 (others.countP (on r))).sum := by
  induction rows with
  | nil => rfl
  | cons r rows ih =>
    have hself : (leftJoin on [r] others).length = max 1 (others.countP (on r)) := by
      rw [← List.length_map Prod.fst, map_fst_leftJoin_singleton, List.length_replicate]
    rw [leftJoin_cons, List.length_append, hself, ih, List.map_cons, List.sum_cons]

/-- Where no row is joined with two, the join has the rows themselves. -/
theorem map_fst_leftJoin {rows : List ρ} (h : ∀ r ∈ rows, others.countP (on r) ≤ 1) :
    (leftJoin on rows others).map Prod.fst = rows := by
  induction rows with
  | nil => rfl
  | cons r rows ih =>
    obtain ⟨hr, hrows⟩ := List.forall_mem_cons.1 h
    rw [leftJoin_cons, List.map_append, map_fst_leftJoin_singleton, max_eq_left hr, ih hrows]
    rfl

/-- `WHERE` on the columns of the left table. -/
theorem filter_leftJoin (p : ρ → Bool) (rows : List ρ) :
    (leftJoin on rows others).filter (fun x => p x.1) = leftJoin on (rows.filter p) others := by
  induction rows with
  | nil => rfl
  | cons r rows ih =>
    have hfst {x : ρ × Option τ} (hx : x ∈ leftJoin on [r] others) : x.1 = r := by
      have hmem := List.mem_map_of_mem (f := Prod.fst) hx
      rw [map_fst_leftJoin_singleton] at hmem
      exact List.eq_of_mem_replicate hmem
    rw [leftJoin_cons, List.filter_append, ih]
    by_cases hp : p r
    · rw [List.filter_cons_of_pos hp, leftJoin_cons r (rows.filter p)]
      congr 1
      exact List.filter_eq_self.2 fun x hx => hfst hx ▸ hp
    · rw [List.filter_cons_of_neg hp]
      have hnone : (leftJoin on [r] others).filter (fun x => p x.1) = [] :=
        List.filter_eq_nil_iff.2 fun x hx => hfst hx ▸ hp
      rw [hnone, List.nil_append]

end

/-! ## Counting -/

/-- Numbers from 1 up add to their count when they are all 1. -/
theorem sum_eq_length_iff {α : Type} {f : α → Nat} {l : List α} (h : ∀ a ∈ l, 1 ≤ f a) :
    (l.map f).sum = l.length ↔ ∀ a ∈ l, f a = 1 := by
  induction l with
  | nil => simp
  | cons a l ih =>
    obtain ⟨ha, hl⟩ := List.forall_mem_cons.1 h
    have hle : l.length ≤ (l.map f).sum := by
      rw [← List.length_map f]
      exact List.length_le_sum_of_one_le _ (List.forall_mem_map.2 hl)
    rw [List.forall_mem_cons, ← ih hl, List.map_cons, List.sum_cons, List.length_cons]
    omega

theorem countP_add_of_disjoint {α : Type} {p q : α → Bool} {l : List α} (h : ∀ a ∈ l, p a = true → q a = false) :
    l.countP p + l.countP q = l.countP fun a => p a || q a := by
  induction l with
  | nil => rfl
  | cons a l ih =>
    have ih := ih fun b hb => h b (List.mem_cons_of_mem _ hb)
    have ha := h a List.mem_cons_self
    rw [List.countP_cons, List.countP_cons, List.countP_cons, ← ih]
    cases hp : p a with
    | true => simp [ha hp]; omega
    | false => simp; omega

/-- A predicate that holds of fewer elements, and of as many, is the same. -/
theorem forall_of_countP_eq {α : Type} {p q : α → Bool} {l : List α} (hpq : ∀ a ∈ l, p a = true → q a = true)
    (h : l.countP p = l.countP q) : ∀ a ∈ l, q a = true → p a = true := by
  induction l with
  | nil => simp
  | cons a l ih =>
    have hpq' : ∀ b ∈ l, p b = true → q b = true := fun b hb => hpq b (List.mem_cons_of_mem _ hb)
    have ha := hpq a List.mem_cons_self
    have hle := List.countP_mono_left hpq'
    rw [List.countP_cons, List.countP_cons] at h
    have htail : l.countP p = l.countP q := by
      cases hp : p a with
      | true => simpa [hp, ha hp] using h
      | false =>
        simp only [hp, Bool.false_eq_true, if_false] at h
        split at h <;> omega
    intro b hb
    rcases List.mem_cons.1 hb with rfl | hb
    · intro hq
      by_contra hp
      simp [hq, hp] at h
      omega
    · exact ih hpq' htail b hb

end Table
