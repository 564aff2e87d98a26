import Mathlib.Data.List.Nodup
import Mathlib.Data.List.Perm.Basic
import Mathlib.Data.List.Sort
/-!
# Pages

Rows are listed by a key, the largest first, and rows with the same key come in any
order, which may be another one for every page. The pages are the rows, each once, for
all such orders just when no page ends between two rows of the same key
(`pages_perm_iff`).
-/
namespace Pages

variable {α β : Type} [LinearOrder β] {key : α → β} {rows s t : List α} {b : Nat}

/-- `s` lists `rows` by descending key. -/
structure Listed (key : α → β) (rows s : List α) : Prop where
  perm : s.Perm rows
  sorted : (s.map key).Pairwise (· ≥ ·)

/-- `LIMIT n OFFSET i * n` -/
def page (n i : Nat) (s : List α) : List α := (s.drop (i * n)).take n

/-- The first `b` rows end between two of the same key. -/
def Splits (key : α → β) (s : List α) (b : Nat) : Prop :=
  ∃ pre x y post, s = pre ++ x :: y :: post ∧ pre.length + 1 = b ∧ key x = key y

theorem Listed.keys_eq (hs : Listed key rows s) (ht : Listed key rows t) : s.map key = t.map key :=
  ((hs.perm.trans ht.perm.symm).map key).eq_of_pairwise (fun _ _ _ _ h h' => le_antisymm h' h) hs.sorted ht.sorted

theorem Listed.length_eq (hs : Listed key rows s) : s.length = rows.length := hs.perm.length_eq

/-- The two rows around a place inside the list. -/
theorem exists_around (hpos : 0 < b) (hlt : b < s.length) :
    ∃ pre x y post, s = pre ++ x :: y :: post ∧ pre.length + 1 = b := by
  obtain ⟨k, rfl⟩ := Nat.exists_eq_add_of_lt hpos
  rw [Nat.zero_add] at hlt ⊢
  refine ⟨s.take k, s[k], s[k + 1], s.drop (k + 2), ?_, ?_⟩
  · rw [← List.drop_eq_getElem_cons, ← List.drop_eq_getElem_cons, List.take_append_drop]
  · rw [List.length_take]
    omega

/-- Where the key falls, the rows before are those with a larger key. -/
theorem Listed.take_eq (hs : Listed key rows s) {pre post : List α} {x y : α} (h : s = pre ++ x :: y :: post)
    (hxy : key x ≠ key y) : s.take (pre.length + 1) = s.filter (key y < key ·) := by
  have hsorted := hs.sorted
  rw [h, List.map_append, List.map_cons, List.map_cons, List.pairwise_append, List.pairwise_cons,
    List.pairwise_cons] at hsorted
  obtain ⟨-, ⟨hx, hy, -⟩, hpre⟩ := hsorted
  have hlt : key y < key x := lt_of_le_of_ne (hx _ List.mem_cons_self) (Ne.symm hxy)
  have hbefore : pre.filter (key y < key ·) = pre := List.filter_eq_self.2 fun a ha => by
    have hle := hpre _ (List.mem_map_of_mem ha) _ List.mem_cons_self
    exact decide_eq_true (lt_of_lt_of_le hlt hle)
  have hafter : (y :: post).filter (key y < key ·) = [] := List.filter_eq_nil_iff.2 fun a ha => by
    rw [decide_eq_true_eq, not_lt]
    rcases List.mem_cons.1 ha with rfl | ha
    · exact le_rfl
    · exact hy _ (List.mem_map_of_mem ha)
  rw [h, List.filter_append, hbefore, List.filter_cons_of_pos (by simpa using hlt), hafter, List.take_append]
  simp [List.take_of_length_le]

/-- A place that splits no key has the same rows before it in every listing. -/
theorem Listed.take_perm (hs : Listed key rows s) (ht : Listed key rows t) (hsb : ¬ Splits key s b)
    (htb : ¬ Splits key t b) : (s.take b).Perm (t.take b) := by
  have hlen : s.length = t.length := hs.length_eq.trans ht.length_eq.symm
  have hperm : s.Perm t := hs.perm.trans ht.perm.symm
  rcases Nat.eq_zero_or_pos b with rfl | hpos
  · exact .refl _
  rcases Nat.lt_or_ge b s.length with hlt | hge
  · obtain ⟨pre, x, y, post, h, hb⟩ := exists_around hpos hlt
    obtain ⟨pre', x', y', post', h', hb'⟩ := exists_around (s := t) hpos (hlen ▸ hlt)
    have hx : key x ≠ key y := fun he => hsb ⟨pre, x, y, post, h, hb, he⟩
    have hx' : key x' ≠ key y' := fun he => htb ⟨pre', x', y', post', h', hb', he⟩
    have hkey : key y = key y' := by
      have hks := hs.keys_eq ht
      have hpre : (pre.map key).length = (pre'.map key).length := by
        rw [List.length_map, List.length_map]
        omega
      rw [h, h', List.map_append, List.map_append] at hks
      have htail := (List.append_inj hks hpre).2
      rw [List.map_cons, List.map_cons, List.map_cons, List.map_cons] at htail
      exact (List.cons.inj (List.cons.inj htail).2).1
    rw [← hb, hs.take_eq h hx, hb, ← hb', ht.take_eq h' hx', hkey]
    exact hperm.filter _
  · rw [List.take_of_length_le hge, List.take_of_length_le (hlen ▸ hge)]
    exact hperm

theorem take_succ_page (n i : Nat) (s : List α) : s.take ((i + 1) * n) = s.take (i * n) ++ page n i s := by
  rw [page, Nat.succ_mul, List.take_add]

theorem Listed.page_perm (hs : Listed key rows s) (ht : Listed key rows t) {n i : Nat}
    (hsb : ∀ j, ¬ Splits key s (j * n)) (htb : ∀ j, ¬ Splits key t (j * n)) : (page n i s).Perm (page n i t) := by
  have hbefore := hs.take_perm ht (hsb i) (htb i)
  have hupto := hs.take_perm ht (hsb (i + 1)) (htb (i + 1))
  rw [take_succ_page, take_succ_page] at hupto
  exact (List.perm_append_left_iff _).1 ((hbefore.symm.append_right _).trans hupto)

/-- The pages of one listing. -/
theorem flatMap_page (n m : Nat) (s : List α) : (List.range m).flatMap (page n · s) = s.take (m * n) := by
  induction m with
  | zero => simp
  | succ m ih => rw [List.range_succ, List.flatMap_append, ih, take_succ_page, List.flatMap_singleton]

/-- A listing with two rows of the same key exchanged. -/
theorem Listed.swap {pre post : List α} {x y : α} (hs : Listed key rows (pre ++ x :: y :: post)) (hxy : key x = key y) :
    Listed key rows (pre ++ y :: x :: post) where
  perm := .trans ((List.Perm.swap x y post).append_left pre) hs.perm
  sorted := by
    have hsorted := hs.sorted
    simp only [List.map_append, List.map_cons, hxy] at hsorted ⊢
    exact hsorted

theorem mem_page {n i k : Nat} {a : α} (hk : s[k]? = some a) (hle : i * n ≤ k) (hlt : k < (i + 1) * n) :
    a ∈ page n i s := by
  rw [Nat.succ_mul] at hlt
  refine List.mem_of_getElem? (i := k - i * n) ?_
  rw [page, List.getElem?_take_of_lt (by omega), List.getElem?_drop, Nat.add_sub_cancel' hle]
  exact hk

/-- `m` pages are enough for all rows. -/
theorem pages_perm_iff (key : α → β) {n m : Nat} (hn : 0 < n) (hnodup : rows.Nodup) (hm : rows.length ≤ m * n) :
    (∀ orders : Nat → List α, (∀ i, Listed key rows (orders i)) →
        ((List.range m).flatMap fun i => page n i (orders i)).Perm rows) ↔
      ∀ s, Listed key rows s → ∀ i, ¬ Splits key s (i * n) := by
  constructor
  · rintro hall s hs i ⟨pre, x, y, post, rfl, hb, hxy⟩
    obtain ⟨i, rfl⟩ : ∃ j, i = j + 1 := Nat.exists_eq_succ_of_ne_zero fun h0 => by
      rw [h0, Nat.zero_mul] at hb
      omega
    -- page `i` of this listing ends with `x`, and so does page `i + 1` of the other one begin
    let orders (j : Nat) : List α := if j ≤ i then pre ++ x :: y :: post else pre ++ y :: x :: post
    have hperm := hall orders fun j => by
      by_cases hj : j ≤ i
      · rw [show orders j = _ from if_pos hj]
        exact hs
      · rw [show orders j = _ from if_neg hj]
        exact hs.swap hxy
    have hlast : x ∈ page n i (orders i) := by
      rw [show orders i = _ from if_pos le_rfl]
      refine mem_page (k := pre.length) (by simp) ?_ (by omega)
      rw [Nat.succ_mul] at hb
      omega
    have hfirst : x ∈ page n (i + 1) (orders (i + 1)) := by
      rw [show orders (i + 1) = _ from if_neg (Nat.not_succ_le_self i)]
      refine mem_page (k := pre.length + 1) (by simp) (by omega) ?_
      rw [Nat.succ_mul]
      omega
    have him : i + 1 < m := by
      have hlen := hs.length_eq
      simp only [List.length_append, List.length_cons] at hlen
      by_contra hge
      have := Nat.mul_le_mul_right n (Nat.not_lt.1 hge)
      omega
    have hdisjoint := List.pairwise_iff_getElem.1 (List.nodup_flatMap.1 (hperm.nodup_iff.2 hnodup)).2 i (i + 1)
      (by rw [List.length_range]; omega) (by rw [List.length_range]; omega) (Nat.lt_succ_self i)
    rw [List.getElem_range, List.getElem_range] at hdisjoint
    exact hdisjoint hlast hfirst
  · intro hclean orders horders
    obtain ⟨s, hs⟩ : ∃ s, Listed key rows s := ⟨_, horders 0⟩
    have hpages : ((List.range m).flatMap fun i => page n i (orders i)).Perm ((List.range m).flatMap (page n · s)) :=
      List.Perm.flatMap_left _ fun i _ => (horders i).page_perm hs (hclean _ (horders i)) (hclean s hs)
    rw [flatMap_page, List.take_of_length_le (hs.length_eq ▸ hm)] at hpages
    exact hpages.trans hs.perm

end Pages
