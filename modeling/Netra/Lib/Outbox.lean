import Mathlib.Data.List.Sort
import Mathlib.Logic.Function.Basic
/-!
# A bounded queue with several senders

Items are offered in the order of their numbers. A full queue loses its oldest
item. Each of `n` senders takes an item at a time, and a send reaches the other
side when it completes, or fails.

In whatever order sends complete, an item is lost only if `size` newer ones were
offered or a send failed (`Kept`). While they complete in the order in which the
items were offered, items are received in that order (`Lined`).
-/
namespace Outbox

variable {n : Nat} {α : Type}

structure State (n : Nat) (α : Type) where
  offered : List α
  queue : List α
  /-- the item each sender is sending -/
  flights : Fin n → Option α
  received : List α
  /-- a send has failed -/
  failed : Bool

inductive Move (n : Nat) (α : Type) where
  | offer (x : α)
  /-- an item that is not queued -/
  | miss (x : α)
  | take (i : Fin n)
  | sent (i : Fin n)
  | fail (i : Fin n)

section
variable (size : Nat)

/-- `x` goes to the end of the queue; a full one loses its head. -/
def put (x : α) (q : List α) : List α :=
  let q := if size ≤ q.length then q.tail else q
  if size ≤ q.length then q else q ++ [x]

def step (s : State n α) : Move n α → State n α
  | .offer x => { s with offered := s.offered ++ [x], queue := put size x s.queue }
  | .miss x => { s with offered := s.offered ++ [x] }
  | .take i =>
    match s.flights i, s.queue with
    | none, x :: rest => { s with queue := rest, flights := Function.update s.flights i (some x) }
    | _, _ => s
  | .sent i =>
    match s.flights i with
    | some x => { s with received := s.received ++ [x], flights := Function.update s.flights i none }
    | none => s
  | .fail i =>
    match s.flights i with
    | some _ => { s with failed := true, flights := Function.update s.flights i none }
    | none => s

end

/-! ## Lists in the order of the numbers -/

section
variable {num : α → Nat}

theorem nodup_of_ordered {l : List α} (hl : l.Pairwise (num · < num ·)) : l.Nodup :=
  hl.imp fun hlt he => absurd (congrArg num he) (Nat.ne_of_lt hlt)

theorem sublist_of_ordered {l m : List α} (hl : l.Pairwise (num · < num ·)) (hm : m.Pairwise (num · < num ·))
    (hsub : ∀ x ∈ l, x ∈ m) : l.Sublist m := by
  obtain ⟨l', hperm, hl'⟩ := List.subperm_of_subset (nodup_of_ordered hl) hsub
  have heq : l' = l := by
    refine List.Perm.eq_of_pairwise ?_ (hm.sublist hl') hl hperm
    intro a b _ _ hab hba
    exact absurd hab (Nat.lt_asymm hba)
  exact heq ▸ hl'

theorem mem_put {size : Nat} {x y : α} {q : List α} (hy : y ∈ put size x q) : y ∈ q ∨ y = x := by
  have htail : ∀ y ∈ (if size ≤ q.length then q.tail else q), y ∈ q := by
    intro y hy
    split at hy
    · exact List.mem_of_mem_tail hy
    · exact hy
  unfold put at hy
  dsimp only at hy
  generalize (if size ≤ q.length then q.tail else q) = q' at hy htail
  split at hy
  · exact .inl (htail y hy)
  · rcases List.mem_append.1 hy with hy | hy
    · exact .inl (htail y hy)
    · exact .inr (List.mem_singleton.1 hy)

/-- A queue with room keeps all, a full one all but its head. -/
theorem put_cases {size : Nat} (hsize : 0 < size) (x : α) {q : List α} (hq : q.length ≤ size) :
    (q.length < size ∧ put size x q = q ++ [x]) ∨
      ∃ y rest, q = y :: rest ∧ rest.length + 1 = size ∧ put size x q = rest ++ [x] := by
  unfold put
  by_cases hroom : q.length < size
  · refine .inl ⟨hroom, ?_⟩
    simp only [Nat.not_le.2 hroom, if_false]
  · right
    cases q with
    | nil =>
      rw [List.length_nil] at hroom
      omega
    | cons y rest =>
      rw [List.length_cons] at hq hroom
      refine ⟨y, rest, rfl, by omega, ?_⟩
      have hfull : size ≤ (y :: rest).length := by
        rw [List.length_cons]
        omega
      have hleft : ¬ size ≤ rest.length := by omega
      simp only [hfull, if_true, List.tail_cons, hleft, if_false]

end

/-! ## What holds of an outbox -/

section
variable (num : α → Nat) (size : Nat)

/-- The queue holds some of the items offered, in order. -/
structure Queued (s : State n α) : Prop where
  offered : s.offered.Pairwise (num · < num ·)
  queue : s.queue.Pairwise (num · < num ·)
  among : ∀ x ∈ s.queue, x ∈ s.offered
  room : s.queue.length ≤ size

/-- An item is lost only if `size` newer ones were offered or a send failed. -/
def Kept (s : State n α) : Prop :=
  ∀ x ∈ s.offered, x ∈ s.received ∨ x ∈ s.queue ∨ (∃ i, s.flights i = some x) ∨ s.failed = true ∨
    size ≤ (s.offered.filter (num x < num ·)).length

/-- What was received and what is queued stand in one line, and every item being
sent has its place between them. -/
structure Lined (s : State n α) : Prop where
  line : (s.received ++ s.queue).Pairwise (num · < num ·)
  among : ∀ x ∈ s.received, x ∈ s.offered
  flight : ∀ i x, s.flights i = some x →
    x ∈ s.offered ∧ (∀ r ∈ s.received, num r < num x) ∧ ∀ q ∈ s.queue, num x < num q
  apart : ∀ i j x y, s.flights i = some x → s.flights j = some y → num x = num y → i = j

/-- An item has a new number, and is missed only after a failure. -/
def Fresh (s : State n α) : Move n α → Prop
  | .offer x => ∀ y ∈ s.offered, num y < num x
  | .miss x => (∀ y ∈ s.offered, num y < num x) ∧ s.failed = true
  | _ => True

/-- A send that completes is of the oldest item being sent. -/
def FirstOut (s : State n α) : Move n α → Prop
  | .sent i => ∀ x, s.flights i = some x → ∀ j y, s.flights j = some y → num x ≤ num y
  | _ => True

end

variable {num : α → Nat} {size : Nat} {s : State n α}

theorem received_sublist (hq : Queued num size s) (h : Lined num s) : s.received.Sublist s.offered :=
  sublist_of_ordered (h.line.sublist (List.sublist_append_left _ _)) hq.offered h.among

theorem offered_concat {l : List α} (hl : l.Pairwise (num · < num ·)) {x : α} (hx : ∀ y ∈ l, num y < num x) :
    (l ++ [x]).Pairwise (num · < num ·) := by
  rw [List.pairwise_append]
  refine ⟨hl, List.pairwise_singleton _ _, ?_⟩
  intro y hy z hz
  rw [List.mem_singleton.1 hz]
  exact hx y hy

/-! ## What is queued and what is lost -/

/-- A queue with the new item at its end. -/
theorem Queued.put (hsize : 0 < size) (h : Queued num size s) (x : α) :
    ∃ q, q.Sublist s.queue ∧ q.length < size ∧ put size x s.queue = q ++ [x] := by
  rcases put_cases hsize x h.room with ⟨hroom, hq⟩ | ⟨y, rest, hq, hlen, hq'⟩
  · exact ⟨s.queue, .refl _, hroom, hq⟩
  · refine ⟨rest, ?_, by omega, hq'⟩
    rw [hq]
    exact List.sublist_cons_self y rest

theorem Queued.offer (hsize : 0 < size) (h : Queued num size s) {x : α} (hx : ∀ y ∈ s.offered, num y < num x) :
    Queued num size (Outbox.step size s (.offer x)) := by
  obtain ⟨q, hq, hlen, hqueue⟩ := h.put hsize x
  unfold Outbox.step
  refine ⟨offered_concat h.offered hx, ?_, ?_, ?_⟩ <;> dsimp only <;> rw [hqueue]
  · apply offered_concat (h.queue.sublist hq)
    intro y hy
    exact hx y (h.among y (hq.subset hy))
  · intro y hy
    rcases List.mem_append.1 hy with hy | hy
    · exact List.mem_append_left _ (h.among y (hq.subset hy))
    · exact List.mem_append_right _ hy
  · rw [List.length_append, List.length_singleton]
    omega

theorem Queued.step (hsize : 0 < size) (h : Queued num size s) (m : Move n α) (hm : Fresh num s m) :
    Queued num size (Outbox.step size s m) := by
  cases m with
  | offer x => exact h.offer hsize hm
  | miss x => exact ⟨offered_concat h.offered hm.1, h.queue, fun y hy => List.mem_append_left _ (h.among y hy), h.room⟩
  | take i =>
    unfold Outbox.step
    dsimp only
    split
    · rename_i x rest hi hq
      have hsub : rest.Sublist s.queue := by
        rw [hq]
        exact List.sublist_cons_self x rest
      exact ⟨h.offered, h.queue.sublist hsub, fun y hy => h.among y (hsub.subset hy), hsub.length_le.trans h.room⟩
    · exact h
  | sent i =>
    unfold Outbox.step
    dsimp only
    split
    · exact ⟨h.offered, h.queue, h.among, h.room⟩
    · exact h
  | fail i =>
    unfold Outbox.step
    dsimp only
    split
    · exact ⟨h.offered, h.queue, h.among, h.room⟩
    · exact h

/-- An item that falls out of a full queue has the whole new queue behind it. -/
theorem Kept.offer (hsize : 0 < size) (hq : Queued num size s) (h : Kept num size s) {x : α}
    (hx : ∀ y ∈ s.offered, num y < num x) : Kept num size (Outbox.step size s (.offer x)) := by
  have hqueued := hq.offer hsize hx
  unfold Outbox.step at hqueued ⊢
  intro y hy
  rcases List.mem_append.1 hy with hy | hy
  · rcases h y hy with hreceived | hqueue | hflight | hfailed | hnewer
    · exact .inl hreceived
    · rcases put_cases hsize x hq.room with ⟨-, hput⟩ | ⟨z, rest, hz, hlen, hput⟩
      · refine .inr (.inl ?_)
        dsimp only
        rw [hput]
        exact List.mem_append_left _ hqueue
      · rw [hz] at hqueue
        rcases List.mem_cons.1 hqueue with rfl | hrest
        · refine .inr (.inr (.inr (.inr ?_)))
          have hordered := hq.queue
          rw [hz, List.pairwise_cons] at hordered
          have hsub : (rest ++ [x]).Sublist ((s.offered ++ [x]).filter (num y < num ·)) := by
            apply sublist_of_ordered (hput ▸ hqueued.queue) (hqueued.offered.sublist List.filter_sublist)
            intro w hw
            rw [List.mem_filter, decide_eq_true_eq]
            have hw' : w ∈ put size x s.queue := hput ▸ hw
            refine ⟨hqueued.among w hw', ?_⟩
            rcases List.mem_append.1 hw with hw | hw
            · exact hordered.1 w hw
            · exact List.mem_singleton.1 hw ▸ hx y hy
          have hle := hsub.length_le
          rw [List.length_append, List.length_singleton] at hle
          dsimp only
          omega
        · refine .inr (.inl ?_)
          dsimp only
          rw [hput]
          exact List.mem_append_left _ hrest
    · exact .inr (.inr (.inl hflight))
    · exact .inr (.inr (.inr (.inl hfailed)))
    · refine .inr (.inr (.inr (.inr ?_)))
      dsimp only
      rw [List.filter_append, List.length_append]
      omega
  · obtain rfl := List.mem_singleton.1 hy
    obtain ⟨q, -, -, hput⟩ := hq.put hsize y
    refine .inr (.inl ?_)
    dsimp only
    rw [hput]
    exact List.mem_append_right _ hy

theorem Kept.step (hsize : 0 < size) (hq : Queued num size s) (h : Kept num size s) (m : Move n α)
    (hm : Fresh num s m) :
    Kept num size (Outbox.step size s m) := by
  cases m with
  | offer x => exact h.offer hsize hq hm
  | miss x => exact fun _ _ => .inr (.inr (.inr (.inl hm.2)))
  | take i =>
    unfold Outbox.step
    dsimp only
    split
    · rename_i x rest hi hqueue
      intro y hy
      dsimp only
      rcases h y hy with hreceived | hy | ⟨j, hj⟩ | hlost
      · exact .inl hreceived
      · rw [hqueue] at hy
        rcases List.mem_cons.1 hy with rfl | hy
        · exact .inr (.inr (.inl ⟨i, Function.update_self ..⟩))
        · exact .inr (.inl hy)
      · refine .inr (.inr (.inl ⟨j, ?_⟩))
        rw [Function.update_of_ne, hj]
        rintro rfl
        rw [hi] at hj
        cases hj
      · exact .inr (.inr (.inr hlost))
    · exact h
  | sent i =>
    unfold Outbox.step
    dsimp only
    split
    · rename_i x hx
      intro y hy
      dsimp only
      rcases h y hy with hreceived | hqueue | ⟨j, hj⟩ | hlost
      · exact .inl (List.mem_append_left _ hreceived)
      · exact .inr (.inl hqueue)
      · by_cases hji : j = i
        · rw [hji, hx] at hj
          exact .inl (List.mem_append_right _ (List.mem_singleton.2 (Option.some.inj hj).symm))
        · exact .inr (.inr (.inl ⟨j, by rwa [Function.update_of_ne hji]⟩))
      · exact .inr (.inr (.inr hlost))
    · exact h
  | fail i =>
    unfold Outbox.step
    dsimp only
    split
    · exact fun _ _ => .inr (.inr (.inr (.inl rfl)))
    · exact h

/-! ## The order of what is received -/

theorem Lined.offer (hsize : 0 < size) (hq : Queued num size s) (h : Lined num s) {x : α}
    (hx : ∀ y ∈ s.offered, num y < num x) : Lined num (Outbox.step size s (.offer x)) := by
  obtain ⟨q, hsub, -, hqueue⟩ := hq.put hsize x
  unfold Outbox.step
  refine ⟨?_, fun y hy => List.mem_append_left _ (h.among y hy), ?_, h.apart⟩
  · dsimp only
    rw [hqueue, ← List.append_assoc]
    apply offered_concat (h.line.sublist (hsub.append_left _))
    intro y hy
    rcases List.mem_append.1 hy with hy | hy
    · exact hx y (h.among y hy)
    · exact hx y (hq.among y (hsub.subset hy))
  · intro i y hy
    obtain ⟨hmem, hreceived, hflight⟩ := h.flight i y hy
    refine ⟨List.mem_append_left _ hmem, hreceived, ?_⟩
    intro z hz
    rcases mem_put hz with hz | rfl
    · exact hflight z hz
    · exact hx y hmem

/-- The head of the queue is older than the rest, and newer than what is being sent. -/
theorem Lined.take (hq : Queued num size s) (h : Lined num s) (i : Fin n) :
    Lined num (Outbox.step size s (.take i)) := by
  unfold Outbox.step
  dsimp only
  split
  · rename_i x rest hi hqueue
    have hline := h.line
    rw [hqueue] at hline
    have hsub : (s.received ++ rest).Sublist (s.received ++ x :: rest) := (List.sublist_cons_self x rest).append_left _
    have hhead : ∀ j y, s.flights j = some y → num y < num x := by
      intro j y hy
      exact (h.flight j y hy).2.2 x (hqueue ▸ List.mem_cons_self)
    refine ⟨hline.sublist hsub, h.among, ?_, ?_⟩
    · rw [List.pairwise_append, List.pairwise_cons] at hline
      intro j y hy
      dsimp only at hy ⊢
      by_cases hj : j = i
      · rw [hj, Function.update_self] at hy
        obtain rfl := Option.some.inj hy
        refine ⟨hq.among x (hqueue ▸ List.mem_cons_self), ?_, hline.2.1.1⟩
        intro r hr
        exact hline.2.2 r hr x List.mem_cons_self
      · rw [Function.update_of_ne hj] at hy
        obtain ⟨hmem, hreceived, hflight⟩ := h.flight j y hy
        exact ⟨hmem, hreceived, fun z hz => hflight z (hqueue ▸ List.mem_cons_of_mem x hz)⟩
    · intro j k y z hy hz he
      dsimp only at hy hz
      by_cases hj : j = i <;> by_cases hk : k = i
      · rw [hj, hk]
      · rw [hj, Function.update_self] at hy
        rw [Function.update_of_ne hk] at hz
        obtain rfl := Option.some.inj hy
        have hlt := hhead k z hz
        omega
      · rw [hk, Function.update_self] at hz
        rw [Function.update_of_ne hj] at hy
        obtain rfl := Option.some.inj hz
        have hlt := hhead j y hy
        omega
      · rw [Function.update_of_ne hj] at hy
        rw [Function.update_of_ne hk] at hz
        exact h.apart j k y z hy hz he
  · exact h

/-- A sender that is done holds nothing. -/
theorem Lined.land (h : Lined num s) (i : Fin n) {received : List α} {failed : Bool}
    (hline : (received ++ s.queue).Pairwise (num · < num ·)) (hamong : ∀ x ∈ received, x ∈ s.offered)
    (hflight : ∀ j y, j ≠ i → s.flights j = some y → ∀ r ∈ received, num r < num y) :
    Lined num { s with received, failed, flights := Function.update s.flights i none } := by
  have hother : ∀ j y, Function.update s.flights i none j = some y → j ≠ i ∧ s.flights j = some y := by
    intro j y hy
    by_cases hj : j = i
    · rw [hj, Function.update_self] at hy
      cases hy
    · rw [Function.update_of_ne hj] at hy
      exact ⟨hj, hy⟩
  refine ⟨hline, hamong, ?_, ?_⟩
  · intro j y hy
    obtain ⟨hj, hy⟩ := hother j y hy
    obtain ⟨hmem, -, hqueue⟩ := h.flight j y hy
    exact ⟨hmem, hflight j y hj hy, hqueue⟩
  · intro j k y z hy hz
    exact h.apart j k y z (hother j y hy).2 (hother k z hz).2

theorem Lined.sent (h : Lined num s) {i : Fin n}
    (hfirst : ∀ x, s.flights i = some x → ∀ j y, s.flights j = some y → num x ≤ num y) :
    Lined num (Outbox.step size s (.sent i)) := by
  unfold Outbox.step
  dsimp only
  split
  · rename_i x hx
    obtain ⟨hmem, hreceived, hqueue⟩ := h.flight i x hx
    have hline := h.line
    rw [List.pairwise_append] at hline
    apply h.land i
    · rw [List.append_assoc, List.pairwise_append, List.singleton_append, List.pairwise_cons]
      refine ⟨hline.1, ⟨hqueue, hline.2.1⟩, ?_⟩
      intro r hr q hq
      rcases List.mem_cons.1 hq with rfl | hq
      · exact hreceived r hr
      · exact hline.2.2 r hr q hq
    · intro y hy
      rcases List.mem_append.1 hy with hy | hy
      · exact h.among y hy
      · exact List.mem_singleton.1 hy ▸ hmem
    · -- the other items being sent are newer than `x`
      intro j y hj hy r hr
      rcases List.mem_append.1 hr with hr | hr
      · exact (h.flight j y hy).2.1 r hr
      · obtain rfl := List.mem_singleton.1 hr
        have hle := hfirst r hx j y hy
        have hne : num r ≠ num y := fun he => hj (h.apart i j r y hx hy he).symm
        omega
  · exact h

theorem Lined.fail (h : Lined num s) (i : Fin n) : Lined num (Outbox.step size s (.fail i)) := by
  unfold Outbox.step
  dsimp only
  split
  · apply h.land i h.line h.among
    intro j y _ hy r hr
    exact (h.flight j y hy).2.1 r hr
  · exact h

theorem Lined.step (hsize : 0 < size) (hq : Queued num size s) (h : Lined num s) (m : Move n α) (hm : Fresh num s m)
    (hfirst : FirstOut num s m) : Lined num (Outbox.step size s m) := by
  cases m with
  | offer x => exact h.offer hsize hq hm
  | miss x =>
    refine ⟨h.line, fun y hy => List.mem_append_left _ (h.among y hy), ?_, h.apart⟩
    intro i y hy
    exact ⟨List.mem_append_left _ (h.flight i y hy).1, (h.flight i y hy).2⟩
  | take i => exact h.take hq i
  | sent i => exact h.sent hfirst
  | fail i => exact h.fail i

end Outbox
