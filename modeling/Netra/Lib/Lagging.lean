import Netra.Lib.Outbox
/-!
# A queue that drops its oldest item

With one reader, such a queue is a cursor into the list of all that was put in
(`due`): the reader goes on where it stopped, or `size` items before the end if it
is further behind. So it reads items in order, none twice, and misses an item only
after `size` newer ones (`Reads`).
-/
namespace Lagging

variable {α : Type} {size next : Nat} {log : List α}

/-- Where a reader that would read at `next` goes on. -/
def position (size : Nat) (log : List α) (next : Nat) : Nat := max next (log.length - size)

/-- What it has yet to read. -/
def due (size : Nat) (log : List α) (next : Nat) : List α := log.drop (position size log next)

theorem length_due (size : Nat) (log : List α) (next : Nat) :
    (due size log next).length = min (log.length - next) size := by
  rw [due, List.length_drop, position]
  omega

theorem put_due (hsize : 0 < size) (hnext : next ≤ log.length) (x : α) :
    Outbox.put size x (due size log next) = due size (log ++ [x]) next := by
  have hlen := length_due size log next
  have hright : due size (log ++ [x]) next = (log ++ [x]).drop (max next (log.length + 1 - size)) := by
    rw [due, position, List.length_append, List.length_singleton]
  rw [hright]
  rcases Outbox.put_cases hsize x (q := due size log next) (by omega) with ⟨hroom, hput⟩ | ⟨y, rest, hq, hfull, hput⟩
  · have hpos : max next (log.length + 1 - size) = position size log next := by
      unfold position
      omega
    rw [hput, hpos, List.drop_append_of_le_length (by unfold position; omega), due]
  · have hrest : rest = log.drop (position size log next + 1) := by
      rw [← List.drop_drop, ← due, hq, List.drop_one, List.tail_cons]
    have hpos : max next (log.length + 1 - size) = position size log next + 1 := by
      rw [hq, List.length_cons] at hlen
      unfold position
      omega
    have hin : position size log next + 1 ≤ log.length := by
      rw [hq, List.length_cons] at hlen
      unfold position
      omega
    rw [hput, hrest, hpos, List.drop_append_of_le_length hin]

/-- Reading the head of what is due. -/
theorem due_cons {x : α} {rest : List α} (h : due size log next = x :: rest) :
    log[position size log next]? = some x ∧ position size log next < log.length ∧
      rest = due size log (position size log next + 1) := by
  have hx : log[position size log next]? = some x := by
    rw [← Nat.add_zero (position size log next), ← List.getElem?_drop, ← due, h, List.getElem?_cons_zero]
  refine ⟨hx, (List.getElem?_eq_some_iff.1 hx).1, ?_⟩
  have hpos : position size log (position size log next + 1) = position size log next + 1 := by
    unfold position
    omega
  rw [due, hpos, ← List.drop_drop, ← due, h, List.drop_one, List.tail_cons]

/-! ## What a reader has read -/

/-- Of `log`, the items at `picks` were read, and `queue` is left. -/
structure Reads (size : Nat) (log : List α) (picks : List Nat) (next : Nat) (got queue : List α) : Prop where
  next_le : next ≤ log.length
  ordered : picks.Pairwise (· < ·)
  before : ∀ i ∈ picks, i < next
  got : got.map some = picks.map (log[·]?)
  /-- An item that was passed over has `size` newer ones. -/
  passed : ∀ i < next, i ∉ picks → i + size < log.length
  queue : queue = due size log next

variable {picks : List Nat} {got queue : List α}

theorem Reads.init (size : Nat) : Reads size ([] : List α) [] 0 [] [] where
  next_le := Nat.le_refl 0
  ordered := .nil
  before _ hi := by cases hi
  got := rfl
  passed i hi := absurd hi (Nat.not_lt_zero i)
  queue := by rw [due, List.drop_nil]

theorem Reads.put (hsize : 0 < size) (h : Reads size log picks next got queue) (x : α) :
    Reads size (log ++ [x]) picks next got (Outbox.put size x queue) where
  next_le := by
    have hle := h.next_le
    rw [List.length_append]
    omega
  ordered := h.ordered
  before := h.before
  got := by
    rw [h.got]
    refine List.map_congr_left fun i hi => ?_
    exact (List.getElem?_append_left (Nat.lt_of_lt_of_le (h.before i hi) h.next_le)).symm
  passed i hi hmiss := by
    have hlt := h.passed i hi hmiss
    rw [List.length_append]
    omega
  queue := by rw [h.queue, put_due hsize h.next_le]

theorem Reads.take {x : α} {rest : List α} (h : Reads size log picks next got (x :: rest)) :
    Reads size log (picks ++ [position size log next]) (position size log next + 1) (got ++ [x]) rest := by
  obtain ⟨hx, hlt, hrest⟩ := due_cons h.queue.symm
  have hpos : next ≤ position size log next := Nat.le_max_left _ _
  refine ⟨hlt, ?_, ?_, ?_, ?_, hrest⟩
  · rw [List.pairwise_append]
    refine ⟨h.ordered, List.pairwise_singleton _ _, fun i hi j hj => ?_⟩
    rw [List.mem_singleton.1 hj]
    exact Nat.lt_of_lt_of_le (h.before i hi) hpos
  · intro i hi
    rcases List.mem_append.1 hi with hi | hi
    · have hbefore := h.before i hi
      omega
    · rw [List.mem_singleton.1 hi]
      exact Nat.lt_succ_self _
  · rw [List.map_append, List.map_append, h.got, List.map_singleton, List.map_singleton, hx]
  · intro i hi hmiss
    rw [List.mem_append, List.mem_singleton, not_or] at hmiss
    rcases Nat.lt_or_ge i next with hold | hnew
    · exact h.passed i hold hmiss.1
    · -- passed over just now, because the end was further away
      unfold position at hi hmiss
      omega

end Lagging
