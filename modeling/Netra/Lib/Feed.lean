import Netra.Lib.Machine
/-!
# Reading an append-only log by cursor

A reader calls for the entries behind its cursor, as `XREAD` with an id. Until
it has seen an entry its cursor is `$`: each call then reads from where the log
ends when it begins. A call ends with the first entries behind its start, with
none, or with an error. Entries are known by their place in the log.

`settled_step` says which single steps lose an entry for good, and `handed_readOn`
that all others are handed over once the reader reads on.
-/
namespace Feed

variable {μ β : Type}

structure State (μ β : Type) where
  log : List μ
  /-- `none` is `$` -/
  cursor : Option Nat
  /-- where the call in progress reads from -/
  waiting : Option Nat
  /-- where the first call read from -/
  since : Option Nat
  /-- what was handed over, with its place in the log -/
  handed : List (Nat × β)

def State.init (μ β : Type) : State μ β := ⟨[], none, none, none, []⟩

inductive Action (μ : Type) where
  | append (m : μ)
  | call
  | reply
  | fail

section
variable (count : Nat) (read : μ → Option β)

/-- The entries of `ms` that can be read, where the first one has place `p`. -/
def readable (p : Nat) (ms : List μ) : List (Nat × β) :=
  (ms.zipIdx p).filterMap fun (m, i) => (read m).map fun b => (i, b)

/-- A reply has `count` entries at most. -/
def step (s : State μ β) : Action μ → State μ β
  | .append m => { s with log := s.log ++ [m] }
  | .call =>
    match s.waiting with
    | some _ => s
    | none =>
      let p := s.cursor.getD s.log.length
      { s with waiting := some p, since := some (s.since.getD p) }
  | .reply =>
    match s.waiting with
    | none => s
    | some p =>
      let got := (s.log.drop p).take count
      { s with
        waiting := none
        cursor := if got.isEmpty then s.cursor else some (p + got.length)
        handed := s.handed ++ readable read p got }
  | .fail => { s with waiting := none }

/-- The state after the actions `as`. -/
def after (s : State μ β) (as : List (Action μ)) : State μ β := as.foldl (step count read) s

/-- `n` calls, each answered. -/
def readOn (μ : Type) (n : Nat) : List (Action μ) := (List.replicate n [.call, .reply]).flatten

/-- The readable entries appended since the first call began. -/
def due (s : State μ β) : List (Nat × β) :=
  match s.since with
  | none => []
  | some p => readable read p (s.log.drop p)

/-- Where the call in progress reads from, or else the next one if it began now. -/
def State.next (s : State μ β) : Nat := s.waiting.getD (s.cursor.getD s.log.length)

/-- The readable entries the reader comes to when it reads on. -/
def ahead (s : State μ β) : List (Nat × β) := readable read s.next (s.log.drop s.next)

/-- Every entry due was handed over, in order and once, or lies ahead. -/
def Settled (s : State μ β) : Prop := s.handed ++ ahead read s = due read s

/-- The reader has called before, holds no id, and no call is in progress. -/
def State.Unwatched (s : State μ β) : Prop := s.since ≠ none ∧ s.cursor = none ∧ s.waiting = none

/-- A step that loses no entry. -/
def Keeps (s : State μ β) : Action μ → Prop
  | .append m => s.Unwatched → read m = none
  | .fail => s.cursor = none → ∀ p, s.waiting = some p → ∀ m ∈ s.log.drop p, read m = none
  | .call | .reply => True

end

variable {count : Nat} {read : μ → Option β} {s : State μ β}

/-! ## Readable entries -/

@[simp] theorem readable_nil (p : Nat) : readable read p [] = [] := rfl

theorem readable_append (p : Nat) (ms ms' : List μ) :
    readable read p (ms ++ ms') = readable read p ms ++ readable read (p + ms.length) ms' := by
  rw [readable, List.zipIdx_append, List.filterMap_append]
  rfl

theorem readable_eq_nil {p : Nat} {ms : List μ} : readable read p ms = [] ↔ ∀ m ∈ ms, read m = none := by
  induction ms generalizing p with
  | nil => simp
  | cons m ms ih =>
    rw [← List.singleton_append, readable_append, List.append_eq_nil_iff, ih]
    simp [readable]

theorem readable_drop_append {p : Nat} {ms : List μ} (m : μ) (hp : p ≤ ms.length) :
    readable read p ((ms ++ [m]).drop p) = readable read p (ms.drop p) ++ readable read ms.length [m] := by
  rw [List.drop_append_of_le_length hp, readable_append, List.length_drop, Nat.add_sub_cancel' hp]

/-- What is left behind the first `n` entries from `p`. -/
theorem readable_take_drop (p n : Nat) (ms : List μ) :
    readable read p (ms.drop p) = readable read p ((ms.drop p).take n) ++
      readable read (p + ((ms.drop p).take n).length) (ms.drop (p + ((ms.drop p).take n).length)) := by
  conv_lhs => rw [← List.take_append_drop n (ms.drop p), readable_append]
  congr 2
  rw [List.drop_drop]
  rcases Nat.le_total n (ms.drop p).length with h | h
  · rw [List.length_take, Nat.min_eq_left h]
  · rw [List.take_of_length_le h, List.length_drop]
    rw [List.length_drop] at h
    rw [List.drop_eq_nil_of_le (by omega), List.drop_eq_nil_of_le (by omega)]

/-! ## The shape of a state -/

/-- Places in the log, and what was handed over and lies ahead among what is due. -/
structure Grounded (read : μ → Option β) (s : State μ β) : Prop where
  waiting : ∀ p, s.waiting = some p → p ≤ s.log.length ∧ ∀ c, s.cursor = some c → c = p
  cursor : ∀ c, s.cursor = some c → c ≤ s.log.length
  since : ∀ p, s.since = some p → p ≤ s.log.length
  fresh : s.since = none → s.cursor = none ∧ s.waiting = none ∧ s.handed = []
  among : (s.handed ++ ahead read s).Sublist (due read s)

theorem next_idle (hcursor : s.cursor = none) (hwaiting : s.waiting = none) : s.next = s.log.length := by
  rw [State.next, hcursor, hwaiting]
  rfl

theorem ahead_idle (hcursor : s.cursor = none) (hwaiting : s.waiting = none) : ahead read s = [] := by
  rw [ahead, next_idle hcursor hwaiting, List.drop_length]
  rfl

namespace Grounded

theorem init : Grounded read (State.init μ β) := by
  refine ⟨nofun, nofun, nofun, fun _ => ⟨rfl, rfl, rfl⟩, ?_⟩
  exact List.Sublist.refl []

theorem next_le (h : Grounded read s) : s.next ≤ s.log.length := by
  unfold State.next
  cases hw : s.waiting with
  | some p => exact (h.waiting p hw).1
  | none =>
    cases hc : s.cursor with
    | some c => exact h.cursor c hc
    | none => exact Nat.le_refl _

theorem due_append (h : Grounded read s) (m : μ) :
    due read (step count read s (.append m)) =
      due read s ++ if s.since = none then [] else readable read s.log.length [m] := by
  unfold due step
  dsimp only
  cases hs : s.since with
  | none => rfl
  | some p => exact readable_drop_append m (h.since p hs)

theorem ahead_append (h : Grounded read s) (m : μ) :
    ahead read (step count read s (.append m)) =
      ahead read s ++ if s.cursor = none ∧ s.waiting = none then [] else readable read s.log.length [m] := by
  split
  · rename_i hidle
    have hidle' : ahead read (step count read s (.append m)) = [] := ahead_idle (by exact hidle.1) (by exact hidle.2)
    rw [ahead_idle hidle.1 hidle.2, hidle']
    rfl
  · rename_i hbusy
    have hnext : (step count read s (.append m)).next = s.next := by
      unfold State.next step
      cases hw : s.waiting with
      | some p => rfl
      | none =>
        cases hc : s.cursor with
        | some c => rfl
        | none => exact absurd ⟨hc, hw⟩ hbusy
    rw [ahead, hnext]
    exact readable_drop_append m h.next_le

theorem ahead_call : ahead read (step count read s .call) = ahead read s := by
  unfold step
  cases hw : s.waiting with
  | some p => rfl
  | none => simp only [ahead, State.next, hw, Option.getD_some, Option.getD_none]

theorem due_call (h : Grounded read s) : due read (step count read s .call) = due read s := by
  unfold step
  cases hw : s.waiting with
  | some p => rfl
  | none =>
    unfold due
    dsimp only
    cases hs : s.since with
    | some p => rfl
    | none =>
      obtain ⟨hc, -, -⟩ := h.fresh hs
      rw [hc, Option.getD_none, Option.getD_none, List.drop_length]
      rfl

theorem handed_call : (Feed.step count read s .call).handed = s.handed := by
  unfold Feed.step
  cases s.waiting <;> rfl

theorem due_reply : due read (Feed.step count read s .reply) = due read s := by
  unfold Feed.step
  cases s.waiting <;> rfl

/-- A reply hands over what it no longer leaves ahead. -/
theorem covered_reply (hcount : 0 < count) (h : Grounded read s) :
    (step count read s .reply).handed ++ ahead read (step count read s .reply) = s.handed ++ ahead read s := by
  unfold step
  cases hw : s.waiting with
  | none => rfl
  | some p =>
    have hahead : ahead read s = readable read p (s.log.drop p) := by
      rw [ahead, State.next, hw]
      rfl
    rw [hahead]
    dsimp only
    split
    · -- nothing behind `p`, so nothing behind the cursor
      rename_i hempty
      rw [List.isEmpty_iff, List.take_eq_nil_iff] at hempty
      have hend : s.log.drop p = [] := hempty.resolve_left (by omega)
      have hnext : s.log.drop (s.cursor.getD s.log.length) = [] := by
        cases hc : s.cursor with
        | none => exact List.drop_length
        | some c =>
          rw [(h.waiting p hw).2 c hc]
          exact hend
      simp only [ahead, State.next, Option.getD_none, hnext, hend, List.take_nil, readable_nil, List.append_nil]
    · rw [List.append_assoc, readable_take_drop p count s.log]
      rfl

theorem covered_fail_of_cursor (h : Grounded read s) {c : Nat} (hcursor : s.cursor = some c) :
    ahead read (step count read s .fail) = ahead read s := by
  unfold ahead State.next step
  dsimp only
  cases hw : s.waiting with
  | none => rfl
  | some p =>
    rw [hcursor, (h.waiting p hw).2 c hcursor]
    rfl

theorem ahead_fail_of_none (hcursor : s.cursor = none) : ahead read (step count read s .fail) = [] :=
  ahead_idle hcursor rfl

theorem append (h : Grounded read s) (m : μ) : Grounded read (step count read s (.append m)) := by
  have hle {p : Nat} (hp : p ≤ s.log.length) : p ≤ (s.log ++ [m]).length := by
    rw [List.length_append]
    omega
  refine ⟨fun p hp => ?_, fun c hc => hle (h.cursor c hc), fun p hp => hle (h.since p hp), h.fresh, ?_⟩
  · exact ⟨hle (h.waiting p hp).1, (h.waiting p hp).2⟩
  · rw [h.due_append, h.ahead_append, ← List.append_assoc]
    refine h.among.append ?_
    split
    · exact List.nil_sublist _
    · rename_i hbusy
      have hs : s.since ≠ none := fun hs => hbusy ⟨(h.fresh hs).1, (h.fresh hs).2.1⟩
      simp only [hs, if_false, List.Sublist.refl]

theorem call (h : Grounded read s) : Grounded read (step count read s .call) := by
  have hamong := h.among
  have hahead : ahead read (step count read s .call) = ahead read s := ahead_call
  have hdue : due read (step count read s .call) = due read s := h.due_call
  rw [← hahead, ← hdue] at hamong
  unfold step at hamong ⊢
  cases hw : s.waiting with
  | some p => exact h
  | none =>
    rw [hw] at hamong
    have hstart : s.cursor.getD s.log.length ≤ s.log.length := by
      cases hc : s.cursor with
      | some c => exact h.cursor c hc
      | none => exact Nat.le_refl _
    refine ⟨?_, h.cursor, ?_, nofun, hamong⟩
    · rintro p hp
      obtain rfl := Option.some.inj hp
      exact ⟨hstart, fun c hc => by rw [hc]; rfl⟩
    · rintro p hp
      obtain rfl := Option.some.inj hp
      cases hs : s.since with
      | some p => exact h.since p hs
      | none => exact hstart

theorem reply (hcount : 0 < count) (h : Grounded read s) : Grounded read (step count read s .reply) := by
  have hamong := h.among
  rw [← h.covered_reply hcount] at hamong
  unfold step at hamong ⊢
  cases hw : s.waiting with
  | none => exact h
  | some p =>
    rw [hw] at hamong
    refine ⟨nofun, ?_, h.since, fun hs => ?_, hamong⟩
    · dsimp only
      intro c hc
      split at hc
      · exact h.cursor c hc
      · obtain rfl := Option.some.inj hc
        have hp := (h.waiting p hw).1
        rw [List.length_take, List.length_drop]
        omega
    · have hidle := (h.fresh hs).2.1
      rw [hw] at hidle
      cases hidle

theorem fail (h : Grounded read s) : Grounded read (step count read s .fail) := by
  refine ⟨nofun, h.cursor, h.since, fun hs => ⟨(h.fresh hs).1, rfl, (h.fresh hs).2.2⟩, ?_⟩
  cases hc : s.cursor with
  | some c =>
    rw [h.covered_fail_of_cursor hc]
    exact h.among
  | none =>
    rw [ahead_fail_of_none hc, List.append_nil]
    exact (List.sublist_append_left _ _).trans h.among

theorem step (hcount : 0 < count) (h : Grounded read s) (a : Action μ) : Grounded read (step count read s a) := by
  cases a with
  | append m => exact h.append m
  | call => exact h.call
  | reply => exact h.reply hcount
  | fail => exact h.fail

end Grounded

/-! ## The steps that lose an entry -/

theorem eq_append_iff {α : Type} {l m r : List α} (h : l.Sublist m) : l = m ++ r ↔ l = m ∧ r = [] := by
  constructor
  · intro he
    have hlen := h.length_le
    rw [he, List.length_append] at hlen
    have hr : r = [] := List.length_eq_zero_iff.1 (by omega)
    rw [he, hr, List.append_nil]
    exact ⟨rfl, rfl⟩
  · rintro ⟨rfl, rfl⟩
    rw [List.append_nil]

theorem eq_iff_append_eq {α : Type} {l m r : List α} (h : (l ++ r).Sublist m) : l = m ↔ l ++ r = m ∧ r = [] := by
  constructor
  · rintro rfl
    have hlen := h.length_le
    rw [List.length_append] at hlen
    obtain rfl := List.length_eq_zero_iff.1 (show r.length = 0 by omega)
    exact ⟨List.append_nil l, rfl⟩
  · rintro ⟨he, rfl⟩
    rwa [List.append_nil] at he

/-- A step leaves every entry due handed over or ahead, unless it loses one; and
what was lost before stays lost. -/
theorem settled_step (hcount : 0 < count) (h : Grounded read s) (a : Action μ) :
    Settled read (step count read s a) ↔ Settled read s ∧ Keeps read s a := by
  unfold Settled
  cases a with
  | append m =>
    have hread : readable read s.log.length [m] = [] ↔ read m = none := by
      rw [readable_eq_nil, List.forall_mem_singleton]
    rw [h.due_append, h.ahead_append, ← List.append_assoc, show (step count read s _).handed = s.handed from rfl]
    by_cases hidle : s.cursor = none ∧ s.waiting = none
    · rw [if_pos hidle, List.append_nil]
      by_cases hs : s.since = none
      · rw [if_pos hs, List.append_nil]
        exact (and_iff_left fun hu => absurd hs hu.1).symm
      · rw [if_neg hs, eq_append_iff h.among, hread]
        exact and_congr_right fun _ => ⟨fun hm _ => hm, fun hm => hm ⟨hs, hidle⟩⟩
    · have hs : s.since ≠ none := fun hs => hidle ⟨(h.fresh hs).1, (h.fresh hs).2.1⟩
      rw [if_neg hidle, if_neg hs, List.append_left_inj]
      exact (and_iff_left fun hu => absurd hu.2 hidle).symm
  | call =>
    rw [Grounded.ahead_call, h.due_call, Grounded.handed_call]
    exact (and_iff_left trivial).symm
  | reply =>
    rw [h.covered_reply hcount, Grounded.due_reply]
    exact (and_iff_left trivial).symm
  | fail =>
    have hdue : due read (step count read s .fail) = due read s := rfl
    have hhanded : (step count read s .fail).handed = s.handed := rfl
    rw [hdue, hhanded]
    cases hc : s.cursor with
    | some c =>
      rw [h.covered_fail_of_cursor hc]
      exact (and_iff_left fun hn => by rw [hc] at hn; cases hn).symm
    | none =>
      rw [Grounded.ahead_fail_of_none hc, List.append_nil, eq_iff_append_eq h.among]
      refine and_congr_right fun _ => ?_
      cases hw : s.waiting with
      | none =>
        rw [ahead_idle hc hw]
        exact ⟨fun _ _ p hp => (by rw [hw] at hp; cases hp), fun _ => rfl⟩
      | some p =>
        rw [ahead, State.next, hw, Option.getD_some, readable_eq_nil]
        constructor
        · intro hlost _ p' hp'
          rw [hw] at hp'
          obtain rfl := Option.some.inj hp'
          exact hlost
        · exact fun hlost => hlost hc p hw

/-! ## Reading on -/

/-- How many entries lie ahead. -/
def State.unread (s : State μ β) : Nat := s.log.length - s.next

/-- A call and its reply. -/
def State.turn (count : Nat) (read : μ → Option β) (s : State μ β) : State μ β :=
  step count read (step count read s .call) .reply

theorem waiting_call : (step count read s .call).waiting = some s.next := by
  unfold State.next
  cases hw : s.waiting with
  | none => simp only [step, hw, Option.getD_none]
  | some p => simp only [step, hw, Option.getD_some]

theorem log_call : (step count read s .call).log = s.log := by
  unfold step
  cases s.waiting <;> rfl

theorem unread_turn (hcount : 0 < count) (h : Grounded read s) : (s.turn count read).unread ≤ s.unread - 1 := by
  have hcall := h.step hcount .call
  have hwait : (step count read s .call).waiting = some s.next := waiting_call
  have hlog : (step count read s .call).log = s.log := log_call
  unfold State.turn
  generalize step count read s .call = s' at hcall hwait hlog
  have hlog' : (step count read s' .reply).log = s.log := by simp only [step, hwait, hlog]
  have hnext : (step count read s' .reply).next =
      (if ((s.log.drop s.next).take count).isEmpty then s'.cursor
        else some (s.next + ((s.log.drop s.next).take count).length)).getD s.log.length := by
    rw [State.next]
    simp only [step, hwait, hlog]
    rfl
  rw [State.unread, State.unread, hlog', hnext]
  split
  · rename_i hempty
    rw [List.isEmpty_iff, List.take_eq_nil_iff, List.drop_eq_nil_iff] at hempty
    have hend := hempty.resolve_left (by omega)
    have hcursor : s.next ≤ s'.cursor.getD s.log.length := by
      cases hc : s'.cursor with
      | none => exact h.next_le
      | some c => exact Nat.le_of_eq ((hcall.waiting s.next hwait).2 c hc).symm
    omega
  · rename_i hsome
    rw [List.isEmpty_iff, ← List.length_eq_zero_iff] at hsome
    rw [Option.getD_some]
    omega

theorem covered_turn (hcount : 0 < count) (h : Grounded read s) :
    (s.turn count read).handed ++ ahead read (s.turn count read) = s.handed ++ ahead read s := by
  rw [State.turn, (h.step hcount .call).covered_reply hcount, Grounded.handed_call, Grounded.ahead_call]

theorem readOn_succ (n : Nat) : readOn μ (n + 1) = .call :: .reply :: readOn μ n := by
  rw [readOn, List.replicate_succ, List.flatten_cons]
  rfl

/-- Enough calls hand over all that lies ahead. -/
theorem handed_readOn (hcount : 0 < count) (h : Grounded read s) {n : Nat} (hn : s.unread ≤ n) :
    (after count read s (readOn μ n)).handed = s.handed ++ ahead read s := by
  induction n generalizing s with
  | zero =>
    have hend : s.log.drop s.next = [] := by
      rw [List.drop_eq_nil_iff]
      unfold State.unread at hn
      omega
    rw [ahead, hend, readable_nil, List.append_nil]
    rfl
  | succ n ih =>
    have hturn := unread_turn hcount h
    rw [readOn_succ, ← covered_turn hcount h]
    exact ih ((h.step hcount .call).step hcount .reply) (by unfold State.turn at hturn; omega)

/-- Once the reader reads on, it has handed over just what is due, if it lost nothing. -/
theorem handed_readOn_iff (hcount : 0 < count) (h : Grounded read s) :
    (after count read s (readOn μ s.log.length)).handed = due read s ↔ Settled read s := by
  rw [handed_readOn hcount h (Nat.sub_le _ _)]
  rfl

end Feed
