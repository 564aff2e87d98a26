import Netra.Lib.Machine
import Mathlib.Logic.Relation
import Mathlib.Data.List.Basic
/-!
# Consumers of two Redis streams

A consumer reads a batch from its side stream, waiting as long as it takes, then
a batch from its main stream, waiting for a while, and starts over. What it has
turned over is `trace`: the entries of both streams in stream order, shuffled,
with idle polls. `delivers_iff` says which entries of the main stream it can
get to on its own.
-/
namespace RedisStream

variable {α β σ ε ω : Type}

/-! ## Streams -/

structure Entry (α : Type) where
  id : Nat
  data : α

/-- A stream and how much of it its group has been given. -/
structure Stream (α : Type) where
  entries : List α
  delivered : Nat
  le : delivered ≤ entries.length

namespace Stream

def empty : Stream α := ⟨[], 0, Nat.le_refl 0⟩

/-- `XADD` -/
def add (s : Stream α) (a : α) : Stream α :=
  ⟨s.entries ++ [a], s.delivered, Nat.le_trans s.le (by simp)⟩

def all (s : Stream α) : List (Entry α) := s.entries.zipIdx.map fun x => ⟨x.2, x.1⟩

/-- The entries that the group has not been given. -/
def pending (s : Stream α) : List (Entry α) := s.all.drop s.delivered

@[simp] theorem length_all (s : Stream α) : s.all.length = s.entries.length := by simp [all]

theorem length_pending (s : Stream α) : s.pending.length = s.entries.length - s.delivered := by
  simp [pending]

/-- `XREADGROUP ... COUNT count STREAMS stream >` -/
def read (s : Stream α) (count : Nat) : Stream α × List (Entry α) :=
  (⟨s.entries, s.delivered + (s.pending.take count).length, by
    have hle := s.le
    rw [List.length_take, length_pending]
    omega⟩, s.pending.take count)

theorem delivered_read (s : Stream α) (count : Nat) :
    (s.read count).1.delivered = s.delivered + min count (s.entries.length - s.delivered) := by
  have hlen : (s.pending.take count).length = min count (s.entries.length - s.delivered) := by
    rw [List.length_take, length_pending]
  exact congrArg (s.delivered + ·) hlen

/-- A read hands out the front of what is pending. -/
theorem read_pending (s : Stream α) (count : Nat) :
    (s.read count).2 ++ (s.read count).1.pending = s.pending := by
  have hrest : (s.read count).1.pending = s.pending.drop (s.pending.take count).length := by
    rw [pending, pending, List.drop_drop]
    rfl
  rw [hrest]
  simp only [read, List.length_take]
  rcases Nat.le_total count s.pending.length with hle | hle
  · rw [Nat.min_eq_left hle, List.take_append_drop]
  · rw [Nat.min_eq_right hle, List.drop_length, List.take_of_length_le hle, List.append_nil]

theorem add_all (s : Stream α) (a : α) : (s.add a).all = s.all ++ [⟨s.entries.length, a⟩] := by
  simp [add, all, List.zipIdx_append]

theorem add_pending (s : Stream α) (a : α) : (s.add a).pending = s.pending ++ [⟨s.entries.length, a⟩] := by
  rw [pending, add_all, List.drop_append_of_le_length]
  · rfl
  · rw [length_all]
    exact s.le

theorem nodup_ids (s : Stream α) : (s.all.map (·.id)).Nodup := by
  have hids : s.all.map (·.id) = List.range s.entries.length := by
    rw [all, List.map_map]
    simp [Function.comp_def, List.zipIdx_map_snd, List.range_eq_range']
  rw [hids]
  exact List.nodup_range

end Stream

/-! ## Consumers -/

/-- What a consumer turns over: an entry of a stream, or an empty poll of the main one. -/
inductive Item (α β : Type) where
  | side (e : Entry α)
  | main (e : Entry β)
  | idle

/-- The two `count`s of a consumer, and what it does with an item; `ε` is what it
asks the host for meanwhile. -/
structure Consumer (σ ε α β ω : Type) where
  sideCount : Nat
  mainCount : Nat
  turn : σ → ε × Item α β → σ × ω

/-- Where the loop is: at a read, or in the batch it has read. -/
inductive Pc (α β : Type) where
  | readSide
  | side (batch : List (Entry α))
  | readMain
  | main (batch : List (Entry β))

structure State (σ α β : Type) where
  vars : σ
  pc : Pc α β := .readSide
  side : Stream α := .empty
  main : Stream β := .empty

/-- What can happen next: the consumer moves on, or an entry is added. -/
inductive Action (ε α β : Type) where
  | work (x : ε)
  | addSide (a : α)
  | addMain (b : β)

namespace Consumer

variable (C : Consumer σ ε α β ω)

/-- The next step of the consumer, with the item it turns over; `none` when it
waits for the side stream. -/
def work (x : ε) (s : State σ α β) : Option (State σ α β × List (ε × Item α β)) :=
  match s.pc with
  | .readSide =>
    -- `BLOCK 0`
    if s.side.pending = [] then none
    else
      let r := s.side.read C.sideCount
      some ({ s with pc := .side r.2, side := r.1 }, [])
  | .side [] => some ({ s with pc := .readMain }, [])
  | .side (e :: batch) =>
    some ({ s with vars := (C.turn s.vars (x, .side e)).1, pc := .side batch }, [(x, .side e)])
  | .readMain =>
    -- `BLOCK 100`: empty after the timeout
    if s.main.pending = [] then
      some ({ s with vars := (C.turn s.vars (x, .idle)).1, pc := .readSide }, [(x, .idle)])
    else
      let r := s.main.read C.mainCount
      some ({ s with pc := .main r.2, main := r.1 }, [])
  | .main [] => some ({ s with pc := .readSide }, [])
  | .main (e :: batch) =>
    some ({ s with vars := (C.turn s.vars (x, .main e)).1, pc := .main batch }, [(x, .main e)])

def step (s : State σ α β) : Action ε α β → State σ α β × List (ε × Item α β)
  | .work x => (C.work x s).getD (s, [])
  | .addSide a => ({ s with side := s.side.add a }, [])
  | .addMain b => ({ s with main := s.main.add b }, [])

/-- The state after `acts`, from empty streams. -/
def after (vars : σ) (acts : List (Action ε α β)) : State σ α β := Mealy.after C.step { vars } acts

/-- What the consumer turned over, in order. -/
def trace (vars : σ) (acts : List (Action ε α β)) : List (ε × Item α β) :=
  (Mealy.outs C.step { vars } acts).flatten

variable {C}

/-! ## Moves of the loop -/

/-- `work` as a relation, one rule for each place in the loop. -/
inductive Moves (C : Consumer σ ε α β ω) (x : ε) : State σ α β → State σ α β → List (ε × Item α β) → Prop
  | readSide {v side main} (hpend : side.pending ≠ []) :
    Moves C x ⟨v, .readSide, side, main⟩
      ⟨v, .side (side.read C.sideCount).2, (side.read C.sideCount).1, main⟩ []
  | endSide {v side main} : Moves C x ⟨v, .side [], side, main⟩ ⟨v, .readMain, side, main⟩ []
  | takeSide {v side main e batch} :
    Moves C x ⟨v, .side (e :: batch), side, main⟩ ⟨(C.turn v (x, .side e)).1, .side batch, side, main⟩ [(x, .side e)]
  | poll {v side main} (hpend : main.pending = []) :
    Moves C x ⟨v, .readMain, side, main⟩ ⟨(C.turn v (x, .idle)).1, .readSide, side, main⟩ [(x, .idle)]
  | readMain {v side main} (hpend : main.pending ≠ []) :
    Moves C x ⟨v, .readMain, side, main⟩
      ⟨v, .main (main.read C.mainCount).2, side, (main.read C.mainCount).1⟩ []
  | endMain {v side main} : Moves C x ⟨v, .main [], side, main⟩ ⟨v, .readSide, side, main⟩ []
  | takeMain {v side main e batch} :
    Moves C x ⟨v, .main (e :: batch), side, main⟩ ⟨(C.turn v (x, .main e)).1, .main batch, side, main⟩ [(x, .main e)]

theorem work_moves {x : ε} {s s' : State σ α β} {out : List (ε × Item α β)} (hw : C.work x s = some (s', out)) :
    C.Moves x s s' out := by
  obtain ⟨v, pc, side, main⟩ := s
  unfold work at hw
  split at hw
  · rename_i hpc
    obtain rfl : pc = .readSide := hpc
    split at hw
    · cases hw
    · rename_i hpend
      cases hw
      exact .readSide hpend
  · rename_i hpc
    obtain rfl : pc = .side [] := hpc
    cases hw
    exact .endSide
  · rename_i e batch hpc
    obtain rfl : pc = .side (e :: batch) := hpc
    cases hw
    exact .takeSide
  · rename_i hpc
    obtain rfl : pc = .readMain := hpc
    split at hw
    · rename_i hpend
      cases hw
      exact .poll hpend
    · rename_i hpend
      cases hw
      exact .readMain hpend
  · rename_i hpc
    obtain rfl : pc = .main [] := hpc
    cases hw
    exact .endMain
  · rename_i e batch hpc
    obtain rfl : pc = .main (e :: batch) := hpc
    cases hw
    exact .takeMain

/-- The one place where the consumer waits. -/
theorem work_stuck {x : ε} {s : State σ α β} (hw : C.work x s = none) : s.pc = .readSide ∧ s.side.pending = [] := by
  unfold work at hw
  split at hw
  · rename_i hpc
    split at hw
    · rename_i hpend
      exact ⟨hpc, hpend⟩
    · cases hw
  · cases hw
  · cases hw
  · split at hw <;> cases hw
  · cases hw
  · cases hw

/-- A step is a move, or the consumer waits, or an entry comes in. -/
theorem step_work (x : ε) (s : State σ α β) :
    C.step s (.work x) = (s, []) ∨ C.Moves x s (C.step s (.work x)).1 (C.step s (.work x)).2 := by
  cases hw : C.work x s with
  | none => exact .inl (by simp [step, hw])
  | some r =>
    obtain ⟨s', out⟩ := r
    exact .inr (by simpa [step, hw] using work_moves hw)

/-! ## The trace -/

/-- The items of a run, in order. -/
def items (C : Consumer σ ε α β ω) (vars : σ) (acts : List (Action ε α β)) : List (Item α β) :=
  (C.trace vars acts).map (·.2)

/-- The entries of the side stream among items. -/
def sides (is : List (Item α β)) : List (Entry α) :=
  is.filterMap fun
    | .side e => some e
    | _ => none

/-- The side entries in hand. -/
def inHand : Pc α β → List (Entry α)
  | .side batch => batch
  | _ => []

theorem sides_append (is js : List (Item α β)) : sides (is ++ js) = sides is ++ sides js := List.filterMap_append

theorem mem_sides {is : List (Item α β)} {e : Entry α} (h : .side e ∈ is) : e ∈ sides is :=
  List.mem_filterMap.2 ⟨_, h, rfl⟩

/-- A move takes side entries on towards the items. -/
theorem sides_moves {x : ε} {s s' : State σ α β} {out : List (ε × Item α β)} (hm : C.Moves x s s' out) :
    s'.side.all = s.side.all ∧
      sides (out.map (·.2)) ++ inHand s'.pc ++ s'.side.pending = inHand s.pc ++ s.side.pending := by
  cases hm with
  | readSide => exact ⟨rfl, by simpa [sides, inHand] using Stream.read_pending _ C.sideCount⟩
  | _ => exact ⟨rfl, by simp [sides, inHand]⟩

/-- A step takes side entries on towards the items; only a new one comes in. -/
theorem sides_step (s : State σ α β) (a : Action ε α β) :
    ∃ new, (C.step s a).1.side.all = s.side.all ++ new ∧
      sides ((C.step s a).2.map (·.2)) ++ inHand (C.step s a).1.pc ++ (C.step s a).1.side.pending =
        inHand s.pc ++ s.side.pending ++ new := by
  cases a with
  | addSide a =>
    refine ⟨_, Stream.add_all s.side a, ?_⟩
    simp [step, sides, Stream.add_pending]
  | addMain b => exact ⟨[], by simp [step], by simp [step, sides]⟩
  | work x =>
    refine ⟨[], ?_⟩
    rw [List.append_nil, List.append_nil]
    rcases step_work x s with hwait | hm
    · rw [hwait]
      exact ⟨rfl, rfl⟩
    · exact sides_moves hm

/-- The side stream is turned over in order: first the items, then the batch in
hand, then what is pending. -/
theorem sides_items (vars : σ) (acts : List (Action ε α β)) :
    sides (C.items vars acts) ++ inHand (C.after vars acts).pc ++ (C.after vars acts).side.pending =
      (C.after vars acts).side.all := by
  induction acts using List.reverseRecOn with
  | nil => rfl
  | append_singleton acts a ih =>
    -- `sides_step` moves the step's entries across the two appends
    obtain ⟨new, hall, hnew⟩ := sides_step (C := C) (C.after vars acts) a
    have hitems : C.items vars (acts ++ [a]) =
        C.items vars acts ++ (C.step (C.after vars acts) a).2.map (·.2) := by
      simp [items, trace, Mealy.outs_append, after]
    have hafter : C.after vars (acts ++ [a]) = (C.step (C.after vars acts) a).1 := Mealy.after_concat ..
    rw [hitems, hafter, hall, sides_append, List.append_assoc, List.append_assoc,
      ← List.append_assoc (sides _) (inHand _), hnew, ← ih]
    simp

/-- No side entry is turned over twice. -/
theorem side_once {vars : σ} {acts : List (Action ε α β)} {pre post : List (Item α β)} {e : Entry α}
    (h : C.items vars acts = pre ++ .side e :: post) :
    (∀ e', .side e' ∈ pre → e'.id ≠ e.id) ∧ ∀ e', .side e' ∈ post → e'.id ≠ e.id := by
  have hall := Stream.nodup_ids (C.after vars acts).side
  rw [← sides_items, List.append_assoc, List.map_append] at hall
  have hnodup := (List.nodup_append.1 hall).1
  have hsides : sides (pre ++ .side e :: post) = sides pre ++ e :: sides post := by
    rw [sides_append]
    rfl
  rw [h, hsides, List.map_append, List.map_cons, List.nodup_append, List.nodup_cons] at hnodup
  obtain ⟨-, ⟨hpost, -⟩, hpre⟩ := hnodup
  constructor
  · intro e' he'
    exact hpre _ (List.mem_map.2 ⟨e', mem_sides he', rfl⟩) _ List.mem_cons_self
  · intro e' he' hid
    exact hpost (List.mem_map.2 ⟨e', mem_sides he', hid⟩)

/-! ## What the consumer gets to on its own -/

/-- One step of the consumer itself. -/
def Own (C : Consumer σ ε α β ω) (s s' : State σ α β) : Prop := ∃ x items, C.work x s = some (s', items)

/-- By steps of its own the consumer gets the main entry at `j`. -/
def Delivers (C : Consumer σ ε α β ω) (s : State σ α β) (j : Nat) : Prop :=
  ∃ s', Relation.ReflTransGen C.Own s s' ∧ j < s'.main.delivered

/-- How many reads it takes to be given `n` entries. -/
def reads (count n : Nat) : Nat := (n + count - 1) / count

/-- Whether the loop comes to its main read before its side read. -/
def atMain : Pc α β → Bool
  | .readSide => false
  | .side _ => true
  | .readMain => true
  | .main _ => false

/-- The main reads ahead of the consumer when nothing is added to the side stream:
one after each side read it can still make. -/
def mainReads (C : Consumer σ ε α β ω) (s : State σ α β) : Nat :=
  reads C.sideCount s.side.pending.length + (atMain s.pc).toNat

/-- How far into the main stream the consumer gets by itself. -/
def reach (C : Consumer σ ε α β ω) (s : State σ α β) : Nat :=
  min s.main.entries.length (s.main.delivered + C.mainCount * C.mainReads s)

/-- Steps left, or more. -/
def fuel (s : State σ α β) : Nat :=
  5 * s.side.pending.length + 3 * s.main.pending.length + match s.pc with
    | .readSide => 0
    | .side batch => 3 + batch.length
    | .readMain => 2
    | .main batch => 1 + batch.length

theorem reads_zero {count : Nat} (hc : 0 < count) : reads count 0 = 0 := by
  rw [reads, Nat.zero_add]
  exact Nat.div_eq_of_lt (by omega)

theorem reads_succ {count n : Nat} (hc : 0 < count) (hn : 0 < n) :
    reads count n = reads count (n - min count n) + 1 := by
  rcases Nat.le_total n count with hle | hle
  · rw [Nat.min_eq_right hle, Nat.sub_self, reads_zero hc, reads]
    exact Nat.div_eq_of_lt_le (by omega) (by omega)
  · rw [Nat.min_eq_left hle, reads, reads, ← Nat.add_div_right _ hc]
    congr 1
    omega

theorem Stream.length_read_pending (s : Stream α) (count : Nat) :
    (s.read count).1.pending.length = s.pending.length - min count s.pending.length := by
  have hentries : (s.read count).1.entries = s.entries := rfl
  rw [Stream.length_pending, Stream.delivered_read, Stream.length_pending, hentries]
  omega

/-- Its own steps do not change how far the consumer gets. -/
theorem reach_own (hside : 0 < C.sideCount) {s s' : State σ α β} (ho : C.Own s s') : C.reach s' = C.reach s := by
  obtain ⟨x, items, hw⟩ := ho
  cases work_moves hw with
  | readSide hpend =>
    have hreads := reads_succ hside (List.length_pos_iff.2 hpend)
    rw [← Stream.length_read_pending] at hreads
    simp [reach, mainReads, atMain, hreads]
  | @poll _ _ main hpend =>
    -- the main stream was given out whole, so the missed read loses nothing
    have hlen := congrArg List.length hpend
    have hle := main.le
    rw [Stream.length_pending, List.length_nil] at hlen
    simp only [reach]
    omega
  | @readMain _ _ main hpend =>
    have hle := main.le
    have hentries : (main.read C.mainCount).1.entries = main.entries := rfl
    simp only [reach, mainReads, atMain, Stream.delivered_read, hentries, Bool.toNat_false, Bool.toNat_true,
      Nat.add_zero, Nat.mul_succ]
    omega
  | _ => simp [reach, mainReads, atMain]

theorem fuel_own (hside : 0 < C.sideCount) (hmain : 0 < C.mainCount) {s s' : State σ α β} (ho : C.Own s s') :
    fuel s' < fuel s := by
  obtain ⟨x, items, hw⟩ := ho
  cases work_moves hw with
  | @readSide _ side _ hpend =>
    have hgot := Nat.lt_min.2 ⟨hside, List.length_pos_iff.2 hpend⟩
    have hbatch : (side.read C.sideCount).2.length = min C.sideCount side.pending.length := List.length_take
    simp only [fuel, Stream.length_read_pending, hbatch]
    omega
  | @readMain _ _ main hpend =>
    have hgot := Nat.lt_min.2 ⟨hmain, List.length_pos_iff.2 hpend⟩
    have hbatch : (main.read C.mainCount).2.length = min C.mainCount main.pending.length := List.length_take
    simp only [fuel, Stream.length_read_pending, hbatch]
    omega
  | _ => simp [fuel]

/-- A consumer that cannot move has got as far as it gets. -/
theorem reach_stuck (hside : 0 < C.sideCount) {s : State σ α β} {x : ε} (hs : C.work x s = none) :
    C.reach s = s.main.delivered := by
  obtain ⟨hpc, hpend⟩ := work_stuck hs
  have hle := s.main.le
  simp only [reach, mainReads, atMain, hpc, hpend, List.length_nil, reads_zero hside, Bool.toNat_false,
    Nat.add_zero, Nat.mul_zero]
  omega

/-- The consumer gets exactly as far as it has reads of the main stream ahead. -/
theorem delivers_iff [Nonempty ε] (hside : 0 < C.sideCount) (hmain : 0 < C.mainCount) (s : State σ α β)
    (j : Nat) : C.Delivers s j ↔ j < C.reach s := by
  have hreached (s : State σ α β) : s.main.delivered ≤ C.reach s := by
    have hle := s.main.le
    simp only [reach]
    omega
  constructor
  · rintro ⟨s', hsteps, hj⟩
    have hreach : C.reach s' = C.reach s := by
      clear hj
      induction hsteps with
      | refl => rfl
      | tail _ ho ih => exact (reach_own hside ho).trans ih
    exact hreach ▸ Nat.lt_of_lt_of_le hj (hreached s')
  · intro hj
    obtain ⟨x⟩ := ‹Nonempty ε›
    -- the consumer moves until it is stuck, by induction on `fuel`
    induction hn : fuel s using Nat.strongRecOn generalizing s with
    | _ n ih =>
      cases hw : C.work x s with
      | none => exact ⟨s, .refl, reach_stuck hside hw ▸ hj⟩
      | some r =>
        obtain ⟨s', items⟩ := r
        have ho : C.Own s s' := ⟨x, items, hw⟩
        obtain ⟨s'', hsteps, hj''⟩ := ih _ (hn ▸ fuel_own hside hmain ho) s' (reach_own hside ho ▸ hj) rfl
        exact ⟨s'', .head ho hsteps, hj''⟩

end Consumer

end RedisStream
