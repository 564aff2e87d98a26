import Netra.Lib.Calls
import Mathlib.Algebra.BigOperators.Fin
import Mathlib.Algebra.BigOperators.Group.Finset.Piecewise
/-!
# Calls that read a cell and write it back

Each call reads the whole cell, makes something of what it read and writes that.
When every call adds to a measure of the cell, all that was added is there in the
end if and only if no call wrote between the read and the write of another
(`measure_iff`).
-/
namespace Cell

open Calls

variable {σ κ α : Type}

inductive Stmt (σ : Type) where
  | get
  | set (x : σ)

/-- `get` hands back what is in the cell. -/
def perform (_ : Unit) : Stmt σ → σ → Option (σ × σ)
  | .get, x => some (x, x)
  | .set y, _ => some (y, y)

/-- Read the cell, write `f` of it. -/
def rewrite (f : σ → σ) (a : α) : Prog (Stmt σ) σ α := .stmt .get fun x => .stmt (.set (f x)) fun _ => .ret a

section
variable (prog : κ → Prog (Stmt σ) σ α)

/-- The calls `cs`, none of which has done anything. -/
def started (x : σ) (cs : List κ) : Pool κ (Stmt σ) σ α σ where
  store := x
  calls i := cs[i]?.bind fun c => enter c [] (prog c)

/-- The next statement of call `i`. -/
def turn (p : Pool κ (Stmt σ) σ α σ) (i : Nat) : Pool κ (Stmt σ) σ α σ × Outcome κ (Stmt σ) σ α σ Unit :=
  step prog perform p (.perform i ())

def cellAfter (x : σ) (cs : List κ) (turns : List Nat) : Pool κ (Stmt σ) σ α σ :=
  Mealy.after (turn prog) (started prog x cs) turns

theorem started_congr {prog prog' : κ → Prog (Stmt σ) σ α} {cs : List κ} (h : ∀ c ∈ cs, prog c = prog' c) (x : σ) :
    started prog x cs = started prog' x cs := by
  unfold started
  congr 1
  funext i
  refine Option.bind_congr fun c hc => ?_
  rw [h c (List.mem_of_getElem? hc)]

end

/-- Call `i` has read the cell and comes to its write. -/
def Holds (p : Pool κ (Stmt σ) σ α σ) (i : Nat) : Prop := ∃ q y, p.calls i = some q ∧ q.next = .set y

/-- When `i` writes, no other call has read the cell and not written it yet. -/
def Alone (p : Pool κ (Stmt σ) σ α σ) (i : Nat) : Prop := Holds p i → ∀ j, j ≠ i → ¬ Holds p j

/-- A call adds `w` to the measure, or returns at once and adds nothing. -/
def Adds (prog : κ → Prog (Stmt σ) σ α) (μ : σ → Nat) (w : κ → Nat) : Prop :=
  ∀ c, (w c = 0 ∧ ∃ a, prog c = .ret a) ∨
    0 < w c ∧ ∃ f a, prog c = rewrite f a ∧ ∀ x, μ (f x) = μ x + w c

/-! ## What is still to be added -/

/-- One term of a sum is taken out and `v` put in its place. -/
theorem sum_update_add {ι : Type} [DecidableEq ι] {s : Finset ι} (f : ι → Nat) {i : ι} (hi : i ∈ s) (v : Nat) :
    ∑ j ∈ s, Function.update f i v j + f i = ∑ j ∈ s, f j + v := by
  have hsplit := Finset.add_sum_erase s f hi
  rw [Finset.sum_update_of_mem hi, Finset.sdiff_singleton_eq_erase]
  omega

section
variable {prog : κ → Prog (Stmt σ) σ α} {μ : σ → Nat} {w : κ → Nat} {n total : Nat} {p : Pool κ (Stmt σ) σ α σ}

/-- What call `i` will add. -/
def load (w : κ → Nat) (p : Pool κ (Stmt σ) σ α σ) (i : Nat) : Nat := (p.calls i).elim 0 fun q => w q.request

/-- What the first `n` calls will add. -/
def outstanding (w : κ → Nat) (n : Nat) (p : Pool κ (Stmt σ) σ α σ) : Nat := ∑ i ∈ Finset.range n, load w p i

theorem load_update (y : σ) (i : Nat) (o : Option (InProgress κ (Stmt σ) σ α σ)) :
    load w ⟨y, Function.update p.calls i o⟩ = Function.update (load w p) i (o.elim 0 fun q => w q.request) := by
  funext j
  by_cases hj : j = i
  · subst hj
    simp [load]
  · simp [load, hj]

/-- When one call moves, what it will add is taken out and put in anew. -/
theorem outstanding_update (y : σ) {i : Nat} (hi : i < n) (o : Option (InProgress κ (Stmt σ) σ α σ)) :
    outstanding w n ⟨y, Function.update p.calls i o⟩ + load w p i =
      outstanding w n p + o.elim 0 fun q => w q.request := by
  rw [outstanding, outstanding, load_update]
  exact sum_update_add (load w p) (Finset.mem_range.2 hi) _

/-- Before the first turn everything is still to be added. -/
theorem outstanding_started (h : Adds prog μ w) (x : σ) (cs : List κ) :
    outstanding w cs.length (started prog x cs) = (cs.map w).sum := by
  rw [outstanding, Finset.sum_range, ← Fin.sum_univ_fun_getElem cs w]
  refine Finset.sum_congr rfl fun i _ => ?_
  have hcall : (started prog x cs).calls i = enter cs[i] [] (prog cs[i]) := by
    simp [started]
  rw [load, hcall]
  rcases h cs[i] with ⟨hzero, a, ha⟩ | ⟨-, f, a, ha, -⟩
  · rw [ha]
    exact hzero.symm
  · rw [ha]
    rfl

theorem outstanding_idle (hp : p.Idle) : outstanding w n p = 0 :=
  Finset.sum_eq_zero fun i _ => by rw [load, hp i, Option.elim_none]

end

/-! ## What one turn does -/

/-- A call in progress comes to its read or to its write. -/
inductive Stage (μ : σ → Nat) (w : κ → Nat) (q : InProgress κ (Stmt σ) σ α σ) : Prop where
  | reading (f : σ → σ) (a : α) (hpos : 0 < w q.request) (hf : ∀ x, μ (f x) = μ x + w q.request)
      (hnext : q.next = .get) (hcont : q.cont = fun x => .stmt (.set (f x)) fun _ => .ret a)
  | writing (y : σ) (a : α) (hpos : 0 < w q.request) (hnext : q.next = .set y) (hcont : q.cont = fun _ => .ret a)

/-- A turn of call `i`: nothing, its read, or its write. -/
inductive Moves (μ : σ → Nat) (w : κ → Nat) (p : Pool κ (Stmt σ) σ α σ) (i : Nat) : Pool κ (Stmt σ) σ α σ → Prop where
  | returned (h : p.calls i = none) : Moves μ w p i p
  | read (q q' : InProgress κ (Stmt σ) σ α σ) (y : σ) (hq : p.calls i = some q) (hnext : q.next = .get)
      (hr : q'.request = q.request) (hset : q'.next = .set y) (hy : μ y = μ p.store + w q'.request)
      (hs : Stage μ w q') : Moves μ w p i ⟨p.store, Function.update p.calls i (some q')⟩
  | wrote (q : InProgress κ (Stmt σ) σ α σ) (y : σ) (hq : p.calls i = some q) (hset : q.next = .set y)
      (hpos : 0 < w q.request) : Moves μ w p i ⟨y, Function.update p.calls i none⟩

section
variable {prog : κ → Prog (Stmt σ) σ α} {μ : σ → Nat} {w : κ → Nat} {n total : Nat} {p p' : Pool κ (Stmt σ) σ α σ}
  {i : Nat}

theorem turn_moves (hs : ∀ i q, p.calls i = some q → Stage μ w q) (i : Nat) : Moves μ w p i (turn prog p i).1 := by
  cases hq : p.calls i with
  | none =>
    have hturn : turn prog p i = (p, .nothing) := by rw [turn, step, hq]
    rw [hturn]
    exact .returned hq
  | some q =>
    cases hs i q hq with
    | reading f a hpos hf hnext hcont =>
      have hget : perform () q.next p.store = some (p.store, p.store) := by rw [hnext]; rfl
      rw [turn, step_perform prog perform hq hget, hcont]
      exact .read q _ (f p.store) hq hnext rfl rfl (hf p.store) (.writing _ a hpos rfl rfl)
    | writing y a hpos hnext hcont =>
      have hset : perform () q.next p.store = some (y, y) := by rw [hnext]; rfl
      rw [turn, step_perform prog perform hq hset, hcont]
      exact .wrote q y hq hnext hpos

/-- Nothing is there that was not added. What a call is about to write is what is in
the cell with its own, or lacks something. -/
structure Inv (μ : σ → Nat) (w : κ → Nat) (n total : Nat) (p : Pool κ (Stmt σ) σ α σ) : Prop where
  inRange : ∀ i q, p.calls i = some q → i < n
  stage : ∀ i q, p.calls i = some q → Stage μ w q
  bound : μ p.store + outstanding w n p ≤ total
  held : ∀ i q y, p.calls i = some q → q.next = .set y →
    μ y = μ p.store + w q.request ∨ μ y + outstanding w n p < total + w q.request

/-- Something is lost: the cell lacks it, or a call is about to write without it. -/
def Lost (μ : σ → Nat) (w : κ → Nat) (n total : Nat) (p : Pool κ (Stmt σ) σ α σ) : Prop :=
  μ p.store + outstanding w n p < total ∨
    ∃ i q y, p.calls i = some q ∧ q.next = .set y ∧ μ y + outstanding w n p < total + w q.request

theorem Inv.held_le (hi : Inv μ w n total p) {i : Nat} {q : InProgress κ (Stmt σ) σ α σ} {y : σ}
    (hq : p.calls i = some q) (hset : q.next = .set y) : μ y + outstanding w n p ≤ total + w q.request := by
  have hbound := hi.bound
  rcases hi.held i q y hq hset with h | h
  · omega
  · omega

theorem outstanding_read (hi : Inv μ w n total p) {q q' : InProgress κ (Stmt σ) σ α σ} (hq : p.calls i = some q)
    (hr : q'.request = q.request) (y : σ) :
    outstanding w n ⟨y, Function.update p.calls i (some q')⟩ = outstanding w n p := by
  have hload : load w p i = w q'.request := by rw [load, hq, hr, Option.elim_some]
  have hsum := outstanding_update (w := w) (p := p) y (hi.inRange i q hq) (some q')
  rw [hload, Option.elim_some] at hsum
  omega

theorem outstanding_wrote (hi : Inv μ w n total p) {q : InProgress κ (Stmt σ) σ α σ} (hq : p.calls i = some q) (y : σ) :
    outstanding w n ⟨y, Function.update p.calls i none⟩ + w q.request = outstanding w n p := by
  have hload : load w p i = w q.request := by rw [load, hq, Option.elim_some]
  have hsum := outstanding_update (w := w) (p := p) y (hi.inRange i q hq) none
  rw [hload, Option.elim_none] at hsum
  omega

/-- Where a call stands after call `i` has moved. -/
theorem calls_update {o : Option (InProgress κ (Stmt σ) σ α σ)} {j : Nat} {q : InProgress κ (Stmt σ) σ α σ}
    (h : Function.update p.calls i o j = some q) : j = i ∧ o = some q ∨ j ≠ i ∧ p.calls j = some q := by
  by_cases hj : j = i
  · subst hj
    rw [Function.update_self] at h
    exact .inl ⟨rfl, h⟩
  · rw [Function.update_of_ne hj] at h
    exact .inr ⟨hj, h⟩

theorem Inv.read (hi : Inv μ w n total p) {q q' : InProgress κ (Stmt σ) σ α σ} {y : σ} (hq : p.calls i = some q)
    (hr : q'.request = q.request) (hset : q'.next = .set y) (hy : μ y = μ p.store + w q'.request)
    (hs : Stage μ w q') : Inv μ w n total ⟨p.store, Function.update p.calls i (some q')⟩ := by
  have hout := outstanding_read hi hq hr p.store
  refine ⟨fun j r hj => ?_, fun j r hj => ?_, hout.symm ▸ hi.bound, fun j r z hj hz => ?_⟩
  · rcases calls_update hj with ⟨rfl, -⟩ | ⟨-, hj⟩
    · exact hi.inRange j q hq
    · exact hi.inRange j r hj
  · rcases calls_update hj with ⟨rfl, hr⟩ | ⟨-, hj⟩
    · exact Option.some.inj hr ▸ hs
    · exact hi.stage j r hj
  · rw [hout]
    rcases calls_update hj with ⟨rfl, hr⟩ | ⟨-, hj⟩
    · -- it has just read what is in the cell
      obtain rfl := Option.some.inj hr
      obtain rfl := Stmt.set.inj (hset.symm.trans hz)
      exact .inl hy
    · exact hi.held j r z hj hz

theorem Inv.wrote (hi : Inv μ w n total p) {q : InProgress κ (Stmt σ) σ α σ} {y : σ} (hq : p.calls i = some q)
    (hset : q.next = .set y) (hpos : 0 < w q.request) : Inv μ w n total ⟨y, Function.update p.calls i none⟩ := by
  have hout := outstanding_wrote hi hq y
  have hle := hi.held_le hq hset
  have hothers {j : Nat} {r : InProgress κ (Stmt σ) σ α σ} (hj : Function.update p.calls i none j = some r) :
      p.calls j = some r := by
    rcases calls_update hj with ⟨-, hr⟩ | ⟨-, hj⟩
    · cases hr
    · exact hj
  refine ⟨fun j r hj => hi.inRange j r (hothers hj), fun j r hj => hi.stage j r (hothers hj), ?_, ?_⟩
  · dsimp only
    omega
  · -- what is written now is not in what the others will write
    intro j r z hj hz
    have hother := hi.held_le (hothers hj) hz
    exact .inr (by omega)

theorem Inv.moves (hi : Inv μ w n total p) (h : Moves μ w p i p') : Inv μ w n total p' := by
  cases h with
  | returned h => exact hi
  | read q q' y hq hnext hr hset hy hs => exact hi.read hq hr hset hy hs
  | wrote q y hq hset hpos => exact hi.wrote hq hset hpos

/-- A read loses nothing and brings nothing back. -/
theorem lost_read (hi : Inv μ w n total p) {q q' : InProgress κ (Stmt σ) σ α σ} {y : σ} (hq : p.calls i = some q)
    (hnext : q.next = .get) (hr : q'.request = q.request) (hset : q'.next = .set y)
    (hy : μ y = μ p.store + w q'.request) :
    Lost μ w n total ⟨p.store, Function.update p.calls i (some q')⟩ ↔ Lost μ w n total p := by
  rw [Lost, Lost, outstanding_read hi hq hr p.store]
  constructor
  · rintro (hcell | ⟨j, r, z, hj, hz, hlt⟩)
    · exact .inl hcell
    · rcases calls_update hj with ⟨rfl, hr⟩ | ⟨-, hj⟩
      · obtain rfl := Option.some.inj hr
        obtain rfl := Stmt.set.inj (hset.symm.trans hz)
        exact .inl (by omega)
      · exact .inr ⟨j, r, z, hj, hz, hlt⟩
  · rintro (hcell | ⟨j, r, z, hj, hz, hlt⟩)
    · exact .inl hcell
    · have hne : j ≠ i := by
        rintro rfl
        obtain rfl := Option.some.inj (hq.symm.trans hj)
        rw [hnext] at hz
        cases hz
      exact .inr ⟨j, r, z, (Function.update_of_ne hne _ _).trans hj, hz, hlt⟩

/-- A write loses what was written since its read, and what the others have read
without it. -/
theorem lost_wrote (hi : Inv μ w n total p) {q : InProgress κ (Stmt σ) σ α σ} {y : σ} (hq : p.calls i = some q)
    (hset : q.next = .set y) (hpos : 0 < w q.request) :
    ¬ Lost μ w n total ⟨y, Function.update p.calls i none⟩ ↔
      ¬ Lost μ w n total p ∧ ∀ j, j ≠ i → ¬ Holds p j := by
  have hout := outstanding_wrote hi hq y
  constructor
  · intro hkept
    have halone : ∀ j, j ≠ i → ¬ Holds p j := by
      rintro j hj ⟨r, z, hr, hz⟩
      have hother := hi.held_le hr hz
      exact hkept (.inr ⟨j, r, z, (Function.update_of_ne hj _ _).trans hr, hz, by omega⟩)
    have hcell : total ≤ μ y + outstanding w n ⟨y, Function.update p.calls i none⟩ :=
      not_lt.1 fun hlt => hkept (.inl hlt)
    refine ⟨?_, halone⟩
    rintro (hlt | ⟨j, r, z, hr, hz, hlt⟩)
    · rcases hi.held i q y hq hset with h | h
      · omega
      · omega
    · obtain rfl : j = i := not_imp_comm.1 (halone j) (not_not.2 ⟨r, z, hr, hz⟩)
      obtain rfl := Option.some.inj (hq.symm.trans hr)
      obtain rfl := Stmt.set.inj (hset.symm.trans hz)
      omega
  · rintro ⟨hkept, halone⟩ (hlt | ⟨j, r, z, hr, hz, -⟩)
    · exact hkept (.inr ⟨i, q, y, hq, hset, by dsimp only at hlt; omega⟩)
    · rcases calls_update hr with ⟨-, hr⟩ | ⟨hj, hr⟩
      · cases hr
      · exact halone j hj ⟨r, z, hr, hz⟩

theorem lost_moves (hi : Inv μ w n total p) (h : Moves μ w p i p') :
    ¬ Lost μ w n total p' ↔ ¬ Lost μ w n total p ∧ Alone p i := by
  cases h with
  | returned h =>
    refine (and_iff_left ?_).symm
    rintro ⟨q, y, hq, -⟩
    rw [h] at hq
    cases hq
  | read q q' y hq hnext hr hset hy hs =>
    rw [lost_read hi hq hnext hr hset hy]
    refine (and_iff_left ?_).symm
    rintro ⟨r, z, hr, hz⟩
    obtain rfl := Option.some.inj (hq.symm.trans hr)
    rw [hnext] at hz
    cases hz
  | wrote q y hq hset hpos =>
    have hholds : Holds p i := ⟨q, y, hq, hset⟩
    rw [lost_wrote hi hq hset hpos, Alone, forall_prop_of_true hholds]

end

/-! ## Whole runs -/

section
variable {prog : κ → Prog (Stmt σ) σ α} {μ : σ → Nat} {w : κ → Nat} (h : Adds prog μ w) (x : σ) (cs : List κ)
include h

/-- A call that has not begun comes to its read. -/
theorem started_stage {i : Nat} {q : InProgress κ (Stmt σ) σ α σ} (hq : (started prog x cs).calls i = some q) :
    i < cs.length ∧ q.next = .get ∧ Stage μ w q := by
  obtain ⟨c, hc, henter⟩ := Option.bind_eq_some_iff.1 hq
  refine ⟨(List.getElem?_eq_some_iff.1 hc).1, ?_⟩
  rcases h c with ⟨-, a, ha⟩ | ⟨hpos, f, a, ha, hf⟩
  · rw [ha] at henter
    cases henter
  · rw [ha] at henter
    obtain rfl := Option.some.inj henter
    exact ⟨rfl, .reading f a hpos hf rfl rfl⟩

theorem inv_started : Inv μ w cs.length (μ x + (cs.map w).sum) (started prog x cs) := by
  refine ⟨fun i q hq => (started_stage h x cs hq).1, fun i q hq => (started_stage h x cs hq).2.2, ?_, ?_⟩
  · rw [outstanding_started h]
    exact le_rfl
  · intro i q y hq hset
    rw [(started_stage h x cs hq).2.1] at hset
    cases hset

theorem not_lost_started : ¬ Lost μ w cs.length (μ x + (cs.map w).sum) (started prog x cs) := by
  rintro (hlt | ⟨i, q, y, hq, hset, -⟩)
  · rw [outstanding_started h] at hlt
    exact lt_irrefl _ hlt
  · rw [(started_stage h x cs hq).2.1] at hset
    cases hset

/-- When all calls have returned, everything they were to add is there in just the
runs in which no call wrote between the read and the write of another. -/
theorem measure_iff (turns : List Nat) (hidle : (cellAfter prog x cs turns).Idle) :
    μ (cellAfter prog x cs turns).store = μ x + (cs.map w).sum ↔
      Mealy.Always (turn prog) Alone (started prog x cs) turns := by
  have hmoves (p : Pool κ (Stmt σ) σ α σ) (i : Nat) (hi : Inv μ w cs.length (μ x + (cs.map w).sum) p) :
      Moves μ w p i (turn prog p i).1 := turn_moves hi.stage i
  have hinv := Mealy.after_inv (turn prog) _ _ (inv_started h x cs) (fun p i hi => hi.moves (hmoves p i hi)) turns
  have hruns := Mealy.always_iff (I := fun p => ¬ Lost μ w cs.length (μ x + (cs.map w).sum) p)
    (fun p i hi => hi.moves (hmoves p i hi)) (fun p i hi => lost_moves hi (hmoves p i hi)) (inv_started h x cs)
    (not_lost_started h x cs) turns
  rw [← hruns]
  have hbound := hinv.bound
  rw [← cellAfter, outstanding_idle hidle] at hbound
  constructor
  · rintro heq (hlt | ⟨i, q, y, hq, -, -⟩)
    · rw [← cellAfter, outstanding_idle hidle] at hlt
      omega
    · rw [← cellAfter, hidle i] at hq
      cases hq
  · intro hkept
    refine le_antisymm hbound (not_lt.1 fun hlt => hkept (.inl ?_))
    rw [← cellAfter, outstanding_idle hidle]
    exact hlt

end

end Cell
