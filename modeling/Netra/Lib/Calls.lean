import Netra.Lib.Machine
import Mathlib.Logic.Function.Basic
/-!
# Calls on a shared store

A call is a program of statements. A statement reads and writes the store in
one step and hands its rows to the rest of the call. `Prog.run` performs a call
with no other in between. In a `Pool` any number of calls are in progress, and
each action lets one of them begin, perform its next statement, or break off.
An action that names no such call does nothing, so every list of actions is a
run. Nothing is undone when a call breaks off.
-/
namespace Calls

/-- A call: `S` are its statements, `R` what they hand back, `α` its result. -/
inductive Prog (S R α : Type) where
  | ret (a : α)
  | stmt (s : S) (k : R → Prog S R α)

/-- A statement a call has performed, and the store before and after it. -/
structure Performed (S σ : Type) where
  stmt : S
  before : σ
  after : σ

/-- A call in progress: what it was asked, the statement it comes to next, the
rest, and what it has performed. -/
structure InProgress (κ S R α σ : Type) where
  request : κ
  next : S
  cont : R → Prog S R α
  done : List (Performed S σ)

structure Pool (κ S R α σ : Type) where
  store : σ
  calls : Nat → Option (InProgress κ S R α σ)

/-- `ε` is what a statement is told by its surroundings, such as the time. -/
inductive Action (κ ε : Type) where
  | start (id : Nat) (c : κ)
  | perform (id : Nat) (e : ε)
  | abort (id : Nat)

/-- The call an action is about. -/
def Action.call {κ ε : Type} : Action κ ε → Nat
  | .start id _ => id
  | .perform id _ => id
  | .abort id => id

/-- The action lets the call perform its next statement, or break off. -/
def Action.Moves {κ ε : Type} (id : Nat) : Action κ ε → Prop
  | .start _ _ => False
  | .perform id' _ => id' = id
  | .abort id' => id' = id

inductive Outcome (κ S R α σ ε : Type) where
  | nothing
  | performed (e : ε) (s : S)
  | raised (q : InProgress κ S R α σ)

variable {κ S T R α β σ ε : Type}

/-- The call with its statements and its result renamed. -/
def Prog.map (f : S → T) (g : α → β) : Prog S R α → Prog T R β
  | .ret a => .ret (g a)
  | .stmt s k => .stmt (f s) fun r => (k r).map f g

/-- Each statement of the call, and what comes after it, is as `P` says. -/
def Prog.Always (P : S → (R → Prog S R α) → Prop) : Prog S R α → Prop
  | .ret _ => True
  | .stmt s k => P s k ∧ ∀ r, (k r).Always P

/-- Where a call stands; nowhere when it has returned. -/
def enter (c : κ) (done : List (Performed S σ)) : Prog S R α → Option (InProgress κ S R α σ)
  | .ret _ => none
  | .stmt s k => some { request := c, next := s, cont := k, done }

/-- A store and no call in progress. -/
def Pool.new (x : σ) : Pool κ S R α σ := ⟨x, fun _ => none⟩

def Pool.Idle (p : Pool κ S R α σ) : Prop := ∀ id, p.calls id = none

section
variable (prog : κ → Prog S R α) (perform : ε → S → σ → Option (σ × R))

/-- A call on its own: the store it leaves, and its result unless it raises.
`env n` is what its `n`-th statement is told. -/
def Prog.run : Prog S R α → (Nat → ε) → σ → σ × Option α
  | .ret a, _, x => (x, some a)
  | .stmt s k, env, x =>
    match perform (env 0) s x with
    | some (y, r) => Prog.run (k r) (fun n => env (n + 1)) y
    | none => (x, none)

def step (p : Pool κ S R α σ) : Action κ ε → Pool κ S R α σ × Outcome κ S R α σ ε
  | .start id c =>
    match p.calls id with
    | none => (⟨p.store, Function.update p.calls id (enter c [] (prog c))⟩, .nothing)
    | some _ => (p, .nothing)
  | .perform id e =>
    match p.calls id with
    | none => (p, .nothing)
    | some q =>
      match perform e q.next p.store with
      | none => (⟨p.store, Function.update p.calls id none⟩, .raised q)
      | some (y, r) =>
        (⟨y, Function.update p.calls id (enter q.request (q.done ++ [⟨q.next, p.store, y⟩]) (q.cont r))⟩,
          .performed e q.next)
  | .abort id =>
    match p.calls id with
    | none => (p, .nothing)
    | some q => (⟨p.store, Function.update p.calls id none⟩, .raised q)

theorem step_perform {p : Pool κ S R α σ} {id : Nat} {e : ε} {q : InProgress κ S R α σ} {y : σ} {r : R}
    (hq : p.calls id = some q) (h : perform e q.next p.store = some (y, r)) :
    step prog perform p (.perform id e) =
      (⟨y, Function.update p.calls id (enter q.request (q.done ++ [⟨q.next, p.store, y⟩]) (q.cont r))⟩,
        .performed e q.next) := by
  rw [step, hq]
  simp only [h]

/-- The pool after the actions `as`. -/
def after (p : Pool κ S R α σ) (as : List (Action κ ε)) : Pool κ S R α σ := Mealy.after (step prog perform) p as

/-- The statement an action performed. -/
def Outcome.stmt? : Outcome κ S R α σ ε → Option S
  | .performed _ s => some s
  | _ => none

/-- The statements performed by the actions `as`, in order. -/
def performed (p : Pool κ S R α σ) (as : List (Action κ ε)) : List S :=
  (Mealy.outs (step prog perform) p as).filterMap Outcome.stmt?

theorem performed_concat (p : Pool κ S R α σ) (as : List (Action κ ε)) (a : Action κ ε) :
    performed prog perform p (as ++ [a]) =
      performed prog perform p as ++ (step prog perform (after prog perform p as) a).2.stmt?.toList := by
  rw [performed, Mealy.outs_append, List.filterMap_append, ← performed]
  congr 1

theorem performed_append (p : Pool κ S R α σ) (as bs : List (Action κ ε)) :
    performed prog perform p (as ++ bs) =
      performed prog perform p as ++ performed prog perform (after prog perform p as) bs := by
  rw [performed, Mealy.outs_append, List.filterMap_append]
  rfl

/-- The action that brings a call to where it stands: its start, or its last statement. -/
inductive Comes (p : Pool κ S R α σ) (id : Nat) (q : InProgress κ S R α σ) : Action κ ε → Prop where
  | started {c : κ} : enter c [] (prog c) = some q → Comes p id q (.start id c)
  | performed {e : ε} {q₀ : InProgress κ S R α σ} {y : σ} {r : R} : p.calls id = some q₀ →
      perform e q₀.next p.store = some (y, r) →
      enter q₀.request (q₀.done ++ [⟨q₀.next, p.store, y⟩]) (q₀.cont r) = some q → Comes p id q (.perform id e)

/-- What one action can do. -/
inductive Step (p : Pool κ S R α σ) : Pool κ S R α σ → Outcome κ S R α σ ε → Prop where
  | idle : Step p p .nothing
  | started {id : Nat} {c : κ} : p.calls id = none →
      Step p ⟨p.store, Function.update p.calls id (enter c [] (prog c))⟩ .nothing
  | performed {id : Nat} {e : ε} {q : InProgress κ S R α σ} {y : σ} {r : R} : p.calls id = some q →
      perform e q.next p.store = some (y, r) →
      Step p ⟨y, Function.update p.calls id (enter q.request (q.done ++ [⟨q.next, p.store, y⟩]) (q.cont r))⟩
        (.performed e q.next)
  | raised {id : Nat} {q : InProgress κ S R α σ} : p.calls id = some q →
      Step p ⟨p.store, Function.update p.calls id none⟩ (.raised q)

theorem step_step (p : Pool κ S R α σ) (a : Action κ ε) :
    Step prog perform p (step prog perform p a).1 (step prog perform p a).2 := by
  cases a with
  | start id c =>
    rw [step]
    split
    · rename_i h
      exact .started h
    · exact .idle
  | perform id e =>
    rw [step]
    split
    · exact .idle
    · rename_i q hq
      split
      · exact .raised hq
      · rename_i y r hy
        exact .performed hq hy
  | abort id =>
    rw [step]
    split
    · exact .idle
    · rename_i q hq
      exact .raised hq

end

/-! ## Invariants of the calls in progress -/

section
variable {prog : κ → Prog S R α} {perform : ε → S → σ → Option (σ × R)}

/-- An action leaves the other calls alone. -/
theorem calls_step {p : Pool κ S R α σ} {a : Action κ ε} {j : Nat} (h : a.call ≠ j) :
    (step prog perform p a).1.calls j = p.calls j := by
  cases a with
  | start id c =>
    rw [step]
    split
    · exact Function.update_of_ne (Ne.symm h) _ _
    · rfl
  | perform id e =>
    rw [step]
    split
    · rfl
    · split
      · exact Function.update_of_ne (Ne.symm h) _ _
      · exact Function.update_of_ne (Ne.symm h) _ _
  | abort id =>
    rw [step]
    split
    · rfl
    · exact Function.update_of_ne (Ne.symm h) _ _

theorem calls_after {p : Pool κ S R α σ} {as : List (Action κ ε)} {j : Nat} (h : ∀ a ∈ as, a.call ≠ j) :
    (after prog perform p as).calls j = p.calls j := by
  induction as generalizing p with
  | nil => rfl
  | cons a as ih =>
    obtain ⟨ha, has⟩ := List.forall_mem_cons.1 h
    exact (ih has).trans (calls_step ha)

/-- A call in progress stands where it stands until it is moved. -/
theorem calls_step_of_not_moves {p : Pool κ S R α σ} {a : Action κ ε} {j : Nat} {q : InProgress κ S R α σ}
    (hq : p.calls j = some q) (h : ¬ a.Moves j) : (step prog perform p a).1.calls j = some q := by
  by_cases hj : a.call = j
  · cases a with
    | start id c =>
      obtain rfl : id = j := hj
      simp only [step, hq]
    | perform id e => exact absurd hj h
    | abort id => exact absurd hj h
  · rw [calls_step hj, hq]

theorem calls_after_of_not_moves {p : Pool κ S R α σ} {as : List (Action κ ε)} {j : Nat} {q : InProgress κ S R α σ}
    (hq : p.calls j = some q) (h : ∀ a ∈ as, ¬ a.Moves j) : (after prog perform p as).calls j = some q := by
  induction as generalizing p with
  | nil => exact hq
  | cons a as ih =>
    obtain ⟨ha, has⟩ := List.forall_mem_cons.1 h
    exact ih (calls_step_of_not_moves hq ha) has

/-- After one action a call in progress was brought to where it stands, or was there before. -/
theorem comes_step {p : Pool κ S R α σ} {a : Action κ ε} {j : Nat} {q : InProgress κ S R α σ}
    (h : (step prog perform p a).1.calls j = some q) :
    Comes prog perform p j q a ∨ (¬ a.Moves j ∧ p.calls j = some q) := by
  by_cases hj : a.call = j
  · subst hj
    cases a with
    | start id c =>
      change (step prog perform p (.start id c)).1.calls id = some q at h
      cases hcall : p.calls id with
      | none =>
        rw [step, hcall] at h
        change Function.update p.calls id (enter c [] (prog c)) id = some q at h
        rw [Function.update_self] at h
        exact .inl (.started h)
      | some q' =>
        rw [step, hcall] at h
        exact .inr ⟨not_false, h⟩
    | perform id e =>
      change (step prog perform p (.perform id e)).1.calls id = some q at h
      cases hcall : p.calls id with
      | none => simp [step, hcall] at h
      | some q₀ =>
        cases hy : perform e q₀.next p.store with
        | none => simp [step, hcall, hy] at h
        | some y =>
          rw [step_perform prog perform hcall hy] at h
          change Function.update p.calls id _ id = some q at h
          rw [Function.update_self] at h
          exact .inl (.performed hcall hy h)
    | abort id =>
      change (step prog perform p (.abort id)).1.calls id = some q at h
      cases hcall : p.calls id <;> simp [step, hcall] at h
  · rw [calls_step hj] at h
    refine .inr ⟨fun hm => hj ?_, h⟩
    cases a with
    | start id c => exact hm.elim
    | perform id e => exact hm
    | abort id => exact hm

/-- Every call in progress was brought to where it stands, and not moved since. -/
theorem exists_comes {x : σ} {as : List (Action κ ε)} {j : Nat} {q : InProgress κ S R α σ}
    (h : (after prog perform (Pool.new x) as).calls j = some q) :
    ∃ pre a mid, as = pre ++ a :: mid ∧ Comes prog perform (after prog perform (Pool.new x) pre) j q a ∧
      ∀ b ∈ mid, ¬ b.Moves j := by
  induction as using List.reverseRecOn with
  | nil => cases h
  | append_singleton as b ih =>
    rw [after, Mealy.after_concat, ← after] at h
    rcases comes_step h with hcomes | ⟨hb, hq⟩
    · exact ⟨as, b, [], rfl, hcomes, fun _ hmem => absurd hmem List.not_mem_nil⟩
    · obtain ⟨pre, a, mid, rfl, hcomes, hmid⟩ := ih hq
      refine ⟨pre, a, mid ++ [b], by simp, hcomes, fun b' hb' => ?_⟩
      rcases List.mem_append.1 hb' with hb' | hb'
      · exact hmid b' hb'
      · rwa [List.mem_singleton.1 hb']

/-- What is left of the other calls when one of them moves. -/
theorem calls_update {p : Pool κ S R α σ} {id j : Nat} {o : Option (InProgress κ S R α σ)}
    {q : InProgress κ S R α σ} (h : Function.update p.calls id o j = some q) :
    (j = id ∧ o = some q) ∨ (j ≠ id ∧ p.calls j = some q) := by
  by_cases hj : j = id
  · subst hj
    rw [Function.update_self] at h
    exact .inl ⟨rfl, h⟩
  · rw [Function.update_of_ne hj] at h
    exact .inr ⟨hj, h⟩

/-- A call that is not the one that moves is still there. -/
theorem exists_elsewhere {J : InProgress κ S R α σ → Prop} {p : Pool κ S R α σ} {id : Nat}
    {o : Option (InProgress κ S R α σ)} (hno : ∀ q, p.calls id = some q → ¬ J q)
    (h : ∃ j q, p.calls j = some q ∧ J q) : ∃ j q, Function.update p.calls id o j = some q ∧ J q := by
  obtain ⟨j, q, hq, hJ⟩ := h
  have hj : j ≠ id := by
    rintro rfl
    exact hno q hq hJ
  exact ⟨j, q, by rwa [Function.update_of_ne hj], hJ⟩

/-- The store after one action is the one before it, or what the statement performed
makes of that. -/
theorem Step.store {p p' : Pool κ S R α σ} {o : Outcome κ S R α σ ε} (h : Step prog perform p p' o) :
    (o.stmt? = none ∧ p'.store = p.store) ∨ ∃ e s r, o.stmt? = some s ∧ perform e s p.store = some (p'.store, r) := by
  cases h with
  | idle => exact .inl ⟨rfl, rfl⟩
  | started _ => exact .inl ⟨rfl, rfl⟩
  | performed _ hy => exact .inr ⟨_, _, _, rfl, hy⟩
  | raised _ => exact .inl ⟨rfl, rfl⟩

/-- A call that raises was in progress. -/
theorem Step.raised_mem {p p' : Pool κ S R α σ} {q : InProgress κ S R α σ}
    (h : Step prog perform p p' (.raised q : Outcome κ S R α σ ε)) : ∃ id, p.calls id = some q := by
  cases h with
  | raised hq => exact ⟨_, hq⟩

/-- A fact about calls in progress that holds when they begin, that their own
statements carry on and that no other statement breaks. -/
theorem Step.calls_inv (J : σ → InProgress κ S R α σ → Prop)
    (hstart : ∀ x c q, enter c [] (prog c) = some q → J x q)
    (hnext : ∀ x e q y r q', J x q → perform e q.next x = some (y, r) →
      enter q.request (q.done ++ [⟨q.next, x, y⟩]) (q.cont r) = some q' → J y q')
    (hother : ∀ x e s y r q, perform e s x = some (y, r) → J x q → J y q)
    {p p' : Pool κ S R α σ} {o : Outcome κ S R α σ ε} (h : Step prog perform p p' o)
    (hp : ∀ id q, p.calls id = some q → J p.store q) : ∀ id q, p'.calls id = some q → J p'.store q := by
  intro j q' hq'
  cases h with
  | idle => exact hp j q' hq'
  | started _ =>
    rcases calls_update hq' with ⟨-, h⟩ | ⟨-, h⟩
    · exact hstart _ _ _ h
    · exact hp j q' h
  | performed hq hy =>
    rcases calls_update hq' with ⟨-, h⟩ | ⟨-, h⟩
    · exact hnext _ _ _ _ _ _ (hp _ _ hq) hy h
    · exact hother _ _ _ _ _ _ hy (hp j q' h)
  | raised _ =>
    rcases calls_update hq' with ⟨-, h⟩ | ⟨-, h⟩
    · cases h
    · exact hp j q' h

theorem eq_stmt_of_enter {c : κ} {done : List (Performed S σ)} {x : Prog S R α} {q : InProgress κ S R α σ}
    (h : enter c done x = some q) : x = .stmt q.next q.cont := by
  cases x with
  | ret a => cases h
  | stmt s k =>
    obtain rfl := Option.some.inj h
    rfl

/-- What is true of the statements of every call is true of those still to come. -/
theorem Step.always {P : S → (R → Prog S R α) → Prop} (hprog : ∀ c, (prog c).Always P) {p p' : Pool κ S R α σ}
    {o : Outcome κ S R α σ ε} (h : Step prog perform p p' o)
    (hp : ∀ id q, p.calls id = some q → (Prog.stmt q.next q.cont).Always P) :
    ∀ id q, p'.calls id = some q → (Prog.stmt q.next q.cont).Always P := by
  refine h.calls_inv (fun _ q => (Prog.stmt q.next q.cont).Always P) ?_ ?_ (fun _ _ _ _ _ _ _ hq => hq) hp
  · intro x c q hq
    rw [← eq_stmt_of_enter hq]
    exact hprog c
  · intro x e q y r q' hq _ hq'
    rw [← eq_stmt_of_enter hq']
    exact hq.2 r

end

end Calls
