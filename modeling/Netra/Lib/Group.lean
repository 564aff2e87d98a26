import Netra.Lib.Consumer
/-!
# Consumers of one Redis stream

A consumer reads the next entries of its group and turns them over one by one. It
asks for new entries only, so when it is restarted the entries it had read and not
turned over are never turned over (`entries_step`).
-/
namespace RedisStream

/-- The `count` of a consumer, what it does with an entry, and what of its variables a
restart leaves; `ε` is what it asks the host for meanwhile. -/
structure Group (σ ε α ω : Type) where
  count : Nat
  turn : σ → ε × Entry α → σ × ω
  restart : σ → σ

namespace Group

variable {σ ε α ω : Type}

structure State (σ α : Type) where
  vars : σ
  batch : List (Entry α) := []
  stream : Stream α := .empty

inductive Action (ε α : Type) where
  /-- the next entry of the batch, or the next read -/
  | work (x : ε)
  | add (a : α)
  | restart

variable (G : Group σ ε α ω)

/-- One step, and the entry it turns over, if it does. -/
def step (s : State σ α) : Action ε α → State σ α × Option (ε × Entry α)
  | .work x =>
    match s.batch with
    | [] => ({ s with batch := (s.stream.read G.count).2, stream := (s.stream.read G.count).1 }, none)
    | e :: batch => ({ s with vars := (G.turn s.vars (x, e)).1, batch }, some (x, e))
  | .add a => ({ s with stream := s.stream.add a }, none)
  | .restart => ({ s with vars := G.restart s.vars, batch := [] }, none)

/-- The state after `acts`, from an empty stream. -/
def after (vars : σ) (acts : List (Action ε α)) : State σ α := Mealy.after G.step { vars } acts

/-- What was turned over, in order. -/
def handled (vars : σ) (acts : List (Action ε α)) : List (ε × Entry α) :=
  (Mealy.outs G.step { vars } acts).filterMap id

variable {G} {vars : σ} {acts : List (Action ε α)}

theorem handled_concat (acts : List (Action ε α)) (a : Action ε α) :
    G.handled vars (acts ++ [a]) = G.handled vars acts ++ (G.step (G.after vars acts) a).2.toList := by
  rw [handled, Mealy.outs_append, List.filterMap_append, ← handled, ← after, Mealy.outs_cons, Mealy.outs_nil]
  cases (G.step (G.after vars acts) a).2 <;> rfl

theorem after_concat (acts : List (Action ε α)) (a : Action ε α) :
    G.after vars (acts ++ [a]) = (G.step (G.after vars acts) a).1 := Mealy.after_concat ..

/-- What was turned over, what is in hand and what is still to be read. -/
def entries (hs : List (ε × Entry α)) (s : State σ α) : List (Entry α) :=
  hs.map Prod.snd ++ s.batch ++ s.stream.pending

/-- A step of the consumer moves entries along; a restart drops what is in hand. -/
theorem entries_step (hs : List (ε × Entry α)) (s : State σ α) (a : Action ε α) :
    (entries (hs ++ (G.step s a).2.toList) (G.step s a).1 = entries hs s ∧ (G.step s a).1.stream.all = s.stream.all) ∨
      (∃ e, entries (hs ++ (G.step s a).2.toList) (G.step s a).1 = entries hs s ++ [e] ∧
        (G.step s a).1.stream.all = s.stream.all ++ [e]) ∨
      (a = .restart ∧ (entries (hs ++ (G.step s a).2.toList) (G.step s a).1).Sublist (entries hs s) ∧
        (G.step s a).1.stream.all = s.stream.all) := by
  cases a with
  | work x =>
    left
    cases hb : s.batch with
    | nil =>
      simp only [step, hb, entries, Option.toList_none, List.append_nil]
      rw [List.append_assoc, Stream.read_pending]
      exact ⟨rfl, rfl⟩
    | cons e batch =>
      simp only [step, hb, entries, Option.toList_some, List.map_append, List.map_singleton]
      exact ⟨by simp, trivial⟩
  | add b =>
    right
    left
    refine ⟨_, ?_, Stream.add_all s.stream b⟩
    simp only [step, entries, Option.toList_none, List.append_nil]
    rw [Stream.add_pending, ← List.append_assoc]
  | restart =>
    right
    right
    simp only [step, entries, Option.toList_none, List.append_nil]
    exact ⟨trivial, ((List.sublist_append_left _ _).append_right _), trivial⟩

end Group

end RedisStream
