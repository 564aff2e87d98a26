import Netra.Lib.Group
import Mathlib.Data.List.Nodup
/-!
# Streams that are trimmed

`MAXLEN ~ n` lets Redis remove the oldest entries of a stream as long as `n` are left.
An entry that is removed before the group has been given it is passed over: without a
restart an entry is left out just when a trim finds it unread behind `n` newer ones
(`mem_entries_iff`), and while no trim does, a trimmed stream is as good as a whole
one (`trim_free`).
-/
namespace RedisStream

variable {α : Type}

namespace Stream

/-- `XTRIM stream MAXLEN ~ maxLen`, when Redis would remove the first `cut` entries ever
added. -/
def trim (s : Stream α) (maxLen cut : Nat) : Stream α :=
  ⟨s.entries, max s.delivered (min cut (s.entries.length - maxLen)), by
    have := s.le
    omega⟩

theorem mem_all {s : Stream α} {e : Entry α} : e ∈ s.all ↔ s.entries[e.id]? = some e.data := by
  constructor
  · intro he
    obtain ⟨⟨a, i⟩, hmem, rfl⟩ := List.mem_map.1 he
    exact List.mem_zipIdx_iff_getElem?.1 hmem
  · intro he
    exact List.mem_map.2 ⟨(e.data, e.id), List.mem_zipIdx_iff_getElem?.2 he, rfl⟩

theorem getElem?_all {s : Stream α} {i : Nat} {e : Entry α} (he : s.all[i]? = some e) : e.id = i := by
  rw [all, List.getElem?_map] at he
  obtain ⟨⟨a, j⟩, hj, rfl⟩ := Option.map_eq_some_iff.1 he
  obtain ⟨a', -, hpair⟩ := Option.map_eq_some_iff.1 (List.getElem?_zipIdx.symm.trans hj)
  obtain ⟨-, rfl⟩ := Prod.mk.inj hpair
  exact Nat.zero_add i

/-- What is pending are the entries from number `delivered` on. -/
theorem mem_pending {s : Stream α} {e : Entry α} : e ∈ s.pending ↔ e ∈ s.all ∧ s.delivered ≤ e.id := by
  constructor
  · intro he
    obtain ⟨i, hi⟩ := List.mem_iff_getElem?.1 he
    rw [pending, List.getElem?_drop] at hi
    have hid := getElem?_all hi
    exact ⟨List.mem_of_getElem? hi, by omega⟩
  · rintro ⟨he, hle⟩
    obtain ⟨i, hi⟩ := List.mem_iff_getElem?.1 he
    obtain rfl := getElem?_all hi
    refine List.mem_of_getElem? (i := e.id - s.delivered) ?_
    rw [pending, List.getElem?_drop, Nat.add_sub_cancel' hle]
    exact hi

theorem id_lt {s : Stream α} {e : Entry α} (he : e ∈ s.all) : e.id < s.entries.length :=
  (List.getElem?_eq_some_iff.1 (mem_all.1 he)).1

@[simp] theorem trim_all (s : Stream α) (maxLen cut : Nat) : (s.trim maxLen cut).all = s.all := rfl

/-- A trim removes an unread entry only from behind `maxLen` newer ones. -/
theorem mem_pending_trim {s : Stream α} {maxLen cut : Nat} {e : Entry α} :
    e ∈ (s.trim maxLen cut).pending ↔ e ∈ s.pending ∧ ¬ (e.id < cut ∧ e.id + maxLen < s.entries.length) := by
  rw [mem_pending, mem_pending, trim_all, and_assoc]
  refine and_congr_right fun _ => ?_
  simp only [trim]
  omega

theorem trim_pending_suffix (s : Stream α) (maxLen cut : Nat) : (s.trim maxLen cut).pending <:+ s.pending := by
  have hdrop : (s.trim maxLen cut).pending =
      s.pending.drop (max s.delivered (min cut (s.entries.length - maxLen)) - s.delivered) := by
    rw [pending, pending, List.drop_drop, Nat.add_sub_cancel' (Nat.le_max_left ..)]
    rfl
  rw [hdrop]
  exact List.drop_suffix _ _

/-- A group that is not behind by more than `maxLen` entries does not notice. -/
theorem trim_eq {s : Stream α} {maxLen : Nat} (h : s.pending.length ≤ maxLen) (cut : Nat) : s.trim maxLen cut = s := by
  rw [length_pending] at h
  have hdelivered : max s.delivered (min cut (s.entries.length - maxLen)) = s.delivered := by omega
  simp only [trim, hdelivered]

end Stream

namespace Group

variable {σ ε ω : Type}

/-- What happens to a stream that is trimmed. -/
inductive TrimAction (ε α : Type) where
  | act (a : Action ε α)
  | trim (maxLen cut : Nat)

def TrimAction.act? : TrimAction ε α → Option (Action ε α)
  | .act a => some a
  | .trim _ _ => none

variable (G : Group σ ε α ω)

def trimStep (s : State σ α) : TrimAction ε α → State σ α × Option (ε × Entry α)
  | .act a => G.step s a
  | .trim maxLen cut => ({ s with stream := s.stream.trim maxLen cut }, none)

def trimAfter (vars : σ) (acts : List (TrimAction ε α)) : State σ α := Mealy.after G.trimStep { vars } acts

def trimHandled (vars : σ) (acts : List (TrimAction ε α)) : List (ε × Entry α) :=
  (Mealy.outs G.trimStep { vars } acts).filterMap id

variable {G} {vars : σ} {acts : List (TrimAction ε α)}

theorem trimHandled_concat (acts : List (TrimAction ε α)) (a : TrimAction ε α) :
    G.trimHandled vars (acts ++ [a]) =
      G.trimHandled vars acts ++ (G.trimStep (G.trimAfter vars acts) a).2.toList := by
  rw [trimHandled, Mealy.outs_append, List.filterMap_append, ← trimHandled, ← trimAfter, Mealy.outs_cons, Mealy.outs_nil]
  cases (G.trimStep (G.trimAfter vars acts) a).2 <;> rfl

theorem trimAfter_concat (acts : List (TrimAction ε α)) (a : TrimAction ε α) :
    G.trimAfter vars (acts ++ [a]) = (G.trimStep (G.trimAfter vars acts) a).1 := Mealy.after_concat ..

/-- A trim finds entry `e` unread behind `maxLen` newer ones, and removes it. -/
def Loses (G : Group σ ε α ω) (vars : σ) (e : Entry α) (pre : List (TrimAction ε α)) : TrimAction ε α → Prop
  | .act _ => False
  | .trim maxLen cut => e ∈ (G.trimAfter vars pre).stream.pending ∧ e.id < cut ∧
      e.id + maxLen < (G.trimAfter vars pre).stream.entries.length

/-- Entries are turned over in stream order, none twice, whatever is trimmed. -/
theorem trimHandled_sublist (G : Group σ ε α ω) (vars : σ) (acts : List (TrimAction ε α)) :
    (entries (G.trimHandled vars acts) (G.trimAfter vars acts)).Sublist (G.trimAfter vars acts).stream.all := by
  induction acts using List.reverseRecOn with
  | nil => exact .refl _
  | append_singleton acts a ih =>
    rw [trimHandled_concat, trimAfter_concat]
    cases a with
    | act a =>
      rw [trimStep]
      rcases entries_step (G := G) (G.trimHandled vars acts) (G.trimAfter vars acts) a with
        ⟨he, hall⟩ | ⟨e, he, hall⟩ | ⟨-, he, hall⟩
      · rw [he, hall]
        exact ih
      · rw [he, hall]
        exact ih.append (.refl [e])
      · rw [hall]
        exact he.trans ih
    | trim maxLen cut =>
      simp only [trimStep, Option.toList_none, List.append_nil, Stream.trim_all]
      refine .trans ?_ ih
      exact (List.Sublist.refl _).append (Stream.trim_pending_suffix _ maxLen cut).sublist

theorem nodup_entries (G : Group σ ε α ω) (vars : σ) (acts : List (TrimAction ε α)) :
    (entries (G.trimHandled vars acts) (G.trimAfter vars acts)).Nodup :=
  (trimHandled_sublist G vars acts).nodup (List.Nodup.of_map _ (Stream.nodup_ids _))

/-- What has been added stays added. -/
theorem all_grows (pre post : List (TrimAction ε α)) :
    (G.trimAfter vars pre).stream.all <+: (G.trimAfter vars (pre ++ post)).stream.all := by
  induction post using List.reverseRecOn with
  | nil => simp
  | append_singleton post a ih =>
    rw [← List.append_assoc, trimAfter_concat]
    refine ih.trans ?_
    cases a with
    | trim maxLen cut => exact List.prefix_rfl
    | act a =>
      rw [trimStep]
      rcases entries_step (G := G) [] (G.trimAfter vars (pre ++ post)) a with ⟨-, hall⟩ | ⟨e, -, hall⟩ | ⟨-, -, hall⟩
      · exact hall ▸ List.prefix_rfl
      · rw [hall]
        exact List.prefix_append _ _
      · exact hall ▸ List.prefix_rfl

theorem mem_entries {hs : List (ε × Entry α)} {s : State σ α} {e : Entry α} :
    e ∈ entries hs s ↔ e ∈ hs.map Prod.snd ++ s.batch ∨ e ∈ s.stream.pending := List.mem_append

/-- Without a restart an entry is turned over, in hand or still to be read, unless a trim
has removed it. -/
theorem mem_entries_iff (hno : .act .restart ∉ acts) {e : Entry α} (he : e ∈ (G.trimAfter vars acts).stream.all) :
    e ∈ entries (G.trimHandled vars acts) (G.trimAfter vars acts) ↔
      ¬ ∃ pre a post, acts = pre ++ a :: post ∧ Loses G vars e pre a := by
  induction acts using List.reverseRecOn with
  | nil => cases he
  | append_singleton acts a ih =>
    have hno' : .act .restart ∉ acts := fun hmem => hno (List.mem_append_left _ hmem)
    have hstep : (∃ pre b post, acts ++ [a] = pre ++ b :: post ∧ Loses G vars e pre b) ↔
        (∃ pre b post, acts = pre ++ b :: post ∧ Loses G vars e pre b) ∨ Loses G vars e acts a :=
      Mealy.exists_split_concat
    rw [trimAfter_concat] at he
    rw [hstep, not_or, trimHandled_concat, trimAfter_concat]
    cases a with
    | trim maxLen cut =>
      have hih := ih hno' he
      have hnodup := nodup_entries G vars acts
      rw [entries, List.nodup_append] at hnodup
      have hout (hp : e ∈ (G.trimAfter vars acts).stream.pending) :
          e ∉ (G.trimHandled vars acts).map Prod.snd ++ (G.trimAfter vars acts).batch :=
        fun hmem => hnodup.2.2 e hmem e hp rfl
      simp only [trimStep, Option.toList_none, List.append_nil]
      rw [← hih, mem_entries, mem_entries, Stream.mem_pending_trim, Loses]
      constructor
      · rintro (hmem | ⟨hp, hnot⟩)
        · exact ⟨.inl hmem, fun hlost => hout hlost.1 hmem⟩
        · exact ⟨.inr hp, fun hlost => hnot hlost.2⟩
      · rintro ⟨hmem | hp, hnot⟩
        · exact .inl hmem
        · exact .inr ⟨hp, fun hlost => hnot ⟨hp, hlost⟩⟩
    | act a =>
      have hkeep : ¬ Loses G vars e acts (.act a) := id
      rw [trimStep] at he ⊢
      rcases entries_step (G := G) (G.trimHandled vars acts) (G.trimAfter vars acts) a with
        ⟨hents, hall⟩ | ⟨e', hents, hall⟩ | ⟨rfl, -, -⟩
      · rw [hall] at he
        rw [hents, ih hno' he]
        exact (and_iff_left hkeep).symm
      · have hfresh : e' ∉ (G.trimAfter vars acts).stream.all := by
          have hids := Stream.nodup_ids (G.step (G.trimAfter vars acts) a).1.stream
          rw [hall, List.map_append, List.nodup_append] at hids
          exact fun hmem => hids.2.2 _ (List.mem_map_of_mem (f := (·.id)) hmem) _ (by simp) rfl
        rw [hall, List.mem_append, List.mem_singleton] at he
        rw [hents, List.mem_append, List.mem_singleton]
        rcases he with he | rfl
        · have hne : e ≠ e' := fun heq => hfresh (heq ▸ he)
          rw [or_iff_left hne, ih hno' he]
          exact (and_iff_left hkeep).symm
        · -- what was not there before has not been lost
          refine iff_of_true (.inr rfl) ⟨?_, hkeep⟩
          rintro ⟨pre, b, post, rfl, hlost⟩
          cases b with
          | act b => exact hlost
          | trim maxLen cut =>
            exact hfresh ((all_grows pre _).subset (Stream.mem_pending.1 hlost.1).1)
      · exact absurd (List.mem_append_right _ (List.mem_singleton_self _)) hno

/-- While the group keeps up, a trimmed stream is as good as a whole one. -/
theorem trim_free (hup : ∀ pre maxLen cut post, acts = pre ++ .trim maxLen cut :: post →
      (G.trimAfter vars pre).stream.pending.length ≤ maxLen) :
    G.trimAfter vars acts = G.after vars (acts.filterMap TrimAction.act?) ∧
      G.trimHandled vars acts = G.handled vars (acts.filterMap TrimAction.act?) := by
  induction acts using List.reverseRecOn with
  | nil => exact ⟨rfl, rfl⟩
  | append_singleton acts a ih =>
    obtain ⟨hafter, hhandled⟩ := ih fun pre maxLen cut post he =>
      hup pre maxLen cut (post ++ [a]) (by rw [he]; simp)
    rw [trimAfter_concat, trimHandled_concat, List.filterMap_append]
    cases a with
    | act a =>
      have hlast : [TrimAction.act a].filterMap TrimAction.act? = [a] := rfl
      rw [hlast, after_concat, handled_concat, hafter, hhandled]
      exact ⟨rfl, rfl⟩
    | trim maxLen cut =>
      have hlast : [(TrimAction.trim maxLen cut : TrimAction ε α)].filterMap TrimAction.act? = [] := rfl
      have hsame := Stream.trim_eq (hup acts maxLen cut [] rfl) cut
      rw [hlast, List.append_nil, ← hafter, ← hhandled]
      simp only [trimStep, hsame, Option.toList_none, List.append_nil]
      exact ⟨trivial, trivial⟩

end Group

end RedisStream
