import Mathlib.Data.List.Induction
/-!
# Runs of a machine

A component is a function `step : σ → ι → σ × ω`: one call changes its state
and returns an output. `after` is the state a list of calls leaves behind,
`outs` what the calls returned. A property of runs is proved from what one
call does: `after_inv` for invariants, `after_history` for invariants that
speak about the calls made so far, `outs_rel` for two runs side by side.
-/
namespace Mealy

variable {σ τ ι κ ω υ : Type}

/-- The state after the calls `is`. -/
def after (step : σ → ι → σ × ω) (s : σ) (is : List ι) : σ := is.foldl (fun s i => (step s i).1) s

/-- What each call returned, in order. -/
def outs (step : σ → ι → σ × ω) (s : σ) : List ι → List ω
  | [] => []
  | i :: is => (step s i).2 :: outs step (step s i).1 is

/-- Where a call of `is ++ [i]` stands: it is the last one, or one of `is`. -/
theorem split_concat {is pre post : List ι} {i j : ι} :
    is ++ [i] = pre ++ j :: post ↔
      (pre = is ∧ j = i ∧ post = []) ∨ ∃ post', post = post' ++ [i] ∧ is = pre ++ j :: post' := by
  constructor
  · intro h
    rcases List.eq_nil_or_concat post with rfl | ⟨post', k, rfl⟩
    · obtain ⟨rfl, hi⟩ := List.append_inj' h rfl
      exact .inl ⟨rfl, (List.singleton_inj.1 hi).symm, rfl⟩
    · have h' : is ++ [i] = (pre ++ j :: post') ++ [k] := by simpa using h
      obtain ⟨rfl, hi⟩ := List.append_inj' h' rfl
      obtain rfl := List.singleton_inj.1 hi
      exact .inr ⟨post', by simp, rfl⟩
  · rintro (⟨rfl, rfl, rfl⟩ | ⟨post', rfl, rfl⟩)
    · rfl
    · simp

/-- What holds at every call of `is ++ [i]` holds at those of `is` and at `i`. -/
theorem forall_split_concat {P : List ι → ι → Prop} {is : List ι} {i : ι} :
    (∀ pre j post, is ++ [i] = pre ++ j :: post → P pre j) ↔
      (∀ pre j post, is = pre ++ j :: post → P pre j) ∧ P is i := by
  constructor
  · intro h
    refine ⟨?_, h is i [] rfl⟩
    rintro pre j post rfl
    exact h pre j (post ++ [i]) (by simp)
  · rintro ⟨h, hi⟩ pre j post he
    rcases split_concat.1 he with ⟨rfl, rfl, -⟩ | ⟨post', -, he⟩
    · exact hi
    · exact h pre j post' he

/-- What holds at some call of `is ++ [i]` holds at one of `is`, or at `i`. -/
theorem exists_split_concat {P : List ι → ι → Prop} {is : List ι} {i : ι} :
    (∃ pre j post, is ++ [i] = pre ++ j :: post ∧ P pre j) ↔
      (∃ pre j post, is = pre ++ j :: post ∧ P pre j) ∨ P is i := by
  constructor
  · rintro ⟨pre, j, post, he, hP⟩
    rcases split_concat.1 he with ⟨rfl, rfl, -⟩ | ⟨post', -, he⟩
    · exact .inr hP
    · exact .inl ⟨pre, j, post', he, hP⟩
  · rintro (⟨pre, j, post, rfl, hP⟩ | hP)
    · exact ⟨pre, j, post ++ [i], by simp, hP⟩
    · exact ⟨is, i, [], rfl, hP⟩

/-- What is picked from the outputs, with one more. -/
theorem filterMap_concat (f : ω → Option υ) (os : List ω) (o : ω) :
    (os ++ [o]).filterMap f = os.filterMap f ++ (f o).toList := by
  rw [List.filterMap_append]
  cases h : f o <;> simp [h]

section
variable (step : σ → ι → σ × ω) (s : σ)

@[simp] theorem after_nil : after step s [] = s := rfl

@[simp] theorem after_cons (i : ι) (is : List ι) : after step s (i :: is) = after step (step s i).1 is := rfl

theorem after_append (is js : List ι) : after step s (is ++ js) = after step (after step s is) js := by
  simp [after]

@[simp] theorem after_concat (is : List ι) (i : ι) :
    after step s (is ++ [i]) = (step (after step s is) i).1 := by
  simp [after]

@[simp] theorem outs_nil : outs step s [] = [] := rfl

@[simp] theorem outs_cons (i : ι) (is : List ι) :
    outs step s (i :: is) = (step s i).2 :: outs step (step s i).1 is := rfl

theorem outs_append (is js : List ι) :
    outs step s (is ++ js) = outs step s is ++ outs step (after step s is) js := by
  induction is generalizing s with
  | nil => rfl
  | cons i is ih => simp [ih]

@[simp] theorem length_outs (is : List ι) : (outs step s is).length = is.length := by
  induction is generalizing s with
  | nil => rfl
  | cons i is ih => simp [ih]

/-- Calls that are given through `g`. -/
theorem after_map (g : κ → ι) (ks : List κ) : after step s (ks.map g) = after (fun s k => step s (g k)) s ks :=
  List.foldl_map

theorem outs_map (g : κ → ι) (ks : List κ) : outs step s (ks.map g) = outs (fun s k => step s (g k)) s ks := by
  induction ks generalizing s with
  | nil => rfl
  | cons k ks ih => rw [List.map_cons, outs_cons, outs_cons, ih]

/-- When every call returns one element, the `j`-th one is that of the `j`-th call. -/
theorem getElem?_flatten_outs {ε : Type} (f : σ → ι → σ × List ε) (e : σ → ι → ε)
    (he : ∀ s i, (f s i).2 = [e s i]) (s : σ) (is : List ι) (j : Nat) :
    (outs f s is).flatten[j]? = is[j]?.map fun i => e (after f s (is.take j)) i := by
  induction is generalizing s j with
  | nil => simp
  | cons i is ih =>
    cases j with
    | zero => simp [he]
    | succ j => simpa [he] using ih _ j

/-- An output is what one call of the run returned, in the state before it. -/
theorem mem_outs (is : List ι) (o : ω) :
    o ∈ outs step s is ↔ ∃ pre i post, is = pre ++ i :: post ∧ o = (step (after step s pre) i).2 := by
  constructor
  · intro h
    induction is generalizing s with
    | nil => simp at h
    | cons i is ih =>
      rcases List.mem_cons.1 h with rfl | h
      · exact ⟨[], i, is, rfl, rfl⟩
      · obtain ⟨pre, j, post, rfl, rfl⟩ := ih _ h
        exact ⟨i :: pre, j, post, rfl, rfl⟩
  · rintro ⟨pre, i, post, rfl, rfl⟩
    simp [outs_append]

end

/-- An invariant every call keeps holds after every run. -/
theorem after_inv (step : σ → ι → σ × ω) (I : σ → Prop) (s : σ) (h0 : I s)
    (hs : ∀ s i, I s → I (step s i).1) (is : List ι) : I (after step s is) := by
  induction is generalizing s with
  | nil => exact h0
  | cons i is ih => exact ih _ (hs s i h0)

/-- An invariant that relates the state to the calls so far. -/
theorem after_history (step : σ → ι → σ × ω) (H : List ι → σ → Prop) (s : σ) (h0 : H [] s)
    (hs : ∀ is s i, H is s → H (is ++ [i]) (step s i).1) (is : List ι) : H is (after step s is) := by
  induction is using List.reverseRecOn with
  | nil => exact h0
  | append_singleton is i ih =>
    rw [after_concat]
    exact hs _ _ _ ih

/-- Each call of a run meets a state that is right for it. -/
def Always (step : σ → ι → σ × ω) (P : σ → ι → Prop) : σ → List ι → Prop
  | _, [] => True
  | s, i :: is => P s i ∧ Always step P (step s i).1 is

instance Always.decidable (step : σ → ι → σ × ω) (P : σ → ι → Prop) [∀ s i, Decidable (P s i)] :
    ∀ s is, Decidable (Always step P s is)
  | _, [] => isTrue trivial
  | s, i :: is =>
    have := Always.decidable step P (step s i).1 is
    inferInstanceAs (Decidable (P s i ∧ Always step P (step s i).1 is))

section
variable {step : σ → ι → σ × ω} {P : σ → ι → Prop} {s : σ}

theorem always_append {is js : List ι} :
    Always step P s (is ++ js) ↔ Always step P s is ∧ Always step P (after step s is) js := by
  induction is generalizing s with
  | nil => simp [Always]
  | cons i is ih =>
    rw [List.cons_append, Always, Always, ih, after_cons, and_assoc]

/-- Each call, after those before it. -/
theorem always_iff_forall {is : List ι} :
    Always step P s is ↔ ∀ pre i post, is = pre ++ i :: post → P (after step s pre) i := by
  induction is using List.reverseRecOn with
  | nil => exact iff_of_true trivial fun pre i post he => by simp at he
  | append_singleton is i ih =>
    rw [always_append, ih, forall_split_concat (P := fun pre i => P (after step s pre) i)]
    exact and_congr_right fun _ => and_iff_left trivial

/-- The states of a run, when each call that meets a right one keeps `I`. -/
theorem Always.after_inv {I : σ → Prop} (hs : ∀ s i, I s → P s i → I (step s i).1) {is : List ι}
    (h : Always step P s is) (h0 : I s) : I (after step s is) := by
  induction is generalizing s with
  | nil => exact h0
  | cons i is ih => exact ih h.2 (hs s i h0 h.1)

/-- When, of calls in states with `W`, exactly those that meet a right state keep
`I`, and none brings it back, `I` holds after just the runs of such calls. -/
theorem always_iff {W I : σ → Prop} (hW : ∀ s i, W s → W (step s i).1)
    (hI : ∀ s i, W s → (I (step s i).1 ↔ I s ∧ P s i)) (hs : W s) (h0 : I s) (is : List ι) :
    I (after step s is) ↔ Always step P s is := by
  induction is using List.reverseRecOn with
  | nil => exact ⟨fun _ => trivial, fun _ => h0⟩
  | append_singleton is i ih =>
    rw [after_concat, always_append, hI _ _ (Mealy.after_inv step W s hs hW is), ih]
    exact and_congr_right fun _ => (and_iff_left trivial).symm

end

/-- Two runs on the same calls: related states are right for the same calls, and a
call that meets right ones leaves them related. -/
theorem always_rel (f : σ → ι → σ × ω) (g : τ → ι → τ × υ) (R : σ → τ → Prop) {P : σ → ι → Prop} {Q : τ → ι → Prop}
    (hs : ∀ s t i, R s t → P s i → R (f s i).1 (g t i).1) (hP : ∀ s t i, R s t → (P s i ↔ Q t i))
    {s : σ} {t : τ} (h : R s t) (is : List ι) : Always f P s is ↔ Always g Q t is := by
  induction is generalizing s t with
  | nil => exact Iff.rfl
  | cons i is ih =>
    rw [Always, Always, ← hP s t i h]
    exact and_congr_right fun hright => ih (hs s t i h hright)

/-- What `f` says of each call, given the calls before it. -/
def along (f : List ι → ι → ω) (is : List ι) : List ω := outs (fun before i => (before ++ [i], f before i)) [] is

@[simp] theorem along_nil (f : List ι → ι → ω) : along f [] = [] := rfl

@[simp] theorem along_concat (f : List ι → ι → ω) (is : List ι) (i : ι) :
    along f (is ++ [i]) = along f is ++ [f is i] := by
  have hafter (before is : List ι) : after (fun before i => (before ++ [i], f before i)) before is = before ++ is := by
    induction is generalizing before with
    | nil => simp
    | cons j is ih => rw [after_cons, ih, List.append_assoc, List.singleton_append]
  rw [along, along, outs_append, hafter]
  rfl

/-- Two runs on related calls: related states stay related. -/
theorem after_rel (f : σ → ι → σ × ω) (g : τ → κ → τ × υ) (R : σ → τ → Prop) (C : ι → κ → Prop)
    (hs : ∀ s t i j, R s t → C i j → R (f s i).1 (g t j).1)
    {s : σ} {t : τ} (h : R s t) {is : List ι} {js : List κ} (hc : List.Forall₂ C is js) :
    R (after f s is) (after g t js) := by
  induction hc generalizing s t with
  | nil => exact h
  | cons hij _ ih => exact ih (hs _ _ _ _ h hij)

/-- Outputs are related when they are in every two calls at the same place. -/
theorem forall₂_outs_iff (f : σ → ι → σ × ω) (g : τ → κ → τ × υ) (O : ω → υ → Prop) {s : σ} {t : τ}
    {is : List ι} {js : List κ} (hlen : is.length = js.length) :
    List.Forall₂ O (outs f s is) (outs g t js) ↔
      ∀ pre i post pre' j post', is = pre ++ i :: post → js = pre' ++ j :: post' → pre.length = pre'.length →
        O (f (after f s pre) i).2 (g (after g t pre') j).2 := by
  induction is generalizing s t js with
  | nil =>
    obtain rfl := List.length_eq_zero_iff.1 hlen.symm
    constructor
    · intro _ pre i post pre' j post' he
      simp at he
    · exact fun _ => .nil
  | cons i is ih =>
    cases js with
    | nil => simp at hlen
    | cons j js =>
      rw [outs_cons, outs_cons, List.forall₂_cons, ih (by simpa using hlen)]
      constructor
      · rintro ⟨h0, hrest⟩ pre i' post pre' j' post' he he' hl
        cases pre with
        | nil =>
          obtain rfl := List.length_eq_zero_iff.1 hl.symm
          simp only [List.nil_append, List.cons.injEq] at he he'
          rw [← he.1, ← he'.1]
          exact h0
        | cons x pre =>
          cases pre' with
          | nil => simp at hl
          | cons x' pre' =>
            simp only [List.cons_append, List.cons.injEq] at he he'
            rw [← he.1, ← he'.1]
            exact hrest pre i' post pre' j' post' he.2 he'.2 (by simpa using hl)
      · intro hall
        refine ⟨hall [] i is [] j js rfl rfl rfl, fun pre i' post pre' j' post' he he' hl => ?_⟩
        exact hall (i :: pre) i' post (j :: pre') j' post' (by rw [he, List.cons_append])
          (by rw [he', List.cons_append]) (by simpa using hl)

/-- Two runs on related calls: if related states stay related and answer with
related outputs, all the outputs are related. -/
theorem outs_rel (f : σ → ι → σ × ω) (g : τ → κ → τ × υ) (R : σ → τ → Prop) (C : ι → κ → Prop)
    (O : ω → υ → Prop)
    (hs : ∀ s t i j, R s t → C i j → R (f s i).1 (g t j).1 ∧ O (f s i).2 (g t j).2)
    {s : σ} {t : τ} (h : R s t) {is : List ι} {js : List κ} (hc : List.Forall₂ C is js) :
    List.Forall₂ O (outs f s is) (outs g t js) := by
  induction hc generalizing s t with
  | nil => exact .nil
  | cons hij _ ih =>
    obtain ⟨hr, ho⟩ := hs _ _ _ _ h hij
    exact .cons ho (ih hr)

end Mealy
