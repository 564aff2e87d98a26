import Netra.Lib.Dict
import Netra.Lib.Machine
/-!
# One machine per key

`keyed key g` keeps a dictionary of states and lets a call touch only the
state under its key. What it does under one key is what the machine `single g`
does on the calls with that key (`get?_after_keyed`, `outs_keyed`), so a fact
about one key never has to look at the others.
-/
namespace Mealy

open PyLib

variable {κ σ ι ω ε : Type} [DecidableEq κ]

/-- `g` on the state under `key i`; `none` is a key that is not there yet. -/
def keyed (key : ι → κ) (g : Option σ → ι → σ × ω) (d : Dict κ σ) (i : ι) : Dict κ σ × ω :=
  let r := g (d.get? (key i)) i
  (d.set (key i) r.1, r.2)

/-- The machine under one key. -/
def single (g : Option σ → ι → σ × ω) (o : Option σ) (i : ι) : Option σ × ω :=
  let r := g o i
  (some r.1, r.2)

variable (key : ι → κ) (g : Option σ → ι → σ × ω)

theorem get?_keyed (d : Dict κ σ) (i : ι) (k : κ) :
    (keyed key g d i).1.get? k = if key i = k then (single g (d.get? k) i).1 else d.get? k := by
  simp only [keyed, Dict.get?_set, single]
  by_cases h : key i = k
  · subst h; simp
  · simp [h, Ne.symm h]

theorem get?_after_keyed (d : Dict κ σ) (is : List ι) (k : κ) :
    (after (keyed key g) d is).get? k = after (single g) (d.get? k) (is.filter (key · = k)) := by
  induction is generalizing d with
  | nil => rfl
  | cons i is ih =>
    rw [after_cons, ih, get?_keyed]
    by_cases h : key i = k <;> simp [h]

/-- The outputs under `k`, when those of states with `I` say under which key they were made. -/
theorem outs_keyed_inv (g : Option σ → ι → σ × List ε) (tag : ε → κ) {I : κ → Option σ → Prop}
    (hI : ∀ o i, I (key i) o → I (key i) (some (g o i).1)) (ht : ∀ o i, I (key i) o → ∀ e ∈ (g o i).2, tag e = key i)
    (d : Dict κ σ) (hd : ∀ k, I k (d.get? k)) (is : List ι) (k : κ) :
    (outs (keyed key g) d is).flatten.filter (tag · = k) =
      (outs (single g) (d.get? k) (is.filter (key · = k))).flatten := by
  induction is generalizing d with
  | nil => rfl
  | cons i is ih =>
    have hd' : ∀ k, I k ((keyed key g d i).1.get? k) := by
      intro k
      rw [get?_keyed]
      split
      · rename_i hk
        subst hk
        exact hI _ i (hd (key i))
      · exact hd k
    simp only [outs_cons, List.flatten_cons, List.filter_append]
    rw [ih _ hd', get?_keyed]
    by_cases h : key i = k
    · subst h
      have hall : ((keyed key g d i).2).filter (tag · = key i) = (keyed key g d i).2 :=
        List.filter_eq_self.2 fun e he => by simpa using ht _ i (hd (key i)) e he
      rw [hall]
      simp [keyed, single]
    · have hnone : ((keyed key g d i).2).filter (tag · = k) = [] :=
        List.filter_eq_nil_iff.2 fun e he => by simpa [ht _ i (hd (key i)) e he] using h
      simp [hnone, h]

/-- The outputs under `k`, when every output says under which key it was made. -/
theorem outs_keyed (g : Option σ → ι → σ × List ε) (tag : ε → κ)
    (ht : ∀ o i, ∀ e ∈ (g o i).2, tag e = key i) (d : Dict κ σ) (is : List ι) (k : κ) :
    (outs (keyed key g) d is).flatten.filter (tag · = k) =
      (outs (single g) (d.get? k) (is.filter (key · = k))).flatten :=
  outs_keyed_inv key g tag (I := fun _ _ => True) (fun _ _ _ => trivial) (fun o i _ => ht o i) d (fun _ => trivial) is k

/-- Two machines on the same calls: what one call keeps under its key, all calls
keep under every key. -/
theorem keyed_rel (g' : Option σ → ι → σ × ω) (R : Option σ → Option σ → Prop) (O : ω → ω → Prop)
    (hs : ∀ o o' i, R o o' → R (some (g o i).1) (some (g' o' i).1) ∧ O (g o i).2 (g' o' i).2)
    {d d' : Dict κ σ} (h : ∀ k, R (d.get? k) (d'.get? k)) (is : List ι) :
    (∀ k, R ((after (keyed key g) d is).get? k) ((after (keyed key g') d' is).get? k)) ∧
      List.Forall₂ O (outs (keyed key g) d is) (outs (keyed key g') d' is) := by
  have hstep (s s' : Dict κ σ) (i j : ι) (hr : ∀ k, R (s.get? k) (s'.get? k)) (hij : i = j) :
      (∀ k, R ((keyed key g s i).1.get? k) ((keyed key g' s' j).1.get? k)) ∧
        O (keyed key g s i).2 (keyed key g' s' j).2 := by
    subst hij
    obtain ⟨hnew, hout⟩ := hs _ _ i (hr (key i))
    refine ⟨fun k => ?_, hout⟩
    rw [get?_keyed, get?_keyed]
    by_cases hk : key i = k
    · subst hk
      simpa [single] using hnew
    · simpa [hk] using hr k
  have his : List.Forall₂ Eq is is := List.forall₂_same.2 fun _ _ => rfl
  let S (s s' : Dict κ σ) : Prop := ∀ k, R (s.get? k) (s'.get? k)
  exact ⟨after_rel _ _ S Eq (fun s s' i j hr hij => (hstep s s' i j hr hij).1) h his,
    outs_rel _ _ S Eq O hstep h his⟩

end Mealy
