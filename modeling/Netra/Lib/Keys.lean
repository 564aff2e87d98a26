import Mathlib.Data.List.Basic
/-!
# Keys

In `name:number` the last colon ends the name, since a number has none. Keys that
begin with heads of which none begins another (`PrefixFree`) tell their heads.
-/
namespace Keys

/-! ## A name and a number -/

/-- `f"{name}:{n}"` -/
def key (name : String) (n : Int) : String := s!"{name}:{n}"

theorem toList_key (name : String) (n : Int) : (key name n).toList = name.toList ++ ':' :: n.repr.toList := by
  simp [key, toString]

theorem notMem_toDigits {c : Char} (hc : ¬ c.isDigit) (m : Nat) : c ∉ Nat.toDigits 10 m := fun h =>
  hc (Nat.isDigit_of_mem_toDigits (by decide) (by decide) h)

theorem toDigits_inj (m m' : Nat) (h : Nat.toDigits 10 m = Nat.toDigits 10 m') : m = m' := by
  rw [← Nat.ofDigitChars_ten_toDigits (n := m), h, Nat.ofDigitChars_ten_toDigits]

theorem colon_notMem_repr (n : Int) : ':' ∉ n.repr.toList := by
  cases n with
  | ofNat m => simpa [Int.repr] using notMem_toDigits (by decide) m
  | negSucc m => simpa [Int.repr] using notMem_toDigits (by decide) (m + 1)

/-- The sign is no digit, and the digits tell the number. -/
theorem repr_inj {n n' : Int} (h : n.repr.toList = n'.repr.toList) : n = n' := by
  have hsign (m m' : Nat) : Nat.toDigits 10 m ≠ '-' :: Nat.toDigits 10 m' := fun h =>
    notMem_toDigits (by decide) m (h ▸ List.mem_cons_self)
  cases n with
  | ofNat m =>
    cases n' with
    | ofNat m' =>
      obtain rfl := toDigits_inj m m' (by simpa [Int.repr] using h)
      rfl
    | negSucc m' => exact absurd (by simpa [Int.repr] using h) (hsign m (m' + 1))
  | negSucc m =>
    cases n' with
    | ofNat m' => exact absurd (by simpa [Int.repr] using h.symm) (hsign m' (m + 1))
    | negSucc m' =>
      obtain rfl := Nat.succ.inj (toDigits_inj (m + 1) (m' + 1) (by simpa [Int.repr] using h))
      rfl

/-- Texts that agree up to a last colon. -/
theorem append_cons_inj {α : Type} {c : α} {xs xs' ys ys' : List α} (hys : c ∉ ys) (hys' : c ∉ ys')
    (h : xs ++ c :: ys = xs' ++ c :: ys') : xs = xs' ∧ ys = ys' := by
  rcases List.append_eq_append_iff.1 h with ⟨zs, rfl, he⟩ | ⟨zs, rfl, he⟩
  · cases zs with
    | nil => exact ⟨(List.append_nil xs).symm, (List.cons.inj he).2⟩
    | cons z zs =>
      obtain ⟨-, rfl⟩ := List.cons.inj he
      simp at hys
  · cases zs with
    | nil => exact ⟨List.append_nil xs', (List.cons.inj he).2.symm⟩
    | cons z zs =>
      obtain ⟨-, rfl⟩ := List.cons.inj he
      simp at hys'

theorem key_inj {name name' : String} {n n' : Int} : key name n = key name' n' ↔ name = name' ∧ n = n' := by
  constructor
  · intro h
    have h := congrArg String.toList h
    rw [toList_key, toList_key] at h
    obtain ⟨hname, hn⟩ := append_cons_inj (colon_notMem_repr n) (colon_notMem_repr n') h
    exact ⟨String.toList_inj.1 hname, repr_inj hn⟩
  · rintro ⟨rfl, rfl⟩
    rfl

/-! ## Heads -/

/-- No head begins another. -/
def PrefixFree {β : Type} (head : β → String) : Prop := ∀ b b', (head b).toList <+: (head b').toList → b = b'

theorem PrefixFree.append_inj {β : Type} {head : β → String} (h : PrefixFree head) {b b' : β} {s s' : String}
    (he : head b ++ s = head b' ++ s') : b = b' ∧ s = s' := by
  have hlist : (head b).toList ++ s.toList = (head b').toList ++ s'.toList := by
    rw [← String.toList_append, he, String.toList_append]
  obtain rfl : b = b' := by
    have hb := List.prefix_append (head b).toList s.toList
    have hb' := List.prefix_append (head b').toList s'.toList
    rw [hlist] at hb
    rcases List.prefix_or_prefix_of_prefix hb hb' with hle | hle
    · exact h b b' hle
    · exact (h b' b hle).symm
  exact ⟨rfl, String.toList_inj.1 (List.append_cancel_left hlist)⟩

end Keys
