import Mathlib.Data.List.Nodup
/-!
# Enumerations with string values

`class E(str, Enum)`: every member has a value, no two the same. `value` is
`e.value` and `ofValue` is `E(s)`, which finds the member back
(`ofValue_value`).
-/
namespace PyLib

class StrEnum (α : Type) [DecidableEq α] where
  members : List (α × String)
  complete : ∀ a, a ∈ members.map Prod.fst
  distinct : (members.map Prod.snd).Nodup

namespace StrEnum

variable {α : Type} [DecidableEq α] [StrEnum α]

/-- `a.value` -/
def value (a : α) : String := (((members : List (α × String)).find? (·.1 = a)).map Prod.snd).getD ""

/-- `E(s)`; `none` is the `ValueError` of a string that is no value. -/
def ofValue (s : String) : Option α := ((members : List (α × String)).find? (·.2 = s)).map Prod.fst

theorem mem_members (a : α) : (a, value a) ∈ (members : List (α × String)) := by
  obtain ⟨m, hm, rfl⟩ := List.mem_map.1 (complete a)
  obtain ⟨m', hfind⟩ : ∃ m', (members : List (α × String)).find? (·.1 = m.1) = some m' := by
    rw [← Option.isSome_iff_exists, List.find?_isSome]
    exact ⟨m, hm, by simp⟩
  have hkey : m'.1 = m.1 := by simpa using List.find?_some hfind
  have hvalue : value m.1 = m'.2 := by simp [value, hfind]
  rw [hvalue, ← hkey]
  exact List.mem_of_find?_eq_some hfind

@[simp] theorem ofValue_value (a : α) : ofValue (value a) = some a := by
  have hmem := mem_members a
  obtain ⟨m, hfind⟩ : ∃ m, (members : List (α × String)).find? (·.2 = value a) = some m := by
    rw [← Option.isSome_iff_exists, List.find?_isSome]
    exact ⟨_, hmem, by simp⟩
  have hvalue : m.2 = value a := by simpa using List.find?_some hfind
  have hm : m = (a, value a) :=
    List.inj_on_of_nodup_map distinct (List.mem_of_find?_eq_some hfind) hmem hvalue
  rw [ofValue, hfind, hm]
  rfl

end StrEnum

end PyLib
