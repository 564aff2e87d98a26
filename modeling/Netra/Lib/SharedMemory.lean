import Netra.Lib.Dict
import Mathlib.Logic.Function.Basic
/-!
# Named shared memory (`multiprocessing.shared_memory`)

Segments of one kind, under names. A handle is the number of a segment: it
stays good when the name is unlinked, and a name that is created again gets a
new segment.
-/
namespace PyLib

variable {α : Type}

structure Segments (α : Type) where
  names : Dict String Nat := Dict.empty
  next : Nat := 0
  data : Nat → α

namespace Segments

/-- `SharedMemory(name, create=True)`; `none` is `FileExistsError`. -/
def create (s : Segments α) (name : String) (fresh : α) : Option (Segments α × Nat) :=
  match s.names.get? name with
  | some _ => none
  | none =>
    some ({ names := s.names.set name s.next
            next := s.next + 1
            data := Function.update s.data s.next fresh }, s.next)

/-- `SharedMemory(name, create=False)`; `none` is `FileNotFoundError`. -/
def attach (s : Segments α) (name : String) : Option Nat := s.names.get? name

/-- `unlink()`, with its `FileNotFoundError` ignored. -/
def unlink (s : Segments α) (name : String) : Segments α := { s with names := s.names.erase name }

/-- Overwrite the segment of a handle. -/
def store (s : Segments α) (handle : Nat) (v : α) : Segments α :=
  { s with data := Function.update s.data handle v }

/-- Create the segment, or attach to the one that is there. -/
def createOrAttach (s : Segments α) (name : String) (fresh : α) : Segments α × Nat :=
  match s.create name fresh with
  | some r => r
  | none => (s, (s.attach name).getD 0)

variable {s : Segments α} {name : String} {fresh v : α} {handle : Nat}

theorem createOrAttach_new (h : s.attach name = none) :
    s.createOrAttach name fresh =
      ({ names := s.names.set name s.next
         next := s.next + 1
         data := Function.update s.data s.next fresh }, s.next) := by
  have hget : s.names.get? name = none := h
  simp [createOrAttach, create, hget]

theorem createOrAttach_old (h : s.attach name = some handle) : s.createOrAttach name fresh = (s, handle) := by
  have hget : s.names.get? name = some handle := h
  simp [createOrAttach, create, attach, hget]

theorem createOrAttach_handle : (s.createOrAttach name fresh).2 = (s.attach name).getD s.next := by
  cases h : s.attach name with
  | none => rw [createOrAttach_new h, Option.getD_none]
  | some handle => rw [createOrAttach_old h, Option.getD_some]

theorem createOrAttach_next :
    (s.createOrAttach name fresh).1.next = if (s.attach name).isSome then s.next else s.next + 1 := by
  cases h : s.attach name with
  | none => simp [createOrAttach_new h]
  | some handle => simp [createOrAttach_old h]

theorem next_le_createOrAttach : s.next ≤ (s.createOrAttach name fresh).1.next := by
  rw [createOrAttach_next]
  split <;> omega

/-- Segments that agree on a name give it the same handle. -/
theorem createOrAttach_handle_eq {β : Type} {s' : Segments β} {name' : String} {fresh' : β}
    (hattach : s'.attach name' = s.attach name) (hnext : s'.next = s.next) :
    (s'.createOrAttach name' fresh').2 = (s.createOrAttach name fresh).2 := by
  rw [createOrAttach_handle, createOrAttach_handle, hattach, hnext]

theorem createOrAttach_lt (hnamed : ∀ x, s.attach name = some x → x < s.next) :
    (s.createOrAttach name fresh).2 < (s.createOrAttach name fresh).1.next := by
  rw [createOrAttach_handle, createOrAttach_next]
  cases hx : s.attach name with
  | none => simp
  | some x => simpa using hnamed x hx

/-- A segment other than the one returned was there before. -/
theorem lt_next_of_ne {other : Nat} (hne : other ≠ (s.createOrAttach name fresh).2)
    (hlt : other < (s.createOrAttach name fresh).1.next) : other < s.next := by
  cases hx : s.attach name with
  | none =>
    rw [createOrAttach_new hx] at hne hlt
    dsimp only at hne hlt
    omega
  | some x =>
    rw [createOrAttach_old hx] at hlt
    exact hlt

theorem attach_createOrAttach :
    (s.createOrAttach name fresh).1.attach name = some (s.createOrAttach name fresh).2 := by
  cases h : s.attach name with
  | none => simp [createOrAttach_new h, attach]
  | some handle => rw [createOrAttach_old h, h]

/-- The other segments are as before. -/
theorem createOrAttach_data {other : Nat} (h : other ≠ (s.createOrAttach name fresh).2) :
    (s.createOrAttach name fresh).1.data other = s.data other := by
  cases hs : s.attach name with
  | none =>
    rw [createOrAttach_new hs] at h ⊢
    exact Function.update_of_ne h ..
  | some handle => rw [createOrAttach_old hs]

@[simp] theorem store_next : (s.store handle v).next = s.next := rfl

@[simp] theorem attach_store : (s.store handle v).attach name = s.attach name := rfl

@[simp] theorem store_data_self : (s.store handle v).data handle = v := Function.update_self ..

theorem store_data_ne {handle' : Nat} (h : handle' ≠ handle) :
    (s.store handle v).data handle' = s.data handle' := Function.update_of_ne h ..

@[simp] theorem unlink_next : (s.unlink name).next = s.next := rfl

@[simp] theorem unlink_data : (s.unlink name).data = s.data := rfl

@[simp] theorem attach_unlink_self : (s.unlink name).attach name = none := Dict.get?_erase_self ..

end Segments

end PyLib
