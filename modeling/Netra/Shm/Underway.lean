import Netra.Shm.SlidingWindow
/-!
# The window while a write is under way

The steps of `write` one at a time. A pointer is current until `num_slots` later
writes are complete (`Underway.current_iff`), but from the copy of the last of these
on its slot holds the later frame (`Underway.held`).
-/
namespace Netra.Shm

open RingBufferWriter RingBufferReader Sequential

variable {F : Type}

/-- Where a writer is in `write`. -/
inductive Writing (F : Type) where
  | idle
  | copied (slot : Nat) (frame : F)
  | bumped (slot : Nat) (frame : F)
  /-- what `write` is to return -/
  | wrote (p : Pointer)

namespace Writing

/-- What is in its slot and not finished. -/
def busy : Writing F → Option (Nat × F)
  | .copied slot frame | .bumped slot frame => some (slot, frame)
  | _ => none

/-- By how much the index is ahead of the finished writes. -/
def ahead : Writing F → Nat
  | .bumped .. => 1
  | _ => 0

/-- The writes that are finished and have not returned. -/
def unreturned : Writing F → Nat
  | .wrote _ => 1
  | _ => 0

end Writing

/-- `ws` are the finished writes of one writer that takes the slots in turn, and
`writing` is where it is in the next. -/
structure Underway (numSlots : Nat) (m : Memory F) (writing : Writing F) (ws : List (Issued F)) : Prop where
  recorded : Recorded numSlots m writing.busy ws
  idx : m.idx = BitVec.ofNat 64 (ws.length + writing.ahead)
  slots : ws.length < 2 ^ 63 → TakesTurns numSlots ws
  busySlot : ws.length < 2 ^ 63 → ∀ slot frame, writing.busy = some (slot, frame) → slot = ws.length % numSlots
  last : ∀ p, writing = .wrote p → ∃ w, ws.getLast? = some w ∧ w.pointer = p

variable {numSlots : Nat} {m : Memory F} {writing : Writing F} {ws : List (Issued F)} {slot : Nat} {frame : F}

namespace Underway

theorem init (ring : Nat → F) : Underway numSlots (RingBufferWriter.init ring) .idle [] where
  recorded := .init ring
  idx := rfl
  slots _ k w hw := by simp at hw
  busySlot _ _ _ h := by cases h
  last _ h := by cases h

theorem copyFrame (h : Underway numSlots m .idle ws) (frame : F) :
    Underway numSlots (copyFrame m (slotOf numSlots m.idx) frame) (.copied (slotOf numSlots m.idx) frame) ws where
  recorded := h.recorded.copyFrame (slotOf_mod numSlots m.idx) frame
  idx := h.idx
  slots := h.slots
  busySlot hlt slot frame' hbusy := by
    cases hbusy
    rw [h.idx]
    exact slotOf_ofNat hlt
  last _ h := by cases h

theorem bumpIdx (h : Underway numSlots m (.copied slot frame) ws) :
    Underway numSlots (bumpIdx m) (.bumped slot frame) ws where
  recorded := h.recorded.bumpIdx
  idx := by
    have hidx : (RingBufferWriter.bumpIdx m).idx = m.idx + 1 := rfl
    rw [hidx, h.idx]
    simp [Writing.ahead, BitVec.ofNat_add]
  slots := h.slots
  busySlot := h.busySlot
  last _ h := by cases h

theorem bumpGen (h : Underway numSlots m (.bumped slot frame) ws) :
    Underway numSlots (bumpGen m slot) (.wrote (pointerTo (bumpGen m slot) slot))
      (ws ++ [⟨pointerTo (bumpGen m slot) slot, frame⟩]) where
  recorded := h.recorded.bumpGen
  idx := by
    rw [List.length_append]
    exact h.idx
  slots hlt := by
    rw [List.length_append, List.length_singleton] at hlt
    exact (h.slots (by omega)).concat (h.busySlot (by omega) slot frame rfl)
  busySlot _ _ _ hbusy := by cases hbusy
  last p hp := by
    cases hp
    exact ⟨_, List.getLast?_concat, rfl⟩

/-- `write` returns. -/
theorem finish {p : Pointer} (h : Underway numSlots m (.wrote p) ws) : Underway numSlots m .idle ws where
  recorded := h.recorded
  idx := h.idx
  slots := h.slots
  busySlot _ _ _ hbusy := by cases hbusy
  last _ hp := by cases hp

/-- The pointer of a write is current while fewer than `num_slots` later writes are
finished. -/
theorem current_iff (h : Underway numSlots m writing ws) (hn : 1 ≤ numSlots) (hlt : ws.length < 2 ^ 63) {k : Nat}
    {w : Issued F} (hw : ws[k]? = some w) : current numSlots m.gen w.pointer ↔ ws.length ≤ k + numSlots := by
  obtain ⟨hsplit, -⟩ := split_getElem? hw
  rw [← (h.slots hlt).later_iff hn hw]
  constructor
  · intro hcurrent
    have hfew : (writesTo ws w.pointer.slotIndex).length < 2 ^ 64 :=
      Nat.lt_of_le_of_lt (List.length_filter_le ..) (by omega)
    exact h.recorded.newest_of_current hsplit hcurrent hfew
  · intro hnone
    have hlast : (writesTo ws w.pointer.slotIndex).getLast? = some w := hsplit ▸ getLast?_writesTo hnone
    have hgen := congrArg Pointer.generation (h.recorded.newestPointer _ w hlast)
    rw [current, h.recorded.mem_slot (List.mem_of_getElem? hw)]
    exact hgen.symm

/-- A slot whose pointer is current holds its frame, or that of the write `num_slots`
later, which is under way. -/
theorem held (h : Underway numSlots m writing ws) (hn : 1 ≤ numSlots) (hlt : ws.length < 2 ^ 63) {k : Nat}
    {w : Issued F} (hw : ws[k]? = some w) (hfew : ws.length ≤ k + numSlots) :
    m.ring (RingBufferReader.slot numSlots w.pointer) = w.frame ∨
      ws.length = k + numSlots ∧
        ∃ slot, writing.busy = some (slot, m.ring (RingBufferReader.slot numSlots w.pointer)) := by
  obtain ⟨hsplit, hk⟩ := split_getElem? hw
  have hnone := ((h.slots hlt).later_iff hn hw).2 hfew
  have hlast : (writesTo ws w.pointer.slotIndex).getLast? = some w := hsplit ▸ getLast?_writesTo hnone
  rw [h.recorded.mem_slot (List.mem_of_getElem? hw)]
  by_cases hbusy : ∃ frame, writing.busy = some (w.pointer.slotIndex, frame)
  · obtain ⟨frame, hframe⟩ := hbusy
    have hsame := h.busySlot hlt _ frame hframe
    rw [h.slots hlt k w hw] at hsame
    -- the next write to the slot of the `k`-th is the one under way
    have hzero := Nat.sub_mod_eq_zero_of_mod_eq hsame.symm
    have hturn : ws.length = k + numSlots := by
      by_contra hne
      rw [Nat.mod_eq_of_lt (by omega)] at hzero
      omega
    refine .inr ⟨hturn, w.pointer.slotIndex, ?_⟩
    rw [h.recorded.busyHeld _ _ hframe]
    exact hframe
  · exact .inl (h.recorded.newestHeld _ w (fun frame hframe => hbusy ⟨frame, hframe⟩) hlast)

end Underway

end Netra.Shm
