import Netra.Lib.Machine
import Mathlib.Logic.Function.Basic
import Mathlib.Algebra.Ring.Nat
/-!
# The frame ring (`shared/netra/shm.py`)

The three segments of a camera and what `RingBufferWriter.write` and
`RingBufferReader.read` do to them, step by step and as a whole. `Recorded`
relates the segments to the writes of one writer: the generation of a slot
counts them, and the slot holds the newest.
-/
namespace Netra.Shm

variable {F : Type}

/-- The `slot_index` and `generation` of a `FramePointer`. -/
structure Pointer where
  slotIndex : Nat
  generation : Int
  deriving DecidableEq, Repr

/-- What the ring, idx and gen segments hold; the counters are int64. -/
structure Memory (F : Type) where
  ring : Nat → F
  idx : BitVec 64
  gen : Nat → BitVec 64

/-! ## `RingBufferWriter` -/

namespace RingBufferWriter

/-- `__init__` sets the counters to 0 and leaves the ring as it is. -/
def init (ring : Nat → F) : Memory F := ⟨ring, 0, fun _ => 0⟩

def slotOf (numSlots : Nat) (idx : BitVec 64) : Nat := (idx.toInt % numSlots).toNat

def copyFrame (m : Memory F) (slot : Nat) (frame : F) : Memory F :=
  { m with ring := Function.update m.ring slot frame }

def bumpIdx (m : Memory F) : Memory F := { m with idx := m.idx + 1 }

def bumpGen (m : Memory F) (slot : Nat) : Memory F :=
  { m with gen := Function.update m.gen slot (m.gen slot + 1) }

/-- What `write` returns. -/
def pointerTo (m : Memory F) (slot : Nat) : Pointer := ⟨slot, (m.gen slot).toInt⟩

def write (numSlots : Nat) (m : Memory F) (frame : F) : Memory F × Pointer :=
  let slot := slotOf numSlots m.idx
  let m := bumpGen (bumpIdx (copyFrame m slot frame)) slot
  (m, pointerTo m slot)

end RingBufferWriter

/-! ## `RingBufferReader` -/

inductive ReadError where
  /-- The `FileNotFoundError` of a reader that finds no segments. -/
  | notFound
  | stale (slotIndex : Nat) (expected actual : Int)
  | overwritten (slotIndex : Nat)
  deriving DecidableEq, Repr

def shmName (cameraId : String) : String := s!"netra_cam_{cameraId}_ring"
def idxName (cameraId : String) : String := s!"netra_cam_{cameraId}_idx"
def genName (cameraId : String) : String := s!"netra_cam_{cameraId}_gen"

def ReadError.message (cameraId : String) : ReadError → String
  | .notFound =>
    s!"SHM segment '{shmName cameraId}' not found — is mediabridge running for camera {cameraId}?"
  | .stale slotIndex expected actual =>
    s!"Stale frame: camera={cameraId} slot={slotIndex} expected_gen={expected} actual_gen={actual}"
  | .overwritten slotIndex => s!"Frame overwritten during read: camera={cameraId} slot={slotIndex}"

namespace RingBufferReader

def slot (numSlots : Nat) (p : Pointer) : Nat := p.slotIndex % numSlots

/-- The comparison before and after the copy. -/
def current (numSlots : Nat) (gen : Nat → BitVec 64) (p : Pointer) : Prop :=
  (gen (slot numSlots p)).toInt = p.generation

instance (numSlots : Nat) (gen : Nat → BitVec 64) (p : Pointer) : Decidable (current numSlots gen p) :=
  inferInstanceAs (Decidable ((gen (slot numSlots p)).toInt = p.generation))

def staleError (numSlots : Nat) (gen : Nat → BitVec 64) (p : Pointer) : ReadError :=
  .stale p.slotIndex p.generation (gen (slot numSlots p)).toInt

def read (numSlots : Nat) (ring : Nat → F) (gen : Nat → BitVec 64) (p : Pointer) : Except ReadError F :=
  if ¬ current numSlots gen p then .error (staleError numSlots gen p)
  else
    let frame := ring (slot numSlots p)
    if ¬ current numSlots gen p then .error (.overwritten p.slotIndex) else .ok frame

theorem read_ok {numSlots : Nat} {ring : Nat → F} {gen : Nat → BitVec 64} {p : Pointer} {frame : F} :
    read numSlots ring gen p = .ok frame ↔ current numSlots gen p ∧ frame = ring (slot numSlots p) := by
  unfold read
  by_cases hc : current numSlots gen p
  · simp [hc, eq_comm]
  · simp [hc]

end RingBufferReader

/-! ## The writes of one writer -/

open RingBufferWriter RingBufferReader

/-- A finished write: what it returned and what it stored. -/
structure Issued (F : Type) where
  pointer : Pointer
  frame : F
  deriving DecidableEq

/-- How a read of the pointer of a write `w` ended. -/
inductive Outcome (F : Type) where
  | raised (w : Issued F) (e : ReadError)
  | returned (w : Issued F) (frame : F)
  deriving DecidableEq

def Outcome.of (w : Issued F) : Except ReadError F → Outcome F
  | .ok frame => .returned w frame
  | .error e => .raised w e

/-- The writes to a slot. -/
def writesTo (issued : List (Issued F)) (slot : Nat) : List (Issued F) :=
  issued.filter (·.pointer.slotIndex = slot)

/-- The writer has finished the writes `issued`, and has put `busy` into its slot
without finishing yet. -/
structure Recorded (numSlots : Nat) (m : Memory F) (busy : Option (Nat × F)) (issued : List (Issued F)) :
    Prop where
  inRange : ∀ w ∈ issued, w.pointer.slotIndex % numSlots = w.pointer.slotIndex
  busyRange : ∀ slot f, busy = some (slot, f) → slot % numSlots = slot
  busyHeld : ∀ slot f, busy = some (slot, f) → m.ring slot = f
  newestHeld : ∀ slot w, (∀ f, busy ≠ some (slot, f)) → (writesTo issued slot).getLast? = some w →
    m.ring slot = w.frame
  newestPointer : ∀ slot w, (writesTo issued slot).getLast? = some w → w.pointer = pointerTo m slot
  counts : ∀ slot, m.gen slot = BitVec.ofNat 64 (writesTo issued slot).length
  generations : ∀ pre w post, issued = pre ++ w :: post →
    w.pointer.generation = (BitVec.ofNat 64 ((writesTo pre w.pointer.slotIndex).length + 1)).toInt

variable {numSlots : Nat} {m : Memory F} {busy : Option (Nat × F)} {issued : List (Issued F)}

theorem writesTo_append (issued issued' : List (Issued F)) (slot : Nat) :
    writesTo (issued ++ issued') slot = writesTo issued slot ++ writesTo issued' slot :=
  List.filter_append ..

/-- One more write is one more to its own slot. -/
theorem writesTo_concat (issued : List (Issued F)) (w : Issued F) (slot : Nat) :
    writesTo (issued ++ [w]) slot =
      if w.pointer.slotIndex = slot then writesTo issued slot ++ [w] else writesTo issued slot := by
  rw [writesTo_append]
  split
  · rename_i hslot
    simp [writesTo, hslot]
  · rename_i hother
    simp [writesTo, hother]

/-- The newest write to a slot is the last one, or the slot is another. -/
theorem newest_concat {issued : List (Issued F)} {w w' : Issued F} {slot : Nat}
    (h : (writesTo (issued ++ [w]) slot).getLast? = some w') :
    (slot = w.pointer.slotIndex ∧ w' = w) ∨
      (slot ≠ w.pointer.slotIndex ∧ (writesTo issued slot).getLast? = some w') := by
  rw [writesTo_concat] at h
  split at h
  · rename_i hslot
    rw [List.getLast?_concat] at h
    exact .inl ⟨hslot.symm, (Option.some.inj h).symm⟩
  · rename_i hother
    exact .inr ⟨Ne.symm hother, h⟩

theorem getLast?_writesTo {pre post : List (Issued F)} {w : Issued F}
    (hpost : writesTo post w.pointer.slotIndex = []) :
    (writesTo (pre ++ w :: post) w.pointer.slotIndex).getLast? = some w := by
  rw [List.append_cons, writesTo_append, hpost, List.append_nil, writesTo_append]
  simp [writesTo]

theorem slotOf_mod (numSlots : Nat) (idx : BitVec 64) : slotOf numSlots idx % numSlots = slotOf numSlots idx := by
  rcases Nat.eq_zero_or_pos numSlots with rfl | hpos
  · exact Nat.mod_zero _
  · have hlt := Int.emod_lt_of_pos idx.toInt (Int.natCast_pos.2 hpos)
    have hnn := Int.emod_nonneg idx.toInt (by omega : (numSlots : Int) ≠ 0)
    refine Nat.mod_eq_of_lt ?_
    unfold slotOf
    omega

namespace Recorded

theorem init (ring : Nat → F) : Recorded numSlots (RingBufferWriter.init ring) none [] where
  inRange := by simp
  busyRange := by simp
  busyHeld := by simp
  newestHeld := by simp [writesTo]
  newestPointer := by simp [writesTo]
  counts := by simp [writesTo, RingBufferWriter.init]
  generations := by simp

theorem copyFrame (hr : Recorded numSlots m none issued) {slot : Nat} (hslot : slot % numSlots = slot)
    (frame : F) : Recorded numSlots (copyFrame m slot frame) (some (slot, frame)) issued where
  inRange := hr.inRange
  busyRange := by
    intro slot' f hb
    cases hb
    exact hslot
  busyHeld := by
    intro slot' f hb
    cases hb
    exact Function.update_self ..
  newestHeld := by
    intro slot' w hb hw
    have hne : slot' ≠ slot := by
      rintro rfl
      exact hb frame rfl
    rw [← hr.newestHeld slot' w (by simp) hw]
    exact Function.update_of_ne hne ..
  newestPointer := hr.newestPointer
  counts := hr.counts
  generations := hr.generations

theorem bumpIdx (hr : Recorded numSlots m busy issued) : Recorded numSlots (bumpIdx m) busy issued where
  inRange := hr.inRange
  busyRange := hr.busyRange
  busyHeld := hr.busyHeld
  newestHeld := hr.newestHeld
  newestPointer := hr.newestPointer
  counts := hr.counts
  generations := hr.generations

theorem bumpGen {slot : Nat} {frame : F} (hr : Recorded numSlots m (some (slot, frame)) issued) :
    Recorded numSlots (bumpGen m slot) none (issued ++ [⟨pointerTo (bumpGen m slot) slot, frame⟩]) := by
  have hgen : (RingBufferWriter.bumpGen m slot).gen slot = BitVec.ofNat 64 ((writesTo issued slot).length + 1) := by
    simp [RingBufferWriter.bumpGen, hr.counts slot, BitVec.ofNat_add]
  constructor
  · intro w hw
    rcases List.mem_append.1 hw with hw | hw
    · exact hr.inRange w hw
    · obtain rfl := List.mem_singleton.1 hw
      exact hr.busyRange slot frame rfl
  · simp
  · simp
  · intro slot' w _ hw
    rcases newest_concat hw with ⟨rfl, rfl⟩ | ⟨hne, hw⟩
    · exact hr.busyHeld _ frame rfl
    · refine hr.newestHeld slot' w ?_ hw
      intro f hb
      cases hb
      exact hne rfl
  · intro slot' w hw
    rcases newest_concat hw with ⟨rfl, rfl⟩ | ⟨hne, hw⟩
    · rfl
    · have hother : slot' ≠ slot := hne
      rw [hr.newestPointer slot' w hw, pointerTo, pointerTo]
      simp [RingBufferWriter.bumpGen, hother]
  · intro slot'
    rw [writesTo_concat]
    split
    · rename_i hslot
      obtain rfl : slot = slot' := hslot
      rw [hgen, List.length_append, List.length_singleton]
    · rename_i hother
      have hne : slot' ≠ slot := Ne.symm hother
      simp [RingBufferWriter.bumpGen, hne, hr.counts slot']
  · intro pre w post hpre
    rcases Mealy.split_concat.1 hpre with ⟨rfl, rfl, rfl⟩ | ⟨post', -, hpost⟩
    · rw [pointerTo, hgen]
    · exact hr.generations pre w post' hpost

theorem write (hr : Recorded numSlots m none issued) (frame : F) :
    Recorded numSlots (write numSlots m frame).1 none (issued ++ [⟨(write numSlots m frame).2, frame⟩]) :=
  (hr.copyFrame (slotOf_mod numSlots m.idx) frame).bumpIdx.bumpGen

theorem mem_slot (hr : Recorded numSlots m busy issued) {w : Issued F} (hw : w ∈ issued) :
    slot numSlots w.pointer = w.pointer.slotIndex := hr.inRange w hw

/-- Below 2^64 writes to its slot, a pointer is current only as long as its write
is the newest there. -/
theorem newest_of_current (hr : Recorded numSlots m busy issued) {pre post : List (Issued F)} {w : Issued F}
    (hw : issued = pre ++ w :: post) (hc : current numSlots m.gen w.pointer)
    (hlt : (writesTo issued w.pointer.slotIndex).length < 2 ^ 64) : writesTo post w.pointer.slotIndex = [] := by
  have hgen := hr.generations pre w post hw
  have hslot := hr.mem_slot (hw ▸ List.mem_append_right pre List.mem_cons_self)
  rw [current, hslot, hr.counts, hgen, BitVec.toInt_inj] at hc
  have hlen : (writesTo issued w.pointer.slotIndex).length =
      (writesTo pre w.pointer.slotIndex).length + 1 + (writesTo post w.pointer.slotIndex).length := by
    rw [hw, writesTo_append, List.length_append]
    simp [writesTo]
    omega
  have hnat := congrArg BitVec.toNat hc
  rw [BitVec.toNat_ofNat, BitVec.toNat_ofNat, Nat.mod_eq_of_lt hlt, Nat.mod_eq_of_lt (by omega)] at hnat
  exact List.length_eq_zero_iff.1 (by omega)

end Recorded

end Netra.Shm
