import Netra.Shm.RingBuffer
/-!
# The last frames of a ring

Complete writes of one writer, with complete reads in between. The `k`-th write,
counted from 0, goes to slot `k % num_slots`, so the next write to its slot is
`num_slots` writes later: until then its pointer reads its frame, and from then
on reading it raises (`sliding_window`).
-/
namespace Netra.Shm.Sequential

open RingBufferWriter RingBufferReader

variable {F : Type}

/-- A call of `write`, or of `read` on a pointer. -/
inductive Call (F : Type) where
  | write (frame : F)
  | read (p : Pointer)

inductive Reply (F : Type) where
  | wrote (w : Issued F)
  | got (r : Except ReadError F)

def Reply.issued? : Reply F → Option (Issued F)
  | .wrote w => some w
  | .got _ => none

def Call.frame? : Call F → Option F
  | .write frame => some frame
  | .read _ => none

def call (numSlots : Nat) (m : Memory F) : Call F → Memory F × Reply F
  | .write frame =>
    let (m, p) := write numSlots m frame
    (m, .wrote ⟨p, frame⟩)
  | .read p => (m, .got (read numSlots m.ring m.gen p))

section
variable (numSlots : Nat) (ring : Nat → F) (calls : List (Call F))

def memoryAfter : Memory F := Mealy.after (call numSlots) (init ring) calls

/-- The writes the calls completed, in order. -/
def issued : List (Issued F) := (Mealy.outs (call numSlots) (init ring) calls).filterMap Reply.issued?

end

/-- The frames the calls wrote, in order. -/
def frames (calls : List (Call F)) : List F := calls.filterMap Call.frame?

/-! ## The writes so far -/

variable {numSlots : Nat} {m : Memory F} {ws : List (Issued F)}

/-- The counters below 2^63 are the numbers they stand for. -/
theorem toInt_ofNat {n : Nat} (h : n < 2 ^ 63) : (BitVec.ofNat 64 n).toInt = n := by
  have hnat : (BitVec.ofNat 64 n).toNat = n := by
    rw [BitVec.toNat_ofNat]
    exact Nat.mod_eq_of_lt (by omega)
  rw [BitVec.toInt_eq_toNat_of_lt (by omega), hnat]

theorem slotOf_ofNat {n : Nat} (h : n < 2 ^ 63) : slotOf numSlots (BitVec.ofNat 64 n) = n % numSlots := by
  rw [slotOf, toInt_ofNat h]
  omega

/-- The `k`-th write, counted from 0, goes to slot `k % num_slots`. -/
def TakesTurns (numSlots : Nat) (ws : List (Issued F)) : Prop :=
  ∀ (k : Nat) w, ws[k]? = some w → w.pointer.slotIndex = k % numSlots

theorem TakesTurns.concat (h : TakesTurns numSlots ws) {w : Issued F}
    (hw : w.pointer.slotIndex = ws.length % numSlots) : TakesTurns numSlots (ws ++ [w]) := by
  intro k w' hw'
  rw [List.getElem?_append] at hw'
  split at hw'
  · exact h k w' hw'
  · rw [List.getElem?_singleton] at hw'
    obtain ⟨hk, hlast⟩ := Option.ite_none_right_eq_some.1 hw'
    obtain rfl := Option.some.inj hlast
    rw [show k = ws.length by omega]
    exact hw

/-- The next write to the slot of the `k`-th is `num_slots` writes later. -/
theorem TakesTurns.later_iff (h : TakesTurns numSlots ws) (hn : 1 ≤ numSlots) {k : Nat} {w : Issued F}
    (hw : ws[k]? = some w) :
    writesTo (ws.drop (k + 1)) w.pointer.slotIndex = [] ↔ ws.length ≤ k + numSlots := by
  have hslot := h k w hw
  rw [writesTo, List.filter_eq_nil_iff]
  constructor
  · intro hnone
    by_contra hlong
    have hin : k + numSlots < ws.length := by omega
    have hnext := h (k + numSlots) _ (List.getElem?_eq_getElem hin)
    have hmem : ws[k + numSlots] ∈ ws.drop (k + 1) :=
      List.mem_iff_getElem?.2 ⟨numSlots - 1, by
        rw [List.getElem?_drop, List.getElem?_eq_some_iff]
        exact ⟨by omega, by congr 1; omega⟩⟩
    refine hnone _ hmem (decide_eq_true ?_)
    rw [hnext, hslot, Nat.add_mod_right]
  · intro hshort w' hw' hsame
    obtain ⟨j, hj⟩ := List.mem_iff_getElem?.1 hw'
    rw [List.getElem?_drop] at hj
    have hlen := (List.getElem?_eq_some_iff.1 hj).1
    have hslot' := h _ w' hj
    rw [of_decide_eq_true hsame, hslot] at hslot'
    -- two writes to one slot are a multiple of `num_slots` apart
    have hzero := Nat.sub_mod_eq_zero_of_mod_eq hslot'.symm
    rw [show k + 1 + j - k = j + 1 by omega, Nat.mod_eq_of_lt (by omega)] at hzero
    omega

/-- `ws` are the writes of one writer: its index counts them, and they take the slots
in turn. -/
structure InTurn (numSlots : Nat) (m : Memory F) (ws : List (Issued F)) : Prop where
  recorded : Recorded numSlots m none ws
  idx : m.idx = BitVec.ofNat 64 ws.length
  slots : ws.length < 2 ^ 63 → TakesTurns numSlots ws

theorem InTurn.init (ring : Nat → F) : InTurn numSlots (RingBufferWriter.init ring) [] where
  recorded := .init ring
  idx := rfl
  slots _ k w hw := by simp at hw

theorem InTurn.write (h : InTurn numSlots m ws) (frame : F) :
    InTurn numSlots (write numSlots m frame).1 (ws ++ [⟨(write numSlots m frame).2, frame⟩]) where
  recorded := h.recorded.write frame
  idx := by
    have hidx : (RingBufferWriter.write numSlots m frame).1.idx = m.idx + 1 := rfl
    rw [hidx, h.idx, List.length_append, List.length_singleton, BitVec.ofNat_add]
    rfl
  slots hlt := by
    rw [List.length_append, List.length_singleton] at hlt
    refine (h.slots (by omega)).concat ?_
    have hslot : slotOf numSlots m.idx = ws.length % numSlots := by
      rw [h.idx]
      exact slotOf_ofNat (by omega)
    exact hslot

theorem split_getElem? {k : Nat} {w : Issued F} (hw : ws[k]? = some w) :
    ws = ws.take k ++ w :: ws.drop (k + 1) ∧ k < ws.length := by
  obtain ⟨hk, rfl⟩ := List.getElem?_eq_some_iff.1 hw
  refine ⟨?_, hk⟩
  rw [List.getElem_cons_drop, List.take_append_drop]

/-- The pointer of a write reads its frame as long as no later write took its slot. -/
theorem InTurn.read_kept (h : InTurn numSlots m ws) {pre post : List (Issued F)} {w : Issued F}
    (hw : ws = pre ++ w :: post) (hpost : writesTo post w.pointer.slotIndex = []) :
    read numSlots m.ring m.gen w.pointer = .ok w.frame := by
  have hslot := h.recorded.mem_slot (hw ▸ List.mem_append_right pre List.mem_cons_self)
  have hlast : (writesTo ws w.pointer.slotIndex).getLast? = some w := hw ▸ getLast?_writesTo hpost
  refine read_ok.2 ⟨?_, ?_⟩
  · have hgen := congrArg Pointer.generation (h.recorded.newestPointer _ w hlast)
    rw [current, hslot]
    exact hgen.symm
  · rw [hslot]
    exact (h.recorded.newestHeld _ w (by simp) hlast).symm

/-- A slot written again has another generation. -/
theorem InTurn.read_stale (h : InTurn numSlots m ws) (hlt : ws.length < 2 ^ 63) {pre post : List (Issued F)}
    {w : Issued F} (hw : ws = pre ++ w :: post) (hpost : writesTo post w.pointer.slotIndex ≠ []) :
    read numSlots m.ring m.gen w.pointer = .error (staleError numSlots m.gen w.pointer) := by
  have hfew : (writesTo ws w.pointer.slotIndex).length < 2 ^ 64 :=
    Nat.lt_of_le_of_lt (List.length_filter_le ..) (by omega)
  have hold : ¬ current numSlots m.gen w.pointer := fun hc => hpost (h.recorded.newest_of_current hw hc hfew)
  rw [RingBufferReader.read, if_pos hold]

/-- A write is one more to its own slot. -/
theorem length_writesTo_take {k : Nat} {w : Issued F} (hw : ws[k]? = some w) :
    (writesTo (ws.take (k + 1)) w.pointer.slotIndex).length =
      (writesTo (ws.take k) w.pointer.slotIndex).length + 1 := by
  rw [List.take_add_one, hw, Option.toList_some, writesTo_concat, if_pos rfl, List.length_append, List.length_singleton]

/-- The generation of a write is the number of writes to its slot, with its own. -/
theorem InTurn.generation_eq (h : InTurn numSlots m ws) (hlt : ws.length < 2 ^ 63) {k : Nat} {w : Issued F}
    (hw : ws[k]? = some w) :
    w.pointer.generation = (writesTo (ws.take (k + 1)) w.pointer.slotIndex).length := by
  obtain ⟨hsplit, hk⟩ := split_getElem? hw
  have hfew : (writesTo (ws.take k) w.pointer.slotIndex).length ≤ (ws.take k).length := List.length_filter_le ..
  rw [List.length_take] at hfew
  rw [h.recorded.generations _ w _ hsplit, toInt_ofNat (by omega), length_writesTo_take hw]

/-- No two writes return one pointer. -/
theorem InTurn.nodup (h : InTurn numSlots m ws) (hlt : ws.length < 2 ^ 63) : (ws.map (·.pointer)).Nodup := by
  rw [List.nodup_iff_pairwise_ne, List.pairwise_map, List.pairwise_iff_getElem]
  intro j k hj hk hjk heq
  have hwk := List.getElem?_eq_getElem hk
  have hgen := h.generation_eq hlt (List.getElem?_eq_getElem hj)
  rw [heq, h.generation_eq hlt hwk, length_writesTo_take hwk] at hgen
  -- the writes up to the `j`-th are among those before the `k`-th
  have hpre : ws.take (j + 1) <+: ws.take k := List.take_prefix_take_left (by omega)
  have hle : (writesTo (ws.take (j + 1)) ws[k].pointer.slotIndex).length ≤
      (writesTo (ws.take k) ws[k].pointer.slotIndex).length := (hpre.sublist.filter _).length_le
  omega

/-! ## Runs of calls -/

variable {ring : Nat → F} {calls : List (Call F)}

theorem issued_concat (c : Call F) :
    issued numSlots ring (calls ++ [c]) =
      issued numSlots ring calls ++ (call numSlots (memoryAfter numSlots ring calls) c).2.issued?.toList := by
  rw [issued, issued, memoryAfter, Mealy.outs_append, List.filterMap_append, Mealy.outs_cons, Mealy.outs_nil]
  rw [List.filterMap_cons, List.filterMap_nil]
  cases Reply.issued? (call numSlots (Mealy.after (call numSlots) (RingBufferWriter.init ring) calls) c).2
  · rfl
  · rfl

theorem inTurn_after (numSlots : Nat) (ring : Nat → F) (calls : List (Call F)) :
    InTurn numSlots (memoryAfter numSlots ring calls) (issued numSlots ring calls) := by
  induction calls using List.reverseRecOn with
  | nil => exact .init ring
  | append_singleton calls c ih =>
    rw [issued_concat, memoryAfter, Mealy.after_concat]
    cases c with
    | write frame => exact ih.write frame
    | read p =>
      have hnone : (call numSlots (memoryAfter numSlots ring calls) (.read p)).2.issued? = none := rfl
      rw [hnone, Option.toList_none, List.append_nil]
      exact ih

/-- The `k`-th write is of the `k`-th frame. -/
theorem frames_eq (numSlots : Nat) (ring : Nat → F) (calls : List (Call F)) :
    (issued numSlots ring calls).map (·.frame) = frames calls := by
  induction calls using List.reverseRecOn with
  | nil => rfl
  | append_singleton calls c ih =>
    rw [issued_concat, List.map_append, ih, frames, frames, List.filterMap_append]
    cases c with
    | write frame => rfl
    | read p => rfl

theorem length_issued (numSlots : Nat) (ring : Nat → F) (calls : List (Call F)) :
    (issued numSlots ring calls).length = (frames calls).length := by
  rw [← frames_eq numSlots ring calls, List.length_map]

/-- The calls that leave the slot of `p` as it is: reads, and writes that take
another slot. -/
def Elsewhere (numSlots : Nat) (m : Memory F) (p : Pointer) : Call F → Prop
  | .write _ => slotOf numSlots m.idx ≠ slot numSlots p
  | .read _ => True

theorem read_elsewhere {c : Call F} {p : Pointer} (hc : Elsewhere numSlots m p c) :
    read numSlots (call numSlots m c).1.ring (call numSlots m c).1.gen p = read numSlots m.ring m.gen p := by
  cases c with
  | read q => rfl
  | write frame =>
    have hother : slot numSlots p ≠ slotOf numSlots m.idx := Ne.symm hc
    have hring : (call numSlots m (.write frame)).1.ring (slot numSlots p) = m.ring (slot numSlots p) :=
      Function.update_of_ne hother ..
    have hgen : (call numSlots m (.write frame)).1.gen (slot numSlots p) = m.gen (slot numSlots p) :=
      Function.update_of_ne hother ..
    have hcur : current numSlots (call numSlots m (.write frame)).1.gen p ↔ current numSlots m.gen p := by
      rw [current, current, hgen]
    simp only [RingBufferReader.read, staleError, hcur, hring, hgen]

/-- The ring after `calls` is a window over their writes, the newest `num_slots`
of them. -/
structure SlidingWindow (numSlots : Nat) (ring : Nat → F) (calls : List (Call F)) : Prop where
  /-- The `k`-th write stored the `k`-th frame. -/
  frame : ∀ (k : Nat) (w : Issued F), (issued numSlots ring calls)[k]? = some w → (frames calls)[k]? = some w.frame
  kept : ∀ (k : Nat) w, (issued numSlots ring calls)[k]? = some w → (frames calls).length ≤ k + numSlots →
    (call numSlots (memoryAfter numSlots ring calls) (.read w.pointer)).2 = .got (.ok w.frame)
  passed : ∀ (k : Nat) w, (issued numSlots ring calls)[k]? = some w → k + numSlots < (frames calls).length →
    ∃ actual, (call numSlots (memoryAfter numSlots ring calls) (.read w.pointer)).2 =
      .got (.error (.stale w.pointer.slotIndex w.pointer.generation actual))
  elsewhere : ∀ w ∈ issued numSlots ring calls, ∀ c,
    Elsewhere numSlots (memoryAfter numSlots ring calls) w.pointer c →
    (call numSlots (memoryAfter numSlots ring (calls ++ [c])) (.read w.pointer)).2 =
      (call numSlots (memoryAfter numSlots ring calls) (.read w.pointer)).2
  distinct : ((issued numSlots ring calls).map (·.pointer)).Nodup

/-- Below 2^63 writes, a pointer reads its frame until `num_slots` later writes are
complete and raises from then on; no other call changes what it reads. -/
theorem sliding_window (numSlots : Nat) (hn : 1 ≤ numSlots) (ring : Nat → F) (calls : List (Call F))
    (hlt : (frames calls).length < 2 ^ 63) : SlidingWindow numSlots ring calls := by
  have hturn := inTurn_after numSlots ring calls
  have hlen := length_issued numSlots ring calls
  rw [← hlen] at hlt
  constructor
  · intro k w hw
    rw [← frames_eq numSlots ring calls, List.getElem?_map, hw, Option.map_some]
  · intro k w hw hshort
    obtain ⟨hsplit, -⟩ := split_getElem? hw
    have hnone := ((hturn.slots hlt).later_iff hn hw).2 (by omega)
    exact congrArg Reply.got (hturn.read_kept hsplit hnone)
  · intro k w hw hlong
    obtain ⟨hsplit, -⟩ := split_getElem? hw
    have hsome := mt ((hturn.slots hlt).later_iff hn hw).1 (by omega)
    exact ⟨_, congrArg Reply.got (hturn.read_stale hlt hsplit hsome)⟩
  · intro w _ c hc
    rw [memoryAfter, Mealy.after_concat]
    exact congrArg Reply.got (read_elsewhere hc)
  · exact hturn.nodup hlt

/-- Two slots, three writes and a read in between: the first pointer is stale, the
other two read their frames. -/
theorem sliding_window_two :
    SlidingWindow 2 (fun _ => 0) [.write 10, .read ⟨0, 1⟩, .write 11, .write 12] :=
  sliding_window 2 (by decide) (fun _ => 0) [.write 10, .read ⟨0, 1⟩, .write 11, .write 12] (by decide)

end Netra.Shm.Sequential
