import Netra.Shm.RingBuffer
import Netra.Lib.SharedMemory
/-!
# Writers that come and go

Whole operations on the segments of one camera: a writer is constructed, writes,
and closes or crashes; processes read through their `ReaderCache`. Generations
start again at 0 with every writer, so a pointer can be issued twice;
`restart_reads_right_iff` says that reads go wrong exactly through such pointers.
-/
namespace Netra.Shm

open PyLib RingBufferWriter RingBufferReader

variable {F : Type}

/-! ## Operations -/

/-- The handles of a `RingBufferWriter`. -/
structure Writer where
  ring : Nat
  idx : Nat
  gen : Nat

/-- The handles of a `RingBufferReader`. -/
structure Reader where
  ring : Nat
  gen : Nat

structure World (F : Type) where
  rings : Segments (Nat → F)
  idxs : Segments (BitVec 64)
  gens : Segments (Nat → BitVec 64)
  writer : Option Writer := none
  /-- `ReaderCache._readers` of each process, under this camera. -/
  readers : Nat → Option Reader := fun _ => none
  /-- The writes of all writers, in order. -/
  issued : List (Issued F) := []
  /-- Under a gen segment, the writes of the writer that was last to set it to 0. -/
  log : Nat → List (Issued F) := fun _ => []

inductive Op (F : Type) where
  | construct
  | write (frame : F)
  | close
  | crash
  /-- A process reads the pointer of the `k`-th write. -/
  | read (process k : Nat)
  deriving DecidableEq

/-- No writer yet; `blank` is what a new segment holds. -/
def World.init (blank : F) : World F where
  rings := { data := fun _ _ => blank }
  idxs := { data := fun _ => 0 }
  gens := { data := fun _ _ => 0 }

def World.memory (s : World F) (ring idx gen : Nat) : Memory F :=
  ⟨s.rings.data ring, s.idxs.data idx, s.gens.data gen⟩

section
variable (cameraId : String) (numSlots : Nat) (blank : F)

/-- `RingBufferWriter(camera_id, ...)`. -/
def construct (s : World F) : World F :=
  let rings := s.rings.createOrAttach (shmName cameraId) fun _ => blank
  let idxs := s.idxs.createOrAttach (idxName cameraId) 0
  let gens := s.gens.createOrAttach (genName cameraId) fun _ => 0
  -- A segment that is there keeps its frames; the counters are set to 0 all the same.
  let m := RingBufferWriter.init (rings.1.data rings.2)
  { s with
    rings := rings.1
    idxs := idxs.1.store idxs.2 m.idx
    gens := gens.1.store gens.2 m.gen
    writer := some ⟨rings.2, idxs.2, gens.2⟩
    log := Function.update s.log gens.2 [] }

/-- `write` of the writer with the given handles. -/
def writeWith (wr : Writer) (s : World F) (frame : F) : World F :=
  let r := RingBufferWriter.write numSlots (s.memory wr.ring wr.idx wr.gen) frame
  let w := ⟨r.2, frame⟩
  { s with
    rings := s.rings.store wr.ring r.1.ring
    idxs := s.idxs.store wr.idx r.1.idx
    gens := s.gens.store wr.gen r.1.gen
    issued := s.issued ++ [w]
    log := Function.update s.log wr.gen (s.log wr.gen ++ [w]) }

/-- `close` of the writer: the names go, the segments stay. -/
def close (s : World F) : World F :=
  { s with
    rings := s.rings.unlink (shmName cameraId)
    idxs := s.idxs.unlink (idxName cameraId)
    gens := s.gens.unlink (genName cameraId)
    writer := none }

/-- `ReaderCache.get` in a process; `none` is its `FileNotFoundError`, after five tries. -/
def getReader (s : World F) (process : Nat) : Option Reader :=
  match s.readers process with
  -- A cached reader is never opened again.
  | some r => some r
  | none =>
    match s.rings.attach (shmName cameraId), s.gens.attach (genName cameraId) with
    | some ring, some gen => some ⟨ring, gen⟩
    | _, _ => none

/-- One operation; without a writer there is no `write`, and a writer is
constructed when there is none. -/
def perform (s : World F) : Op F → World F × Option (Outcome F)
  | .construct =>
    match s.writer with
    | none => (construct cameraId blank s, none)
    | some _ => (s, none)
  | .write frame =>
    match s.writer with
    | some wr => (writeWith numSlots wr s frame, none)
    | none => (s, none)
  | .close =>
    match s.writer with
    | some _ => (close cameraId s, none)
    | none => (s, none)
  | .crash => ({ s with writer := none }, none)
  | .read process k =>
    match s.issued[k]? with
    | none => (s, none)
    | some w =>
      match getReader cameraId s process with
      | none => (s, some (.raised w .notFound))
      | some r =>
        ({ s with readers := Function.update s.readers process (some r) },
         some (.of w (RingBufferReader.read numSlots (s.rings.data r.ring) (s.gens.data r.gen) w.pointer)))

def worldAfter (ops : List (Op F)) : World F :=
  Mealy.after (perform cameraId numSlots blank) (.init blank) ops

/-- Every read of the run that returns, returns the frame of its write. -/
def RestartReadsRight (ops : List (Op F)) : Prop :=
  ∀ w frame, some (.returned w frame) ∈ Mealy.outs (perform cameraId numSlots blank) (.init blank) ops →
    frame = w.frame

/-- The run reads the pointer of `w` in state `s`, through the handles `r`. -/
def ReadsThrough (ops : List (Op F)) (s : World F) (w : Issued F) (r : Reader) : Prop :=
  ∃ pre process k post, ops = pre ++ .read process k :: post ∧
    s = worldAfter cameraId numSlots blank pre ∧ s.issued[k]? = some w ∧ getReader cameraId s process = some r

/-- A pointer is read through a segment whose last writer has issued the same
pointer for another frame, as its newest in the slot. -/
def Reissued (ops : List (Op F)) : Prop :=
  ∃ s w r w', ReadsThrough cameraId numSlots blank ops s w r ∧
    (writesTo (s.log r.gen) w.pointer.slotIndex).getLast? = some w' ∧ w'.pointer = w.pointer ∧ w'.frame ≠ w.frame

/-- A pointer with the generation 0 (2^64 writes to its slot) is read through a
segment whose last writer has not written the slot. -/
def RoundTrip (ops : List (Op F)) : Prop :=
  ∃ s w r, ReadsThrough cameraId numSlots blank ops s w r ∧ writesTo (s.log r.gen) w.pointer.slotIndex = [] ∧
    w.pointer.generation = 0 ∧ s.rings.data r.ring w.pointer.slotIndex ≠ w.frame

end

variable {cameraId : String} {numSlots : Nat} {blank : F}

/-! ## What an operation can do -/

/-- `perform` as a relation. -/
inductive Performs (cameraId : String) (numSlots : Nat) (blank : F) (s : World F) :
    Op F → World F × Option (Outcome F) → Prop
  | construct (hw : s.writer = none) :
    Performs cameraId numSlots blank s .construct (construct cameraId blank s, none)
  | write {frame : F} {wr : Writer} (hw : s.writer = some wr) :
    Performs cameraId numSlots blank s (.write frame) (writeWith numSlots wr s frame, none)
  | close {wr : Writer} (hw : s.writer = some wr) :
    Performs cameraId numSlots blank s .close (close cameraId s, none)
  | crash : Performs cameraId numSlots blank s .crash ({ s with writer := none }, none)
  | miss {process k : Nat} {w : Issued F} (hk : s.issued[k]? = some w)
      (hget : getReader cameraId s process = none) :
    Performs cameraId numSlots blank s (.read process k) (s, some (.raised w .notFound))
  | read {process k : Nat} {w : Issued F} {r : Reader} (hk : s.issued[k]? = some w)
      (hget : getReader cameraId s process = some r) :
    Performs cameraId numSlots blank s (.read process k)
      ({ s with readers := Function.update s.readers process (some r) },
        some (.of w (RingBufferReader.read numSlots (s.rings.data r.ring) (s.gens.data r.gen) w.pointer)))
  /-- There is no writer, or one already, or no such pointer. -/
  | nothing {op : Op F} (hread : ∀ process k, op = .read process k → s.issued[k]? = none) :
    Performs cameraId numSlots blank s op (s, none)

theorem perform_performs (cameraId : String) (numSlots : Nat) (blank : F) (s : World F) (op : Op F) :
    Performs cameraId numSlots blank s op (perform cameraId numSlots blank s op) := by
  cases op with
  | construct =>
    simp only [perform]
    split
    · rename_i hw
      exact .construct hw
    · exact .nothing (by simp)
  | write frame =>
    simp only [perform]
    split
    · rename_i hw
      exact .write hw
    · exact .nothing (by simp)
  | close =>
    simp only [perform]
    split
    · rename_i hw
      exact .close hw
    · exact .nothing (by simp)
  | crash => exact .crash
  | read process k =>
    simp only [perform]
    split
    · rename_i hk
      refine .nothing fun process' k' hop => ?_
      cases hop
      exact hk
    · rename_i hk
      split
      · rename_i hget
        exact .miss hk hget
      · rename_i hget
        exact .read hk hget

/-! ## Invariant -/

/-- The three segments of a writer are made and unlinked together, so their
handles agree; each triple is recorded in its log. -/
structure Lined (cameraId : String) (numSlots : Nat) (s : World F) : Prop where
  idxNext : s.idxs.next = s.rings.next
  genNext : s.gens.next = s.rings.next
  idxName : s.idxs.attach (idxName cameraId) = s.rings.attach (shmName cameraId)
  genName : s.gens.attach (genName cameraId) = s.rings.attach (shmName cameraId)
  named : ∀ x, s.rings.attach (shmName cameraId) = some x → x < s.rings.next
  writer : ∀ wr, s.writer = some wr → wr.idx = wr.ring ∧ wr.gen = wr.ring ∧ wr.ring < s.rings.next
  readers : ∀ p r, s.readers p = some r → r.ring = r.gen ∧ r.gen < s.rings.next
  recorded : ∀ x, x < s.rings.next → Recorded numSlots (s.memory x x x) none (s.log x)
  issued : ∀ w ∈ s.issued, w.pointer.slotIndex % numSlots = w.pointer.slotIndex

theorem Lined.init : Lined cameraId numSlots (.init blank) where
  idxNext := rfl
  genNext := rfl
  idxName := rfl
  genName := rfl
  named := by simp [World.init, Segments.attach]
  writer := by simp [World.init]
  readers := by simp [World.init]
  recorded := by simp [World.init]
  issued := by simp [World.init]

theorem construct_lined {s : World F} (hl : Lined cameraId numSlots s) :
    Lined cameraId numSlots (construct cameraId blank s) := by
  -- the three segments are created together or found together, under one number
  have hidx : (s.idxs.createOrAttach (Shm.idxName cameraId) 0).2 =
      (s.rings.createOrAttach (shmName cameraId) fun _ => blank).2 :=
    Segments.createOrAttach_handle_eq hl.idxName hl.idxNext
  have hgen : (s.gens.createOrAttach (Shm.genName cameraId) fun _ => 0).2 =
      (s.rings.createOrAttach (shmName cameraId) fun _ => blank).2 :=
    Segments.createOrAttach_handle_eq hl.genName hl.genNext
  have hlt : (s.rings.createOrAttach (shmName cameraId) fun _ => blank).2 <
      (s.rings.createOrAttach (shmName cameraId) fun _ => blank).1.next :=
    Segments.createOrAttach_lt hl.named
  constructor
  · rw [construct, Segments.store_next, Segments.createOrAttach_next, Segments.createOrAttach_next, hl.idxName,
      hl.idxNext]
  · rw [construct, Segments.store_next, Segments.createOrAttach_next, Segments.createOrAttach_next, hl.genName,
      hl.genNext]
  · rw [construct, Segments.attach_store, Segments.attach_createOrAttach, Segments.attach_createOrAttach, hidx]
  · rw [construct, Segments.attach_store, Segments.attach_createOrAttach, Segments.attach_createOrAttach, hgen]
  · intro x hx
    rw [construct, Segments.attach_createOrAttach, Option.some_inj] at hx
    exact hx ▸ hlt
  · intro wr hwr
    obtain rfl := Option.some_inj.1 hwr
    exact ⟨hidx, hgen, hlt⟩
  · intro p r hr
    obtain ⟨hrr, hrlt⟩ := hl.readers p r hr
    exact ⟨hrr, Nat.lt_of_lt_of_le hrlt Segments.next_le_createOrAttach⟩
  · intro y hy
    simp only [construct, World.memory, hidx, hgen]
    by_cases hyx : y = (s.rings.createOrAttach (shmName cameraId) fun _ => blank).2
    · rw [hyx, Segments.store_data_self, Segments.store_data_self, Function.update_self]
      exact Recorded.init _
    · have hold : y < s.rings.next := Segments.lt_next_of_ne hyx hy
      rw [Segments.store_data_ne hyx, Segments.store_data_ne hyx, Function.update_of_ne hyx,
        Segments.createOrAttach_data hyx, Segments.createOrAttach_data (hidx ▸ hyx),
        Segments.createOrAttach_data (hgen ▸ hyx)]
      exact hl.recorded y hold
  · exact hl.issued

theorem writeWith_lined {s : World F} (hl : Lined cameraId numSlots s) {wr : Writer} (hw : s.writer = some wr)
    (frame : F) : Lined cameraId numSlots (writeWith numSlots wr s frame) := by
  obtain ⟨hidx, hgen, hlt⟩ := hl.writer wr hw
  obtain ⟨x, idx, gen⟩ := wr
  dsimp only at hidx hgen hlt
  subst hidx hgen
  have hrec := (hl.recorded gen hlt).write frame
  constructor
  · exact hl.idxNext
  · exact hl.genNext
  · exact hl.idxName
  · exact hl.genName
  · exact hl.named
  · exact hl.writer
  · exact hl.readers
  · intro y hy
    by_cases hxy : y = gen
    · subst hxy
      simp only [Shm.writeWith, World.memory, Segments.store_data_self, Function.update_self]
      exact hrec
    · simp only [Shm.writeWith, World.memory, Segments.store_data_ne hxy, Function.update_of_ne hxy]
      exact hl.recorded y hy
  · intro w hwi
    rcases List.mem_append.1 hwi with hwi | hwi
    · exact hl.issued w hwi
    · obtain rfl := List.mem_singleton.1 hwi
      exact hrec.inRange _ (List.mem_append_right _ (List.mem_singleton.2 rfl))

theorem close_lined {s : World F} (hl : Lined cameraId numSlots s) : Lined cameraId numSlots (close cameraId s) where
  idxNext := hl.idxNext
  genNext := hl.genNext
  idxName := Segments.attach_unlink_self.trans Segments.attach_unlink_self.symm
  genName := Segments.attach_unlink_self.trans Segments.attach_unlink_self.symm
  named := by
    intro x hx
    rw [Shm.close, Segments.attach_unlink_self] at hx
    cases hx
  writer := fun _ hwr => by cases hwr
  readers := hl.readers
  recorded := hl.recorded
  issued := hl.issued

/-- A reader is attached to the ring and gen segments of one writer. -/
theorem getReader_lined {s : World F} (hl : Lined cameraId numSlots s) {process : Nat} {r : Reader}
    (hr : getReader cameraId s process = some r) : r.ring = r.gen ∧ r.gen < s.rings.next := by
  unfold getReader at hr
  split at hr
  · rename_i r' hr'
    obtain rfl := Option.some_inj.1 hr
    exact hl.readers process r' hr'
  · split at hr
    · rename_i ring gen hring hgen
      obtain rfl := Option.some_inj.1 hr
      rw [hl.genName, hring, Option.some_inj] at hgen
      exact ⟨hgen, hgen ▸ hl.named ring hring⟩
    · cases hr

theorem perform_lined {s : World F} (hl : Lined cameraId numSlots s) (op : Op F) :
    Lined cameraId numSlots (perform cameraId numSlots blank s op).1 := by
  have hp := perform_performs cameraId numSlots blank s op
  generalize perform cameraId numSlots blank s op = next at hp
  cases hp with
  | construct => exact construct_lined hl
  | write hw => exact writeWith_lined hl hw _
  | close => exact close_lined hl
  | crash => exact { hl with writer := fun _ hwr => by cases hwr }
  | read hk hget =>
    refine { hl with readers := fun p r' hr' => ?_ }
    dsimp only at hr'
    rw [Function.update_apply] at hr'
    split at hr'
    · obtain rfl := Option.some_inj.1 hr'
      exact getReader_lined hl hget
    · exact hl.readers p r' hr'
  | miss | nothing => exact hl

theorem worldAfter_lined (cameraId : String) (numSlots : Nat) (blank : F) (ops : List (Op F)) :
    Lined cameraId numSlots (worldAfter cameraId numSlots blank ops) :=
  Mealy.after_inv _ (Lined cameraId numSlots) _ Lined.init (fun _ op hl => perform_lined hl op) ops

/-! ## When reads are right -/

theorem ReadsThrough.spec {ops : List (Op F)} {s : World F} {w : Issued F} {r : Reader}
    (hr : ReadsThrough cameraId numSlots blank ops s w r) :
    Recorded numSlots (s.memory r.ring r.gen r.gen) none (s.log r.gen) ∧
      slot numSlots w.pointer = w.pointer.slotIndex := by
  obtain ⟨pre, process, k, post, -, rfl, hk, hget⟩ := hr
  have hl := worldAfter_lined cameraId numSlots blank pre
  obtain ⟨hring, hlt⟩ := getReader_lined hl hget
  exact ⟨hring ▸ hl.recorded r.gen hlt, hl.issued w (List.mem_of_getElem? hk)⟩

/-- A step returns a frame when it reads a current pointer. -/
theorem returned_perform {s : World F} {op : Op F} {w : Issued F} {frame : F} :
    (perform cameraId numSlots blank s op).2 = some (.returned w frame) ↔
      ∃ process k r, op = .read process k ∧ s.issued[k]? = some w ∧ getReader cameraId s process = some r ∧
        current numSlots (s.gens.data r.gen) w.pointer ∧ frame = s.rings.data r.ring (slot numSlots w.pointer) := by
  have hp := perform_performs cameraId numSlots blank s op
  generalize perform cameraId numSlots blank s op = next at hp
  cases hp with
  | construct | write | close | crash => simp
  | miss hk hget => simp [hk, hget]
  | @read process k w' r hk hget =>
    have hof (x : Except ReadError F) : Outcome.of w' x = .returned w frame ↔ w' = w ∧ x = .ok frame := by
      cases x <;> simp [Outcome.of]
    rw [Option.some_inj, hof, read_ok]
    constructor
    · rintro ⟨rfl, hc, hf⟩
      exact ⟨process, k, r, rfl, hk, hget, hc, hf⟩
    · rintro ⟨process', k', r', hop, hk', hget', hc, hf⟩
      cases hop
      rw [hk, Option.some_inj] at hk'
      rw [hget, Option.some_inj] at hget'
      subst hk' hget'
      exact ⟨rfl, hc, hf⟩
  | nothing hread =>
    simp only [reduceCtorEq, false_iff]
    rintro ⟨process, k, r, hop, hk, -⟩
    rw [hread process k hop] at hk
    cases hk

/-- What the reads of a run return. -/
theorem returned_through {ops : List (Op F)} {w : Issued F} {frame : F} :
    some (.returned w frame) ∈ Mealy.outs (perform cameraId numSlots blank) (.init blank) ops ↔
      ∃ s r, ReadsThrough cameraId numSlots blank ops s w r ∧ current numSlots (s.gens.data r.gen) w.pointer ∧
        frame = s.rings.data r.ring (slot numSlots w.pointer) := by
  rw [Mealy.mem_outs]
  constructor
  · rintro ⟨pre, op, post, rfl, hout⟩
    obtain ⟨process, k, r, rfl, hk, hget, hc, hf⟩ := returned_perform.1 hout.symm
    exact ⟨_, r, ⟨pre, process, k, post, rfl, rfl, hk, hget⟩, hc, hf⟩
  · rintro ⟨s, r, ⟨pre, process, k, post, rfl, rfl, hk, hget⟩, hc, hf⟩
    exact ⟨pre, _, post, rfl, (returned_perform.2 ⟨process, k, r, rfl, hk, hget, hc, hf⟩).symm⟩

/-- What a current pointer leads to: the newest write to the slot by the segment's
last writer, under the same pointer, or none. -/
theorem Recorded.newest_pointer {m : Memory F} {issued : List (Issued F)} (hr : Recorded numSlots m none issued)
    {p : Pointer} (hp : slot numSlots p = p.slotIndex) (hc : current numSlots m.gen p) :
    (writesTo issued p.slotIndex = [] ∧ p.generation = 0) ∨
      ∃ w, (writesTo issued p.slotIndex).getLast? = some w ∧ w.pointer = p ∧ m.ring p.slotIndex = w.frame := by
  rw [current, hp] at hc
  cases hlast : (writesTo issued p.slotIndex).getLast? with
  | none =>
    have hnil := List.getLast?_eq_none_iff.1 hlast
    rw [hr.counts, hnil] at hc
    exact .inl ⟨hnil, hc.symm⟩
  | some w =>
    refine .inr ⟨w, rfl, ?_, hr.newestHeld _ w (by simp) hlast⟩
    rw [hr.newestPointer _ w hlast, pointerTo, hc]

/-- Across restarts, reads are right iff no pointer is read that the segment's last
writer has issued again, and none of generation 0. -/
theorem restart_reads_right_iff (cameraId : String) (numSlots : Nat) (blank : F) (ops : List (Op F)) :
    RestartReadsRight cameraId numSlots blank ops ↔
      ¬ Reissued cameraId numSlots blank ops ∧ ¬ RoundTrip cameraId numSlots blank ops := by
  constructor
  · intro hright
    constructor
    · rintro ⟨s, w, r, w', hr, hlast, hp, hne⟩
      obtain ⟨hrec, hslot⟩ := hr.spec
      have hc : current numSlots (s.gens.data r.gen) w.pointer := by
        have hptr := hrec.newestPointer _ w' hlast
        rw [hp, pointerTo] at hptr
        rw [current, hslot, hptr]
        rfl
      have hheld := hright w _ (returned_through.2 ⟨s, r, hr, hc, rfl⟩)
      rw [hslot] at hheld
      exact hne ((hrec.newestHeld _ w' (by simp) hlast).symm.trans hheld)
    · rintro ⟨s, w, r, hr, hnil, hzero, hne⟩
      obtain ⟨hrec, hslot⟩ := hr.spec
      have hc : current numSlots (s.gens.data r.gen) w.pointer := by
        have hgen : s.gens.data r.gen w.pointer.slotIndex = _ := hrec.counts w.pointer.slotIndex
        rw [current, hslot, hgen, hnil, hzero]
        rfl
      have hheld := hright w _ (returned_through.2 ⟨s, r, hr, hc, rfl⟩)
      exact hne (hslot ▸ hheld)
  · rintro ⟨hreissued, hround⟩ w frame hout
    obtain ⟨s, r, hr, hc, rfl⟩ := returned_through.1 hout
    obtain ⟨hrec, hslot⟩ := hr.spec
    rw [hslot]
    by_contra hne
    rcases hrec.newest_pointer hslot hc with ⟨hnil, hzero⟩ | ⟨w', hlast, hp, hheld⟩
    · exact hround ⟨s, w, r, hr, hnil, hzero, hne⟩
    · exact hreissued ⟨s, w, r, w', hr, hlast, hp, fun heq => hne (hheld.trans heq)⟩

/-- Reads are right as long as every process reads pointers of the last writer of
its own segments, below 2^64 writes. -/
theorem own_reads_right {ops : List (Op F)}
    (hown : ∀ s w r, ReadsThrough cameraId numSlots blank ops s w r →
      w ∈ s.log r.gen ∧ (writesTo (s.log r.gen) w.pointer.slotIndex).length < 2 ^ 64) :
    RestartReadsRight cameraId numSlots blank ops := by
  intro w frame hout
  obtain ⟨s, r, hr, hc, rfl⟩ := returned_through.1 hout
  obtain ⟨hrec, hslot⟩ := hr.spec
  obtain ⟨hmem, hlt⟩ := hown s w r hr
  obtain ⟨pre, post, hlog⟩ := List.append_of_mem hmem
  have hnewest := @getLast?_writesTo F pre post w (hrec.newest_of_current hlog hc hlt)
  rw [← hlog] at hnewest
  rw [hslot]
  exact hrec.newestHeld _ w (by simp) hnewest

/-- Generations count up from 0, in every writer. -/
structure Counted (s : World F) : Prop where
  logs : ∀ x, (s.log x).length ≤ s.issued.length
  issued : ∀ w ∈ s.issued, ∃ k < s.issued.length, w.pointer.generation = (BitVec.ofNat 64 (k + 1)).toInt

theorem writeWith_counted {s : World F} (hl : Lined cameraId numSlots s) (hc : Counted s) {wr : Writer}
    (hw : s.writer = some wr) (frame : F) : Counted (writeWith numSlots wr s frame) := by
  obtain ⟨hidx, hgen, hlt⟩ := hl.writer wr hw
  obtain ⟨x, idx, gen⟩ := wr
  dsimp only at hidx hgen hlt
  subst hidx hgen
  have hrec := (hl.recorded gen hlt).write frame
  constructor
  · intro y
    simp only [writeWith, Function.update_apply, List.length_append, List.length_singleton]
    split
    · simpa using hc.logs gen
    · have hy := hc.logs y
      omega
  · intro w hwi
    simp only [writeWith, List.length_append, List.length_singleton]
    rcases List.mem_append.1 hwi with hwi | hwi
    · obtain ⟨k, hk, hgen⟩ := hc.issued w hwi
      exact ⟨k, by omega, hgen⟩
    · obtain rfl := List.mem_singleton.1 hwi
      refine ⟨_, ?_, hrec.generations (s.log gen) _ [] rfl⟩
      have hle : (writesTo (s.log gen) (slotOf numSlots (s.idxs.data gen))).length ≤ _ :=
        List.length_filter_le ..
      exact Nat.lt_succ_of_le (hle.trans (hc.logs gen))

theorem perform_counted {s : World F} (hl : Lined cameraId numSlots s) (hc : Counted s) (op : Op F) :
    Counted (perform cameraId numSlots blank s op).1 := by
  have hp := perform_performs cameraId numSlots blank s op
  generalize perform cameraId numSlots blank s op = next at hp
  cases hp with
  | construct =>
    refine ⟨fun x => ?_, hc.issued⟩
    simp only [construct, Function.update_apply]
    split
    · exact Nat.zero_le _
    · exact hc.logs x
  | write hw => exact writeWith_counted hl hc hw _
  | _ => exact ⟨hc.logs, hc.issued⟩

/-- Only `write` issues a pointer, and only one. -/
theorem perform_issued (s : World F) (op : Op F) :
    (perform cameraId numSlots blank s op).1.issued = s.issued ∨
      ∃ frame w, op = .write frame ∧ (perform cameraId numSlots blank s op).1.issued = s.issued ++ [w] := by
  have hp := perform_performs cameraId numSlots blank s op
  generalize perform cameraId numSlots blank s op = next at hp
  cases hp with
  | write => exact .inr ⟨_, _, rfl, rfl⟩
  | _ => exact .inl rfl

theorem length_worldAfter_issued_le (cameraId : String) (numSlots : Nat) (blank : F) (ops : List (Op F)) :
    (worldAfter cameraId numSlots blank ops).issued.length ≤ ops.countP fun op => op matches .write _ := by
  induction ops using List.reverseRecOn with
  | nil => simp [worldAfter, World.init]
  | append_singleton ops op ih =>
    rw [worldAfter, Mealy.after_concat, List.countP_append, ← worldAfter]
    rcases @perform_issued F cameraId numSlots blank (worldAfter cameraId numSlots blank ops) op with
      hsame | ⟨frame, w, rfl, hnew⟩
    · rw [hsame]
      omega
    · rw [hnew, List.length_append]
      exact Nat.add_le_add ih (by simp)

/-- No pointer has the generation 0 in fewer than 2^64 writes. -/
theorem not_roundTrip {ops : List (Op F)} (hlt : ops.countP (fun op => op matches .write _) < 2 ^ 64) :
    ¬ RoundTrip cameraId numSlots blank ops := by
  rintro ⟨s, w, r, ⟨pre, process, k, post, rfl, rfl, hk, -⟩, -, hzero, -⟩
  have hcounted : Lined cameraId numSlots (worldAfter cameraId numSlots blank pre) ∧
      Counted (worldAfter cameraId numSlots blank pre) :=
    Mealy.after_inv _ (fun s => Lined cameraId numSlots s ∧ Counted s) _
      ⟨Lined.init, by simp [World.init], by simp [World.init]⟩
      (fun _ op hs => ⟨perform_lined hs.1 op, perform_counted hs.1 hs.2 op⟩) pre
  obtain ⟨k', hk', hgen⟩ := hcounted.2.issued w (List.mem_of_getElem? hk)
  have hle := length_worldAfter_issued_le cameraId numSlots blank pre
  rw [List.countP_append] at hlt
  have hzero' : BitVec.ofNat 64 (k' + 1) = 0 := BitVec.toInt_inj.1 (hgen.symm.trans hzero)
  have hnat := congrArg BitVec.toNat hzero'
  rw [BitVec.toNat_ofNat, Nat.mod_eq_of_lt (by omega)] at hnat
  exact Nat.succ_ne_zero k' hnat

/-- The writer crashes, and the next one writes once: the pointer of frame 1 is
issued again for frame 2. -/
def crashAndWrite : List (Op Nat) :=
  [.construct, .write 1, .read 0 0, .crash, .construct, .write 2, .read 0 0]

/-- The old pointer reads the new writer's frame. -/
theorem restart_reads_right_fails :
    ¬ ∀ (cameraId : String) (numSlots blank : Nat) (ops : List (Op Nat)), 0 < numSlots →
      RestartReadsRight cameraId numSlots blank ops := by
  intro hall
  have hread : some (.returned ⟨⟨0, 1⟩, 1⟩ 2) ∈
      Mealy.outs (perform "cam-01" 2 0) (.init 0) crashAndWrite := by
    decide +kernel
  exact absurd (hall "cam-01" 2 0 crashAndWrite (by decide) _ _ hread) (by decide)

end Netra.Shm
