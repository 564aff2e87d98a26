import Netra.Shm.RingBuffer
/-!
# One writer and any number of reads, interleaved

A write is three atomic steps and a read is three atomic steps. The generation
of a slot is bumped last, so the two checks of a read can both fall into the
time between a copy into the slot and its bump; `reads_right_iff` says that this
and the int64 generation coming round are the only ways to a wrong frame.
-/
namespace Netra.Shm

open RingBufferWriter RingBufferReader

variable {F : Type}

/-! ## The system -/

/-- Where the writer is in `write`, with its locals. -/
inductive WriterPc (F : Type) where
  | idle
  | copied (slot : Nat) (frame : F)
  | bumped (slot : Nat) (frame : F)

/-- Where a read of the pointer of `w` is. -/
inductive ReadPc (F : Type) where
  | checked (w : Issued F)
  | copied (w : Issued F) (frame : F)

def ReadPc.write : ReadPc F → Issued F
  | .checked w => w
  | .copied w _ => w

structure Sys (F : Type) where
  mem : Memory F
  writer : WriterPc F := .idle
  /-- The writes that have returned, in order. -/
  issued : List (Issued F) := []
  reads : Nat → Option (ReadPc F) := fun _ => none

inductive Action (F : Type) where
  | copy (frame : F)
  | bumpIdx
  | bumpGen
  /-- Read `r` starts on the pointer of the `k`-th write. -/
  | check (r k : Nat)
  | copyOut (r : Nat)
  | recheck (r : Nat)
  deriving DecidableEq

def Sys.init (ring : Nat → F) : Sys F := { mem := RingBufferWriter.init ring }

/-- Read `r` is now at `pc`; `none` is a read that is not running. -/
def Sys.setRead (s : Sys F) (r : Nat) (pc : Option (ReadPc F)) : Sys F :=
  { s with reads := Function.update s.reads r pc }

/-- One atomic step; an action whose turn it is not does nothing. -/
def step (numSlots : Nat) (s : Sys F) : Action F → Sys F × Option (Outcome F)
  | .copy frame =>
    match s.writer with
    | .idle =>
      -- The frame goes in before the generation says so.
      let slot := slotOf numSlots s.mem.idx
      ({ s with mem := copyFrame s.mem slot frame, writer := .copied slot frame }, none)
    | _ => (s, none)
  | .bumpIdx =>
    match s.writer with
    | .copied slot frame => ({ s with mem := bumpIdx s.mem, writer := .bumped slot frame }, none)
    | _ => (s, none)
  | .bumpGen =>
    match s.writer with
    | .bumped slot frame =>
      let mem := bumpGen s.mem slot
      ({ s with mem, writer := .idle, issued := s.issued ++ [⟨pointerTo mem slot, frame⟩] }, none)
    | _ => (s, none)
  | .check r k =>
    match s.reads r, s.issued[k]? with
    | none, some w =>
      if ¬ current numSlots s.mem.gen w.pointer then
        (s, some (.raised w (staleError numSlots s.mem.gen w.pointer)))
      else (s.setRead r (some (.checked w)), none)
    | _, _ => (s, none)
  | .copyOut r =>
    match s.reads r with
    | some (.checked w) =>
      let frame := s.mem.ring (slot numSlots w.pointer)
      (s.setRead r (some (.copied w frame)), none)
    | _ => (s, none)
  | .recheck r =>
    match s.reads r with
    | some (.copied w frame) =>
      (s.setRead r none,
       some (if ¬ current numSlots s.mem.gen w.pointer then .raised w (.overwritten w.pointer.slotIndex)
         else .returned w frame))
    | _ => (s, none)

def after (numSlots : Nat) (ring : Nat → F) (acts : List (Action F)) : Sys F :=
  Mealy.after (step numSlots) (.init ring) acts

def outcomes (numSlots : Nat) (ring : Nat → F) (acts : List (Action F)) : List (Option (Outcome F)) :=
  Mealy.outs (step numSlots) (.init ring) acts

/-- Every read that returns, returns the frame its write stored. -/
def ReadsRight (numSlots : Nat) (ring : Nat → F) (acts : List (Action F)) : Prop :=
  ∀ w frame, some (.returned w frame) ∈ outcomes numSlots ring acts → frame = w.frame

/-- What the writer has put into a slot and not yet finished. -/
def Sys.busy (s : Sys F) : Option (Nat × F) :=
  match s.writer with
  | .idle => none
  | .copied slot frame => some (slot, frame)
  | .bumped slot frame => some (slot, frame)

/-- A read of the pointer of `w` copies the slot in state `s₁` and meets the
generation it expects in its second check, in state `s₂`. -/
def Passes (numSlots : Nat) (ring : Nat → F) (acts : List (Action F)) (w : Issued F) (s₁ s₂ : Sys F) : Prop :=
  ∃ A r B C, acts = A ++ .copyOut r :: B ++ .recheck r :: C ∧ .recheck r ∉ B ∧
    s₁ = after numSlots ring A ∧ s₂ = after numSlots ring (A ++ .copyOut r :: B) ∧
    s₁.reads r = some (.checked w) ∧ current numSlots s₂.mem.gen w.pointer

/-- A passing read copied what an unfinished write had put over the frame, and the
write is still unfinished at the second check. -/
def Torn (numSlots : Nat) (ring : Nat → F) (acts : List (Action F)) : Prop :=
  ∃ w s₁ s₂ frame, Passes numSlots ring acts w s₁ s₂ ∧ s₁.busy = some (w.pointer.slotIndex, frame) ∧
    frame ≠ w.frame ∧ writesTo s₂.issued w.pointer.slotIndex = writesTo s₁.issued w.pointer.slotIndex

/-- A passing read copied another frame, from a slot written 2^64 times or more. -/
def Wrapped (numSlots : Nat) (ring : Nat → F) (acts : List (Action F)) : Prop :=
  ∃ w s₁ s₂, Passes numSlots ring acts w s₁ s₂ ∧ s₁.mem.ring w.pointer.slotIndex ≠ w.frame ∧
    2 ^ 64 ≤ (writesTo s₂.issued w.pointer.slotIndex).length

variable {numSlots : Nat} {ring : Nat → F} {acts : List (Action F)}

theorem setRead_reads (s : Sys F) (r r' : Nat) (pc : Option (ReadPc F)) :
    (s.setRead r pc).reads r' = if r' = r then pc else s.reads r' := Function.update_apply ..

@[simp] theorem setRead_self (s : Sys F) (r : Nat) (pc : Option (ReadPc F)) :
    (s.setRead r pc).reads r = pc := Function.update_self ..

@[simp] theorem setRead_mem (s : Sys F) (r : Nat) (pc : Option (ReadPc F)) : (s.setRead r pc).mem = s.mem := rfl

/-! ## What a step can do -/

/-- `step` as a relation. -/
inductive Moves (numSlots : Nat) (s : Sys F) : Action F → Sys F × Option (Outcome F) → Prop
  | copy {frame : F} (hw : s.writer = .idle) :
    Moves numSlots s (.copy frame)
      ({ s with mem := copyFrame s.mem (slotOf numSlots s.mem.idx) frame
                writer := .copied (slotOf numSlots s.mem.idx) frame }, none)
  | bumpIdx {slot : Nat} {frame : F} (hw : s.writer = .copied slot frame) :
    Moves numSlots s .bumpIdx ({ s with mem := bumpIdx s.mem, writer := .bumped slot frame }, none)
  | bumpGen {slot : Nat} {frame : F} (hw : s.writer = .bumped slot frame) :
    Moves numSlots s .bumpGen
      ({ s with mem := bumpGen s.mem slot
                writer := .idle
                issued := s.issued ++ [⟨pointerTo (bumpGen s.mem slot) slot, frame⟩] }, none)
  | raise {r k : Nat} {w : Issued F} (hr : s.reads r = none) (hk : s.issued[k]? = some w)
      (hc : ¬ current numSlots s.mem.gen w.pointer) :
    Moves numSlots s (.check r k) (s, some (.raised w (staleError numSlots s.mem.gen w.pointer)))
  | check {r k : Nat} {w : Issued F} (hr : s.reads r = none) (hk : s.issued[k]? = some w)
      (hc : current numSlots s.mem.gen w.pointer) :
    Moves numSlots s (.check r k) (s.setRead r (some (.checked w)), none)
  | copyOut {r : Nat} {w : Issued F} (hr : s.reads r = some (.checked w)) :
    Moves numSlots s (.copyOut r)
      (s.setRead r (some (.copied w (s.mem.ring (slot numSlots w.pointer)))), none)
  | recheck {r : Nat} {w : Issued F} {frame : F} (hr : s.reads r = some (.copied w frame)) :
    Moves numSlots s (.recheck r) (s.setRead r none,
      some (if ¬ current numSlots s.mem.gen w.pointer then .raised w (.overwritten w.pointer.slotIndex)
        else .returned w frame))
  /-- Not the turn of `a`. -/
  | wait {a : Action F} (hcopyOut : ∀ r w, a = .copyOut r → s.reads r ≠ some (.checked w))
      (hrecheck : ∀ r w frame, a = .recheck r → s.reads r ≠ some (.copied w frame)) :
    Moves numSlots s a (s, none)

theorem step_moves (numSlots : Nat) (s : Sys F) (a : Action F) : Moves numSlots s a (step numSlots s a) := by
  cases a with
  | copy frame =>
    simp only [step]
    split
    · rename_i hw
      exact .copy hw
    · exact .wait (by simp) (by simp)
  | bumpIdx =>
    simp only [step]
    split
    · rename_i hw
      exact .bumpIdx hw
    · exact .wait (by simp) (by simp)
  | bumpGen =>
    simp only [step]
    split
    · rename_i hw
      exact .bumpGen hw
    · exact .wait (by simp) (by simp)
  | check r k =>
    simp only [step]
    split
    · rename_i w hr hk
      split
      · rename_i hc
        exact .raise hr hk hc
      · rename_i hc
        exact .check hr hk (not_not.1 hc)
    · exact .wait (by simp) (by simp)
  | copyOut r =>
    simp only [step]
    split
    · rename_i hr
      exact .copyOut hr
    · rename_i hno
      refine .wait (fun r' w ha => ?_) (by simp)
      cases ha
      exact hno w
  | recheck r =>
    simp only [step]
    split
    · rename_i hr
      exact .recheck hr
    · rename_i hno
      refine .wait (by simp) fun r' w frame ha => ?_
      cases ha
      exact hno w frame

/-! ## Undisturbed, the steps are the methods -/

theorem write_steps (s : Sys F) (hs : s.writer = .idle) (frame : F) :
    Mealy.after (step numSlots) s [.copy frame, .bumpIdx, .bumpGen] =
      { s with mem := (write numSlots s.mem frame).1
               issued := s.issued ++ [⟨(write numSlots s.mem frame).2, frame⟩] } := by
  obtain ⟨mem, writer, issued, reads⟩ := s
  cases hs
  rfl

theorem read_steps (s : Sys F) {r k : Nat} {w : Issued F} (hr : s.reads r = none) (hk : s.issued[k]? = some w) :
    (Mealy.outs (step numSlots) s [.check r k, .copyOut r, .recheck r]).filterMap id =
      [.of w (RingBufferReader.read numSlots s.mem.ring s.mem.gen w.pointer)] := by
  by_cases hc : current numSlots s.mem.gen w.pointer
  · simp [step, hr, hk, hc, RingBufferReader.read, Outcome.of]
  · simp [step, hr, hk, hc, RingBufferReader.read, Outcome.of]

/-! ## Invariant -/

structure Inv (numSlots : Nat) (s : Sys F) : Prop where
  recorded : Recorded numSlots s.mem s.busy s.issued
  reads : ∀ r pc, s.reads r = some pc → pc.write ∈ s.issued

theorem Inv.init : Inv numSlots (.init ring) where
  recorded := .init ring
  reads := by simp [Sys.init]

/-- A read that starts or moves on is one of an issued pointer. -/
theorem Inv.setRead {s : Sys F} (hi : Inv numSlots s) {r : Nat} {pc : Option (ReadPc F)}
    (hpc : ∀ pc', pc = some pc' → pc'.write ∈ s.issued) : Inv numSlots (s.setRead r pc) where
  recorded := hi.recorded
  reads := by
    intro r' pc' hr'
    rw [setRead_reads] at hr'
    split at hr'
    · exact hpc pc' hr'
    · exact hi.reads r' pc' hr'

theorem Inv.step {s : Sys F} (hi : Inv numSlots s) (a : Action F) : Inv numSlots (step numSlots s a).1 := by
  have hm := step_moves numSlots s a
  have hrec := hi.recorded
  unfold Sys.busy at hrec
  generalize Shm.step numSlots s a = next at hm
  cases hm with
  | copy hw =>
    rw [hw] at hrec
    exact ⟨hrec.copyFrame (slotOf_mod numSlots s.mem.idx) _, hi.reads⟩
  | bumpIdx hw =>
    rw [hw] at hrec
    exact ⟨hrec.bumpIdx, hi.reads⟩
  | bumpGen hw =>
    rw [hw] at hrec
    exact ⟨hrec.bumpGen, fun r pc hr => List.mem_append_left _ (hi.reads r pc hr)⟩
  | check hr hk hc =>
    refine hi.setRead fun pc' hpc => ?_
    cases hpc
    exact List.mem_of_getElem? hk
  | copyOut hr =>
    refine hi.setRead fun pc' hpc => ?_
    cases hpc
    exact hi.reads _ (.checked _) hr
  | recheck hr => exact hi.setRead (by simp)
  | raise | wait => exact hi

theorem after_inv (acts : List (Action F)) : Inv numSlots (after numSlots ring acts) :=
  Mealy.after_inv (step numSlots) (Inv numSlots) _ Inv.init (fun _ a hi => hi.step a) acts

/-! ## The course of a read -/

/-- A read that has copied goes on to its second check, and no step but its own
`copyOut` brings it there. -/
theorem copied_step {s : Sys F} {a : Action F} {r : Nat} {w : Issued F} {frame : F} :
    (step numSlots s a).1.reads r = some (.copied w frame) ↔
      (s.reads r = some (.copied w frame) ∧ a ≠ .recheck r) ∨
        (a = .copyOut r ∧ s.reads r = some (.checked w) ∧ frame = s.mem.ring (slot numSlots w.pointer)) := by
  have hm := step_moves numSlots s a
  generalize step numSlots s a = next at hm
  cases hm with
  | copy | bumpIdx | bumpGen | raise => simp
  | @check r' k w' hr hk hc =>
    rw [setRead_reads]
    by_cases hrr : r = r'
    · subst hrr
      simp [hr]
    · simp [hrr]
  | @copyOut r' w' hr =>
    rw [setRead_reads]
    by_cases hrr : r = r'
    · subst hrr
      simp only [hr, if_true, Option.some.injEq, reduceCtorEq, false_and, false_or, true_and, ReadPc.copied.injEq,
        ReadPc.checked.injEq]
      constructor
      · rintro ⟨rfl, rfl⟩
        exact ⟨rfl, rfl⟩
      · rintro ⟨rfl, rfl⟩
        exact ⟨rfl, rfl⟩
    · simp [hrr, Ne.symm hrr]
  | @recheck r' w' frame' hr =>
    rw [setRead_reads]
    by_cases hrr : r = r'
    · simp [hrr]
    · simp [hrr, Ne.symm hrr]
  | wait hcopyOut hrecheck =>
    constructor
    · exact fun hs => .inl ⟨hs, fun ha => hrecheck r w frame ha hs⟩
    · rintro (⟨hs, -⟩ | ⟨ha, hs, -⟩)
      · exact hs
      · exact absurd hs (hcopyOut r w ha)

theorem copied_after {s : Sys F} {r : Nat} {w : Issued F} {frame : F} (hs : s.reads r = some (.copied w frame))
    {B : List (Action F)} (hB : .recheck r ∉ B) :
    (Mealy.after (step numSlots) s B).reads r = some (.copied w frame) := by
  induction B generalizing s with
  | nil => exact hs
  | cons a B ih =>
    rw [List.mem_cons, not_or] at hB
    exact ih (copied_step.2 (.inl ⟨hs, Ne.symm hB.1⟩)) hB.2

/-- Where a read that has copied got its frame from. -/
theorem copied_history {r : Nat} {w : Issued F} {frame : F}
    (hs : (after numSlots ring acts).reads r = some (.copied w frame)) :
    ∃ A B, acts = A ++ .copyOut r :: B ∧ .recheck r ∉ B ∧ (after numSlots ring A).reads r = some (.checked w) ∧
      frame = (after numSlots ring A).mem.ring (slot numSlots w.pointer) := by
  induction acts using List.reverseRecOn with
  | nil => simp [after, Sys.init] at hs
  | append_singleton acts a ih =>
    rw [after, Mealy.after_concat, copied_step] at hs
    rcases hs with ⟨hs, ha⟩ | ⟨rfl, hs, hf⟩
    · obtain ⟨A, B, rfl, hB, hA⟩ := ih hs
      refine ⟨A, B ++ [a], by simp, ?_, hA⟩
      simp [hB, Ne.symm ha]
    · exact ⟨acts, [], rfl, by simp, hs, hf⟩

/-- A step returns a frame when it is the second check of a read whose pointer is
current. -/
theorem returned_step {s : Sys F} {a : Action F} {w : Issued F} {frame : F} :
    (step numSlots s a).2 = some (.returned w frame) ↔
      ∃ r, a = .recheck r ∧ s.reads r = some (.copied w frame) ∧ current numSlots s.mem.gen w.pointer := by
  have hm := step_moves numSlots s a
  generalize step numSlots s a = next at hm
  cases hm with
  | copy | bumpIdx | bumpGen | raise | check | copyOut => simp
  | @recheck r w' frame' hr =>
    simp only [Action.recheck.injEq, exists_eq_left', hr, Option.some.injEq, ReadPc.copied.injEq]
    by_cases hc : current numSlots s.mem.gen w'.pointer
    · simp only [hc, not_true, if_false, Outcome.returned.injEq]
      constructor
      · rintro ⟨rfl, rfl⟩
        exact ⟨⟨rfl, rfl⟩, hc⟩
      · exact fun hw => hw.1
    · simp only [hc, not_false_eq_true, if_true, reduceCtorEq, false_iff]
      rintro ⟨⟨rfl, rfl⟩, hw⟩
      exact hc hw
  | wait hcopyOut hrecheck =>
    simp only [reduceCtorEq, false_iff]
    rintro ⟨r, ha, hr, -⟩
    exact hrecheck r w frame ha hr

/-- What a run returns: what its passing reads copied. -/
theorem returned_iff {w : Issued F} {frame : F} :
    some (.returned w frame) ∈ outcomes numSlots ring acts ↔
      ∃ s₁ s₂, Passes numSlots ring acts w s₁ s₂ ∧ frame = s₁.mem.ring (slot numSlots w.pointer) := by
  rw [outcomes, Mealy.mem_outs]
  constructor
  · rintro ⟨pre, a, C, rfl, hout⟩
    obtain ⟨r, rfl, hs, hc⟩ := returned_step.1 hout.symm
    obtain ⟨A, B, rfl, hB, hA, hf⟩ := copied_history hs
    exact ⟨_, _, ⟨A, r, B, C, rfl, hB, rfl, rfl, hA, hc⟩, hf⟩
  · rintro ⟨s₁, s₂, ⟨A, r, B, C, rfl, hB, rfl, rfl, hA, hc⟩, rfl⟩
    refine ⟨_, _, C, rfl, (returned_step.2 ⟨r, rfl, ?_, hc⟩).symm⟩
    rw [after, Mealy.after_append, Mealy.after_cons]
    exact copied_after (copied_step.2 (.inr ⟨rfl, hA, rfl⟩)) hB

/-- Only `bumpGen` issues a pointer, and only one. -/
theorem issued_step (s : Sys F) (a : Action F) :
    (step numSlots s a).1.issued = s.issued ∨
      a = .bumpGen ∧ ∃ w, (step numSlots s a).1.issued = s.issued ++ [w] := by
  have hm := step_moves numSlots s a
  generalize step numSlots s a = next at hm
  cases hm with
  | bumpGen => exact .inr ⟨rfl, _, rfl⟩
  | _ => exact .inl rfl

theorem issued_prefix (s : Sys F) (B : List (Action F)) : s.issued <+: (Mealy.after (step numSlots) s B).issued := by
  refine Mealy.after_inv (step numSlots) (fun s' => s.issued <+: s'.issued) s (List.prefix_refl _) ?_ B
  intro s' a hs'
  rcases @issued_step F numSlots s' a with hsame | ⟨-, w, hnew⟩
  · rwa [hsame]
  · rw [hnew]
    exact hs'.trans (List.prefix_append ..)

theorem Passes.spec {w : Issued F} {s₁ s₂ : Sys F} (hp : Passes numSlots ring acts w s₁ s₂) :
    Inv numSlots s₁ ∧ Inv numSlots s₂ ∧ w ∈ s₁.issued ∧ s₁.issued <+: s₂.issued ∧
      current numSlots s₂.mem.gen w.pointer := by
  obtain ⟨A, r, B, C, -, -, rfl, rfl, hA, hc⟩ := hp
  refine ⟨after_inv A, after_inv _, (after_inv A).reads r _ hA, ?_, hc⟩
  rw [after, after, Mealy.after_append]
  exact issued_prefix _ _

/-! ## When reads are right -/

/-- Below 2^64 writes to the slot, a passing read with another frame is torn. -/
theorem Passes.torn {w : Issued F} {s₁ s₂ : Sys F} (hp : Passes numSlots ring acts w s₁ s₂)
    (hne : s₁.mem.ring w.pointer.slotIndex ≠ w.frame)
    (hlt : (writesTo s₂.issued w.pointer.slotIndex).length < 2 ^ 64) : Torn numSlots ring acts := by
  obtain ⟨h1, h2, hw, ⟨new, hnew⟩, hc⟩ := hp.spec
  obtain ⟨pre, post, hpre⟩ := List.append_of_mem hw
  -- `w` is the newest write to its slot in both states
  have hsplit : s₂.issued = pre ++ w :: (post ++ new) := by
    rw [← hnew, hpre]
    simp
  have hnewest := h2.recorded.newest_of_current hsplit hc hlt
  rw [writesTo_append, List.append_eq_nil_iff] at hnewest
  have hlast : (writesTo s₁.issued w.pointer.slotIndex).getLast? = some w := by
    rw [hpre]
    exact getLast?_writesTo hnewest.1
  -- so only an unfinished write can have changed the slot
  have hbusy : ¬ ∀ f, s₁.busy ≠ some (w.pointer.slotIndex, f) := fun hfree =>
    hne (h1.recorded.newestHeld _ w hfree hlast)
  obtain ⟨f, hf⟩ := not_forall_not.1 hbusy
  refine ⟨w, s₁, s₂, f, hp, hf, ?_, ?_⟩
  · rwa [← h1.recorded.busyHeld _ f hf]
  · rw [← hnew, writesTo_append, hnewest.2, List.append_nil]

/-- Every read is right iff none is torn and no generation has come round under one. -/
theorem reads_right_iff (numSlots : Nat) (ring : Nat → F) (acts : List (Action F)) :
    ReadsRight numSlots ring acts ↔ ¬ Torn numSlots ring acts ∧ ¬ Wrapped numSlots ring acts := by
  have hslot {w : Issued F} {s₁ s₂ : Sys F} (hp : Passes numSlots ring acts w s₁ s₂) :
      slot numSlots w.pointer = w.pointer.slotIndex := hp.spec.1.recorded.mem_slot hp.spec.2.2.1
  constructor
  · intro hright
    have hheld {w : Issued F} {s₁ s₂ : Sys F} (hp : Passes numSlots ring acts w s₁ s₂) :
        s₁.mem.ring w.pointer.slotIndex = w.frame := by
      rw [← hslot hp]
      exact hright w _ (returned_iff.2 ⟨s₁, s₂, hp, rfl⟩)
    constructor
    · rintro ⟨w, s₁, s₂, f, hp, hbusy, hne, -⟩
      exact hne ((hp.spec.1.recorded.busyHeld _ f hbusy).symm.trans (hheld hp))
    · rintro ⟨w, s₁, s₂, hp, hne, -⟩
      exact hne (hheld hp)
  · rintro ⟨htorn, hwrapped⟩ w frame hout
    obtain ⟨s₁, s₂, hp, rfl⟩ := returned_iff.1 hout
    by_contra hne
    rw [hslot hp] at hne
    rcases Nat.lt_or_ge (writesTo s₂.issued w.pointer.slotIndex).length (2 ^ 64) with hlt | hge
    · exact htorn (hp.torn hne hlt)
    · exact hwrapped ⟨w, s₁, s₂, hp, hne, hge⟩

theorem length_issued_le (numSlots : Nat) (ring : Nat → F) (acts : List (Action F)) :
    (after numSlots ring acts).issued.length ≤ acts.countP fun a => a matches .bumpGen := by
  induction acts using List.reverseRecOn with
  | nil => simp [after, Sys.init]
  | append_singleton acts a ih =>
    rw [after, Mealy.after_concat, List.countP_append]
    rcases @issued_step F numSlots (after numSlots ring acts) a with hsame | ⟨rfl, w, hnew⟩
    · rw [← after, hsame]
      omega
    · rw [← after, hnew, List.length_append]
      exact Nat.add_le_add ih (by simp)

/-- No generation comes round in fewer than 2^64 writes. -/
theorem not_wrapped (hlt : acts.countP (fun a => a matches .bumpGen) < 2 ^ 64) :
    ¬ Wrapped numSlots ring acts := by
  rintro ⟨w, s₁, s₂, ⟨A, r, B, C, rfl, -, -, rfl, -⟩, -, hge⟩
  have hle := length_issued_le numSlots ring (A ++ .copyOut r :: B)
  have hfilter : (writesTo (after numSlots ring (A ++ .copyOut r :: B)).issued w.pointer.slotIndex).length ≤ _ :=
    List.length_filter_le ..
  rw [List.countP_append] at hlt
  omega

/-- The third write is copied over the first while the first is being read. -/
def lapped : List (Action Nat) :=
  [.copy 1, .bumpIdx, .bumpGen, .copy 2, .bumpIdx, .bumpGen, .check 0 0, .copy 3, .copyOut 0, .recheck 0]

/-- The read of frame 1 returns frame 3. -/
theorem reads_right_fails :
    ¬ ∀ (numSlots : Nat) (ring : Nat → Nat) (acts : List (Action Nat)), 0 < numSlots →
      ReadsRight numSlots ring acts := by
  intro hall
  have hread : some (.returned ⟨⟨0, 1⟩, 1⟩ 3) ∈ outcomes 2 (fun _ => 0) lapped := by decide
  exact absurd (hall 2 (fun _ => 0) lapped (by decide) _ _ hread) (by decide)

end Netra.Shm
