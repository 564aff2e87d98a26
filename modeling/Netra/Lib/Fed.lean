import Netra.Lib.Trim
/-!
# What a worker makes of what it is fed

`Fed A B I s`: the entries of the streams of `s`, and those in hand, satisfy `A` and
`B`, and the variables satisfy `I`. If a turn on such entries keeps `I` and puts out
only what satisfies `O`, so does a worker, however entries are added, read and trimmed
and however often it is restarted.
-/
namespace RedisStream

variable {α β σ ε ω : Type}

/-! ## Streams -/

namespace Stream

/-- All that was ever added satisfies `A`. -/
def Every (A : α → Prop) (s : Stream α) : Prop := ∀ a ∈ s.entries, A a

variable {A A' : α → Prop} {s : Stream α}

theorem every_empty : (empty : Stream α).Every A := fun _ ha => by cases ha

theorem Every.mono (hs : s.Every A) (h : ∀ a, A a → A' a) : s.Every A' := fun a ha => h a (hs a ha)

theorem Every.add (hs : s.Every A) {a : α} (ha : A a) : (s.add a).Every A := by
  intro b hb
  rcases List.mem_append.1 hb with hb | hb
  · exact hs b hb
  · exact List.mem_singleton.1 hb ▸ ha

theorem mem_entries {e : Entry α} (he : e ∈ s.all) : e.data ∈ s.entries := List.mem_of_getElem? (mem_all.1 he)

theorem Every.pending (hs : s.Every A) : ∀ e ∈ s.pending, A e.data := fun _ he =>
  hs _ (mem_entries (List.mem_of_mem_drop he))

theorem Every.read (hs : s.Every A) (count : Nat) : ∀ e ∈ (s.read count).2, A e.data := fun e he =>
  hs.pending e (List.mem_of_mem_take he)

/-- Several `XADD`s. -/
def addAll (s : Stream α) (as : List α) : Stream α := as.foldl add s

@[simp] theorem entries_addAll (as : List α) : (s.addAll as).entries = s.entries ++ as := by
  induction as generalizing s with
  | nil => rw [List.append_nil]; rfl
  | cons a as ih =>
    rw [addAll, List.foldl_cons, ← addAll, ih, add, List.append_assoc, List.singleton_append]

@[simp] theorem delivered_addAll (as : List α) : (s.addAll as).delivered = s.delivered := by
  induction as generalizing s with
  | nil => rfl
  | cons a as ih =>
    rw [addAll, List.foldl_cons, ← addAll, ih]
    rfl

theorem Every.addAll (hs : s.Every A) {as : List α} (has : ∀ a ∈ as, A a) : (s.addAll as).Every A := by
  intro a ha
  rw [entries_addAll, List.mem_append] at ha
  exact ha.elim (hs a) (has a)

/-- What the group has been given grows by what it reads. -/
theorem take_read (s : Stream α) (count : Nat) : s.entries.take (s.read count).1.delivered =
    s.entries.take s.delivered ++ (s.read count).2.map (·.data) := by
  have hdata : s.entries = s.all.map (·.data) := by
    rw [all, List.map_map]
    exact (List.zipIdx_map_fst 0 s.entries).symm
  rw [read]
  dsimp only
  rw [hdata, ← List.map_take, ← List.map_take, ← List.map_append, pending, List.take_add, List.length_take,
    List.length_drop]
  congr 2
  refine List.take_eq_take_iff.2 ?_
  rw [List.length_drop]
  omega

end Stream

/-! ## Workers of one stream -/

namespace Group

structure Fed (A : α → Prop) (I : σ → Prop) (s : State σ α) : Prop where
  stream : s.stream.Every A
  batch : ∀ e ∈ s.batch, A e.data
  vars : I s.vars

variable {G : Group σ ε α ω} {A A' : α → Prop} {I I' : σ → Prop} {s : State σ α}

theorem Fed.mono (hs : Fed A I s) (hA : ∀ a, A a → A' a) (hI : ∀ v, I v → I' v) : Fed A' I' s :=
  ⟨hs.stream.mono hA, fun e he => hA _ (hs.batch e he), hI _ hs.vars⟩

theorem Fed.addAll (hs : Fed A I s) {as : List α} (has : ∀ a ∈ as, A a) :
    Fed A I { s with stream := s.stream.addAll as } := ⟨hs.stream.addAll has, hs.batch, hs.vars⟩

theorem Fed.trim (hs : Fed A I s) (maxLen cut : Nat) : Fed A I { s with stream := s.stream.trim maxLen cut } :=
  ⟨hs.stream, hs.batch, hs.vars⟩

/-- A restart loses what was in hand. -/
theorem Fed.restart (hs : Fed A I s) {v : σ} (hv : I v) : Fed A I { s with vars := v, batch := [] } :=
  ⟨hs.stream, List.forall_mem_nil _, hv⟩

/-- One move, and what the turn it may make puts out. -/
def work (G : Group σ ε α ω) (x : ε) (s : State σ α) : State σ α × Option ω :=
  ((G.step s (.work x)).1, (G.step s (.work x)).2.map fun i => (G.turn s.vars i).2)

/-- A move reads the next batch, or turns over the next entry of the one in hand. -/
theorem work_cases (G : Group σ ε α ω) (x : ε) (s : State σ α) :
    (s.batch = [] ∧
      G.work x s = ({ s with batch := (s.stream.read G.count).2, stream := (s.stream.read G.count).1 }, none)) ∨
    ∃ e batch, s.batch = e :: batch ∧
      G.work x s = ({ s with vars := (G.turn s.vars (x, e)).1, batch }, some (G.turn s.vars (x, e)).2) := by
  unfold work step
  cases hb : s.batch with
  | nil => exact .inl ⟨rfl, rfl⟩
  | cons e batch => exact .inr ⟨e, batch, rfl, rfl⟩

@[simp] theorem entries_work (G : Group σ ε α ω) (x : ε) (s : State σ α) :
    (G.work x s).1.stream.entries = s.stream.entries := by
  rcases work_cases G x s with ⟨-, hw⟩ | ⟨e, batch, -, hw⟩
  · rw [hw]
    rfl
  · rw [hw]

theorem Fed.work (hs : Fed A I s) {O : ω → Prop} (x : ε)
    (hturn : ∀ v e, I v → A e.data → I (G.turn v (x, e)).1 ∧ O (G.turn v (x, e)).2) :
    Fed A I (G.work x s).1 ∧ ∀ o ∈ (G.work x s).2, O o := by
  rcases work_cases G x s with ⟨-, hw⟩ | ⟨e, batch, hb, hw⟩
  · rw [hw]
    exact ⟨⟨hs.stream, hs.stream.read G.count, hs.vars⟩, fun o ho => by cases ho⟩
  · rw [hw]
    have hbatch := hs.batch
    rw [hb] at hbatch
    obtain ⟨hvars, hout⟩ := hturn s.vars e hs.vars (hbatch e List.mem_cons_self)
    refine ⟨⟨hs.stream, fun e' he' => hbatch e' (List.mem_cons_of_mem _ he'), hvars⟩, fun o ho => ?_⟩
    obtain rfl : (G.turn s.vars (x, e)).2 = o := by simpa using ho
    exact hout

end Group

/-! ## Workers of two streams -/

namespace Consumer

/-- What is in hand. -/
def Pc.Every (A : α → Prop) (B : β → Prop) : Pc α β → Prop
  | .side batch => ∀ e ∈ batch, A e.data
  | .main batch => ∀ e ∈ batch, B e.data
  | _ => True

structure Fed (A : α → Prop) (B : β → Prop) (I : σ → Prop) (s : State σ α β) : Prop where
  side : s.side.Every A
  main : s.main.Every B
  batch : Pc.Every A B s.pc
  vars : I s.vars

def ItemOk (A : α → Prop) (B : β → Prop) : Item α β → Prop
  | .side e => A e.data
  | .main e => B e.data
  | .idle => True

variable {C : Consumer σ ε α β ω} {A A' : α → Prop} {B B' : β → Prop} {I I' : σ → Prop} {s : State σ α β}

theorem Pc.Every.mono {pc : Pc α β} (h : Pc.Every A B pc) (hA : ∀ a, A a → A' a) (hB : ∀ b, B b → B' b) :
    Pc.Every A' B' pc := by
  cases pc with
  | side batch => exact fun e he => hA _ (h e he)
  | main batch => exact fun e he => hB _ (h e he)
  | readSide => trivial
  | readMain => trivial

theorem Fed.mono (hs : Fed A B I s) (hA : ∀ a, A a → A' a) (hB : ∀ b, B b → B' b) (hI : ∀ v, I v → I' v) :
    Fed A' B' I' s := ⟨hs.side.mono hA, hs.main.mono hB, hs.batch.mono hA hB, hI _ hs.vars⟩

theorem Fed.addSide (hs : Fed A B I s) {as : List α} (has : ∀ a ∈ as, A a) :
    Fed A B I { s with side := s.side.addAll as } := ⟨hs.side.addAll has, hs.main, hs.batch, hs.vars⟩

theorem Fed.addMain (hs : Fed A B I s) {bs : List β} (hbs : ∀ b ∈ bs, B b) :
    Fed A B I { s with main := s.main.addAll bs } := ⟨hs.side, hs.main.addAll hbs, hs.batch, hs.vars⟩

theorem Fed.trimSide (hs : Fed A B I s) (maxLen cut : Nat) : Fed A B I { s with side := s.side.trim maxLen cut } :=
  ⟨hs.side, hs.main, hs.batch, hs.vars⟩

theorem Fed.trimMain (hs : Fed A B I s) (maxLen cut : Nat) : Fed A B I { s with main := s.main.trim maxLen cut } :=
  ⟨hs.side, hs.main, hs.batch, hs.vars⟩

theorem Fed.restart (hs : Fed A B I s) {v : σ} (hv : I v) : Fed A B I { s with vars := v, pc := .readSide } :=
  ⟨hs.side, hs.main, trivial, hv⟩

/-- The next move, if the worker does not wait, and what the turn it may make puts out. -/
def workOut (C : Consumer σ ε α β ω) (x : ε) (s : State σ α β) : State σ α β × List ω :=
  match C.work x s with
  | none => (s, [])
  | some (s', is) => (s', is.map fun i => (C.turn s.vars i).2)

/-- A move of the loop keeps what is in the streams and in hand. -/
theorem Fed.moves (hs : Fed A B I s) {x : ε} {s' : State σ α β} {is : List (ε × Item α β)} (hm : C.Moves x s s' is)
    {O : ω → Prop} (hturn : ∀ v i, I v → ItemOk A B i → I (C.turn v (x, i)).1 ∧ O (C.turn v (x, i)).2) :
    Fed A B I s' ∧ ∀ i ∈ is, O (C.turn s.vars i).2 := by
  obtain ⟨hside, hmain, hbatch, hvars⟩ := hs
  cases hm with
  | readSide hpend => exact ⟨⟨hside, hmain, hside.read C.sideCount, hvars⟩, fun i hi => by cases hi⟩
  | endSide => exact ⟨⟨hside, hmain, trivial, hvars⟩, fun i hi => by cases hi⟩
  | readMain hpend => exact ⟨⟨hside, hmain, hmain.read C.mainCount, hvars⟩, fun i hi => by cases hi⟩
  | endMain => exact ⟨⟨hside, hmain, trivial, hvars⟩, fun i hi => by cases hi⟩
  | poll hpend =>
    obtain ⟨hvars', hout⟩ := hturn _ .idle hvars trivial
    refine ⟨⟨hside, hmain, trivial, hvars'⟩, fun i hi => ?_⟩
    exact List.mem_singleton.1 hi ▸ hout
  | @takeSide v side main e batch =>
    obtain ⟨hvars', hout⟩ := hturn _ (.side e) hvars (hbatch e List.mem_cons_self)
    refine ⟨⟨hside, hmain, fun e' he' => hbatch e' (List.mem_cons_of_mem _ he'), hvars'⟩, fun i hi => ?_⟩
    exact List.mem_singleton.1 hi ▸ hout
  | @takeMain v side main e batch =>
    obtain ⟨hvars', hout⟩ := hturn _ (.main e) hvars (hbatch e List.mem_cons_self)
    refine ⟨⟨hside, hmain, fun e' he' => hbatch e' (List.mem_cons_of_mem _ he'), hvars'⟩, fun i hi => ?_⟩
    exact List.mem_singleton.1 hi ▸ hout

theorem Fed.workOut (hs : Fed A B I s) {O : ω → Prop} (x : ε)
    (hturn : ∀ v i, I v → ItemOk A B i → I (C.turn v (x, i)).1 ∧ O (C.turn v (x, i)).2) :
    Fed A B I (C.workOut x s).1 ∧ ∀ o ∈ (C.workOut x s).2, O o := by
  unfold Consumer.workOut
  cases hw : C.work x s with
  | none => exact ⟨hs, fun o ho => by cases ho⟩
  | some r =>
    obtain ⟨s', is⟩ := r
    obtain ⟨hfed, hout⟩ := hs.moves (work_moves hw) hturn
    refine ⟨hfed, fun o ho => ?_⟩
    obtain ⟨i, hi, rfl⟩ := List.mem_map.1 ho
    exact hout i hi

end Consumer

end RedisStream
