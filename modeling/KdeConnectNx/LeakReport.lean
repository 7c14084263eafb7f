import Mathlib.Data.List.AList
import Mathlib.Logic.Function.Basic
import KdeConnectNx.TraceFile

/-!
# The leak report

The hooks around the allocator record an allocation after the allocator has returned and
a release before it is called, `realloc` both; ticks, records and the allocator's own calls
of all threads come in any order. The report goes through the records and keeps the blocks
that are live, by address.
-/

namespace KdeConnectNx.LeakReport

open Runs TraceFile

/-- What the report keeps of a live block. -/
structure LiveBlock where
  size : ℕ
  frames : List ℕ
  serial : ℕ
  ts : ℕ
deriving DecidableEq, Repr

structure Hotspot where
  count : ℕ := 0
  total : ℕ := 0
  frames : List ℕ := []
deriving DecidableEq, Repr

section Dictionaries

variable {κ : Type} {ν : κ → Type} [DecidableEq κ]

/-- Assignment to a key: a new one comes behind the others, which are kept from the last to
the first; an old one keeps its place. -/
def assign (m : AList ν) (key : κ) (value : ν key) : AList ν :=
  if key ∈ m then m.replace key value else m.insert key value

/-- An address is in the table once it is assigned. -/
theorem mem_assign {m : AList ν} {key other : κ} {value : ν key} :
    other ∈ assign m key value ↔ other = key ∨ other ∈ m := by
  unfold assign
  split
  · next hmem =>
    rw [AList.mem_replace]
    constructor
    · exact .inr
    · rintro (rfl | hother)
      · exact hmem
      · exact hother
  · exact AList.mem_insert m

end Dictionaries

/-- The variables of `analyze`. -/
structure Analysis where
  live : AList fun _ : ℕ => LiveBlock := ∅
  hotspots : AList fun _ : List ℕ => Hotspot := ∅
  allocCount : ℕ := 0
  allocTotal : ℕ := 0
  freeCount : ℕ := 0
  freeTotal : ℕ := 0
  orphanFrees : ℕ := 0
  serial : ℕ := 0
  /-- How long blocks were held, in ticks; the script shows them in milliseconds. -/
  heldTicks : List ℕ := []
  lastTs : ℕ := 0

/-- The loop of `analyze` for one record. -/
def analyzeRecord (a : Analysis) (r : Record) : Analysis :=
  let a := { a with lastTs := if r.ts ≠ 0 then max a.lastTs r.ts else a.lastTs }
  if r.type = 'A' then
    let serial := a.serial + 1
    let hs := (a.hotspots.lookup r.frames).getD {}
    { a with
      allocCount := a.allocCount + 1
      allocTotal := a.allocTotal + r.size
      serial := serial
      live :=
        assign a.live r.ptr { size := r.size, frames := r.frames, serial := serial, ts := r.ts }
      hotspots := assign a.hotspots r.frames
        { count := hs.count + 1, total := hs.total + r.size, frames := r.frames } }
  else
    let a := { a with freeCount := a.freeCount + 1, freeTotal := a.freeTotal + r.size }
    match a.live.lookup r.ptr with
    | some block =>
      { a with
        heldTicks := if block.ts ≠ 0 ∧ block.ts ≤ r.ts then a.heldTicks ++ [r.ts - block.ts]
          else a.heldTicks
        live := a.live.erase r.ptr }
    | none => { a with orphanFrees := a.orphanFrees + 1 }

/-- What `analyze` returns: samples from the shortest on, hot spots from the largest on. -/
def analyze (records : List Record) : Analysis × List Hotspot :=
  let a := records.foldl analyzeRecord {}
  ({ a with heldTicks := a.heldTicks.mergeSort fun s t => decide (s ≤ t) },
    (a.hotspots.entries.reverse.map Sigma.snd).mergeSort fun h g => decide (g.total ≤ h.total))

/-- An allocation makes its address live. -/
theorem analyzeRecord_alloc (a : Analysis) {r : Record} (h : r.type = 'A') (k : ℕ) :
    (k ∈ (analyzeRecord a r).live ↔ k = r.ptr ∨ k ∈ a.live) ∧
      (analyzeRecord a r).orphanFrees = a.orphanFrees := by
  unfold analyzeRecord
  dsimp only
  rw [if_pos h]
  exact ⟨mem_assign, rfl⟩

/-- A release of a live address ends it, -/
theorem analyzeRecord_free (a : Analysis) {r : Record} (h : r.type = 'F') (hlive : r.ptr ∈ a.live)
    (k : ℕ) :
    (k ∈ (analyzeRecord a r).live ↔ k ≠ r.ptr ∧ k ∈ a.live) ∧
      (analyzeRecord a r).orphanFrees = a.orphanFrees := by
  obtain ⟨block, hblock⟩ := Option.isSome_iff_exists.mp (AList.lookup_isSome.mpr hlive)
  unfold analyzeRecord
  dsimp only
  rw [h, if_neg (by decide), hblock]
  exact ⟨AList.mem_erase, rfl⟩

/-- and that of any other is an orphan. -/
theorem analyzeRecord_orphan (a : Analysis) {r : Record} (h : r.type = 'F')
    (hlive : r.ptr ∉ a.live) :
    (analyzeRecord a r).live = a.live ∧ (analyzeRecord a r).orphanFrees = a.orphanFrees + 1 := by
  have hnone := AList.lookup_eq_none.mpr hlive
  unfold analyzeRecord
  dsimp only
  rw [h, if_neg (by decide), hnone]
  exact ⟨rfl, rfl⟩

/-- Which hook releases the block. -/
inductive After
  | free
  | realloc
deriving DecidableEq, Repr

/-- How far the hook is that works on a block. -/
inductive Stage
  /-- The allocator has returned the block; `track_alloc` is next. -/
  | acquired
  /-- `track_alloc` has its tick. -/
  | allocStamped (ts : UInt64)
  /-- `track_free` is next. -/
  | releasing (after : After)
  /-- `track_free` has its tick. -/
  | freeStamped (ts : UInt64) (after : After)
  /-- The release is recorded; the allocator is called next. -/
  | freeing (after : After)
deriving DecidableEq, Repr

/-- The hook is between a call of the allocator and the record that belongs to it. -/
def Stage.isPending : Stage → Bool
  | acquired => true
  | allocStamped _ => true
  | freeing _ => true
  | _ => false

/-- A block is with the allocator, in the program's hands, or in a hook of a thread. -/
inductive BlockState
  | unallocated
  | owned
  | busy (thread : ℕ) (stage : Stage)
deriving DecidableEq, Repr

/-- What `__real_realloc` does: the block moves, or stays where it is, or it is freed as its
new size is zero, or nothing is changed. The last two return null. -/
inductive Realloc
  | moved (p : UInt64)
  | freed
  | failed
deriving DecidableEq, Repr

/-- What `capture_bt` collects. -/
abbrev Backtrace := { frames : List UInt64 // frames.length ≤ kMaxFrames }

inductive Event
  /-- The allocator returns a block to one of the allocating hooks. -/
  | alloc (thread : ℕ) (p : UInt64)
  /-- A hook takes its tick. -/
  | tick (thread : ℕ) (ts : UInt64)
  /-- A hook appends its record, with the usable size of the block. -/
  | append (thread : ℕ) (sz : UInt64) (frames : Backtrace)
  /-- `__wrap_free` or `__wrap_realloc` is called on a block. -/
  | release (thread : ℕ) (p : UInt64) (after : After)
  | realFree (thread : ℕ)
  | realRealloc (thread : ℕ) (result : Realloc)
deriving DecidableEq

structure World where
  blocks : UInt64 → BlockState := fun _ => .unallocated
  /-- The block that a thread's hook works on. -/
  current : ℕ → Option UInt64 := fun _ => none
  /-- The records in the order they were appended in. -/
  calls : List Call := []

namespace World

/-- The block of a thread's hook and how far the hook is. -/
def hook (w : World) (thread : ℕ) : Option (UInt64 × Stage) :=
  match w.current thread with
  | none => none
  | some p =>
    match w.blocks p with
    | .busy _ stage => some (p, stage)
    | _ => none

/-- A thread's hook takes up a block. -/
def enter (thread : ℕ) (p : UInt64) (stage : Stage) (w : World) : World :=
  { w with
    blocks := Function.update w.blocks p (.busy thread stage)
    current := Function.update w.current thread (some p) }

/-- It goes on with it. -/
def goOn (thread : ℕ) (p : UInt64) (stage : Stage) (w : World) : World :=
  { w with blocks := Function.update w.blocks p (.busy thread stage) }

/-- It returns, the block in the program's hands or with the allocator. -/
def leave (thread : ℕ) (p : UInt64) (state : BlockState) (w : World) : World :=
  { w with
    blocks := Function.update w.blocks p state
    current := Function.update w.current thread none }

def record (c : Call) (w : World) : World := { w with calls := w.calls ++ [c] }

end World

/-- One step; nothing where a thread is not at that step, the allocator does not have the
block, or the program does not own it. -/
def step (w : World) : Event → World
  | .alloc thread p =>
    if w.current thread = none ∧ p ≠ 0 ∧ w.blocks p = .unallocated then
      w.enter thread p .acquired
    else w
  | .release thread p after =>
    if w.current thread = none ∧ w.blocks p = .owned then w.enter thread p (.releasing after) else w
  | .tick thread ts =>
    match w.hook thread with
    | some (p, .acquired) => w.goOn thread p (.allocStamped ts)
    | some (p, .releasing after) => w.goOn thread p (.freeStamped ts after)
    | _ => w
  | .append thread sz frames =>
    match w.hook thread with
    | some (p, .allocStamped ts) =>
      (w.record { type := 'A', ptr := p, sz := sz, ts := ts, frames := frames.1 }).leave thread
        p .owned
    | some (p, .freeStamped ts after) =>
      (w.record { type := 'F', ptr := p, sz := sz, ts := ts, frames := frames.1 }).goOn thread p
        (.freeing after)
    | _ => w
  | .realFree thread =>
    match w.hook thread with
    | some (p, .freeing .free) => w.leave thread p .unallocated
    | _ => w
  | .realRealloc thread result =>
    match w.hook thread with
    | some (p, .freeing .realloc) =>
      match result with
      | .moved q =>
        if q = p then w.goOn thread p .acquired
        else if q ≠ 0 ∧ w.blocks q = .unallocated then
          (w.leave thread p .unallocated).enter thread q .acquired
        else w
      | .freed => w.leave thread p .unallocated
      | .failed => w.leave thread p .owned
    | _ => w

/-- Nothing is allocated and nothing recorded. -/
def start : World := {}

namespace BlockState

def isAllocated : BlockState → Bool
  | unallocated => false
  | _ => true

/-- Its allocation is recorded and its release is not. -/
def isRecorded : BlockState → Bool
  | unallocated => false
  | owned => true
  | busy _ stage => !stage.isPending

end BlockState

/-- No thread is in a hook. -/
def Quiet (w : World) : Prop := ∀ thread, w.current thread = none

/-- No hook is between a call of the allocator and the record that belongs to it. -/
def Settled (w : World) : Prop :=
  ∀ thread p stage, w.hook thread = some (p, stage) → stage.isPending = false

/-- The report over the trace file says which blocks are allocated, and has no orphans. -/
def Exact (anchor : UInt64) (w : World) : Prop :=
  ∃ records, parseTrace (traceOf anchor w.calls) = .ok (records, anchor.toNat, 2) ∧
    (∀ k, k ∈ (analyze records).1.live ↔
      ∃ p : UInt64, k = p.toNat ∧ (w.blocks p).isAllocated = true) ∧
    (analyze records).1.orphanFrees = 0

/-- No `realloc` fails and leaves the block as it is. -/
def ReallocGetsBlock (w : World) : Event → Prop
  | .realRealloc thread result =>
    result = .failed → ∀ p, w.hook thread ≠ some (p, .freeing .realloc)
  | _ => True

/-- A thread's hook works on a block exactly when the block is in a hook of the thread. -/
def Coherent (w : World) : Prop :=
  ∀ thread p, w.current thread = some p ↔ ∃ stage, w.blocks p = .busy thread stage

section Steps

variable {w w' : World} {thread : ℕ} {p : UInt64} {stage : Stage}

/-- A thread in a hook has a busy block. -/
theorem hook_eq_some (h : w.hook thread = some (p, stage)) :
    w.current thread = some p ∧ ∃ owner, w.blocks p = .busy owner stage := by
  unfold World.hook at h
  split at h
  · cases h
  · next q hcurrent =>
    split at h
    · next owner own hblock =>
      cases h
      exact ⟨hcurrent, owner, hblock⟩
    · cases h

/-- A busy block has its thread in the hook. -/
theorem hook_of_coherent (h : Coherent w) (hblock : w.blocks p = .busy thread stage) :
    w.hook thread = some (p, stage) := by
  unfold World.hook
  rw [(h thread p).mpr ⟨stage, hblock⟩]
  dsimp only
  rw [hblock]

/-- A thread that is in no hook is at no stage of one. -/
theorem settled_of_quiet (h : Quiet w) : Settled w := by
  intro thread p stage hhook
  have hcurrent := (hook_eq_some hhook).1
  rw [h thread] at hcurrent
  cases hcurrent

/-- A thread without a hook enters one with a block nobody is busy with. -/
theorem coherent_enter (h : Coherent w) (hidle : w.current thread = none)
    (hfree : ∀ owner stage, w.blocks p ≠ .busy owner stage) (stage : Stage) :
    Coherent (w.enter thread p stage) := by
  intro t q
  change Function.update w.current thread (some p) t = some q ↔
    ∃ s, Function.update w.blocks p (.busy thread stage) q = .busy t s
  by_cases ht : t = thread
  · subst ht
    rw [Function.update_self]
    by_cases hq : q = p
    · subst hq
      rw [Function.update_self]
      exact ⟨fun _ => ⟨stage, rfl⟩, fun _ => rfl⟩
    · rw [Function.update_of_ne hq, ← h t q, hidle]
      exact ⟨fun heq => absurd (Option.some.inj heq).symm hq, nofun⟩
  · rw [Function.update_of_ne ht, h t q]
    by_cases hq : q = p
    · subst hq
      rw [Function.update_self]
      constructor
      · rintro ⟨s, hs⟩
        exact absurd hs (hfree t s)
      · rintro ⟨s, hs⟩
        cases hs
        exact absurd rfl ht
    · rw [Function.update_of_ne hq]

/-- It goes on with its block. -/
theorem coherent_goOn (h : Coherent w) (hcurrent : w.current thread = some p) (stage : Stage) :
    Coherent (w.goOn thread p stage) := by
  obtain ⟨old, hold⟩ := (h thread p).mp hcurrent
  intro t q
  change w.current t = some q ↔ ∃ s, Function.update w.blocks p (.busy thread stage) q = .busy t s
  rw [h t q]
  by_cases hq : q = p
  · subst hq
    rw [Function.update_self, hold]
    constructor
    · rintro ⟨s, hs⟩
      cases hs
      exact ⟨stage, rfl⟩
    · rintro ⟨s, hs⟩
      cases hs
      exact ⟨old, rfl⟩
  · rw [Function.update_of_ne hq]

/-- And leaves it. -/
theorem coherent_leave (h : Coherent w) (hcurrent : w.current thread = some p) {state : BlockState}
    (hstate : ∀ owner stage, state ≠ .busy owner stage) : Coherent (w.leave thread p state) := by
  obtain ⟨old, hold⟩ := (h thread p).mp hcurrent
  intro t q
  change Function.update w.current thread none t = some q ↔
    ∃ s, Function.update w.blocks p state q = .busy t s
  by_cases ht : t = thread
  · subst ht
    rw [Function.update_self]
    by_cases hq : q = p
    · subst hq
      rw [Function.update_self]
      exact ⟨nofun, fun ⟨s, hs⟩ => absurd hs (hstate t s)⟩
    · rw [Function.update_of_ne hq, ← h t q, hcurrent]
      exact ⟨nofun, fun heq => absurd (Option.some.inj heq).symm hq⟩
  · rw [Function.update_of_ne ht, h t q]
    by_cases hq : q = p
    · subst hq
      rw [Function.update_self, hold]
      constructor
      · rintro ⟨s, hs⟩
        cases hs
        exact absurd rfl ht
      · rintro ⟨s, hs⟩
        exact absurd hs (hstate t s)
    · rw [Function.update_of_ne hq]

/-- At the start nobody is in a hook. -/
theorem coherent_start : Coherent start := by
  intro thread p
  exact ⟨nofun, fun ⟨_, h⟩ => nomatch h⟩

/-- Every step keeps hooks and blocks together. -/
theorem coherent_step (h : Coherent w) (e : Event) : Coherent (step w e) := by
  have hnotOwned : ∀ owner stage, BlockState.owned ≠ .busy owner stage := nofun
  have hnotFree : ∀ owner stage, BlockState.unallocated ≠ .busy owner stage := nofun
  cases e with
  | alloc thread p =>
    simp only [step]
    split
    · next hcall => exact coherent_enter h hcall.1 (hcall.2.2 ▸ hnotFree) _
    · exact h
  | release thread p after =>
    simp only [step]
    split
    · next hcall => exact coherent_enter h hcall.1 (hcall.2 ▸ hnotOwned) _
    · exact h
  | tick thread ts =>
    simp only [step]
    split
    · next hhook => exact coherent_goOn h (hook_eq_some hhook).1 _
    · next hhook => exact coherent_goOn h (hook_eq_some hhook).1 _
    · exact h
  | append thread sz frames =>
    simp only [step]
    split
    · next hhook => exact coherent_leave (w := w.record _) h (hook_eq_some hhook).1 hnotOwned
    · next hhook => exact coherent_goOn (w := w.record _) h (hook_eq_some hhook).1 _
    · exact h
  | realFree thread =>
    simp only [step]
    split
    · next hhook => exact coherent_leave h (hook_eq_some hhook).1 hnotFree
    · exact h
  | realRealloc thread result =>
    simp only [step]
    split
    · next p hhook =>
      have hcurrent := (hook_eq_some hhook).1
      have hleft := coherent_leave h hcurrent hnotFree
      cases result with
      | moved q =>
        dsimp only
        split
        · exact coherent_goOn h hcurrent _
        · next hne =>
          split
          · next hnew =>
            refine coherent_enter hleft (Function.update_self ..) ?_ _
            have hblock : (w.leave thread p .unallocated).blocks q = w.blocks q :=
              Function.update_of_ne hne ..
            rw [hblock, hnew.2]
            exact hnotFree
          · exact h
      | freed => exact hleft
      | failed => exact coherent_leave h hcurrent hnotOwned
    · exact h

end Steps

/-- What the report has gone through so far. -/
def World.analysis (w : World) : Analysis := (w.calls.map Call.stored).foldl analyzeRecord {}

def World.isRecorded (w : World) (p : UInt64) : Bool := (w.blocks p).isRecorded

/-- What a step does to the records and to the recorded blocks where nothing is lost. -/
inductive Kept (w w' : World) : Prop
  | silent (hcalls : w'.calls = w.calls) (hrecorded : w'.isRecorded = w.isRecorded)
  | allocates (c : Call) (hproper : c.Proper) (htype : c.type = 'A')
      (hcalls : w'.calls = w.calls ++ [c]) (hbefore : w.isRecorded c.ptr = false)
      (hrecorded : w'.isRecorded = Function.update w.isRecorded c.ptr true)
  | releases (c : Call) (hproper : c.Proper) (htype : c.type = 'F')
      (hcalls : w'.calls = w.calls ++ [c]) (hbefore : w.isRecorded c.ptr = true)
      (hrecorded : w'.isRecorded = Function.update w.isRecorded c.ptr false)

/-- A block whose release is recorded is in the program's hands again, and no record says so. -/
def Lost (w w' : World) : Prop :=
  w'.calls = w.calls ∧ ∃ p, w.isRecorded p = false ∧
    w'.isRecorded = Function.update w.isRecorded p true

section Effects

variable {w : World} {thread : ℕ} {p : UInt64} {old : Stage}

/-- The block of a hook is recorded unless the hook is between call and record. -/
theorem isRecorded_of_hook (h : w.hook thread = some (p, old)) :
    w.isRecorded p = !old.isPending := by
  obtain ⟨-, owner, hblock⟩ := hook_eq_some h
  rw [World.isRecorded, hblock]
  rfl

/-- Going on changes what is recorded of its own block only. -/
theorem isRecorded_goOn (w : World) (thread : ℕ) (p : UInt64) (stage : Stage) :
    (w.goOn thread p stage).isRecorded = Function.update w.isRecorded p !stage.isPending :=
  Function.comp_update BlockState.isRecorded w.blocks p (.busy thread stage)

/-- So does leaving. -/
theorem isRecorded_leave (w : World) (thread : ℕ) (p : UInt64) (state : BlockState) :
    (w.leave thread p state).isRecorded = Function.update w.isRecorded p state.isRecorded :=
  Function.comp_update BlockState.isRecorded w.blocks p state

/-- Nothing is recorded of a block that a hook takes up before its record, -/
theorem isRecorded_enter (thread : ℕ) {stage : Stage} (h : w.isRecorded p = !stage.isPending) :
    (w.enter thread p stage).isRecorded = w.isRecorded := by
  have hupdate : (w.enter thread p stage).isRecorded =
      Function.update w.isRecorded p !stage.isPending :=
    Function.comp_update BlockState.isRecorded w.blocks p (.busy thread stage)
  rw [hupdate, ← h, Function.update_eq_self]

/-- or goes on with, -/
theorem isRecorded_goOn_same (h : w.hook thread = some (p, old)) {stage : Stage}
    (hsame : stage.isPending = old.isPending) :
    (w.goOn thread p stage).isRecorded = w.isRecorded := by
  rw [isRecorded_goOn, hsame, ← isRecorded_of_hook h, Function.update_eq_self]

/-- or leaves to the allocator. -/
theorem isRecorded_leave_freed (h : w.hook thread = some (p, old))
    (hpending : old.isPending = true) :
    (w.leave thread p .unallocated).isRecorded = w.isRecorded := by
  have hunrecorded : w.isRecorded p = false := by rw [isRecorded_of_hook h, hpending, Bool.not_true]
  have hsame : BlockState.unallocated.isRecorded = w.isRecorded p := hunrecorded.symm
  rw [isRecorded_leave, hsame, Function.update_eq_self]

/-- A block with the allocator is not recorded. -/
theorem isRecorded_of_unallocated (h : w.blocks p = .unallocated) : w.isRecorded p = false := by
  rw [World.isRecorded, h]
  rfl

/-- A record of an allocation is proper. -/
theorem proper_allocation (p sz ts : UInt64) (frames : Backtrace) :
    Call.Proper { type := 'A', ptr := p, sz := sz, ts := ts, frames := frames.1 } :=
  ⟨.inl rfl, frames.2⟩

/-- So is one of a release. -/
theorem proper_release (p sz ts : UInt64) (frames : Backtrace) :
    Call.Proper { type := 'F', ptr := p, sz := sz, ts := ts, frames := frames.1 } :=
  ⟨.inr rfl, frames.2⟩

/-- A step in which no `realloc` fails loses nothing. -/
theorem kept_step {e : Event} (h : ReallocGetsBlock w e) : Kept w (step w e) := by
  cases e with
  | alloc thread p =>
    simp only [step]
    split
    · next hcall =>
      exact .silent rfl (isRecorded_enter thread (isRecorded_of_unallocated hcall.2.2))
    · exact .silent rfl rfl
  | release thread p after =>
    simp only [step]
    split
    · next hcall =>
      have hrecorded : w.isRecorded p = true := by
        rw [World.isRecorded, hcall.2]
        rfl
      exact .silent rfl (isRecorded_enter thread hrecorded)
    · exact .silent rfl rfl
  | tick thread ts =>
    simp only [step]
    split
    · next hhook => exact .silent rfl (isRecorded_goOn_same hhook rfl)
    · next hhook => exact .silent rfl (isRecorded_goOn_same hhook rfl)
    · exact .silent rfl rfl
  | append thread sz frames =>
    simp only [step]
    split
    · next p ts hhook =>
      exact .allocates _ (proper_allocation p sz ts frames) rfl rfl (isRecorded_of_hook hhook)
        (isRecorded_leave (w.record _) thread p .owned)
    · next p ts after hhook =>
      exact .releases _ (proper_release p sz ts frames) rfl rfl (isRecorded_of_hook hhook)
        (isRecorded_goOn (w.record _) thread p (.freeing after))
    · exact .silent rfl rfl
  | realFree thread =>
    simp only [step]
    split
    · next hhook => exact .silent rfl (isRecorded_leave_freed hhook rfl)
    · exact .silent rfl rfl
  | realRealloc thread result =>
    simp only [step]
    split
    · next p hhook =>
      have hleft := isRecorded_leave_freed hhook rfl
      cases result with
      | moved q =>
        dsimp only
        split
        · exact .silent rfl (isRecorded_goOn_same hhook rfl)
        · split
          · next hnew =>
            -- The old block is not recorded any more, and the new one not yet.
            have hunrecorded : (w.leave thread p .unallocated).isRecorded q = false := by
              rw [hleft]
              exact isRecorded_of_unallocated hnew.2
            exact .silent rfl ((isRecorded_enter thread hunrecorded).trans hleft)
          · exact .silent rfl rfl
      | freed => exact .silent rfl hleft
      | failed => exact absurd hhook (h rfl p)
    · exact .silent rfl rfl

/-- A step in which one fails loses its block. -/
theorem lost_step {e : Event} (h : ¬ ReallocGetsBlock w e) : Lost w (step w e) := by
  cases e with
  | realRealloc thread result =>
    simp only [ReallocGetsBlock, not_forall, not_not] at h
    obtain ⟨rfl, p, hhook⟩ := h
    simp only [step, hhook]
    exact ⟨rfl, p, isRecorded_of_hook hhook, isRecorded_leave w thread p .owned⟩
  | _ => exact absurd trivial h

end Effects

/-- What the report has so far is what is recorded, without orphans. -/
structure Traced (w : World) : Prop where
  live : ∀ k, k ∈ w.analysis.live ↔ ∃ p : UInt64, k = p.toNat ∧ w.isRecorded p = true
  orphans : w.analysis.orphanFrees = 0

/-- There is an orphan, or a block that counts as recorded and is not live. -/
def Broken (w : World) : Prop :=
  w.analysis.orphanFrees ≠ 0 ∨ ∃ p, w.isRecorded p = true ∧ p.toNat ∉ w.analysis.live

section Invariants

variable {w w' : World} {c : Call}

/-- Without a record the analysis stays. -/
theorem analysis_of_calls (h : w'.calls = w.calls) : w'.analysis = w.analysis := by
  rw [World.analysis, World.analysis, h]

/-- A record is analysed behind the others. -/
theorem analysis_append (h : w'.calls = w.calls ++ [c]) :
    w'.analysis = analyzeRecord w.analysis c.stored := by
  rw [World.analysis, h, List.map_append, List.foldl_append]
  rfl

/-- At the start there is nothing to report. -/
theorem traced_start : Traced start where
  live := by
    intro k
    exact ⟨fun h => absurd h (AList.notMem_empty k), fun ⟨_, _, h⟩ => nomatch h⟩
  orphans := rfl

/-- A step that keeps what is recorded keeps the trace true to it. -/
theorem traced_of_kept (h : Traced w) (hkept : Kept w w') : Traced w' := by
  cases hkept with
  | silent hcalls hrecorded =>
    constructor
    · rw [analysis_of_calls hcalls, hrecorded]
      exact h.live
    · rw [analysis_of_calls hcalls]
      exact h.orphans
  | allocates c _ htype hcalls hbefore hrecorded =>
    have hstep := fun k => analyzeRecord_alloc w.analysis (r := c.stored) htype k
    constructor
    · intro k
      rw [analysis_append hcalls, (hstep k).1, h.live k, hrecorded]
      constructor
      · rintro (hk | ⟨p, hk, hp⟩)
        · exact ⟨c.ptr, hk, Function.update_self ..⟩
        · refine ⟨p, hk, ?_⟩
          rw [Function.update_apply, hp, ite_self]
      · rintro ⟨p, hk, hp⟩
        by_cases hptr : p = c.ptr
        · subst hptr
          exact .inl hk
        · rw [Function.update_of_ne hptr] at hp
          exact .inr ⟨p, hk, hp⟩
    · rw [analysis_append hcalls, (hstep 0).2]
      exact h.orphans
  | releases c _ htype hcalls hbefore hrecorded =>
    have hlive : c.stored.ptr ∈ w.analysis.live := (h.live _).mpr ⟨c.ptr, rfl, hbefore⟩
    have hstep := analyzeRecord_free w.analysis (r := c.stored) htype hlive
    constructor
    · intro k
      rw [analysis_append hcalls, (hstep k).1, h.live k, hrecorded]
      constructor
      · rintro ⟨hk, p, rfl, hp⟩
        refine ⟨p, rfl, ?_⟩
        have hptr : p ≠ c.ptr := fun heq => hk (congrArg UInt64.toNat heq)
        rw [Function.update_of_ne hptr]
        exact hp
      · rintro ⟨p, rfl, hp⟩
        have hptr : p ≠ c.ptr := by
          rintro rfl
          rw [Function.update_self] at hp
          cases hp
        rw [Function.update_of_ne hptr] at hp
        exact ⟨fun heq => hptr (UInt64.toNat_inj.mp heq), p, rfl, hp⟩
    · rw [analysis_append hcalls, (hstep 0).2]
      exact h.orphans

/-- A record that is lost breaks it. -/
theorem broken_of_lost (h : Traced w) (hlost : Lost w w') : Broken w' := by
  obtain ⟨hcalls, p, hbefore, hrecorded⟩ := hlost
  refine .inr ⟨p, ?_, ?_⟩
  · rw [hrecorded, Function.update_self]
  · rw [analysis_of_calls hcalls, h.live]
    rintro ⟨q, hq, hrecordedBefore⟩
    rw [← UInt64.toNat_inj.mp hq, hbefore] at hrecordedBefore
    cases hrecordedBefore

/-- No record of a block that is not live makes up for it: its release is an orphan. -/
theorem broken_of_kept (h : Broken w) (hkept : Kept w w') : Broken w' := by
  cases hkept with
  | silent hcalls hrecorded =>
    unfold Broken
    rw [analysis_of_calls hcalls, hrecorded]
    exact h
  | allocates c _ htype hcalls hbefore hrecorded =>
    have hstep := fun k => analyzeRecord_alloc w.analysis (r := c.stored) htype k
    unfold Broken
    rw [analysis_append hcalls, (hstep 0).2, hrecorded]
    rcases h with horphans | ⟨p, hp, hdead⟩
    · exact .inl horphans
    · have hptr : p ≠ c.ptr := by
        rintro rfl
        rw [hbefore] at hp
        cases hp
      refine .inr ⟨p, ?_, ?_⟩
      · rw [Function.update_of_ne hptr]
        exact hp
      · rw [(hstep _).1]
        rintro (heq | hlive)
        · exact hptr (UInt64.toNat_inj.mp heq)
        · exact hdead hlive
  | releases c _ htype hcalls hbefore hrecorded =>
    unfold Broken
    rw [analysis_append hcalls, hrecorded]
    by_cases hlive : c.stored.ptr ∈ w.analysis.live
    · have hstep := analyzeRecord_free w.analysis (r := c.stored) htype hlive
      rw [(hstep 0).2]
      rcases h with horphans | ⟨p, hp, hdead⟩
      · exact .inl horphans
      · have hptr : p ≠ c.ptr := by
          rintro rfl
          exact hdead hlive
        refine .inr ⟨p, ?_, ?_⟩
        · rw [Function.update_of_ne hptr]
          exact hp
        · rw [(hstep _).1]
          exact fun h => hdead h.2
    · rw [(analyzeRecord_orphan w.analysis (r := c.stored) htype hlive).2]
      exact .inl (Nat.succ_ne_zero _)

/-- And it stays broken. -/
theorem broken_of_lost_again (h : Broken w) (hlost : Lost w w') : Broken w' := by
  obtain ⟨hcalls, q, -, hrecorded⟩ := hlost
  unfold Broken
  rw [analysis_of_calls hcalls, hrecorded]
  rcases h with horphans | ⟨p, hp, hdead⟩
  · exact .inl horphans
  · refine .inr ⟨p, ?_, hdead⟩
    rw [Function.update_apply, hp, ite_self]

end Invariants

/-- The trace can hold all records. -/
def Recordable (w : World) : Prop := ∀ c ∈ w.calls, c.Proper

instance (w : World) : Decidable (Recordable w) :=
  inferInstanceAs (Decidable (∀ c ∈ w.calls, c.Proper))

section Reports

variable {w : World} {p : UInt64}

/-- At the start there is no record. -/
theorem recordable_start : Recordable start := nofun

/-- What a step appends can be held too. -/
theorem recordable_step (h : Recordable w) (e : Event) : Recordable (step w e) := by
  have happend : ∀ c : Call, c.Proper → ∀ d ∈ w.calls ++ [c], d.Proper := fun c hc =>
    List.forall_mem_append.mpr ⟨h, List.forall_mem_singleton.mpr hc⟩
  by_cases hgets : ReallocGetsBlock w e
  · cases kept_step hgets with
    | silent hcalls =>
      unfold Recordable
      rw [hcalls]
      exact h
    | allocates c hproper _ hcalls =>
      unfold Recordable
      rw [hcalls]
      exact happend c hproper
    | releases c hproper _ hcalls =>
      unfold Recordable
      rw [hcalls]
      exact happend c hproper
  · unfold Recordable
    rw [(lost_step hgets).1]
    exact h

/-- The report over the trace file is that over the records. -/
theorem exact_iff_analysis (anchor : UInt64) (h : Recordable w) :
    Exact anchor w ↔
      (∀ k, k ∈ w.analysis.live ↔ ∃ p : UInt64, k = p.toNat ∧ (w.blocks p).isAllocated = true) ∧
        w.analysis.orphanFrees = 0 := by
  have hparsed := parseTrace_traceOf anchor h
  constructor
  · rintro ⟨records, hrecords, hlive, horphans⟩
    rw [hparsed] at hrecords
    cases hrecords
    exact ⟨hlive, horphans⟩
  · rintro ⟨hlive, horphans⟩
    exact ⟨w.calls.map Call.stored, hparsed, hlive, horphans⟩

/-- What is recorded is allocated. -/
theorem isAllocated_of_isRecorded (h : w.isRecorded p = true) :
    (w.blocks p).isAllocated = true := by
  rw [World.isRecorded] at h
  cases hblock : w.blocks p with
  | unallocated =>
    rw [hblock] at h
    cases h
  | owned => rfl
  | busy thread stage => rfl

/-- Only hooks between call and record keep a block of the allocator from being recorded. -/
theorem settled_iff (h : Coherent w) :
    Settled w ↔ ∀ p, (w.blocks p).isAllocated = true → w.isRecorded p = true := by
  constructor
  · intro hsettled p hallocated
    unfold World.isRecorded
    cases hblock : w.blocks p with
    | unallocated =>
      rw [hblock] at hallocated
      cases hallocated
    | owned => rfl
    | busy thread stage =>
      have hpending := hsettled thread p stage (hook_of_coherent h hblock)
      simp only [BlockState.isRecorded, hpending, Bool.not_false]
  · intro hrecorded thread p stage hhook
    obtain ⟨-, owner, hblock⟩ := hook_eq_some hhook
    have hblockRecorded := hrecorded p (by rw [hblock]; rfl)
    rw [isRecorded_of_hook hhook] at hblockRecorded
    exact Bool.not_eq_true' _ ▸ hblockRecorded

/-- On such a trace the report is exact if and only if no hook is before its record. -/
theorem exact_of_traced {anchor : UInt64} (hrecordable : Recordable w)
    (hcoherent : Coherent w) (h : Traced w) : Exact anchor w ↔ Settled w := by
  rw [exact_iff_analysis anchor hrecordable, settled_iff hcoherent, and_iff_left h.orphans]
  constructor
  · intro hlive p hallocated
    have hmem := (hlive p.toNat).mpr ⟨p, rfl, hallocated⟩
    obtain ⟨q, hq, hrecorded⟩ := (h.live _).mp hmem
    rw [UInt64.toNat_inj.mp hq]
    exact hrecorded
  · intro hrecorded k
    rw [h.live]
    constructor
    · rintro ⟨p, hk, hp⟩
      exact ⟨p, hk, isAllocated_of_isRecorded hp⟩
    · rintro ⟨p, hk, hp⟩
      exact ⟨p, hk, hrecorded p hp⟩

/-- On a broken one it never is. -/
theorem not_exact_of_broken {anchor : UInt64} (hrecordable : Recordable w) (h : Broken w) :
    ¬ Exact anchor w := by
  rw [exact_iff_analysis anchor hrecordable]
  rintro ⟨hlive, horphans⟩
  rcases h with hsome | ⟨p, hp, hdead⟩
  · exact hsome horphans
  · exact hdead ((hlive _).mpr ⟨p, rfl, isAllocated_of_isRecorded hp⟩)

end Reports

/-- The report is exact after the runs in which no `realloc` fails and leaves its block, and
which do not end between a call of the allocator and its record. -/
theorem exact_iff (anchor : UInt64) (events : List Event) :
    (Exact anchor (run step start events) ↔
      EveryStep step ReallocGetsBlock start events ∧ Settled (run step start events)) ∧
    (Quiet (run step start events) → Settled (run step start events)) := by
  refine ⟨?_, settled_of_quiet⟩
  have hcoherent : Coherent (run step start events) :=
    (always_of_step (P := Coherent) (fun _ e h => coherent_step h e) coherent_start events).last
  have hrecordable : Recordable (run step start events) :=
    (always_of_step (P := Recordable) (fun _ e h => recordable_step h e) recordable_start
      events).last
  have hstays : ∀ w e, Broken w → Broken (step w e) := by
    intro w e hbroken
    by_cases hgets : ReallocGetsBlock w e
    · exact broken_of_kept hbroken (kept_step hgets)
    · exact broken_of_lost_again hbroken (lost_step hgets)
  have hend := run_kept_or_broken (fun w e h hgets => traced_of_kept h (kept_step hgets))
    (fun w e h hgets => broken_of_lost h (lost_step hgets)) hstays traced_start events
  rcases hend with ⟨hgets, htraced⟩ | ⟨hfails, hbroken⟩
  · rw [exact_of_traced hrecordable hcoherent htraced]
    exact ⟨fun hsettled => ⟨hgets, hsettled⟩, fun h => h.2⟩
  · exact iff_of_false (not_exact_of_broken hrecordable hbroken) fun h => hfails h.1

/-- A block is allocated, and a `realloc` of it fails. -/
def failedRealloc : List Event :=
  [.alloc 0 4096, .tick 0 1000, .append 0 24 ⟨[], by decide⟩, .release 0 4096 .realloc,
    .tick 0 2000, .append 0 24 ⟨[], by decide⟩, .realRealloc 0 .failed]

/-- The block is allocated and not live. -/
theorem notExact_failedRealloc :
    Quiet (run step start failedRealloc) ∧ ¬ Exact 77 (run step start failedRealloc) := by
  constructor
  · intro thread
    have hcurrent : (run step start failedRealloc).current =
        Function.update (Function.update (Function.update (Function.update (fun _ => none)
          0 (some 4096)) 0 none) 0 (some 4096)) 0 none := rfl
    rw [hcurrent, Function.update_idem, Function.update_idem, Function.update_idem]
    rw [Function.update_apply, ite_self]
  · rw [exact_iff_analysis 77 (by decide)]
    rintro ⟨hlive, -⟩
    have hmem := (hlive 4096).mpr ⟨4096, rfl, rfl⟩
    exact absurd hmem (by decide)

end KdeConnectNx.LeakReport
