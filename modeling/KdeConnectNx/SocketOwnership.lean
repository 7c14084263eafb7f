import Mathlib.Data.List.Count
import Mathlib.Data.List.Nodup
import Mathlib.Logic.Function.Basic
import KdeConnectNx.Custody
import KdeConnectNx.Runs

/-!
# Sockets and sessions when resources run out

A descriptor passes from a scoped handle to the thread that is to serve it,
and from that thread to a session object. Each hand-over is a step that can
fail: a thread that does not start, an allocation that throws. What becomes of
the descriptor, of the entry in `pending_threads_` and of the session is
followed through the paths that accept, connect, install and upload.
-/

namespace KdeConnectNx.SocketOwnership

open Runs

/-- What the thread of an entry of `pending_threads_` is at. -/
inductive Stage where
  /-- `pthread_create` failed: there is no thread, and `done` stays false. -/
  | unstarted
  /-- `kc-connect` before it has a socket. -/
  | dialling
  /-- A scoped handle has the descriptor. -/
  | serving (fd : Nat)
  /-- In `handle_new_connection`, past the check for a live session. -/
  | connecting (id : String) (fd : Nat)
  /-- `session->fd = fd.release()`. -/
  | released (id : String) (fd : Nat)
  /-- `session->io_thread` was to be started. -/
  | started (ref : Nat)
  /-- The session is in the table, in the place of an old one or of none. -/
  | entered (old : Option Nat)
  /-- The old session is marked disconnected, -/
  | marked (old : Nat)
  /-- `close` was called for its descriptor, -/
  | closing (old : Nat)
  /-- and its descriptor set to -1; its io thread is joined. -/
  | joining (old : Nat)
  /-- What is sent after the installation. -/
  | connected
  /-- An upload that waits for the receiver, -/
  | listening (srvFd : Nat)
  /-- and one that serves it. -/
  | uploading (srvFd clientFd : Nat)
  /-- `done` is true. -/
  | finished
  deriving DecidableEq

/-- The io thread of a session: not started, in its loop, or in one of the
steps after it. -/
inductive IoThread where
  | unstarted
  | running
  /-- The session is marked disconnected, -/
  | leaving
  /-- `close` was called for its descriptor, -/
  | closing
  /-- and the descriptor set to -1. -/
  | ended
  deriving DecidableEq

structure Session where
  id : String := ""
  fd : Option Nat := none
  disconnected : Bool := false
  io : IoThread := .unstarted

structure World where
  /-- `pending_threads_`. -/
  tasks : Nat → Option Stage := fun _ => none
  spawned : Nat := 0
  heap : Nat → Session := fun _ => {}
  next : Nat := 0
  /-- `sessions_`. -/
  sessions : String → Option Nat := fun _ => none
  /-- The number of descriptors obtained from `accept` and `socket`. -/
  obtained : Nat := 0
  /-- How often `close` was called for each. -/
  closes : Nat → Nat := fun _ => 0
  /-- An exception left a thread, and the process was ended. -/
  crashed : Bool := false

/-- Descriptors that scoped handles of the thread close when it returns, or
when an exception unwinds it. -/
def Stage.scoped : Stage → List Nat
  | .serving fd => [fd]
  | .connecting _ fd => [fd]
  | .listening srvFd => [srvFd]
  | .uploading srvFd clientFd => [srvFd, clientFd]
  | _ => []

/-- `close` is called once for each of these. -/
def closeAll (fds : List Nat) (closes : Nat → Nat) : Nat → Nat := fun fd => closes fd + fds.count fd

inductive Event where
  /-- A connection is accepted and its thread started, or not. -/
  | accept (starts : Bool)
  /-- A peer was announced; the thread that dials it is started, or not. -/
  | discover (starts : Bool)
  | socket (n : Nat)
  /-- The thread calls `handle_new_connection`. -/
  | handle (n : Nat) (id : String)
  /-- The thread returns. -/
  | finish (n : Nat)
  | release (n : Nat)
  | startIo (n : Nat) (starts : Bool)
  | enter (n : Nat)
  | markOld (n : Nat)
  | closeOld (n : Nat)
  | clearOld (n : Nat)
  | joinOld (n : Nat)
  /-- A payload is offered: the port is ready, or not, and the thread started,
  or not. -/
  | upload (ready starts : Bool)
  /-- The receiver connects. -/
  | client (n : Nat)
  /-- An allocation of the thread throws `bad_alloc`. -/
  | throw (n : Nat)
  /-- The io thread leaves its loop, -/
  | leave (ref : Nat)
  | closeIo (ref : Nat)
  | clearIo (ref : Nat)
  /-- The entry of a finished thread is removed. -/
  | reap (n : Nat)

namespace World

/-- An entry of `pending_threads_` changes. -/
def setTask (w : World) (n : Nat) (stage : Option Stage) : World :=
  { w with tasks := Function.update w.tasks n stage }

/-- A new entry; the thread it is for was started or not. -/
def spawn (w : World) (starts : Bool) (stage : Stage) : World :=
  { w.setTask w.spawned (some (if starts then stage else .unstarted)) with
    spawned := w.spawned + 1 }

/-- A session object changes. -/
def setSession (w : World) (ref : Nat) (s : Session) : World :=
  { w with heap := Function.update w.heap ref s }

/-- The thread is over, its scoped handles closed. -/
def finish (w : World) (n : Nat) (stage : Stage) : World :=
  { w.setTask n (some .finished) with closes := closeAll stage.scoped w.closes }

/-- A descriptor number was obtained. -/
def obtain (w : World) : World := { w with obtained := w.obtained + 1 }

/-- There is a live session of the device. -/
def alreadyConnected (w : World) (id : String) : Bool :=
  (w.sessions id).any fun ref => !(w.heap ref).disconnected

end World

/-- Whether the thread can return from here. -/
def Stage.returns : Stage → Bool
  | .dialling => true
  | .serving _ => true
  | .connecting _ _ => true
  | .connected => true
  | .listening _ => true
  | .uploading _ _ => true
  | _ => false

/-- Whether there are allocations here inside the thread's `try`. -/
def Stage.allocates : Stage → Bool
  | .serving _ => true
  | .connecting _ _ => true
  | .released _ _ => true
  | .started _ => true
  | .connected => true
  | _ => false

/-- What an event does. An event nothing is ready for changes nothing. -/
def advance (w : World) : Event → World
  | .accept starts => w.obtain.spawn starts (.serving w.obtained)
  | .discover starts => w.spawn starts .dialling
  | .socket n =>
    match w.tasks n with
    | some .dialling => w.obtain.setTask n (some (.serving w.obtained))
    | _ => w
  | .handle n id =>
    match w.tasks n with
    | some (.serving fd) =>
      if w.alreadyConnected id then w.finish n (.serving fd)
      else w.setTask n (some (.connecting id fd))
    | _ => w
  | .finish n =>
    match w.tasks n with
    | some stage => if stage.returns then w.finish n stage else w
    | none => w
  | .release n =>
    match w.tasks n with
    | some (.connecting id fd) => w.setTask n (some (.released id fd))
    | _ => w
  | .startIo n starts =>
    match w.tasks n with
    | some (.released id fd) =>
      { (w.setSession w.next
          { id := id, fd := some fd, io := if starts then .running else .unstarted }).setTask n
            (some (.started w.next)) with
        next := w.next + 1 }
    | _ => w
  | .enter n =>
    match w.tasks n with
    | some (.started ref) =>
      { w.setTask n (some (.entered (w.sessions (w.heap ref).id))) with
        sessions := Function.update w.sessions (w.heap ref).id (some ref) }
    | _ => w
  | .markOld n =>
    match w.tasks n with
    | some (.entered none) => w.setTask n (some .connected)
    | some (.entered (some old)) =>
      (w.setSession old { w.heap old with disconnected := true }).setTask n (some (.marked old))
    | _ => w
  | .closeOld n =>
    match w.tasks n with
    | some (.marked old) =>
      { w.setTask n (some (.closing old)) with
        closes := closeAll (w.heap old).fd.toList w.closes }
    | _ => w
  | .clearOld n =>
    match w.tasks n with
    | some (.closing old) =>
      (w.setSession old { w.heap old with fd := none }).setTask n (some (.joining old))
    | _ => w
  | .joinOld n =>
    match w.tasks n with
    | some (.joining old) =>
      if (w.heap old).io = .unstarted ∨ (w.heap old).io = .ended then
        w.setTask n (some .connected)
      else w
    | _ => w
  | .upload ready starts =>
    if ready then w.obtain.spawn starts (.listening w.obtained)
    else { w.obtain with closes := closeAll [w.obtained] w.closes }
  | .client n =>
    match w.tasks n with
    | some (.listening srvFd) => w.obtain.setTask n (some (.uploading srvFd w.obtained))
    | _ => w
  | .throw n =>
    match w.tasks n with
    | some (.uploading _ _) => { w with crashed := true }
    | some stage => if stage.allocates then w.finish n stage else w
    | none => w
  | .leave ref =>
    if ref < w.next ∧ (w.heap ref).io = .running then
      w.setSession ref { w.heap ref with io := .leaving, disconnected := true }
    else w
  | .closeIo ref =>
    if ref < w.next ∧ (w.heap ref).io = .leaving then
      { w.setSession ref { w.heap ref with io := .closing } with
        closes := closeAll (w.heap ref).fd.toList w.closes }
    else w
  | .clearIo ref =>
    if ref < w.next ∧ (w.heap ref).io = .closing then
      w.setSession ref { w.heap ref with io := .ended, fd := none }
    else w
  | .reap n =>
    match w.tasks n with
    | some .finished => w.setTask n none
    | _ => w

/-- One step; none is made once the process has ended. -/
def step (w : World) (e : Event) : World := if w.crashed then w else advance w e

/-! ## What ownership means -/

/-- The thread of the entry runs. -/
def Running (w : World) (stage : Stage) : Prop :=
  w.crashed = false ∧ stage ≠ .unstarted ∧ stage ≠ .finished

/-- The io thread of the session runs. -/
def IoRunning (w : World) (ref : Nat) : Prop :=
  w.crashed = false ∧ (w.heap ref).io ≠ .unstarted ∧ (w.heap ref).io ≠ .ended

/-- The session a thread installs, or the one it closes. -/
def Stage.inHand : Stage → Option Nat
  | .started ref => some ref
  | .entered old => old
  | .marked old => some old
  | .closing old => some old
  | _ => none

/-- Descriptors that a thread has for itself. -/
def Stage.own : Stage → List Nat
  | .released _ fd => [fd]
  | stage => stage.scoped

/-- A running thread has the descriptor, as its own or with a session that it
installs or closes. -/
def HeldByThread (w : World) (fd : Nat) : Prop :=
  ∃ n stage, w.tasks n = some stage ∧ Running w stage ∧
    (fd ∈ stage.own ∨ ∃ ref, stage.inHand = some ref ∧ (w.heap ref).fd = some fd)

/-- A session of the table has it, and its io thread runs. -/
def HeldBySession (w : World) (fd : Nat) : Prop :=
  ∃ id ref, w.sessions id = some ref ∧ (w.heap ref).fd = some fd ∧ IoRunning w ref

structure Owned (w : World) : Prop where
  /-- A descriptor is closed once, or somebody has it who is going to close it. -/
  descriptors : ∀ fd < w.obtained,
    w.closes fd = 1 ∨ w.closes fd = 0 ∧ (HeldByThread w fd ∨ HeldBySession w fd)
  /-- An entry of `pending_threads_` has a thread, or is done. -/
  entries : ∀ n stage, w.tasks n = some stage → Running w stage ∨ stage = .finished
  /-- A live session has its io thread. -/
  sessions : ∀ id ref, w.sessions id = some ref → (w.heap ref).disconnected = false →
    IoRunning w ref

/-- `close` was called for the session's descriptor, which is not yet -1. -/
def Closing (w : World) (ref : Nat) : Prop :=
  (w.heap ref).io = .closing ∨ ∃ n, w.tasks n = some (.closing ref)

/-- Whether an exception is not caught, or leaves a descriptor without an owner. -/
def Stage.exposed : Stage → Bool
  | .released _ _ => true
  | .started _ => true
  | .uploading _ _ => true
  | _ => false

/-- The thread starts; memory does not run out between `fd.release()` and the
entry into the table, nor in an upload; and no session is closed by two
threads at once. -/
def Spared (w : World) : Event → Prop
  | .accept starts => starts = true
  | .discover starts => starts = true
  | .startIo _ starts => starts = true
  | .upload ready starts => ready = true → starts = true
  | .throw n => ∀ stage, w.tasks n = some stage → stage.exposed = false
  | .closeOld n => ∀ old, w.tasks n = some (.marked old) → ¬ Closing w old
  | .closeIo ref => ¬ Closing w ref
  | _ => True

/-! ## Custody of the descriptors -/

/-- Who can hold a descriptor. -/
inductive Owner where
  | thread (n : Nat)
  | session (ref : Nat)

/-- A session holds its descriptor until `close` is called for it. -/
def World.custody (w : World) : Custody Owner Nat where
  obtained := fun fd => fd < w.obtained
  holds := fun o fd =>
    match o with
    | .thread n => ∃ stage, w.tasks n = some stage ∧ fd ∈ stage.own
    | .session ref => ref < w.next ∧ (w.heap ref).fd = some fd ∧ ¬ Closing w ref
  closes := w.closes

/-- What holds along a run of spared steps. -/
structure Kept (w : World) : Prop where
  custody : w.custody.Sound
  alive : w.crashed = false
  live : ∀ n, w.tasks n ≠ some .unstarted
  spawned : ∀ n, w.spawned ≤ n → w.tasks n = none
  nodup : ∀ n stage, w.tasks n = some stage → stage.scoped.Nodup
  io : ∀ ref < w.next, (w.heap ref).io ≠ .unstarted ∧
    ((w.heap ref).io = .ended → (w.heap ref).fd = none) ∧
    ((w.heap ref).disconnected = false → (w.heap ref).io = .running)
  table : ∀ id ref, w.sessions id = some ref → ref < w.next
  inHand : ∀ n stage ref, w.tasks n = some stage → stage.inHand = some ref → ref < w.next
  visible : ∀ ref < w.next, (w.heap ref).fd ≠ none → ¬ Closing w ref →
    w.sessions (w.heap ref).id = some ref ∨
      ∃ n stage, w.tasks n = some stage ∧ stage.inHand = some ref

/-- A live thread is one that runs. -/
theorem Kept.running {w : World} (h : Kept w) {n : Nat} {stage : Stage}
    (hn : w.tasks n = some stage) : Running w stage ∨ stage = .finished := by
  by_cases hfinished : stage = .finished
  · exact .inr hfinished
  · refine .inl ⟨h.alive, ?_, hfinished⟩
    rintro rfl
    exact h.live n hn

theorem Kept.owned {w : World} (h : Kept w) : Owned w where
  descriptors := by
    intro fd hfd
    rcases h.custody.cases hfd with hclosed | ⟨hopen, o, ho⟩
    · exact .inl hclosed
    · refine .inr ⟨hopen, ?_⟩
      cases o with
      | thread n =>
        obtain ⟨stage, hn, hown⟩ := ho
        refine .inl ⟨n, stage, hn, ?_, .inl hown⟩
        rcases h.running hn with hrunning | rfl
        · exact hrunning
        · cases hown
      | session ref =>
        obtain ⟨href, hheld, hclosing⟩ := ho
        obtain ⟨hstarted, hended, -⟩ := h.io ref href
        rcases h.visible ref href (by rw [hheld]; simp) hclosing with htable | ⟨n, stage, hn, hhand⟩
        · refine .inr ⟨_, ref, htable, hheld, h.alive, hstarted, ?_⟩
          intro hio
          rw [hended hio] at hheld
          cases hheld
        · refine .inl ⟨n, stage, hn, ?_, .inr ⟨ref, hhand, hheld⟩⟩
          rcases h.running hn with hrunning | rfl
          · exact hrunning
          · cases hhand
  entries := fun n stage hn => h.running hn
  sessions := by
    intro id ref htable hlive
    have hrunning := (h.io ref (h.table id ref htable)).2.2 hlive
    refine ⟨h.alive, ?_, ?_⟩
    · rw [hrunning]
      simp
    · rw [hrunning]
      simp

theorem kept_start : Kept {} where
  custody := by
    refine ⟨?_, ?_, ?_, ?_, ?_⟩
    · rintro (n | ref) q fd hp -
      · obtain ⟨stage, hn, -⟩ := hp
        cases hn
      · exact absurd hp.1 (Nat.not_lt_zero ref)
    · rintro (n | ref) fd hp
      · obtain ⟨stage, hn, -⟩ := hp
        cases hn
      · exact absurd hp.1 (Nat.not_lt_zero ref)
    · intro p fd _
      rfl
    · intro fd hfd
      exact absurd hfd (Nat.not_lt_zero fd)
    · intro fd _
      rfl
  alive := rfl
  live := by
    intro n hn
    cases hn
  spawned := fun _ _ => rfl
  nodup := by
    intro n stage hn
    cases hn
  io := fun ref href => absurd href (Nat.not_lt_zero ref)
  table := by
    intro id ref hid
    cases hid
  inHand := by
    intro n stage ref hn
    cases hn
  visible := fun ref href => absurd href (Nat.not_lt_zero ref)

section Tasks

variable {w : World} {n : Nat} {new : Option Stage}

@[simp] theorem setTask_self (w : World) (n : Nat) (new : Option Stage) :
    (w.setTask n new).tasks n = new := Function.update_self ..

theorem setTask_ne (w : World) {n k : Nat} (h : k ≠ n) (new : Option Stage) :
    (w.setTask n new).tasks k = w.tasks k := Function.update_of_ne h ..

/-- The entry that changes is what it changes to, and every other what it was. -/
theorem setTask_cases {k : Nat} {stage : Stage} (h : (w.setTask n new).tasks k = some stage) :
    k = n ∧ new = some stage ∨ k ≠ n ∧ w.tasks k = some stage := by
  by_cases heq : k = n
  · rw [heq, setTask_self] at h
    exact .inl ⟨heq, h⟩
  · rw [setTask_ne w heq] at h
    exact .inr ⟨heq, h⟩

/-- Whether a session is being closed does not depend on a thread that closes
others, before and after. -/
theorem closing_setTask {ref : Nat} (hold : w.tasks n ≠ some (.closing ref))
    (hnew : new ≠ some (.closing ref)) : Closing (w.setTask n new) ref ↔ Closing w ref := by
  unfold Closing
  refine or_congr Iff.rfl ?_
  constructor
  · rintro ⟨k, hk⟩
    rcases setTask_cases hk with ⟨-, heq⟩ | ⟨-, hk⟩
    · exact absurd heq hnew
    · exact ⟨k, hk⟩
  · rintro ⟨k, hk⟩
    have hne : k ≠ n := by
      rintro rfl
      exact hold hk
    exact ⟨k, (setTask_ne w hne new).trans hk⟩

/-- What the threads hold after one of them went on. -/
theorem holds_thread (o : Owner) (fd : Nat) (hsession : ∀ ref, o ≠ .session ref) :
    (w.setTask n new).custody.holds o fd ↔
      o ≠ .thread n ∧ w.custody.holds o fd ∨
        o = .thread n ∧ ∃ stage, new = some stage ∧ fd ∈ stage.own := by
  cases o with
  | session ref => exact absurd rfl (hsession ref)
  | thread k =>
    constructor
    · rintro ⟨stage, hk, hown⟩
      rcases setTask_cases hk with ⟨rfl, heq⟩ | ⟨hne, hk⟩
      · exact .inr ⟨rfl, stage, heq, hown⟩
      · refine .inl ⟨?_, stage, hk, hown⟩
        intro heq
        exact hne (Owner.thread.inj heq)
    · rintro (⟨hne, stage, hk, hown⟩ | ⟨heq, stage, hnew, hown⟩)
      · have hk' : k ≠ n := by
          rintro rfl
          exact hne rfl
        exact ⟨stage, (setTask_ne w hk' new).trans hk, hown⟩
      · cases heq
        exact ⟨stage, (setTask_self ..).trans hnew, hown⟩

/-- A session holds its descriptor after a step of a thread that does not
begin or end a close of it. -/
theorem holds_session (ref fd : Nat)
    (hclosing : (w.heap ref).fd ≠ none → (Closing (w.setTask n new) ref ↔ Closing w ref)) :
    (w.setTask n new).custody.holds (.session ref) fd ↔ w.custody.holds (.session ref) fd := by
  refine and_congr Iff.rfl (and_congr_right fun hfd => not_congr (hclosing ?_))
  intro hnone
  change (w.heap ref).fd = some fd at hfd
  rw [hnone] at hfd
  cases hfd

/-- A thread goes on with the descriptors it has. -/
theorem step_stay (hclosing : ∀ ref, (w.heap ref).fd ≠ none →
      (Closing (w.setTask n new) ref ↔ Closing w ref))
    (hown : ∀ fd, (∃ stage, new = some stage ∧ fd ∈ stage.own) ↔
      ∃ old, w.tasks n = some old ∧ fd ∈ old.own) :
    Custody.Step w.custody (w.setTask n new).custody := by
  refine .stay (fun _ => Iff.rfl) ?_ (fun _ => rfl)
  rintro (k | ref) fd
  · rw [holds_thread _ _ (by simp), hown]
    by_cases hk : k = n
    · subst hk
      simp [World.custody]
    · simp [hk]
  · exact holds_session ref fd (hclosing ref)

/-- A thread gets a descriptor beside those it has. -/
theorem step_obtain (hclosing : ∀ ref, Closing (w.setTask n new) ref ↔ Closing w ref)
    (hown : ∀ fd, (∃ stage, new = some stage ∧ fd ∈ stage.own) ↔
      (∃ old, w.tasks n = some old ∧ fd ∈ old.own) ∨ fd = w.obtained) :
    Custody.Step w.custody (w.setTask n new).obtain.custody := by
  refine .obtain (.thread n) w.obtained (Nat.lt_irrefl _) ?_ ?_ (fun _ => rfl)
  · intro fd
    change fd < w.obtained + 1 ↔ fd < w.obtained ∨ fd = w.obtained
    omega
  · rintro (k | ref) fd
    · change (w.setTask n new).custody.holds (.thread k) fd ↔ _
      rw [holds_thread _ _ (by simp), hown]
      by_cases hk : k = n
      · subst hk
        simp [World.custody]
      · simp [hk]
    · change (w.setTask n new).custody.holds (.session ref) fd ↔ _
      rw [holds_session ref fd fun _ => hclosing ref]
      simp

/-- A thread that is over has closed what it had. -/
theorem step_close {stage : Stage} (hn : w.tasks n = some stage)
    (hscoped : stage.own = stage.scoped) (hnodup : stage.scoped.Nodup)
    (hnotClosing : ∀ ref, stage ≠ .closing ref) :
    Custody.Step w.custody (w.finish n stage).custody := by
  have hclosing : ∀ ref, Closing (w.setTask n (some .finished)) ref ↔ Closing w ref := by
    intro ref
    refine closing_setTask ?_ (by simp)
    rw [hn]
    simpa using hnotClosing ref
  have howned : ∀ fd, w.custody.holds (.thread n) fd ↔ fd ∈ stage.scoped := by
    intro fd
    rw [← hscoped]
    simp [World.custody, hn]
  refine .close (.thread n) (fun _ => Iff.rfl) ?_ ?_ ?_
  · rintro (k | ref) fd
    · change (w.setTask n (some .finished)).custody.holds (.thread k) fd ↔ _
      rw [holds_thread _ _ (by simp)]
      simp [Stage.own, Stage.scoped]
    · change (w.setTask n (some .finished)).custody.holds (.session ref) fd ↔ _
      rw [holds_session ref fd fun _ => hclosing ref]
      simp
  · intro fd hfd
    change closeAll stage.scoped w.closes fd = w.closes fd + 1
    unfold closeAll
    rw [List.count_eq_one_of_mem hnodup ((howned fd).mp hfd)]
  · intro fd hfd
    change closeAll stage.scoped w.closes fd = w.closes fd
    unfold closeAll
    rw [List.count_eq_zero.mpr (mt (howned fd).mpr hfd), Nat.add_zero]

/-- A thread goes on, no session object changing. -/
theorem Kept.task (h : Kept w) {spawned obtained : Nat} {closes : Nat → Nat}
    (hcustody : World.custody { w.setTask n new with
      spawned := spawned, obtained := obtained, closes := closes } |>.Sound)
    (hspawned : w.spawned ≤ spawned) (hn : n < spawned)
    (hnew : ∀ stage, new = some stage → stage ≠ .unstarted ∧ stage.scoped.Nodup ∧
      ∀ ref, stage.inHand = some ref → ref < w.next)
    (hkeep : ∀ old ref, w.tasks n = some old → old.inHand = some ref →
      (∃ stage, new = some stage ∧ stage.inHand = some ref) ∨ (w.heap ref).fd = none)
    (hclosing : ∀ ref, (w.heap ref).fd ≠ none → Closing w ref → Closing (w.setTask n new) ref) :
    Kept { w.setTask n new with spawned := spawned, obtained := obtained, closes := closes } where
  custody := hcustody
  alive := h.alive
  live := by
    intro k hk
    rcases setTask_cases hk with ⟨-, heq⟩ | ⟨-, hk⟩
    · exact (hnew _ heq).1 rfl
    · exact h.live k hk
  spawned := by
    intro k hk
    have hne : k ≠ n := by
      change spawned ≤ k at hk
      omega
    exact (setTask_ne w hne new).trans (h.spawned k (Nat.le_trans hspawned hk))
  nodup := by
    intro k stage hk
    rcases setTask_cases hk with ⟨-, heq⟩ | ⟨-, hk⟩
    · exact (hnew stage heq).2.1
    · exact h.nodup k stage hk
  io := h.io
  table := h.table
  inHand := by
    intro k stage ref hk hhand
    rcases setTask_cases hk with ⟨-, heq⟩ | ⟨-, hk⟩
    · exact (hnew stage heq).2.2 ref hhand
    · exact h.inHand k stage ref hk hhand
  visible := by
    intro ref href hfd hnot
    rcases h.visible ref href hfd (mt (hclosing ref hfd) hnot) with htable | ⟨k, stage, hk, hhand⟩
    · exact .inl htable
    · right
      by_cases heq : k = n
      · rw [heq] at hk
        rcases hkeep stage ref hk hhand with ⟨stage', hstage', hhand'⟩ | hnone
        · exact ⟨n, stage', (setTask_self ..).trans hstage', hhand'⟩
        · exact absurd hnone hfd
      · exact ⟨k, stage, (setTask_ne w heq new).trans hk, hhand⟩

end Tasks

section Sessions

variable {w : World} {ref : Nat} {s : Session}

@[simp] theorem setSession_self (w : World) (ref : Nat) (s : Session) :
    (w.setSession ref s).heap ref = s := Function.update_self ..

theorem setSession_ne (w : World) {ref other : Nat} (h : other ≠ ref) (s : Session) :
    (w.setSession ref s).heap other = w.heap other := Function.update_of_ne h ..

/-- Other sessions are being closed as before. -/
theorem closing_setSession {other : Nat} (h : other ≠ ref) :
    Closing (w.setSession ref s) other ↔ Closing w other := by
  unfold Closing
  rw [setSession_ne w h]
  exact Iff.rfl

/-- Custody after a session changed, for every other owner. -/
theorem holds_setSession (o : Owner) (fd : Nat) (h : o ≠ .session ref) :
    (w.setSession ref s).custody.holds o fd ↔ w.custody.holds o fd := by
  cases o with
  | thread n => exact Iff.rfl
  | session other =>
    have hne : other ≠ ref := by
      rintro rfl
      exact h rfl
    change (_ ∧ ((w.setSession ref s).heap other).fd = some fd ∧ ¬ Closing _ other) ↔ _
    rw [setSession_ne w hne, closing_setSession hne]
    exact Iff.rfl

/-- A session changes without its descriptor changing hands. -/
theorem step_session (hheld : ∀ fd, s.fd = some fd ∧ ¬ Closing (w.setSession ref s) ref ↔
      (w.heap ref).fd = some fd ∧ ¬ Closing w ref) :
    Custody.Step w.custody (w.setSession ref s).custody := by
  refine .stay (fun _ => Iff.rfl) ?_ (fun _ => rfl)
  intro o fd
  by_cases ho : o = .session ref
  · subst ho
    change (_ ∧ ((w.setSession ref s).heap ref).fd = some fd ∧ ¬ Closing _ ref) ↔ _
    rw [setSession_self]
    exact and_congr Iff.rfl (hheld fd)
  · exact holds_setSession o fd ho

/-- A session object changes. -/
theorem Kept.session (h : Kept w) (href : ref < w.next) {closes : Nat → Nat}
    (hcustody : World.custody { w.setSession ref s with closes := closes } |>.Sound)
    (hid : s.id = (w.heap ref).id)
    (hio : s.io ≠ .unstarted ∧ (s.io = .ended → s.fd = none) ∧
      (s.disconnected = false → s.io = .running))
    (hvisible : s.fd ≠ none → ¬ Closing (w.setSession ref s) ref →
      (w.heap ref).fd ≠ none ∧ ¬ Closing w ref) :
    Kept { w.setSession ref s with closes := closes } where
  custody := hcustody
  alive := h.alive
  live := h.live
  spawned := h.spawned
  nodup := h.nodup
  io := by
    intro other hother
    by_cases heq : other = ref
    · subst heq
      change ((w.setSession other s).heap other).io ≠ _ ∧ _
      rw [setSession_self]
      exact hio
    · change ((w.setSession ref s).heap other).io ≠ _ ∧ _
      rw [setSession_ne w heq]
      exact h.io other hother
  table := h.table
  inHand := h.inHand
  visible := by
    intro other hother hfd hnot
    by_cases heq : other = ref
    · subst heq
      change w.sessions ((w.setSession other s).heap other).id = _ ∨ _
      rw [setSession_self, hid]
      have hfd' : s.fd ≠ none := by
        rw [← setSession_self w other s]
        exact hfd
      obtain ⟨hold, hnot'⟩ := hvisible hfd' hnot
      exact h.visible other href hold hnot'
    · change w.sessions ((w.setSession ref s).heap other).id = _ ∨ _
      rw [setSession_ne w heq]
      refine h.visible other hother ?_ (mt (closing_setSession heq).mpr hnot)
      rw [← setSession_ne w heq s]
      exact hfd

/-- `close` is called for a session that nobody else is closing. -/
theorem step_closeSession {w' : World} (href : ref < w.next) (hopen : ¬ Closing w ref)
    (hobtained : w'.obtained = w.obtained)
    (hcloses : w'.closes = closeAll (w.heap ref).fd.toList w.closes)
    (hholds : ∀ o fd, w'.custody.holds o fd ↔ o ≠ .session ref ∧ w.custody.holds o fd) :
    Custody.Step w.custody w'.custody := by
  have hheld : ∀ fd, w.custody.holds (.session ref) fd ↔ (w.heap ref).fd = some fd := by
    intro fd
    exact ⟨fun h => h.2.1, fun h => ⟨href, h, hopen⟩⟩
  have hclose : ∀ fd, w'.custody.closes fd = w.closes fd + (w.heap ref).fd.toList.count fd := by
    intro fd
    change w'.closes fd = _
    rw [hcloses]
    rfl
  refine .close (.session ref) ?_ hholds ?_ ?_
  · intro fd
    change fd < w'.obtained ↔ _
    rw [hobtained]
    exact Iff.rfl
  · intro fd hfd
    rw [hclose, (hheld fd).mp hfd]
    simp [World.custody]
  · intro fd hfd
    have hne := mt (hheld fd).mpr hfd
    rw [hclose, List.count_eq_zero.mpr (by simpa using hne)]
    rfl

end Sessions

/-- A thread that can return has in its scoped handles all that it has. -/
theorem Stage.of_returns {stage : Stage} (h : stage.returns = true) :
    stage.own = stage.scoped ∧ stage.inHand = none := by
  cases stage with
  | unstarted => cases h
  | released id fd => cases h
  | started ref => cases h
  | entered old => cases h
  | marked old => cases h
  | closing old => cases h
  | joining old => cases h
  | finished => cases h
  | _ => exact ⟨rfl, rfl⟩

/-- So has one that an exception may unwind. -/
theorem Stage.of_allocates {stage : Stage} (h : stage.allocates = true)
    (hexposed : stage.exposed = false) : stage.own = stage.scoped ∧ stage.inHand = none := by
  cases stage with
  | serving fd => exact ⟨rfl, rfl⟩
  | connecting id fd => exact ⟨rfl, rfl⟩
  | connected => exact ⟨rfl, rfl⟩
  | released id fd => cases hexposed
  | started ref => cases hexposed
  | _ => cases h

section Steps

variable {w : World}

/-- Where an entry is, its number was given out. -/
theorem Kept.lt (h : Kept w) {n : Nat} {stage : Stage} (hn : w.tasks n = some stage) :
    n < w.spawned := by
  by_contra hge
  rw [h.spawned n (Nat.le_of_not_lt hge)] at hn
  cases hn

/-- A thread that can end does. -/
theorem Kept.finish (h : Kept w) {n : Nat} {stage : Stage} (hn : w.tasks n = some stage)
    (hown : stage.own = stage.scoped) (hhand : stage.inHand = none) :
    Kept (w.finish n stage) := by
  have hnotClosing : ∀ ref, stage ≠ .closing ref := by
    rintro ref rfl
    cases hhand
  have hcustody := h.custody.step (step_close hn hown (h.nodup n stage hn) hnotClosing)
  refine h.task hcustody (Nat.le_refl _) (h.lt hn) ?_ ?_ ?_
  · intro new hnew
    cases hnew
    simp [Stage.scoped, Stage.inHand]
  · intro old ref hold hin
    rw [hn] at hold
    cases hold
    rw [hhand] at hin
    cases hin
  · intro ref _ hclosing
    refine (closing_setTask ?_ (by simp)).mpr hclosing
    rw [hn]
    simpa using hnotClosing ref

/-- A thread goes on with the descriptors it has and the session in its hand. -/
theorem Kept.advance (h : Kept w) {n : Nat} {old new : Stage} (hn : w.tasks n = some old)
    (hhand : new.inHand = old.inHand) (hown : new.own = old.own)
    (hopen : ∀ ref, old ≠ .closing ref ∧ new ≠ .closing ref)
    (hnew : new ≠ .unstarted) (hnodup : new.scoped.Nodup) : Kept (w.setTask n (some new)) := by
  have hclosing : ∀ ref, Closing (w.setTask n (some new)) ref ↔ Closing w ref := by
    intro ref
    refine closing_setTask ?_ ?_
    · rw [hn]
      simpa using (hopen ref).1
    · simpa using (hopen ref).2
  have hcustody := h.custody.step (step_stay (fun ref _ => hclosing ref) (by
    intro fd
    simp [hn, hown]))
  refine h.task hcustody (Nat.le_refl _) (h.lt hn) ?_ ?_ fun ref _ => (hclosing ref).mpr
  · intro stage hstage
    cases hstage
    refine ⟨hnew, hnodup, ?_⟩
    intro ref hin
    rw [hhand] at hin
    exact h.inHand n old ref hn hin
  · intro stage ref hstage hin
    rw [hn] at hstage
    cases hstage
    exact .inl ⟨new, rfl, hhand.trans hin⟩

/-- A thread with no session in hand gets a descriptor. -/
theorem Kept.gain (h : Kept w) {n spawned : Nat} {new : Stage} (hspawned : w.spawned ≤ spawned)
    (hn : n < spawned) (hhand : ∀ old, w.tasks n = some old → old.inHand = none)
    (hhand' : new.inHand = none)
    (hown : ∀ fd, fd ∈ new.own ↔ (∃ old, w.tasks n = some old ∧ fd ∈ old.own) ∨ fd = w.obtained)
    (hnew : new ≠ .unstarted) (hnodup : new.scoped.Nodup) :
    Kept { w.obtain.setTask n (some new) with spawned := spawned } := by
  have hclosing : ∀ ref, Closing (w.setTask n (some new)) ref ↔ Closing w ref := by
    intro ref
    refine closing_setTask ?_ ?_
    · intro heq
      cases hhand _ heq
    · intro heq
      cases heq
      cases hhand'
  have hcustody := h.custody.step (step_obtain hclosing (by
    intro fd
    rw [← hown]
    simp))
  refine Kept.task h hcustody hspawned hn ?_ ?_
    fun ref _ => (hclosing ref).mpr
  · intro stage hstage
    cases hstage
    refine ⟨hnew, hnodup, ?_⟩
    intro ref hin
    rw [hhand'] at hin
    cases hin
  · intro stage ref hstage hin
    rw [hhand stage hstage] at hin
    cases hin

/-- A thread starts with a descriptor that was obtained for it. -/
theorem Kept.spawn (h : Kept w) {stage : Stage} (hhand : stage.inHand = none)
    (hown : stage.own = [w.obtained]) (hstage : stage ≠ .unstarted)
    (hnodup : stage.scoped.Nodup) : Kept (w.obtain.spawn true stage) := by
  have hfree := h.spawned w.spawned (Nat.le_refl _)
  refine h.gain (Nat.le_succ w.spawned) (Nat.lt_succ_self w.spawned) ?_ hhand ?_ hstage hnodup
  · intro old hold
    change w.tasks w.spawned = some old at hold
    rw [hfree] at hold
    cases hold
  · intro fd
    change fd ∈ stage.own ↔ (∃ old, w.tasks w.spawned = some old ∧ _) ∨ _
    rw [hown, hfree]
    simp

/-- There is one more session object, with an open descriptor, in the hands of
the thread that made it. -/
structure Opens (w w' : World) (n : Nat) (id : String) (fd : Nat) : Prop where
  self : w'.heap w.next = { id := id, fd := some fd, io := .running }
  heap : ∀ ref < w.next, w'.heap ref = w.heap ref
  next : w'.next = w.next + 1
  task : w'.tasks n = some (.started w.next)
  tasks : ∀ k, k ≠ n → w'.tasks k = w.tasks k
  closing : ∀ ref < w.next, (Closing w' ref ↔ Closing w ref)
  notClosing : ¬ Closing w' w.next

theorem opens_startIo (h : Kept w) {n : Nat} {id : String} {fd : Nat}
    (hn : w.tasks n = some (.released id fd)) :
    Opens w { (w.setSession w.next { id := id, fd := some fd, io := .running }).setTask n
        (some (.started w.next)) with next := w.next + 1 } n id fd where
  self := setSession_self ..
  heap := fun _ href => setSession_ne w (Nat.ne_of_lt href) _
  next := rfl
  task := setTask_self ..
  tasks := fun _ hne => setTask_ne _ hne _
  closing := by
    intro ref href
    generalize ({ id := id, fd := some fd, io := .running } : Session) = s
    have hbefore : (w.setSession w.next s).tasks n ≠ some (.closing ref) := by
      change w.tasks n ≠ some (.closing ref)
      simp [hn]
    have hafter : some (Stage.started w.next) ≠ some (.closing ref) := by simp
    exact (closing_setTask hbefore hafter).trans (closing_setSession (Nat.ne_of_lt href))
  notClosing := by
    generalize hs : ({ id := id, fd := some fd, io := .running } : Session) = s
    rintro (hio | ⟨k, hk⟩)
    · change ((w.setSession w.next s).heap w.next).io = .closing at hio
      rw [setSession_self, ← hs] at hio
      cases hio
    · rcases setTask_cases hk with ⟨-, heq⟩ | ⟨-, hk⟩
      · cases heq
      · exact absurd (h.inHand k _ w.next hk rfl) (Nat.lt_irrefl _)

theorem Opens.tasks_cases {w' : World} {n fd : Nat} {id : String} (ho : Opens w w' n id fd)
    {k : Nat} {stage : Stage} (hk : w'.tasks k = some stage) :
    k = n ∧ stage = .started w.next ∨ k ≠ n ∧ w.tasks k = some stage := by
  by_cases hne : k = n
  · rw [hne, ho.task] at hk
    exact .inl ⟨hne, (Option.some.inj hk).symm⟩
  · rw [ho.tasks k hne] at hk
    exact .inr ⟨hne, hk⟩

/-- The thread passes the descriptor to the session. -/
theorem Opens.step {w' : World} {n fd : Nat} {id : String} (ho : Opens w w' n id fd)
    (hn : w.tasks n = some (.released id fd)) (hobtained : w'.obtained = w.obtained)
    (hcloses : w'.closes = w.closes) : Custody.Step w.custody w'.custody := by
  have hheld : ∀ x, w.custody.holds (.thread n) x ↔ x = fd := by
    intro x
    simp [World.custody, hn, Stage.own]
  refine .pass (.thread n) (.session w.next) (by simp) ?_ ?_ ?_ ?_
  · intro x hx
    exact absurd hx.1 (Nat.lt_irrefl _)
  · intro x
    change x < w'.obtained ↔ x < w.obtained
    rw [hobtained]
  · rintro (k | ref) x
    · constructor
      · rintro ⟨stage, hk, hown⟩
        rcases ho.tasks_cases hk with ⟨-, rfl⟩ | ⟨hne, hk⟩
        · cases hown
        · exact .inl ⟨by simpa using hne, by simp, stage, hk, hown⟩
      · rintro (⟨hne, -, stage, hk, hown⟩ | ⟨heq, -⟩)
        · exact ⟨stage, (ho.tasks k (by simpa using hne)).trans hk, hown⟩
        · cases heq
    · rw [hheld]
      change (ref < w'.next ∧ (w'.heap ref).fd = some x ∧ ¬ Closing w' ref) ↔ _
      by_cases heq : ref = w.next
      · subst heq
        rw [ho.self, ho.next]
        simp [ho.notClosing, eq_comm]
      · constructor
        · rintro ⟨hlt, hfd, hopen⟩
          rw [ho.next] at hlt
          have href : ref < w.next := by omega
          rw [ho.heap ref href] at hfd
          exact .inl ⟨by simp, by simpa using heq, href, hfd, mt (ho.closing ref href).mpr hopen⟩
        · rintro (⟨-, -, href, hfd, hopen⟩ | ⟨heq', -⟩)
          · rw [ho.heap ref href, ho.next]
            exact ⟨Nat.lt_succ_of_lt href, hfd, mt (ho.closing ref href).mp hopen⟩
          · exact absurd (Owner.session.inj heq') heq
  · intro x
    change w'.closes x = w.closes x
    rw [hcloses]

/-- What is open in it can be seen, as before. -/
theorem Opens.visible {w' : World} {n fd : Nat} {id : String} (ho : Opens w w' n id fd)
    (h : Kept w) (hn : w.tasks n = some (.released id fd)) (hsessions : w'.sessions = w.sessions)
    {ref : Nat} (href : ref < w'.next) (hfd : (w'.heap ref).fd ≠ none)
    (hopen : ¬ Closing w' ref) :
    w'.sessions (w'.heap ref).id = some ref ∨
      ∃ k stage, w'.tasks k = some stage ∧ stage.inHand = some ref := by
  by_cases heq : ref = w.next
  · exact .inr ⟨n, .started w.next, ho.task, by rw [heq]; rfl⟩
  · have hlt : ref < w.next := by
      have hle := ho.next
      omega
    rw [ho.heap ref hlt] at hfd ⊢
    rw [hsessions]
    rcases h.visible ref hlt hfd
      (mt (ho.closing ref hlt).mpr hopen) with htable | ⟨k, stage, hk, hhand⟩
    · exact .inl htable
    · have hne : k ≠ n := by
        rintro rfl
        rw [hn] at hk
        cases hk
        cases hhand
      exact .inr ⟨k, stage, (ho.tasks k hne).trans hk, hhand⟩

/-- The session object gets its io thread and, with it, the descriptor. -/
theorem Kept.startIo (h : Kept w) {n : Nat} {id : String} {fd : Nat}
    (hn : w.tasks n = some (.released id fd)) :
    Kept { (w.setSession w.next { id := id, fd := some fd, io := .running }).setTask n
        (some (.started w.next)) with next := w.next + 1 } := by
  have ho := opens_startIo h hn
  refine ⟨h.custody.step (ho.step hn rfl rfl), h.alive, ?_, ?_, ?_, ?_, ?_, ?_,
    fun ref href => ho.visible h hn rfl href⟩
  · intro k hk
    rcases ho.tasks_cases hk with ⟨-, heq⟩ | ⟨-, hk⟩
    · cases heq
    · exact h.live k hk
  · intro k hk
    have hne : k ≠ n := by
      rintro rfl
      exact absurd (h.lt hn) (Nat.not_lt_of_le hk)
    exact (ho.tasks k hne).trans (h.spawned k hk)
  · intro k stage hk
    rcases ho.tasks_cases hk with ⟨-, rfl⟩ | ⟨-, hk⟩
    · exact List.nodup_nil
    · exact h.nodup k stage hk
  · intro ref href
    rw [ho.next] at href
    by_cases heq : ref = w.next
    · rw [heq, ho.self]
      simp
    · have hlt : ref < w.next := by omega
      rw [ho.heap ref hlt]
      exact h.io ref hlt
  · intro id' ref hid
    exact Nat.lt_succ_of_lt (h.table id' ref hid)
  · intro k stage ref hk hhand
    rcases ho.tasks_cases hk with ⟨-, rfl⟩ | ⟨-, hk⟩
    · cases hhand
      exact Nat.lt_succ_self _
    · exact Nat.lt_succ_of_lt (h.inHand k stage ref hk hhand)

/-- The session enters the table, and the thread keeps the one it replaced. -/
theorem Kept.enter (h : Kept w) {n ref : Nat} (hn : w.tasks n = some (.started ref)) :
    Kept { w.setTask n (some (.entered (w.sessions (w.heap ref).id))) with
      sessions := Function.update w.sessions (w.heap ref).id (some ref) } := by
  have href := h.inHand n _ ref hn rfl
  generalize hid : (w.heap ref).id = id
  have hclosing : ∀ other,
      Closing (w.setTask n (some (.entered (w.sessions id)))) other ↔ Closing w other :=
    fun other => closing_setTask (by simp [hn]) (by simp)
  have hcustody : (World.custody { w.setTask n (some (.entered (w.sessions id))) with
      sessions := Function.update w.sessions id (some ref) }).Sound :=
    h.custody.step (step_stay (fun other _ => hclosing other) (by
      intro fd
      simp [hn, Stage.own, Stage.scoped]))
  refine ⟨hcustody, h.alive, ?_, ?_, ?_, h.io, ?_, ?_, ?_⟩
  · intro k hk
    rcases setTask_cases hk with ⟨-, heq⟩ | ⟨-, hk⟩
    · cases heq
    · exact h.live k hk
  · intro k hk
    have hne : k ≠ n := by
      rintro rfl
      exact absurd (h.lt hn) (Nat.not_lt_of_le hk)
    exact (setTask_ne w hne _).trans (h.spawned k hk)
  · intro k stage hk
    rcases setTask_cases hk with ⟨-, heq⟩ | ⟨-, hk⟩
    · cases heq
      exact List.nodup_nil
    · exact h.nodup k stage hk
  · intro other r hother
    change Function.update w.sessions id (some ref) other = some r at hother
    by_cases heq : other = id
    · rw [heq, Function.update_self] at hother
      cases hother
      exact href
    · rw [Function.update_of_ne heq] at hother
      exact h.table other r hother
  · intro k stage r hk hhand
    rcases setTask_cases hk with ⟨-, heq⟩ | ⟨-, hk⟩
    · cases heq
      exact h.table id r hhand
    · exact h.inHand k stage r hk hhand
  · intro r hr hfd hopen
    change Function.update w.sessions id (some ref) (w.heap r).id = some r ∨ _
    rcases h.visible r hr hfd (mt (hclosing r).mpr hopen) with htable | ⟨k, stage, hk, hhand⟩
    · -- the session of the table is the one replaced, or of another device
      by_cases heq : (w.heap r).id = id
      · rw [heq] at htable
        exact .inr ⟨n, _, setTask_self w n _, htable⟩
      · rw [Function.update_of_ne heq]
        exact .inl htable
    · by_cases heq : k = n
      · rw [heq, hn] at hk
        cases hk
        cases hhand
        left
        rw [hid, Function.update_self]
      · exact .inr ⟨k, stage, (setTask_ne w heq _).trans hk, hhand⟩

/-- The thread marks the session it replaced as disconnected. -/
theorem Kept.markOld (h : Kept w) {n old : Nat} (hn : w.tasks n = some (.entered (some old))) :
    Kept ((w.setSession old { w.heap old with disconnected := true }).setTask n
      (some (.marked old))) := by
  have hold := h.inHand n _ old hn rfl
  obtain ⟨hstarted, hended, -⟩ := h.io old hold
  have hclosing : Closing (w.setSession old { w.heap old with disconnected := true }) old ↔
      Closing w old := by
    unfold Closing
    rw [setSession_self]
    exact Iff.rfl
  have hcustody := h.custody.step (step_session (s := { w.heap old with disconnected := true })
    fun fd => and_congr Iff.rfl (not_congr hclosing))
  have hmarked := h.session hold hcustody rfl ⟨hstarted, hended, by simp⟩
    fun hfd hnot => ⟨hfd, mt hclosing.mpr hnot⟩
  exact hmarked.advance hn rfl rfl (by simp) (by simp) List.nodup_nil

/-- It calls `close` for it, -/
theorem Kept.closeOld (h : Kept w) {n old : Nat} (hn : w.tasks n = some (.marked old))
    (hopen : ¬ Closing w old) :
    Kept { w.setTask n (some (.closing old)) with
      closes := closeAll (w.heap old).fd.toList w.closes } := by
  have hold := h.inHand n _ old hn rfl
  have hclosed : Closing (w.setTask n (some (.closing old))) old :=
    .inr ⟨n, setTask_self w n _⟩
  have hothers : ∀ ref, ref ≠ old →
      (Closing (w.setTask n (some (.closing old))) ref ↔ Closing w ref) := by
    intro ref hne
    refine closing_setTask (by simp [hn]) ?_
    intro heq
    cases heq
    exact hne rfl
  have hholds : ∀ o fd, (w.setTask n (some (.closing old))).custody.holds o fd ↔
      o ≠ .session old ∧ w.custody.holds o fd := by
    rintro (k | ref) fd
    · rw [holds_thread _ _ (by simp)]
      by_cases hk : k = n
      · subst hk
        simp [World.custody, hn, Stage.own, Stage.scoped]
      · simp [hk, Stage.own, Stage.scoped]
    · by_cases hne : ref = old
      · subst hne
        simp [World.custody, hclosed]
      · rw [holds_session ref fd fun _ => hothers ref hne]
        simp [hne]
  have hstep : Custody.Step w.custody (World.custody { w.setTask n (some (.closing old)) with
      closes := closeAll (w.heap old).fd.toList w.closes }) :=
    step_closeSession hold hopen rfl rfl hholds
  have hcustody := h.custody.step hstep
  refine h.task hcustody (Nat.le_refl _) (h.lt hn) ?_ ?_ ?_
  · intro stage hstage
    cases hstage
    refine ⟨by simp, List.nodup_nil, ?_⟩
    intro ref hin
    cases hin
    exact hold
  · intro stage ref hstage hin
    rw [hn] at hstage
    cases hstage
    exact .inl ⟨_, rfl, hin⟩
  · intro ref _ hclosing
    by_cases hne : ref = old
    · rw [hne]
      exact hclosed
    · exact (hothers ref hne).mpr hclosing

/-- and sets its descriptor to -1. -/
theorem Kept.clearOld (h : Kept w) {n old : Nat} (hn : w.tasks n = some (.closing old)) :
    Kept ((w.setSession old { w.heap old with fd := none }).setTask n (some (.joining old))) := by
  have hold := h.inHand n _ old hn rfl
  obtain ⟨hstarted, -, hlive⟩ := h.io old hold
  have hheld : ∀ fd, ({ w.heap old with fd := none } : Session).fd = some fd ∧
      ¬ Closing (w.setSession old { w.heap old with fd := none }) old ↔
        (w.heap old).fd = some fd ∧ ¬ Closing w old := by
    intro fd
    have hclosing : Closing w old := .inr ⟨n, hn⟩
    simp [hclosing]
  have hcustody := h.custody.step (step_session hheld)
  have hcleared : Kept (w.setSession old { w.heap old with fd := none }) :=
    h.session hold hcustody rfl ⟨hstarted, fun _ => rfl, hlive⟩ fun hfd => absurd rfl hfd
  generalize hw : w.setSession old { w.heap old with fd := none } = w' at hcleared
  have hn' : w'.tasks n = some (.closing old) := by
    rw [← hw]
    exact hn
  have hnone : (w'.heap old).fd = none := by
    rw [← hw, setSession_self]
  have hothers : ∀ ref, (w'.heap ref).fd ≠ none →
      (Closing (w'.setTask n (some (.joining old))) ref ↔ Closing w' ref) := by
    intro ref hfd
    refine closing_setTask ?_ (by simp)
    intro heq
    rw [hn'] at heq
    cases heq
    exact hfd hnone
  have hcustody' := hcleared.custody.step (step_stay hothers (by
    intro fd
    simp [hn', Stage.own, Stage.scoped]))
  refine hcleared.task hcustody' (Nat.le_refl _) (hcleared.lt hn') ?_ ?_
    fun ref hfd => (hothers ref hfd).mpr
  · intro stage hstage
    cases hstage
    simp [Stage.scoped, Stage.inHand]
  · intro stage ref hstage hin
    rw [hn'] at hstage
    cases hstage
    cases hin
    exact .inr hnone

/-- A port that does not get ready is closed again. -/
theorem Kept.refuse (h : Kept w) :
    Kept { w.obtain with closes := closeAll [w.obtained] w.closes } := by
  have hfree := h.spawned w.spawned (Nat.le_refl _)
  have hnothing : ∀ fd, ¬ w.custody.holds (.thread w.spawned) fd := by
    rintro fd ⟨stage, hstage, -⟩
    rw [hfree] at hstage
    cases hstage
  have hobtained : ∀ fd, fd < w.obtained + 1 ↔ fd < w.obtained ∨ fd = w.obtained := by
    intro fd
    omega
  have hgain : Custody.Step w.custody
      { obtained := fun fd => fd < w.obtained + 1
        holds := fun o fd => w.custody.holds o fd ∨ o = .thread w.spawned ∧ fd = w.obtained
        closes := w.closes } :=
    .obtain (.thread w.spawned) w.obtained (Nat.lt_irrefl _) hobtained (fun _ _ => Iff.rfl)
      (fun _ => rfl)
  have hclose : Custody.Step
      { obtained := fun fd => fd < w.obtained + 1
        holds := fun o fd => w.custody.holds o fd ∨ o = .thread w.spawned ∧ fd = w.obtained
        closes := w.closes }
      (World.custody { w.obtain with closes := closeAll [w.obtained] w.closes }) := by
    refine .close (.thread w.spawned) (fun _ => Iff.rfl) ?_ ?_ ?_
    · intro o fd
      change w.custody.holds o fd ↔ _
      by_cases ho : o = .thread w.spawned
      · subst ho
        simp [hnothing]
      · simp [ho]
    · rintro fd (hold | ⟨-, rfl⟩)
      · exact absurd hold (hnothing fd)
      · simp [World.custody, closeAll]
    · intro fd hfd
      have hne : w.obtained ≠ fd := by
        rintro rfl
        exact hfd (.inr ⟨rfl, rfl⟩)
      simp [World.custody, closeAll, hne]
  have hcustody := (h.custody.step hgain).step hclose
  exact ⟨hcustody, h.alive, h.live, h.spawned, h.nodup, h.io, h.table, h.inHand, h.visible⟩

/-- An io thread leaves its loop, -/
theorem Kept.leave (h : Kept w) {ref : Nat} (href : ref < w.next)
    (hio : (w.heap ref).io = .running) :
    Kept (w.setSession ref { w.heap ref with io := .leaving, disconnected := true }) := by
  have hclosing : Closing (w.setSession ref
      { w.heap ref with io := .leaving, disconnected := true }) ref ↔ Closing w ref := by
    unfold Closing
    rw [setSession_self, hio]
    simp [World.setSession]
  have hcustody := h.custody.step (step_session
    (s := { w.heap ref with io := .leaving, disconnected := true })
    fun fd => and_congr Iff.rfl (not_congr hclosing))
  exact h.session href hcustody rfl ⟨by simp, by simp, by simp⟩
    fun hfd hnot => ⟨hfd, mt hclosing.mpr hnot⟩

/-- calls `close`, -/
theorem Kept.closeIo (h : Kept w) {ref : Nat} (href : ref < w.next)
    (hio : (w.heap ref).io = .leaving) (hopen : ¬ Closing w ref) :
    Kept { w.setSession ref { w.heap ref with io := .closing } with
      closes := closeAll (w.heap ref).fd.toList w.closes } := by
  have hclosed : Closing (w.setSession ref { w.heap ref with io := .closing }) ref := by
    left
    rw [setSession_self]
  have hholds : ∀ o fd,
      (w.setSession ref { w.heap ref with io := .closing }).custody.holds o fd ↔
        o ≠ .session ref ∧ w.custody.holds o fd := by
    intro o fd
    by_cases ho : o = .session ref
    · subst ho
      simp [World.custody, hclosed]
    · rw [holds_setSession o fd ho]
      simp [ho]
  have hstep : Custody.Step w.custody
      (World.custody { w.setSession ref { w.heap ref with io := .closing } with
        closes := closeAll (w.heap ref).fd.toList w.closes }) :=
    step_closeSession href hopen rfl rfl hholds
  have hcustody := h.custody.step hstep
  have hlive := (h.io ref href).2.2
  refine h.session href hcustody rfl ⟨by simp, by simp, ?_⟩ fun _ hnot => absurd hclosed hnot
  intro hdown
  rw [hlive hdown] at hio
  cases hio

/-- and sets the descriptor to -1. -/
theorem Kept.clearIo (h : Kept w) {ref : Nat} (href : ref < w.next)
    (hio : (w.heap ref).io = .closing) :
    Kept (w.setSession ref { w.heap ref with io := .ended, fd := none }) := by
  have hheld : ∀ fd, ({ w.heap ref with io := .ended, fd := none } : Session).fd = some fd ∧
      ¬ Closing (w.setSession ref { w.heap ref with io := .ended, fd := none }) ref ↔
        (w.heap ref).fd = some fd ∧ ¬ Closing w ref := by
    intro fd
    have hclosing : Closing w ref := .inl hio
    simp [hclosing]
  have hcustody := h.custody.step (step_session hheld)
  have hlive := (h.io ref href).2.2
  refine h.session href hcustody rfl ⟨by simp, fun _ => rfl, ?_⟩ fun hfd => absurd rfl hfd
  intro hdown
  rw [hlive hdown] at hio
  cases hio

/-- A finished thread is joined and its entry removed. -/
theorem Kept.reap (h : Kept w) {n : Nat} (hn : w.tasks n = some .finished) :
    Kept (w.setTask n none) := by
  have hclosing : ∀ ref, Closing (w.setTask n none) ref ↔ Closing w ref :=
    fun ref => closing_setTask (by simp [hn]) (by simp)
  have hcustody := h.custody.step (step_stay (fun ref _ => hclosing ref) (by
    intro fd
    simp [hn, Stage.own, Stage.scoped]))
  refine h.task hcustody (Nat.le_refl _) (h.lt hn) ?_ ?_ fun ref _ => (hclosing ref).mpr
  · intro stage hstage
    cases hstage
  · intro stage ref hstage hin
    rw [hn] at hstage
    cases hstage
    cases hin

/-- A thread that is to dial holds nothing yet. -/
theorem Kept.discover (h : Kept w) : Kept { w.setTask w.spawned (some .dialling) with
    spawned := w.spawned + 1 } := by
  have hfree := h.spawned w.spawned (Nat.le_refl _)
  have hclosing : ∀ ref, Closing (w.setTask w.spawned (some .dialling)) ref ↔ Closing w ref :=
    fun ref => closing_setTask (by simp [hfree]) (by simp)
  have hcustody := h.custody.step (step_stay (fun ref _ => hclosing ref) (by
    intro fd
    simp [hfree, Stage.own, Stage.scoped]))
  refine h.task hcustody (Nat.le_succ _) (Nat.lt_succ_self _) ?_ ?_ fun ref _ => (hclosing ref).mpr
  · intro stage hstage
    cases hstage
    simp [Stage.scoped, Stage.inHand]
  · intro stage ref hstage
    rw [hfree] at hstage
    cases hstage

end Steps

/-- Spared steps keep custody. -/
theorem kept_step {w : World} (h : Kept w) {e : Event} (hspared : Spared w e) :
    Kept (step w e) := by
  unfold step
  rw [h.alive, if_neg Bool.false_ne_true]
  cases e with
  | accept starts =>
    obtain rfl : starts = true := hspared
    exact h.spawn rfl rfl (by simp) (List.nodup_singleton _)
  | discover starts =>
    obtain rfl : starts = true := hspared
    exact h.discover
  | socket n =>
    simp only [SocketOwnership.advance]
    split
    · rename_i hn
      exact h.gain (Nat.le_refl _) (h.lt hn) (by simp [hn, Stage.inHand]) rfl
        (by simp [hn, Stage.own, Stage.scoped]) (by simp) (List.nodup_singleton _)
    · exact h
  | handle n id =>
    simp only [SocketOwnership.advance]
    split
    · rename_i fd hn
      split
      · exact h.finish hn rfl rfl
      · exact h.advance hn rfl rfl (by simp) (by simp) (List.nodup_singleton _)
    · exact h
  | finish n =>
    simp only [SocketOwnership.advance]
    split
    · rename_i stage hn
      split
      · rename_i hreturns
        obtain ⟨hown, hhand⟩ := Stage.of_returns hreturns
        exact h.finish hn hown hhand
      · exact h
    · exact h
  | release n =>
    simp only [SocketOwnership.advance]
    split
    · rename_i id fd hn
      exact h.advance hn rfl rfl (by simp) (by simp) List.nodup_nil
    · exact h
  | startIo n starts =>
    obtain rfl : starts = true := hspared
    simp only [SocketOwnership.advance]
    split
    · rename_i id fd hn
      exact h.startIo hn
    · exact h
  | enter n =>
    simp only [SocketOwnership.advance]
    split
    · rename_i ref hn
      exact h.enter hn
    · exact h
  | markOld n =>
    simp only [SocketOwnership.advance]
    split
    · rename_i hn
      exact h.advance hn rfl rfl (by simp) (by simp) List.nodup_nil
    · rename_i old hn
      exact h.markOld hn
    · exact h
  | closeOld n =>
    simp only [SocketOwnership.advance]
    split
    · rename_i old hn
      exact h.closeOld hn (hspared old hn)
    · exact h
  | clearOld n =>
    simp only [SocketOwnership.advance]
    split
    · rename_i old hn
      exact h.clearOld hn
    · exact h
  | joinOld n =>
    simp only [SocketOwnership.advance]
    split
    · rename_i old hn
      split
      · exact h.advance hn rfl rfl (by simp) (by simp) List.nodup_nil
      · exact h
    · exact h
  | upload ready starts =>
    simp only [SocketOwnership.advance]
    split
    · rename_i hready
      obtain rfl : starts = true := hspared hready
      exact h.spawn rfl rfl (by simp) (List.nodup_singleton _)
    · exact h.refuse
  | client n =>
    simp only [SocketOwnership.advance]
    split
    · rename_i srvFd hn
      have hknown : srvFd < w.obtained :=
        h.custody.known (.thread n) srvFd ⟨_, hn, List.mem_singleton_self srvFd⟩
      refine h.gain (Nat.le_refl _) (h.lt hn) (by simp [hn, Stage.inHand]) rfl
        (by simp [hn, Stage.own, Stage.scoped]) (by simp) ?_
      simp [Stage.scoped, Nat.ne_of_lt hknown]
    · exact h
  | throw n =>
    simp only [SocketOwnership.advance]
    split
    · rename_i hn
      cases hspared _ hn
    · rename_i stage _ hn
      split
      · rename_i hallocates
        obtain ⟨hown, hhand⟩ := Stage.of_allocates hallocates (hspared stage hn)
        exact h.finish hn hown hhand
      · exact h
    · exact h
  | leave ref =>
    simp only [SocketOwnership.advance]
    split
    · rename_i href
      exact h.leave href.1 href.2
    · exact h
  | closeIo ref =>
    simp only [SocketOwnership.advance]
    split
    · rename_i href
      exact h.closeIo href.1 href.2 hspared
    · exact h
  | clearIo ref =>
    simp only [SocketOwnership.advance]
    split
    · rename_i href
      exact h.clearIo href.1 href.2
    · exact h
  | reap n =>
    simp only [SocketOwnership.advance]
    split
    · rename_i hn
      exact h.reap hn
    · exact h

/-- In every run whose steps are spared, in every state of it, descriptors,
entries and sessions have their owners. -/
theorem owned_of_spared (events : List Event) (h : EveryStep step Spared {} events) :
    Always step Owned {} events := by
  have hkept := always_of_everyStep (P := fun w : World => Kept w)
    (fun w e hw hspared => kept_step hw hspared) kept_start h
  exact hkept.imp fun w hw => hw.owned

/-- A peer connects and its session is installed; then the peer comes once
more, over a new connection, while memory is short. -/
def reconnected : List Event :=
  [.accept true, .handle 0 "5f0c", .release 0, .startIo 0 true, .enter 0, .markOld 0, .finish 0,
    .discover true, .socket 1, .throw 1, .leave 0, .closeIo 0, .clearIo 0, .reap 0]

theorem owned_reconnected : Always step Owned {} reconnected := by
  refine owned_of_spared reconnected ⟨rfl, trivial, trivial, rfl, trivial, trivial, trivial, rfl,
    trivial, ?_, trivial, ?_, trivial, trivial, trivial⟩
  · intro stage hstage
    obtain rfl : Stage.serving 1 = stage := Option.some.inj hstage
    rfl
  · rintro (hio | ⟨n, hn⟩)
    · cases hio
    · rcases n with _ | _ | n
      · cases hn
      · cases hn
      · cases hn

/-- The io thread of an accepted connection does not start. -/
def silent : List Event :=
  [.accept true, .handle 0 "5f0c", .release 0, .startIo 0 false, .enter 0, .markOld 0, .finish 0]

/-- Its session is in the table, blocks every later connection of the device
and is never closed. -/
theorem not_owned_silent : ¬ ∀ events : List Event, Always step Owned {} events := by
  intro h
  have hrunning := (h silent).last.sessions "5f0c" 0 rfl rfl
  exact hrunning.2.1 rfl

end KdeConnectNx.SocketOwnership
