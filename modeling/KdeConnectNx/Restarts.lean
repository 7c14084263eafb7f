import KdeConnectNx.Runs

/-!
# Restarts of a client whose network loop is dead

The network loop of a client leaves through several exits, and the main loop
looks at one flag to find out. The threads of all clients take their steps
between those of the main loop, which makes a new client when the flag is up or
the network has come back.
-/

namespace KdeConnectNx.Restarts

open Runs

/-- The error numbers the loop tells apart. -/
inductive Errno where
  | eintr
  | eagain
  | ewouldblock
  | econnaborted
  | other (code : Int)
  deriving DecidableEq, Repr

/-- A failed `accept` that is tried again. -/
def Errno.transient : Errno → Bool
  | .other _ => false
  | _ => true

/-- Where the network thread of a client is. -/
inductive Loop where
  /-- Not started. -/
  | unborn
  /-- Before the test of `running_`. -/
  | head
  | selecting
  /-- Before `accept`; whether the UDP socket is ready, too. -/
  | accepting (udpReady : Bool)
  /-- Before `recvfrom`. -/
  | receiving
  | returned
  deriving DecidableEq, Repr

/-- What `KdeConnectClient` keeps for its network thread. -/
structure Client where
  running : Bool := false
  needsRestart : Bool := false
  tcpFd : Int := -1
  udpFd : Int := -1
  loop : Loop := .unborn
  deriving DecidableEq, Repr

inductive LoopEvent where
  /-- The tests at the head of the loop. -/
  | turn
  | select (r : Except Errno (Bool × Bool))
  /-- `accept`: the error, if it fails. -/
  | accept (error : Option Errno)
  /-- `recvfrom`, and what comes of the datagram. -/
  | recvfrom (len : Int)

/-- The results of the calls in `start`. -/
structure StartIo where
  /-- `load_or_create`. -/
  tls : Bool := true
  /-- `create_tcp_server_socket`. -/
  tcpFd : Int := 3
  /-- `create_udp_broadcast_socket`. -/
  udpFd : Int := 4

namespace Client

/-- The first argument of `select`. -/
def nfds (c : Client) : Int :=
  let nfds := if 0 ≤ c.tcpFd then max 0 (c.tcpFd + 1) else 0
  if 0 ≤ c.udpFd then max nfds (c.udpFd + 1) else nfds

/-- The way on behind the TCP socket. -/
def afterTcp (c : Client) (udpReady : Bool) : Client :=
  { c with loop := if 0 ≤ c.udpFd ∧ udpReady = true then .receiving else .head }

/-- A step of `network_loop`. An event the thread is not ready for changes
nothing. -/
def loopStep (c : Client) : LoopEvent → Client
  | .turn =>
    if c.loop = .head then
      if c.running = false then { c with loop := .returned }
      else if c.nfds = 0 then { c with loop := .returned }
      else { c with loop := .selecting }
    else c
  | .select r =>
    if c.loop = .selecting then
      match r with
      | .error errno => { c with loop := if errno = .eintr then .head else .returned }
      | .ok (tcpReady, udpReady) =>
        if 0 ≤ c.tcpFd ∧ tcpReady = true then { c with loop := .accepting udpReady }
        else c.afterTcp udpReady
    else c
  | .accept error =>
    match c.loop with
    | .accepting udpReady =>
      match error with
      | some errno =>
        if errno.transient then { c with loop := .head }
        else { c with needsRestart := true, loop := .returned }
      | none => c.afterTcp udpReady
    | _ => c
  | .recvfrom _ => if c.loop = .receiving then { c with loop := .head } else c

/-- `start`, up to the start of the thread. What comes after looks at neither
flag. -/
def start (io : StartIo) (c : Client) : Client × Bool :=
  let c := { c with needsRestart := false }
  if c.running then (c, true)
  else if !io.tls then ({ c with needsRestart := true }, false)
  else if io.tcpFd < 0 then ({ c with tcpFd := io.tcpFd, needsRestart := true }, false)
  else
    ({ c with
        tcpFd := io.tcpFd
        udpFd := io.udpFd
        needsRestart := false
        running := true
        loop := .head }, true)

/-- `stop`, up to the wait for the thread. -/
def stop (c : Client) : Client := { c with running := false }

end Client

/-- What `processEvents` goes on with after a restart. -/
inductive Stage where
  /-- The client had asked for it. -/
  | requested
  /-- The network had come back. -/
  | restored
  deriving DecidableEq, Repr

/-- Where the main loop is. -/
inductive Main where
  /-- Between two calls of `processEvents`. -/
  | idle
  /-- Before `isOnline`. -/
  | asking
  /-- In `restart_client`, the old client given up. It is destroyed there unless
  another thread shares it. -/
  | restarting (stage : Stage) (shared : Bool)
  deriving DecidableEq, Repr

/-- `restart_cooldown_` in nanoseconds. -/
def restartCooldown : Int := 3000000000

/-- `NxApplication`, with every client it has made. -/
structure NxApplication where
  clients : Nat → Client
  /-- How many there are. The last one is `client_`. -/
  made : Nat
  main : Main := .idle
  wasOnline : Bool
  lastRestart : Int

inductive Event where
  /-- The network thread of a client. -/
  | loop (n : Nat) (e : LoopEvent)
  /-- Another thread lets go of a client that was given up. -/
  | release (n : Nat)
  /-- `processEvents` up to `isOnline`, or into a restart: two readings of the
  clock. -/
  | processEvents (now again : Int) (shared : Bool)
  /-- `isOnline`, and what follows from it. -/
  | isOnline (online : Bool) (again : Int) (shared : Bool)
  /-- The new client of a restart, made and started. -/
  | make (io : StartIo)

namespace NxApplication

def client (a : NxApplication) : Client := a.clients (a.made - 1)

def setClient (n : Nat) (c : Client) (a : NxApplication) : NxApplication :=
  { a with clients := Function.update a.clients n c }

/-- A client made and started. -/
def addClient (io : StartIo) (a : NxApplication) : NxApplication :=
  { a with
    clients := Function.update a.clients a.made (Client.start io {}).1
    made := a.made + 1 }

/-- The constructor. -/
def construct (now : Int) (online : Bool) (io : StartIo) : NxApplication :=
  addClient io { clients := fun _ => {}, made := 0, wasOnline := online, lastRestart := now }

/-- `restart_client` behind its test: `client_.reset()` stops the client if no
one else has it. -/
def giveUp (stage : Stage) (again : Int) (shared : Bool) (a : NxApplication) : NxApplication :=
  let a := { a with lastRestart := again, main := .restarting stage shared }
  if shared then a else a.setClient (a.made - 1) a.client.stop

/-- The destructor has joined the network thread, or runs elsewhere. -/
def ready (a : NxApplication) (shared : Bool) : Bool :=
  shared || a.client.loop == .returned || a.client.loop == .unborn

/-- The main loop has given up this client. -/
def givenUp (a : NxApplication) (n : Nat) : Bool :=
  match a.main with
  | .restarting _ _ => decide (n < a.made)
  | _ => decide (n + 1 < a.made)

def step (a : NxApplication) : Event → NxApplication
  | .loop n e => if n < a.made then a.setClient n ((a.clients n).loopStep e) else a
  | .release n => if a.givenUp n then a.setClient n (a.clients n).stop else a
  | .processEvents now again shared =>
    if a.main = .idle then
      if a.client.needsRestart ∧ ¬ now - a.lastRestart < restartCooldown then
        a.giveUp .requested again shared
      else { a with main := .asking }
    else a
  | .isOnline online again shared =>
    if a.main = .asking then
      let a' := { a with wasOnline := online }
      if !a.wasOnline && online then a'.giveUp .restored again shared
      else { a' with main := .idle }
    else a
  | .make io =>
    match a.main with
    | .restarting stage shared =>
      if a.ready shared then
        { a.addClient io with main := if stage = .requested then .asking else .idle }
      else a
    | _ => a

end NxApplication

namespace Client

/-- A client that was started and not stopped listens, and its flag is down as
long as its loop lives. -/
def Sound (c : Client) : Prop :=
  c.running = true → 0 ≤ c.tcpFd ∧ (c.loop ≠ .returned → c.needsRestart = false)

/-- If it was started, not stopped, and its loop is dead, its flag is up. -/
def Flagged (c : Client) : Prop :=
  c.running = true → c.loop = .returned → c.needsRestart = true

/-- The loop of a client that is not stopped meets a failed `select` that is no
interruption. -/
def SelectFails (c : Client) (e : LoopEvent) : Prop :=
  c.running = true ∧ c.loop = .selecting ∧ ∃ errno, e = .select (.error errno) ∧ errno ≠ .eintr

theorem running_loopStep (c : Client) (e : LoopEvent) :
    (c.loopStep e).running = c.running ∧ (c.loopStep e).tcpFd = c.tcpFd := by
  cases e with
  | turn =>
    simp only [loopStep]
    split_ifs <;> exact ⟨rfl, rfl⟩
  | select r =>
    simp only [loopStep]
    split
    · cases r with
      | error errno => exact ⟨rfl, rfl⟩
      | ok ready =>
        dsimp only
        split <;> exact ⟨rfl, rfl⟩
    · exact ⟨rfl, rfl⟩
  | accept error =>
    simp only [loopStep]
    split
    · cases error with
      | none => exact ⟨rfl, rfl⟩
      | some errno =>
        dsimp only
        split <;> exact ⟨rfl, rfl⟩
    · exact ⟨rfl, rfl⟩
  | recvfrom len =>
    simp only [loopStep]
    split <;> exact ⟨rfl, rfl⟩

/-- A client that listens has something to wait for. -/
theorem nfds_pos {c : Client} (h : 0 ≤ c.tcpFd) : 0 < c.nfds := by
  unfold nfds
  rw [if_pos h]
  dsimp only
  split <;> omega

theorem loop_afterTcp (c : Client) (udpReady : Bool) :
    (c.afterTcp udpReady).loop ≠ .returned ∧
      (c.afterTcp udpReady).needsRestart = c.needsRestart := by
  unfold afterTcp
  dsimp only
  split <;> exact ⟨Loop.noConfusion, rfl⟩

/-- The loop dies of a failed `select`, and the flag stays as it was. -/
theorem loopStep_of_selectFails {c : Client} {e : LoopEvent} (h : c.SelectFails e) :
    c.loopStep e = { c with loop := .returned } := by
  obtain ⟨-, hsel, errno, rfl, hintr⟩ := h
  simp [loopStep, hsel, hintr]

/-- Nothing happens, the loop lives on with the flag as it was, or it dies with the
flag up. -/
def LivesOrFlags (c c' : Client) : Prop :=
  c' = c ∨
    (c.loop ≠ .returned ∧ c'.loop ≠ .returned ∧ c'.needsRestart = c.needsRestart) ∨
    (c'.loop = .returned ∧ c'.needsRestart = true)

/-- With the TCP descriptor open the head of the loop goes on to `select`. -/
theorem turn_outcome {c : Client} (htcp : 0 ≤ c.tcpFd) (hrunning : c.running = true) :
    c.LivesOrFlags (c.loopStep .turn) := by
  by_cases hhead : c.loop = .head
  · have hn : c.nfds ≠ 0 := Int.ne_of_gt (nfds_pos htcp)
    have hstep : c.loopStep .turn = { c with loop := .selecting } := by
      simp [loopStep, hhead, hrunning, hn]
    rw [hstep, LivesOrFlags, hhead]
    exact .inr (.inl ⟨Loop.noConfusion, Loop.noConfusion, rfl⟩)
  · exact .inl (if_neg hhead)

/-- Behind a `select` that is not interrupted the ready descriptors are served. -/
theorem select_outcome {c : Client} (hrunning : c.running = true) {r : Except Errno (Bool × Bool)}
    (h : ¬ c.SelectFails (.select r)) : c.LivesOrFlags (c.loopStep (.select r)) := by
  by_cases hsel : c.loop = .selecting
  · cases r with
    | error errno =>
      have hintr : errno = .eintr := by
        by_contra hother
        exact h ⟨hrunning, hsel, errno, rfl, hother⟩
      have hstep : c.loopStep (.select (.error errno)) = { c with loop := .head } := by
        simp [loopStep, hsel, hintr]
      rw [hstep, LivesOrFlags, hsel]
      exact .inr (.inl ⟨Loop.noConfusion, Loop.noConfusion, rfl⟩)
    | ok ready =>
      obtain ⟨hlives, hflag⟩ := c.loop_afterTcp ready.2
      have hstep : c.loopStep (.select (.ok ready)) =
          if 0 ≤ c.tcpFd ∧ ready.1 = true then { c with loop := .accepting ready.2 }
          else c.afterTcp ready.2 := by
        simp [loopStep, hsel]
      rw [hstep, LivesOrFlags, hsel]
      split
      · exact .inr (.inl ⟨Loop.noConfusion, Loop.noConfusion, rfl⟩)
      · exact .inr (.inl ⟨Loop.noConfusion, hlives, hflag⟩)
  · exact .inl (if_neg hsel)

/-- An `accept` that fails for good raises the flag. -/
theorem accept_outcome (c : Client) (error : Option Errno) :
    c.LivesOrFlags (c.loopStep (.accept error)) := by
  cases hloop : c.loop with
  | accepting udpReady =>
    obtain ⟨hlives, hflag⟩ := c.loop_afterTcp udpReady
    unfold LivesOrFlags
    rw [hloop]
    cases error with
    | none =>
      have hstep : c.loopStep (.accept none) = c.afterTcp udpReady := by
        simp [loopStep, hloop]
      rw [hstep]
      exact .inr (.inl ⟨Loop.noConfusion, hlives, hflag⟩)
    | some errno =>
      cases htransient : errno.transient with
      | true =>
        have hstep : c.loopStep (.accept (some errno)) = { c with loop := .head } := by
          simp [loopStep, hloop, htransient]
        rw [hstep]
        exact .inr (.inl ⟨Loop.noConfusion, Loop.noConfusion, rfl⟩)
      | false =>
        have hstep : c.loopStep (.accept (some errno)) =
            { c with needsRestart := true, loop := .returned } := by
          simp [loopStep, hloop, htransient]
        rw [hstep]
        exact .inr (.inr ⟨rfl, rfl⟩)
  | _ => exact .inl (by simp [loopStep, hloop])

/-- What a step of the loop of a client that was not stopped comes to, if it is
not the failure of a `select`. -/
theorem loopStep_outcome {c : Client} (hs : c.Sound) (hrunning : c.running = true)
    {e : LoopEvent} (h : ¬ c.SelectFails e) : c.LivesOrFlags (c.loopStep e) := by
  cases e with
  | turn => exact turn_outcome (hs hrunning).1 hrunning
  | select r => exact select_outcome hrunning h
  | accept error => exact c.accept_outcome error
  | recvfrom len =>
    by_cases hloop : c.loop = .receiving
    · have hstep : c.loopStep (.recvfrom len) = { c with loop := .head } := if_pos hloop
      rw [hstep, LivesOrFlags, hloop]
      exact .inr (.inl ⟨Loop.noConfusion, Loop.noConfusion, rfl⟩)
    · exact .inl (if_neg hloop)

theorem sound_loopStep {c : Client} (hs : c.Sound) (e : LoopEvent) : (c.loopStep e).Sound := by
  obtain ⟨hrun, htcp⟩ := c.running_loopStep e
  intro hrunning
  rw [hrun] at hrunning
  obtain ⟨hlistens, hdown⟩ := hs hrunning
  rw [htcp]
  refine ⟨hlistens, ?_⟩
  intro hlives
  by_cases hfails : c.SelectFails e
  · rw [loopStep_of_selectFails hfails] at hlives
    exact absurd rfl hlives
  · rcases loopStep_outcome hs hrunning hfails with hsame | ⟨hlive, -, hflag⟩ | ⟨hdead, -⟩
    · rw [hsame] at hlives ⊢
      exact hdown hlives
    · rw [hflag]
      exact hdown hlive
    · exact absurd hdead hlives

/-- A step of the loop leaves no dead client unflagged, exactly if it is not a
failed `select`. -/
theorem flagged_loopStep_iff {c : Client} (hs : c.Sound) (hf : c.Flagged) (e : LoopEvent) :
    (c.loopStep e).Flagged ↔ ¬ c.SelectFails e := by
  constructor
  · intro h hfails
    have hdown := (hs hfails.1).2 (by rw [hfails.2.1]; exact Loop.noConfusion)
    rw [loopStep_of_selectFails hfails] at h
    have hup : c.needsRestart = true := h hfails.1 rfl
    rw [hdown] at hup
    exact Bool.noConfusion hup
  · intro hfails hrunning hdead
    rw [(c.running_loopStep e).1] at hrunning
    rcases loopStep_outcome hs hrunning hfails with hsame | ⟨-, hlives, -⟩ | ⟨-, hflag⟩
    · rw [hsame] at hdead ⊢
      exact hf hrunning hdead
    · exact absurd hdead hlives
    · exact hflag

/-- A new client, started: it runs with a live loop, or its flag is up. -/
theorem start_new (io : StartIo) :
    ((Client.start io {}).2 = true ∧ (Client.start io {}).1 =
      { tcpFd := io.tcpFd, udpFd := io.udpFd, running := true, loop := .head } ∧ 0 ≤ io.tcpFd) ∨
    ((Client.start io {}).2 = false ∧ (Client.start io {}).1.running = false ∧
      (Client.start io {}).1.needsRestart = true) := by
  cases htls : io.tls with
  | false => exact .inr (by simp [start, htls])
  | true =>
    by_cases htcp : io.tcpFd < 0
    · exact .inr (by simp [start, htls, htcp])
    · refine .inl ⟨?_, ?_, by omega⟩
      · simp [start, htls, htcp]
      · simp [start, htls, htcp]

theorem sound_start (io : StartIo) : (Client.start io {}).1.Sound := by
  rcases start_new io with ⟨-, hclient, htcp⟩ | ⟨-, hstopped, -⟩
  · rw [hclient]
    exact fun _ => ⟨htcp, fun _ => rfl⟩
  · intro hrunning
    rw [hstopped] at hrunning
    exact Bool.noConfusion hrunning

theorem flagged_start (io : StartIo) : (Client.start io {}).1.Flagged := by
  rcases start_new io with ⟨-, hclient, -⟩ | ⟨-, hstopped, -⟩
  · rw [hclient]
    intro _ hdead
    exact Loop.noConfusion hdead
  · intro hrunning
    rw [hstopped] at hrunning
    exact Bool.noConfusion hrunning

/-- The thread never takes its flag down. -/
theorem needsRestart_loopStep {c : Client} (h : c.needsRestart = true) (e : LoopEvent) :
    (c.loopStep e).needsRestart = true := by
  cases e with
  | turn =>
    simp only [loopStep]
    split_ifs <;> exact h
  | select r =>
    simp only [loopStep]
    split
    · cases r with
      | error errno => exact h
      | ok ready =>
        dsimp only
        split
        · exact h
        · exact (c.loop_afterTcp ready.2).2.trans h
    · exact h
  | accept error =>
    simp only [loopStep]
    split
    · next udpReady _ =>
      cases error with
      | none => exact (c.loop_afterTcp udpReady).2.trans h
      | some errno =>
        dsimp only
        split
        · exact h
        · rfl
    · exact h
  | recvfrom len =>
    simp only [loopStep]
    split <;> exact h

theorem sound_stop (c : Client) : c.stop.Sound := fun hrunning => Bool.noConfusion hrunning

theorem flagged_stop (c : Client) : c.stop.Flagged := fun hrunning => Bool.noConfusion hrunning

end Client

namespace NxApplication

/-- What is asked for of a state: the flag of every dead client is up, the next
`processEvents` outside the cooldown replaces a dead client, and the flag that
is looked at goes down with a start that succeeds only. -/
structure Watched (a : NxApplication) : Prop where
  flagged : ∀ n, (a.clients n).Flagged
  replaced : a.main = .idle → a.client.running = true → a.client.loop = .returned →
    ∀ now again shared io, restartCooldown ≤ now - a.lastRestart →
      (run step a [.processEvents now again shared, .make io]).made = a.made + 1 ∧
      (run step a [.processEvents now again shared, .make io]).client = (Client.start io {}).1
  cleared : ∀ e, a.client.needsRestart = true → (step a e).client.needsRestart = false →
    ∃ io, e = .make io ∧ (Client.start io {}).2 = true ∧
      (step a e).client = (Client.start io {}).1

/-- The network thread of a client that is not stopped meets a failed `select`
that is no interruption. -/
def SelectFails (a : NxApplication) (e : Event) : Prop :=
  ∃ n e', e = .loop n e' ∧ n < a.made ∧ (a.clients n).SelectFails e'

/-- A change of one client leaves each as it is or is the change of that one. -/
theorem update_cases (clients : Nat → Client) (m n : Nat) (c : Client) :
    Function.update clients m c n = clients n ∨ n = m ∧ Function.update clients m c n = c := by
  by_cases hn : n = m
  · rw [hn]
    exact .inr ⟨rfl, Function.update_self m c clients⟩
  · exact .inl (Function.update_of_ne hn c clients)

/-- Giving a client up stops it. -/
theorem clients_giveUp (a : NxApplication) (stage : Stage) (again : Int) (shared : Bool) (n : Nat) :
    (a.giveUp stage again shared).clients n = a.clients n ∨
      (a.giveUp stage again shared).clients n = (a.clients n).stop := by
  unfold giveUp
  dsimp only
  split
  · exact .inl rfl
  · rcases update_cases a.clients (a.made - 1) n (a.clients (a.made - 1)).stop with h | ⟨rfl, h⟩
    · exact .inl h
    · exact .inr h

/-- What a step makes of a client: nothing, a step of its thread, the same
client stopped, or a new client in its place. -/
theorem clients_step (a : NxApplication) (e : Event) (n : Nat) :
    (a.step e).clients n = a.clients n ∨
      (∃ e', e = .loop n e' ∧ (a.step e).clients n = (a.clients n).loopStep e') ∨
      (a.step e).clients n = (a.clients n).stop ∨
      ∃ io, n = a.made ∧ (a.step e).clients n = (Client.start io {}).1 := by
  cases e with
  | loop m e' =>
    by_cases hm : m < a.made
    · have hstep : a.step (.loop m e') = a.setClient m ((a.clients m).loopStep e') := if_pos hm
      rw [hstep]
      rcases update_cases a.clients m n ((a.clients m).loopStep e') with h | ⟨rfl, h⟩
      · exact .inl h
      · exact .inr (.inl ⟨e', rfl, h⟩)
    · have hstep : a.step (.loop m e') = a := if_neg hm
      rw [hstep]
      exact .inl rfl
  | release m =>
    simp only [step]
    split
    · rcases update_cases a.clients m n (a.clients m).stop with h | ⟨rfl, h⟩
      · exact .inl h
      · exact .inr (.inr (.inl h))
    · exact .inl rfl
  | processEvents now again shared =>
    simp only [step]
    split
    · split
      · rcases a.clients_giveUp .requested again shared n with h | h
        · exact .inl h
        · exact .inr (.inr (.inl h))
      · exact .inl rfl
    · exact .inl rfl
  | isOnline online again shared =>
    simp only [step]
    split
    · split
      · rcases clients_giveUp { a with wasOnline := online } .restored again shared n with h | h
        · exact .inl h
        · exact .inr (.inr (.inl h))
      · exact .inl rfl
    · exact .inl rfl
  | make io =>
    simp only [step]
    split
    · split
      · rcases update_cases a.clients a.made n (Client.start io {}).1 with h | ⟨hn, h⟩
        · exact .inl h
        · exact .inr (.inr (.inr ⟨io, hn, h⟩))
      · exact .inl rfl
    · exact .inl rfl

/-- The account all steps keep. -/
structure Sound (a : NxApplication) : Prop where
  made : 0 < a.made
  clients : ∀ n, (a.clients n).Sound

/-- A step makes no client, or one that becomes the application's. -/
theorem made_step (a : NxApplication) (e : Event) :
    (a.step e).made = a.made ∨
      ∃ io, e = .make io ∧ (a.step e).made = a.made + 1 ∧
        (a.step e).client = (Client.start io {}).1 := by
  cases e with
  | loop n e' =>
    simp only [step]
    split <;> exact .inl rfl
  | release n =>
    simp only [step]
    split <;> exact .inl rfl
  | processEvents now again shared =>
    simp only [step, giveUp, setClient]
    split_ifs <;> exact .inl rfl
  | isOnline online again shared =>
    simp only [step, giveUp, setClient]
    split_ifs <;> exact .inl rfl
  | make io =>
    simp only [step]
    split
    · split
      · exact .inr ⟨io, rfl, rfl, Function.update_self _ _ _⟩
      · exact .inl rfl
    · exact .inl rfl

theorem sound_step {a : NxApplication} (h : a.Sound) (e : Event) : (a.step e).Sound where
  made := by
    have hmade := h.made
    rcases a.made_step e with hsame | ⟨io, -, hnew, -⟩
    · rw [hsame]
      exact hmade
    · omega
  clients := by
    intro n
    rcases a.clients_step e n with hsame | ⟨e', -, hloop⟩ | hstop | ⟨io, -, hnew⟩
    · rw [hsame]
      exact h.clients n
    · rw [hloop]
      exact Client.sound_loopStep (h.clients n) e'
    · rw [hstop]
      exact Client.sound_stop _
    · rw [hnew]
      exact Client.sound_start io

/-- A step leaves no dead client unflagged, exactly if it is not a failed
`select`. -/
theorem flagged_step_iff {a : NxApplication} (h : a.Sound) (hf : ∀ n, (a.clients n).Flagged)
    (e : Event) : (∀ n, ((a.step e).clients n).Flagged) ↔ ¬ a.SelectFails e := by
  constructor
  · rintro hflagged ⟨n, e', rfl, hn, hfails⟩
    have hclient : (a.step (.loop n e')).clients n = (a.clients n).loopStep e' := by
      have hstep : a.step (.loop n e') = a.setClient n ((a.clients n).loopStep e') := if_pos hn
      rw [hstep]
      exact Function.update_self _ _ _
    have hflag := hflagged n
    rw [hclient, Client.flagged_loopStep_iff (h.clients n) (hf n)] at hflag
    exact hflag hfails
  · intro hfails n
    rcases a.clients_step e n with hsame | ⟨e', rfl, hloop⟩ | hstop | ⟨io, -, hnew⟩
    · rw [hsame]
      exact hf n
    · rw [hloop, Client.flagged_loopStep_iff (h.clients n) (hf n)]
      intro hclient
      by_cases hn : n < a.made
      · exact hfails ⟨n, e', rfl, hn, hclient⟩
      · have hstep : a.step (.loop n e') = a := if_neg hn
        rw [hstep] at hloop
        rw [Client.loopStep_of_selectFails hclient] at hloop
        have hdead := congrArg Client.loop hloop
        rw [hclient.2.1] at hdead
        exact Loop.noConfusion hdead
    · rw [hstop]
      exact Client.flagged_stop _
    · rw [hnew]
      exact Client.flagged_start io

/-- The flag that is looked at goes down with a new client only. -/
theorem cleared {a : NxApplication} (h : a.Sound) {e : Event}
    (hup : a.client.needsRestart = true) (hdown : (a.step e).client.needsRestart = false) :
    ∃ io, e = .make io ∧ (Client.start io {}).2 = true ∧
      (a.step e).client = (Client.start io {}).1 := by
  rcases a.made_step e with hsame | ⟨io, he, -, hnew⟩
  · have hclient : (a.step e).client = (a.step e).clients (a.made - 1) := by
      rw [client, hsame]
    rw [hclient] at hdown
    rcases a.clients_step e (a.made - 1) with hkeep | ⟨e', -, hloop⟩ | hstop | ⟨io, hlast, -⟩
    · rw [hkeep] at hdown
      exact Bool.noConfusion (hdown.symm.trans hup)
    · rw [hloop] at hdown
      exact Bool.noConfusion (hdown.symm.trans (Client.needsRestart_loopStep hup e'))
    · rw [hstop] at hdown
      exact Bool.noConfusion (hdown.symm.trans hup)
    · have hmade := h.made
      omega
  · refine ⟨io, he, ?_, hnew⟩
    rcases Client.start_new io with ⟨hok, -, -⟩ | ⟨-, -, hflag⟩
    · exact hok
    · rw [hnew, hflag] at hdown
      exact Bool.noConfusion hdown

/-- A dead client whose flag is up is replaced. -/
theorem replaced {a : NxApplication} (hidle : a.main = .idle) (hdead : a.client.loop = .returned)
    (hflag : a.client.needsRestart = true) {now : Int}
    (hlater : restartCooldown ≤ now - a.lastRestart) (again : Int) (shared : Bool) (io : StartIo) :
    (run step a [.processEvents now again shared, .make io]).made = a.made + 1 ∧
      (run step a [.processEvents now again shared, .make io]).client =
        (Client.start io {}).1 := by
  have hpoll : a.step (.processEvents now again shared) = a.giveUp .requested again shared := by
    have hcooldown : ¬ now - a.lastRestart < restartCooldown := by omega
    simp only [step]
    rw [if_pos hidle, if_pos ⟨hflag, hcooldown⟩]
  have hmain : (a.giveUp .requested again shared).main = .restarting .requested shared := by
    simp only [giveUp, setClient]
    split <;> rfl
  have hmade : (a.giveUp .requested again shared).made = a.made := by
    simp only [giveUp, setClient]
    split <;> rfl
  have hready : (a.giveUp .requested again shared).ready shared = true := by
    cases shared with
    | true => rfl
    | false =>
      have hstop : (a.giveUp .requested again false).client = a.client.stop :=
        Function.update_self _ _ _
      simp [ready, hstop, Client.stop, hdead]
  have hmake : (a.giveUp .requested again shared).step (.make io) =
      { (a.giveUp .requested again shared).addClient io with main := .asking } := by
    simp only [step, hmain, hready, if_true]
  rw [run_cons, run_cons, run_nil, hpoll, hmake]
  refine ⟨congrArg (· + 1) hmade, ?_⟩
  exact Function.update_self _ _ _

theorem watched_iff {a : NxApplication} (h : a.Sound) :
    a.Watched ↔ ∀ n, (a.clients n).Flagged := by
  constructor
  · exact fun hw => hw.flagged
  · intro hf
    refine ⟨hf, ?_, fun e hup hdown => cleared h hup hdown⟩
    intro hidle hrunning hdead now again shared io hlater
    exact replaced hidle hdead (hf _ hrunning hdead) hlater again shared io

theorem sound_construct (now : Int) (online : Bool) (io : StartIo) :
    (construct now online io).Sound where
  made := Nat.one_pos
  clients := by
    intro n
    by_cases hn : n = 0
    · subst hn
      exact Client.sound_start io
    · have hnone : (construct now online io).clients n = {} := Function.update_of_ne hn _ _
      rw [hnone]
      exact Client.sound_stop {}

theorem flagged_construct (now : Int) (online : Bool) (io : StartIo) (n : Nat) :
    ((construct now online io).clients n).Flagged := by
  by_cases hn : n = 0
  · subst hn
    exact Client.flagged_start io
  · have hnone : (construct now online io).clients n = {} := Function.update_of_ne hn _ _
    rw [hnone]
    exact Client.flagged_stop {}

/-- A dead client is flagged, and replaced, all along a run exactly if in no
step of it a client that was not stopped meets a failed `select`. -/
theorem watched_run_iff (now : Int) (online : Bool) (io : StartIo) (events : List Event) :
    Always step Watched (construct now online io) events ↔
      EveryStep step (fun a e => ¬ a.SelectFails e) (construct now online io) events := by
  refine always_iff_everyStep_of_inv (I := Sound) (fun a e h => sound_step h e) ?_
    (sound_construct now online io)
    ((watched_iff (sound_construct now online io)).mpr (flagged_construct now online io)) events
  intro a e h hw
  rw [watched_iff (sound_step h e)]
  exact flagged_step_iff h hw.flagged e

/-- The descriptor has become invalid: nobody will know that the loop is dead. -/
theorem notWatched_badDescriptor :
    ¬ ∀ now online io events, Always step Watched (construct now online io) events := by
  intro h
  have hw := (h 0 true {} [.loop 0 .turn, .loop 0 (.select (.error (.other 9)))]).last
  have hflag : Client.needsRestart { tcpFd := 3, udpFd := 4, running := true, loop := .returned } =
      true := hw.flagged 0 rfl rfl
  exact Bool.noConfusion hflag

end NxApplication

end KdeConnectNx.Restarts
