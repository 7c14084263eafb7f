import KdeConnectNx.Runs
import KdeConnectNx.Thinning
import Mathlib.Data.List.Count
import Mathlib.Data.List.Nodup
import Mathlib.Data.List.Perm.Basic

/-!
# Log messages on their way to the host

The sink writes log messages to a socket, and keeps up to a hundred of them
while there is none. Its lock is held while a message is written. A connection
is made without it, by the background thread or by whoever asks for one, and
`shutdown` closes the socket without it. Every call of the system and every
assignment to the socket is a step, so threads meet between any two of them.
A descriptor's number is not given out again.
-/

namespace KdeConnectNx.NxLinkSink

open Runs Thinning

/-- The bytes of a C string. -/
abbrev Message := List UInt8

/-- How far a writer is: `::write` first, and when that fails `close(sock_); sock_ = -1`. -/
inductive Phase where
  | sending
  | closing
  | clearing
deriving DecidableEq, Repr

/-- Where the holder of `mutex_` is. -/
inductive Holder where
  | free
  /-- In `flushCache`: of `write`, with its message behind those of the cache, or of the
  background thread. -/
  | flushing (behind : Option Message) (phase : Phase)
  /-- In `write`, past `flushCache`. -/
  | direct (message : Message) (phase : Phase)
deriving DecidableEq, Repr

/-- The background thread holds it. -/
def Holder.inBackground : Holder → Bool
  | .flushing none _ => true
  | _ => false

/-- Where the background thread is. -/
inductive Background where
  | resting
  /-- Behind the look at `shutting_down_`. -/
  | awake
  /-- About to connect: there was no socket. -/
  | connecting
  /-- In `connectToHost`, with its socket. -/
  | dialing (socket : ℕ)
  /-- Connected, and on its way to the cache. -/
  | connected
  | ended
deriving DecidableEq, Repr

/-- Where a call of `shutdown` is. -/
inductive Closer where
  | idle
  | joining
  | closing
  | clearing
deriving DecidableEq, Repr

/-- One `::write` that succeeded. -/
structure Sent where
  connection : ℕ
  message : Message
  /-- How many bytes were taken. -/
  taken : ℕ
deriving DecidableEq, Repr

/-- `sock_`, and what the kernel knows of the sockets. -/
structure Sockets where
  sock : Option ℕ := none
  /-- How many sockets were opened; each is named by its number. -/
  opened : ℕ := 0
  closed : List ℕ := []
  /-- Sockets that were closed once more. -/
  reclosed : List ℕ := []
  /-- Sockets that `sock_` named while open, and names no more. -/
  dropped : List ℕ := []
deriving DecidableEq, Repr

structure NxLink extends Sockets where
  enabled : Bool := false
  messageCache : List Message := []
  shuttingDown : Bool := false
  holder : Holder := .free
  background : Background := .resting
  closer : Closer := .idle
  /-- Sockets of `connectToHost` outside of the background thread. -/
  dialing : List ℕ := []
  /-- The messages in the order in which `write` took the lock for them. -/
  log : List Message := []
  /-- What was sent, in its order. -/
  sent : List Sent := []
  /-- Messages whose own `::write` failed. -/
  failed : List Message := []
deriving DecidableEq, Repr

def MAX_CACHE_SIZE : ℕ := 100

def overflow : Message :=
  "[WARNING] Message cache overflow, dropping messages until reconnect.\n".toUTF8.toList

inductive Event where
  | setHost (enabled : Bool)
  /-- `connectToHost` asks whether there is a host and gets its socket, or gets none. -/
  | dial (background gets : Bool)
  /-- `connectToHost` ends: the connection is made, or its socket is closed. -/
  | dialed (socket : ℕ) (made : Bool)
  /-- The background thread looks at `shutting_down_`. -/
  | wake
  /-- It takes the lock and looks whether there is a socket. -/
  | look
  /-- `write` takes the lock; `early` if it looked at `shutting_down_` before that was set. -/
  | write (message : Message) (early : Bool)
  /-- The background thread takes the lock after it connected. -/
  | flush
  /-- The next step of who holds the lock: how many bytes `::write` takes, none if it fails. -/
  | next (taken : Option ℕ)
  | shutdown
  /-- The background thread has ended, and `shutdown` looks whether there is a socket. -/
  | joined
  /-- `close(sock_)` of `shutdown`. -/
  | close
  /-- `sock_ = -1` of `shutdown`. -/
  | clear
deriving DecidableEq, Repr

/-- A message while there is no connection. -/
def cached (cache : List Message) (message : Message) : List Message :=
  if cache.length < MAX_CACHE_SIZE then cache ++ [message]
  else if cache.length = MAX_CACHE_SIZE then cache ++ [overflow]
  else cache

/-- The socket that `sock_` names, while it is open. -/
def Sockets.live (s : Sockets) : Option ℕ := s.sock.filter fun socket => decide (socket ∉ s.closed)

/-- The socket that `sock_` names, once it was closed. -/
def Sockets.stale (s : Sockets) : Option ℕ := s.sock.filter fun socket => decide (socket ∈ s.closed)

/-- `close(sock_)`. -/
def Sockets.closeSock (s : Sockets) : Sockets :=
  { s with closed := s.closed ++ s.live.toList, reclosed := s.reclosed ++ s.stale.toList }

/-- An assignment to `sock_`. -/
def Sockets.assign (s : Sockets) (sock : Option ℕ) : Sockets :=
  { s with sock := sock, dropped := s.dropped ++ s.live.toList }

/-- What the connection takes of a message, none without one. -/
def send (s : NxLink) (message : Message) (taken : Option ℕ) : Option Sent :=
  s.live.bind fun connection => taken.map fun taken =>
    ⟨connection, message, min taken message.length⟩

/-- The call of `::write`: what was taken is on record, whoever called. -/
def sysWrite (s : NxLink) (message : Message) (taken : Option ℕ) : Option Sent × NxLink :=
  (send s message taken, { s with sent := s.sent ++ (send s message taken).toList })

/-- Behind `flushCache`. -/
def behindFlush : Option Message → Holder
  | none => .free
  | some message => .direct message .sending

/-- The next step of the holder. -/
def advance (s : NxLink) (taken : Option ℕ) : NxLink :=
  match s.holder with
  | .free => s
  | .flushing behind .sending =>
    match s.messageCache with
    | [] => { s with holder := behindFlush behind }
    | first :: rest =>
      match sysWrite s first taken with
      | (some _, s) => { s with messageCache := rest }
      | (none, s) => { s with holder := .flushing behind .closing }
  | .flushing behind .closing =>
    { s with toSockets := s.toSockets.closeSock, holder := .flushing behind .clearing }
  | .flushing behind .clearing =>
    { s with toSockets := s.toSockets.assign none, holder := behindFlush behind }
  | .direct message .sending =>
    match sysWrite s message taken with
    | (some _, s) => { s with holder := .free }
    | (none, s) => { s with holder := .direct message .closing, failed := s.failed ++ [message] }
  | .direct message .closing =>
    { s with toSockets := s.toSockets.closeSock, holder := .direct message .clearing }
  | .direct _ .clearing => { s with toSockets := s.toSockets.assign none, holder := .free }

/-- `connectToHost` up to its socket. -/
def dial (s : NxLink) (background gets : Bool) : NxLink :=
  if background then
    if s.background = .connecting then
      if s.enabled && gets then { s with background := .dialing s.opened, opened := s.opened + 1 }
      else { s with background := .resting }
    else s
  else if s.enabled && gets then
    { s with dialing := s.dialing ++ [s.opened], opened := s.opened + 1 }
  else s

/-- `connectToHost` from there: `sock_ = fd`, or `close(fd)`. -/
def Sockets.settle (s : Sockets) (socket : ℕ) (made : Bool) : Sockets :=
  if made then s.assign (some socket) else { s with closed := s.closed ++ [socket] }

def dialed (s : NxLink) (socket : ℕ) (made : Bool) : NxLink :=
  if s.background = .dialing socket then
    { s with
      toSockets := s.toSockets.settle socket made
      background := if made then .connected else .resting }
  else if socket ∈ s.dialing then
    { s with toSockets := s.toSockets.settle socket made, dialing := s.dialing.erase socket }
  else s

def step (s : NxLink) : Event → NxLink
  | .setHost enabled => { s with enabled := enabled }
  | .dial background gets => dial s background gets
  | .dialed socket made => dialed s socket made
  | .wake =>
    if s.background = .resting ∧ s.holder.inBackground = false then
      { s with background := if s.shuttingDown then .ended else .awake }
    else s
  | .look =>
    if s.background = .awake ∧ s.holder = .free then
      { s with background := if s.sock.isNone && s.enabled then .connecting else .resting }
    else s
  | .write message early =>
    if s.shuttingDown && !early then s
    else if s.holder ≠ .free then s
    else if s.sock.isNone || !s.enabled then
      { s with log := s.log ++ [message], messageCache := cached s.messageCache message }
    else { s with log := s.log ++ [message], holder := .flushing (some message) .sending }
  | .flush =>
    if s.background = .connected ∧ s.holder = .free then
      { s with
        background := .resting
        holder := if s.shuttingDown then .free else .flushing none .sending }
    else s
  | .next taken => advance s taken
  | .shutdown => if s.closer = .idle then { s with shuttingDown := true, closer := .joining } else s
  | .joined =>
    if s.closer = .joining ∧ s.background = .ended then
      { s with closer := if s.sock.isSome then .closing else .idle }
    else s
  | .close =>
    if s.closer = .closing then { s with toSockets := s.toSockets.closeSock, closer := .clearing }
    else s
  | .clear =>
    if s.closer = .clearing then { s with toSockets := s.toSockets.assign none, closer := .idle }
    else s

/-- The sink before anything happened. -/
def fresh : NxLink := {}

/-! ## The stream of messages -/

variable {s s' : NxLink} {e : Event} {events : List Event}

/-- The message of `write` that is under way. -/
def Holder.message : Holder → List Message
  | .flushing (some message) _ | .direct message .sending => [message]
  | _ => []

def Holder.isDirect : Holder → Bool
  | .direct _ .sending => true
  | _ => false

/-- A connection is not made between a flush that failed and the message behind it. -/
def InOrder (s : NxLink) : Event → Prop
  | .dialed _ made => made = true → s.holder.isDirect = true → s.messageCache = []
  | _ => True

instance (s : NxLink) : (e : Event) → Decidable (InOrder s e)
  | .dialed _ made =>
    inferInstanceAs (Decidable (made = true → s.holder.isDirect = true → s.messageCache = []))
  | .setHost _ | .dial _ _ | .wake | .look | .write _ _ | .flush | .next _ | .shutdown | .joined
  | .close | .clear => inferInstanceAs (Decidable True)

/-- The messages passed to the host, are held for it, failed, or are left out at a warning, but
for the one under way. -/
structure Accounted (s : NxLink) : Prop where
  log : ∃ before, s.log = before ++ s.holder.message ∧
    Thinned overflow MAX_CACHE_SIZE before (s.sent.map Sent.message) s.messageCache s.failed
  /-- A message behind a flush that failed has no socket. -/
  direct : s.holder.isDirect = true → s.messageCache = [] ∨ s.live = none

/-- What comes while there is no connection is held, or left out at the warning of a full cache. -/
theorem thinned_cached {before sent cache failed : List Message} (message : Message)
    (h : Thinned overflow MAX_CACHE_SIZE before sent cache failed) :
    Thinned overflow MAX_CACHE_SIZE (before ++ [message]) sent (cached cache message) failed := by
  unfold cached
  split
  · next hroom => exact h.held message hroom
  · next hfull =>
    split
    · next hlast => exact h.marked message hlast
    · next hover =>
      rcases h.full with hlength | ⟨items, hitems, rfl⟩
      · omega
      · exact h.dropped message hitems

/-- What is left of the cache after its first message went to the host. -/
theorem thinned_sent {before failed rest : List Message} {first : Message} {sent : Sent}
    {taken : Option ℕ} (h : Thinned overflow MAX_CACHE_SIZE before (s.sent.map Sent.message)
        (first :: rest) failed)
    (hsent : send s first taken = some sent) :
    Thinned overflow MAX_CACHE_SIZE before ((s.sent ++ [sent]).map Sent.message) rest failed := by
  obtain ⟨connection, -, hmap⟩ := Option.bind_eq_some_iff.mp hsent
  obtain ⟨taken, -, rfl⟩ := Option.map_eq_some_iff.mp hmap
  rw [List.map_append]
  exact h.passed

/-- A call of `::write` that succeeds puts what was taken on record and changes nothing else. -/
theorem sysWrite_some {message : Message} {taken : Option ℕ} {sent : Sent}
    (h : sysWrite s message taken = (some sent, s')) :
    send s message taken = some sent ∧ s' = { s with sent := s.sent ++ [sent] } := by
  obtain ⟨hsent, rfl⟩ := Prod.mk.inj h
  refine ⟨hsent, ?_⟩
  rw [hsent]
  rfl

/-- One that fails changes nothing. -/
theorem sysWrite_none {message : Message} {taken : Option ℕ}
    (h : sysWrite s message taken = (none, s')) : s' = s := by
  obtain ⟨hsent, rfl⟩ := Prod.mk.inj h
  rw [hsent, Option.toList_none, List.append_nil]

/-- Whatever comes of it, only the record grows. -/
theorem sysWrite_keeps {message : Message} {taken : Option ℕ} {result : Option Sent}
    (h : sysWrite s message taken = (result, s')) : ∃ sent, s' = { s with sent := sent } :=
  ⟨_, (Prod.mk.inj h).2.symm⟩

/-- No socket is in use then. -/
@[simp] theorem live_assign_none (s : Sockets) : (s.assign none).live = none := rfl

/-- Nothing is open behind `sock_` where there was nothing and more is closed. -/
theorem live_closed_append {s : Sockets} {more : List ℕ} (h : s.live = none) :
    { s with closed := s.closed ++ more }.live = none := by
  rw [Sockets.live, Option.filter_eq_none_iff] at h ⊢
  intro socket hsock
  have hclosed := h socket hsock
  simp only [decide_eq_true_eq, not_not, List.mem_append] at hclosed ⊢
  exact .inl hclosed

/-- Nor once it is closed. -/
@[simp] theorem live_closeSock (s : Sockets) : s.closeSock.live = none := by
  rw [Sockets.live, Option.filter_eq_none_iff]
  intro socket hsock
  simp only [Sockets.closeSock, decide_eq_true_eq, not_not, List.mem_append, Sockets.live]
  by_cases hclosed : socket ∈ s.closed
  · exact .inl hclosed
  · right
    rw [show s.sock = some socket from hsock, Option.filter_some, if_pos (decide_eq_true hclosed)]
    exact List.mem_singleton_self socket

/-- A step that leaves the messages and the holder alone. -/
theorem Accounted.frame (h : Accounted s) (hlog : s'.log = s.log) (hsent : s'.sent = s.sent)
    (hcache : s'.messageCache = s.messageCache) (hfailed : s'.failed = s.failed)
    (hholder : s'.holder = s.holder)
    (hlive : s.holder.isDirect = true → s.messageCache = [] ∨ (s.live = none → s'.live = none)) :
    Accounted s' := by
  refine ⟨?_, fun hdirect => ?_⟩
  · rw [hlog, hsent, hcache, hfailed, hholder]
    exact h.log
  · rw [hholder] at hdirect
    rw [hcache]
    rcases hlive hdirect with hempty | hkeeps
    · exact .inl hempty
    · exact (h.direct hdirect).imp_right hkeeps

/-- Without a holder of the mutex no message is under way. -/
theorem message_free : Holder.free.message = [] := rfl

/-- Behind a flush comes the message it was made for, if any. -/
theorem message_behindFlush (behind : Option Message) :
    (behindFlush behind).message = behind.toList := by
  cases behind <;> rfl

/-- While it is flushed that message waits. -/
theorem message_flushing (behind : Option Message) (phase : Phase) :
    (Holder.flushing behind phase).message = behind.toList := by
  cases behind <;> rfl

/-- A step under the mutex: a write takes a message or loses it, the rest moves none. -/
theorem accounted_advance (h : Accounted s) (taken : Option ℕ) : Accounted (advance s taken) := by
  obtain ⟨before, hlog, hthinned⟩ := h.log
  unfold advance
  split
  · exact h
  · next behind hholder =>
    rw [hholder, message_flushing] at hlog
    split
    · next hcache =>
      refine ⟨⟨before, ?_, hthinned⟩, fun _ => .inl hcache⟩
      rw [message_behindFlush]
      exact hlog
    · next first rest hcache =>
      rw [hcache] at hthinned
      split
      · next sent after hwrite =>
        obtain ⟨hsent, rfl⟩ := sysWrite_some hwrite
        refine ⟨⟨before, ?_, thinned_sent hthinned hsent⟩, fun hdirect => ?_⟩
        · rw [hholder, message_flushing]
          exact hlog
        · rw [hholder] at hdirect
          cases hdirect
      · next after hwrite =>
        obtain rfl := sysWrite_none hwrite
        refine ⟨⟨before, ?_, hcache ▸ hthinned⟩, fun hdirect => by cases hdirect⟩
        rw [message_flushing]
        exact hlog
  · next behind hholder =>
    rw [hholder, message_flushing] at hlog
    refine ⟨⟨before, ?_, hthinned⟩, fun hdirect => by cases hdirect⟩
    rw [message_flushing]
    exact hlog
  · next behind hholder =>
    rw [hholder, message_flushing] at hlog
    refine ⟨⟨before, ?_, hthinned⟩, fun _ => .inr (live_assign_none _)⟩
    rw [message_behindFlush]
    exact hlog
  · next message hholder =>
    rw [hholder] at hlog
    split
    · next sent after hwrite =>
      obtain ⟨hsent, rfl⟩ := sysWrite_some hwrite
      obtain ⟨connection, hlive, hmap⟩ := Option.bind_eq_some_iff.mp hsent
      obtain ⟨taken, -, rfl⟩ := Option.map_eq_some_iff.mp hmap
      have hempty : s.messageCache = [] := by
        rcases h.direct (by rw [hholder]; rfl) with hempty | hnone
        · exact hempty
        · rw [hnone] at hlive
          cases hlive
      refine ⟨⟨s.log, (List.append_nil _).symm, ?_⟩, fun hdirect => by cases hdirect⟩
      rw [hempty] at hthinned ⊢
      rw [hlog, List.map_append]
      exact hthinned.through message
    · next after hwrite =>
      obtain rfl := sysWrite_none hwrite
      refine ⟨⟨after.log, (List.append_nil _).symm, ?_⟩, fun hdirect => by cases hdirect⟩
      rw [hlog]
      exact hthinned.lost message
  · next message hholder =>
    rw [hholder] at hlog
    exact ⟨⟨before, hlog, hthinned⟩, fun hdirect => by cases hdirect⟩
  · next message hholder =>
    rw [hholder] at hlog
    exact ⟨⟨before, hlog, hthinned⟩, fun hdirect => by cases hdirect⟩

/-- A connection that is made moves no message. -/
theorem accounted_dialed (h : Accounted s) {socket : ℕ} {made : Bool}
    (horder : InOrder s (.dialed socket made)) : Accounted (dialed s socket made) := by
  have hlive : s.holder.isDirect = true →
      s.messageCache = [] ∨ (s.live = none → (s.toSockets.settle socket made).live = none) := by
    intro hdirect
    cases made with
    | true => exact .inl (horder rfl hdirect)
    | false => exact .inr live_closed_append
  unfold dialed
  split
  · exact h.frame rfl rfl rfl rfl rfl hlive
  · split
    · exact h.frame rfl rfl rfl rfl rfl hlive
    · exact h

/-- A writer puts its message into the cache, or takes the mutex with it. -/
theorem accounted_write (h : Accounted s) (message : Message) (early : Bool) :
    Accounted (step s (.write message early)) := by
  obtain ⟨before, hlog, hthinned⟩ := h.log
  rw [step]
  split
  · exact h
  · split
    · exact h
    · next hfree =>
      rw [not_not] at hfree
      rw [hfree, message_free, List.append_nil] at hlog
      split
      · refine ⟨⟨before ++ [message], ?_, thinned_cached message hthinned⟩, fun hdirect => ?_⟩
        · rw [hfree, message_free, List.append_nil, hlog]
        · rw [hfree] at hdirect
          cases hdirect
      · refine ⟨⟨before, ?_, hthinned⟩, fun hdirect => by cases hdirect⟩
        rw [hlog]
        rfl

/-- Every step keeps account of the messages. -/
theorem accounted_step (h : Accounted s) (horder : InOrder s e) : Accounted (step s e) := by
  cases e with
  | setHost enabled => exact h.frame rfl rfl rfl rfl rfl fun _ => .inr id
  | dial background gets =>
    rw [step, dial]
    split_ifs
    · exact h.frame rfl rfl rfl rfl rfl fun _ => .inr id
    · exact h.frame rfl rfl rfl rfl rfl fun _ => .inr id
    · exact h
    · exact h.frame rfl rfl rfl rfl rfl fun _ => .inr id
    · exact h
  | dialed socket made => exact accounted_dialed h horder
  | wake =>
    rw [step]
    split
    · exact h.frame rfl rfl rfl rfl rfl fun _ => .inr id
    · exact h
  | look =>
    rw [step]
    split
    · exact h.frame rfl rfl rfl rfl rfl fun _ => .inr id
    · exact h
  | write message early => exact accounted_write h message early
  | flush =>
    obtain ⟨before, hlog, hthinned⟩ := h.log
    rw [step]
    split
    · next hfree =>
      rw [hfree.2] at hlog
      cases s.shuttingDown with
      | true => exact ⟨⟨before, hlog, hthinned⟩, fun hdirect => by cases hdirect⟩
      | false => exact ⟨⟨before, hlog, hthinned⟩, fun hdirect => by cases hdirect⟩
    · exact h
  | next taken => exact accounted_advance h taken
  | shutdown =>
    rw [step]
    split
    · exact h.frame rfl rfl rfl rfl rfl fun _ => .inr id
    · exact h
  | joined =>
    rw [step]
    split
    · exact h.frame rfl rfl rfl rfl rfl fun _ => .inr id
    · exact h
  | close =>
    rw [step]
    split
    · exact h.frame rfl rfl rfl rfl rfl fun _ => .inr fun _ => live_closeSock _
    · exact h
  | clear =>
    rw [step]
    split
    · exact h.frame rfl rfl rfl rfl rfl fun _ => .inr fun _ => live_assign_none _
    · exact h

/-- The message that the next `::write` is for. -/
def writing (s : NxLink) : Option Message :=
  match s.holder with
  | .flushing _ .sending => s.messageCache.head?
  | .direct message .sending => some message
  | _ => none

/-- `::write` takes the whole message if it takes anything. -/
def Whole (s : NxLink) : Event → Prop
  | .next (some taken) => ∀ message ∈ writing s, message.length ≤ taken
  | _ => True

instance (s : NxLink) : (e : Event) → Decidable (Whole s e)
  | .next (some taken) =>
    inferInstanceAs (Decidable (∀ message ∈ writing s, message.length ≤ taken))
  | .next none | .setHost _ | .dial _ _ | .dialed _ _ | .wake | .look | .write _ _ | .flush
  | .shutdown | .joined | .close | .clear => inferInstanceAs (Decidable True)

/-- What the host has of a message. -/
def Sent.arrived (sent : Sent) : Message := sent.message.take sent.taken

/-- Where somebody else connects between the two, the message of that call overtakes those of the
cache. -/
example : (run step fresh [.setHost true, .write [97] false, .dial false true, .dial false true,
    .dialed 0 true, .write [98] false, .next none, .next none, .next none, .dialed 1 true,
    .next (some 1)]).sent.map Sent.message = [[98]] := by
  decide

/-! ## Sockets -/

/-- The socket with which the background thread is in `connectToHost`. -/
def Background.socket : Background → List ℕ
  | .dialing socket => [socket]
  | _ => []

/-- The sockets of those who are in `connectToHost`. -/
def NxLink.dials (s : NxLink) : List ℕ := s.background.socket ++ s.dialing

/-- What a step is to `sock_`. -/
inductive Touch where
  | nothing
  | closes
  | assigns
deriving DecidableEq, Repr

def Holder.phase : Holder → Option Phase
  | .free => none
  | .flushing _ phase => some phase
  | .direct _ phase => some phase

def touch (s : NxLink) : Event → Touch
  | .next _ =>
    if s.holder.phase = some .closing ∧ s.sock.isSome then .closes
    else if s.holder.phase = some .clearing then .assigns else .nothing
  | .close => if s.closer = .closing ∧ s.sock.isSome then .closes else .nothing
  | .clear => if s.closer = .clearing then .assigns else .nothing
  | .dialed socket made => if made ∧ socket ∈ s.dials then .assigns else .nothing
  | _ => .nothing

/-- What a step does to the sockets. -/
inductive Moved (s s' : NxLink) : Touch → Prop
  | kept (hsockets : s'.toSockets = s.toSockets) (hdials : s'.dials.Perm s.dials) :
    Moved s s' .nothing
  | opened (hsockets : s'.toSockets = { s.toSockets with opened := s.opened + 1 })
      (hdials : s'.dials.Perm (s.opened :: s.dials)) : Moved s s' .nothing
  /-- `connectToHost` closes its own socket. -/
  | failed {socket : ℕ} (hsockets : s'.toSockets =
    { s.toSockets with closed := s.closed ++ [socket] })
      (hdials : s.dials.Perm (socket :: s'.dials)) : Moved s s' .nothing
  | closed (hsock : s.sock.isSome) (hsockets : s'.toSockets = s.toSockets.closeSock)
      (hdials : s'.dials.Perm s.dials) : Moved s s' .closes
  | cleared (hsockets : s'.toSockets = s.toSockets.assign none) (hdials : s'.dials.Perm s.dials) :
      Moved s s' .assigns
  | made {socket : ℕ} (hsockets : s'.toSockets = s.toSockets.assign (some socket))
      (hdials : s.dials.Perm (socket :: s'.dials)) : Moved s s' .assigns

/-- A step that leaves the sockets alone. -/
theorem Moved.same (hsockets : s'.toSockets = s.toSockets)
    (hbackground : s'.background.socket = s.background.socket)
    (hdialing : s'.dialing = s.dialing) : Moved s s' .nothing := by
  refine .kept hsockets ?_
  rw [NxLink.dials, hbackground, hdialing]
  exact .refl _

/-- `close(sock_)` is nothing without a socket. -/
theorem closeSock_of_none {s : Sockets} (h : s.sock = none) : s.closeSock = s := by
  obtain ⟨sock, opened, closed, reclosed, dropped⟩ := s
  cases h
  rw [Sockets.closeSock, Sockets.live, Sockets.stale, Option.filter_none, Option.filter_none,
    Option.toList_none, List.append_nil, List.append_nil]

/-- What a step under the mutex does to the sockets. -/
theorem moved_advance (s : NxLink) (taken : Option ℕ) :
    Moved s (advance s taken) (touch s (.next taken)) := by
  have hclosing : ∀ {s' : NxLink}, s'.toSockets = s.toSockets.closeSock →
      s'.background = s.background → s'.dialing = s.dialing → s.holder.phase = some .closing →
      Moved s s' (touch s (.next taken)) := by
    intro s' hsockets hbackground hdialing hphase
    have hdials : s'.dials.Perm s.dials := by
      rw [NxLink.dials, hbackground, hdialing]
      exact .refl _
    rw [touch, hphase]
    cases hsock : s.sock with
    | none =>
      rw [closeSock_of_none hsock] at hsockets
      exact .kept hsockets hdials
    | some socket => exact .closed (by rw [hsock]; rfl) hsockets hdials
  unfold advance
  split
  · next hholder =>
    rw [touch, hholder]
    exact .same rfl rfl rfl
  · next behind hholder =>
    rw [touch, hholder]
    split
    · exact .same rfl rfl rfl
    · split <;>
      · next hwrite =>
        obtain ⟨sent, rfl⟩ := sysWrite_keeps hwrite
        exact .same rfl rfl rfl
  · next behind hholder => exact hclosing rfl rfl rfl (by rw [hholder]; rfl)
  · next behind hholder =>
    rw [touch, hholder]
    exact .cleared rfl (.refl _)
  · next message hholder =>
    rw [touch, hholder]
    split <;>
    · next hwrite =>
      obtain ⟨sent, rfl⟩ := sysWrite_keeps hwrite
      exact .same rfl rfl rfl
  · next message hholder => exact hclosing rfl rfl rfl (by rw [hholder]; rfl)
  · next message hholder =>
    rw [touch, hholder]
    exact .cleared rfl (.refl _)

/-- What the end of a `connectToHost` does to them. -/
theorem moved_dialed (s : NxLink) (socket : ℕ) (made : Bool) :
    Moved s (dialed s socket made) (touch s (.dialed socket made)) := by
  have hmoved : ∀ {s' : NxLink}, s'.toSockets = s.toSockets.settle socket made →
      s.dials.Perm (socket :: s'.dials) → Moved s s' (touch s (.dialed socket made)) := by
    intro s' hsockets hdials
    have hmem : socket ∈ s.dials := hdials.mem_iff.mpr List.mem_cons_self
    cases made with
    | true =>
      rw [touch, if_pos ⟨rfl, hmem⟩]
      exact .made hsockets hdials
    | false =>
      rw [touch, if_neg fun h => Bool.false_ne_true h.1]
      exact .failed hsockets hdials
  unfold dialed
  split
  · next hbackground =>
    refine hmoved rfl ?_
    rw [NxLink.dials, hbackground]
    cases made <;> exact .refl _
  · next hbackground =>
    have hother : socket ∉ s.background.socket := by
      cases hthread : s.background with
      | dialing other =>
        rw [hthread] at hbackground
        exact fun hmem => hbackground (by rw [List.mem_singleton.mp hmem])
      | resting | awake | connecting | connected | ended => exact List.not_mem_nil
    split
    · next hmem =>
      refine hmoved rfl ?_
      rw [NxLink.dials]
      exact ((List.perm_cons_erase hmem).append_left _).trans List.perm_middle
    · next hmem =>
      rw [touch, if_neg fun h => (List.mem_append.mp h.2).elim hother hmem]
      exact .same rfl rfl rfl

/-- Every step moves the sockets in one of these ways. -/
theorem moved_step (s : NxLink) (e : Event) : Moved s (step s e) (touch s e) := by
  cases e with
  | setHost enabled => exact .same rfl rfl rfl
  | dial background gets =>
    rw [step, dial]
    split
    · split
      · next hbackground =>
        split
        · refine .opened rfl ?_
          rw [NxLink.dials, NxLink.dials, hbackground]
          exact .refl _
        · refine .same rfl ?_ rfl
          rw [hbackground]
          rfl
      · exact .same rfl rfl rfl
    · split
      · refine .opened rfl ?_
        rw [NxLink.dials, NxLink.dials, ← List.append_assoc]
        exact List.perm_append_singleton _ _
      · exact .same rfl rfl rfl
  | dialed socket made => exact moved_dialed s socket made
  | wake =>
    rw [step]
    split
    · next hrests =>
      refine .same rfl ?_ rfl
      rw [hrests.1]
      cases s.shuttingDown <;> rfl
    · exact .same rfl rfl rfl
  | look =>
    rw [step]
    split
    · next hawake =>
      refine .same rfl ?_ rfl
      rw [hawake.1]
      dsimp only
      split <;> rfl
    · exact .same rfl rfl rfl
  | write message early =>
    rw [step]
    split_ifs <;> exact .same rfl rfl rfl
  | flush =>
    rw [step]
    split
    · next hconnected =>
      refine .same rfl ?_ rfl
      rw [hconnected.1]
      rfl
    · exact .same rfl rfl rfl
  | next taken => exact moved_advance s taken
  | shutdown =>
    rw [step]
    split <;> exact .same rfl rfl rfl
  | joined =>
    rw [step]
    split <;> exact .same rfl rfl rfl
  | close =>
    rw [step, touch]
    split
    · next hcloser =>
      cases hsock : s.sock with
      | none =>
        rw [if_neg fun h => Bool.false_ne_true h.2]
        exact .same (closeSock_of_none hsock) rfl rfl
      | some socket =>
        rw [if_pos ⟨hcloser, rfl⟩]
        exact .closed (by rw [hsock]; rfl) rfl (.refl _)
    · next hcloser =>
      rw [if_neg fun h => hcloser h.1]
      exact .same rfl rfl rfl
  | clear =>
    rw [step, touch]
    split
    · exact .cleared rfl (.refl _)
    · exact .same rfl rfl rfl

/-- The sockets that were opened are closed, dropped, in `connectToHost` or in use. -/
def Owned (s : NxLink) : Prop :=
  (s.closed ++ s.dropped ++ s.dials ++ s.live.toList).Perm (List.range s.opened)

/-- At the start none was opened. -/
theorem fresh_owned : Owned fresh := List.Perm.refl _

/-- Each socket counted once, wherever it is. -/
theorem owned_iff (s : NxLink) :
    Owned s ↔ ∀ socket, s.closed.count socket + s.dropped.count socket +
    s.dials.count socket + s.live.toList.count socket = (List.range s.opened).count socket := by
  rw [Owned, List.perm_iff_count]
  simp only [List.count_append]

/-- A socket is in one place only. -/
theorem Owned.count_le (h : Owned s) (socket : ℕ) : s.closed.count socket + s.dropped.count socket +
    s.dials.count socket + s.live.toList.count socket ≤ 1 := by
  rw [(owned_iff s).mp h socket]
  exact List.nodup_iff_count_le_one.mp List.nodup_range socket

/-- Who is in `connectToHost` has a socket of its own. -/
theorem Owned.dialing (h : Owned s) {socket : ℕ} (hdial : socket ∈ s.dials) :
    socket ∉ s.closed ∧ s.sock ≠ some socket := by
  have hcount := h.count_le socket
  have hpos := List.count_pos_iff.mpr hdial
  have hopen : socket ∉ s.closed := fun hclosed => by
    have := List.count_pos_iff.mpr hclosed
    omega
  refine ⟨hopen, fun hsock => ?_⟩
  have hlive : s.live.toList.count socket = 1 := by
    rw [Sockets.live, hsock, Option.filter_some, if_pos (decide_eq_true hopen), Option.toList_some,
      List.count_singleton_self]
  omega

/-- `sock_` is stale if it names a socket that is closed. -/
theorem stale_ne_none_iff {s : Sockets} :
    s.stale ≠ none ↔ ∃ socket ∈ s.closed, s.sock = some socket := by
  rw [Option.ne_none_iff_exists']
  simp only [Sockets.stale, Option.filter_eq_some_iff, decide_eq_true_eq]
  exact exists_congr fun socket => and_comm

/-- A socket of its own that `connectToHost` closes is not that of `sock_`. -/
theorem filter_closed_append {s : Sockets} {socket : ℕ} (hsock : s.sock ≠ some socket) :
    { s with closed := s.closed ++ [socket] }.live = s.live ∧
      { s with closed := s.closed ++ [socket] }.stale = s.stale := by
  have hsame : ∀ other, s.sock = some other →
      (other ∈ s.closed ++ [socket] ↔ other ∈ s.closed) := by
    rintro other hother
    rw [List.mem_append, List.mem_singleton, or_iff_left]
    rintro rfl
    exact hsock hother
  cases hnone : s.sock with
  | none =>
    rw [Sockets.live, Sockets.live, Sockets.stale, Sockets.stale, hnone]
    exact ⟨rfl, rfl⟩
  | some other =>
    rw [Sockets.live, Sockets.live, Sockets.stale, Sockets.stale, hnone]
    simp only [Option.filter_some, hsame other hnone]
    exact ⟨trivial, trivial⟩

/-- Whatever a step does, no socket is lost count of. -/
theorem Moved.owned {how : Touch} (hmoved : Moved s s' how) (h : Owned s) : Owned s' := by
  have hcounts := (owned_iff s).mp h
  rw [owned_iff]
  intro socket
  have hcount := hcounts socket
  cases hmoved with
  | kept hsockets hdials =>
    rw [hsockets, hdials.count_eq]
    exact hcount
  | opened hsockets hdials =>
    have hlive : Sockets.live { s.toSockets with opened := s.opened + 1 } = s.live := rfl
    rw [hsockets, hdials.count_eq, hlive, List.range_succ, List.count_append, List.count_cons,
      List.count_singleton]
    dsimp only
    omega
  | @failed failed hsockets hdials =>
    have hown := (h.dialing (hdials.mem_iff.mpr List.mem_cons_self)).2
    rw [hdials.count_eq, List.count_cons] at hcount
    rw [hsockets, (filter_closed_append hown).1, List.count_append, List.count_singleton]
    dsimp only
    omega
  | closed hsock hsockets hdials =>
    rw [hsockets, hdials.count_eq, live_closeSock, Sockets.closeSock, List.count_append,
      Option.toList_none, List.count_nil]
    dsimp only
    omega
  | cleared hsockets hdials =>
    rw [hsockets, hdials.count_eq, live_assign_none, Sockets.assign, List.count_append,
      Option.toList_none, List.count_nil]
    dsimp only
    omega
  | @made made hsockets hdials =>
    have hopen := (h.dialing (hdials.mem_iff.mpr List.mem_cons_self)).1
    have hlive : (s.toSockets.assign (some made)).live = some made := by
      rw [Sockets.live]
      exact if_pos (decide_eq_true hopen)
    rw [hdials.count_eq, List.count_cons] at hcount
    rw [hsockets, hlive, Sockets.assign, List.count_append, Option.toList_some,
      List.count_singleton]
    dsimp only
    omega

/-- So every step keeps them owned. -/
theorem owned_step (h : Owned s) (e : Event) : Owned (step s e) := (moved_step s e).owned h

/-- What is closed once more is what `sock_` named after it was closed. -/
theorem Moved.reclosed {how : Touch} (hmoved : Moved s s' how) :
    s'.reclosed = [] ↔ s.reclosed = [] ∧ (how = .closes → ¬ s.stale ≠ none) := by
  cases hmoved with
  | kept hsockets | opened hsockets | failed hsockets | cleared hsockets | made hsockets =>
    rw [hsockets]
    exact (and_iff_left fun h => by cases h).symm
  | closed hsock hsockets =>
    rw [hsockets, Sockets.closeSock, List.append_eq_nil_iff, Option.toList_eq_nil_iff, not_not]
    exact and_congr_right fun _ => ⟨fun hnone _ => hnone, fun h => h rfl⟩

/-- What is dropped is what was open when `sock_` was assigned. -/
theorem Moved.dropped {how : Touch} (hmoved : Moved s s' how) :
    s'.dropped = [] ↔ s.dropped = [] ∧ (how = .assigns → s.live = none) := by
  cases hmoved with
  | kept hsockets | opened hsockets | failed hsockets | closed hsock hsockets =>
    rw [hsockets]
    exact (and_iff_left fun h => by cases h).symm
  | cleared hsockets | made hsockets =>
    rw [hsockets, Sockets.assign, List.append_eq_nil_iff, Option.toList_eq_nil_iff]
    exact and_congr_right fun _ => ⟨fun hnone _ => hnone, fun h => h rfl⟩

/-- `sock_` names a closed socket from the close to the next assignment. -/
theorem Moved.stale {how : Touch} (hmoved : Moved s s' how) (h : Owned s) :
    s'.stale ≠ none ↔ how = .closes ∨ how = .nothing ∧ s.stale ≠ none := by
  cases hmoved with
  | kept hsockets =>
    rw [hsockets]
    simp
  | opened hsockets =>
    have hstale : Sockets.stale { s.toSockets with opened := s.opened + 1 } = s.stale := rfl
    rw [hsockets, hstale]
    simp
  | failed hsockets hdials =>
    have hown := (h.dialing (hdials.mem_iff.mpr List.mem_cons_self)).2
    rw [hsockets, (filter_closed_append hown).2]
    simp
  | closed hsock hsockets =>
    obtain ⟨socket, hsocket⟩ := Option.isSome_iff_exists.mp hsock
    refine iff_of_true ?_ (.inl rfl)
    rw [hsockets, stale_ne_none_iff]
    refine ⟨socket, ?_, hsocket⟩
    have hnone := live_closeSock s.toSockets
    rw [Sockets.live, Option.filter_eq_none_iff] at hnone
    have hclosed := hnone socket hsocket
    rw [decide_eq_true_iff, not_not] at hclosed
    exact hclosed
  | cleared hsockets =>
    rw [hsockets, Sockets.assign, Sockets.stale, Option.filter_none]
    simp
  | @made made hsockets hdials =>
    have hopen := (h.dialing (hdials.mem_iff.mpr List.mem_cons_self)).1
    have hstale : (s.toSockets.assign (some made)).stale = none :=
      if_neg fun hmem => hopen (of_decide_eq_true hmem)
    rw [hsockets, hstale]
    simp

/-- A step that closes the socket of `sock_`. -/
def Closes (s : NxLink) (e : Event) : Prop := touch s e = .closes

/-- A step that assigns to `sock_`. -/
def Assigns (s : NxLink) (e : Event) : Prop := touch s e = .assigns

/-- `sock_` names a closed socket where it was closed and there was no assignment since. -/
theorem stale_run (events : List Event) :
    (run step fresh events).stale ≠ none ↔ Since step Closes Assigns fresh events := by
  refine run_iff_since (I := Owned) (P := fun s => s.stale ≠ none)
    (fun s e h => owned_step h e) ?_ ?_ ?_ fresh_owned
    (fun h => h rfl) events
  · intro s e h hcloses
    exact ((moved_step s e).stale h).mpr (.inl hcloses)
  · intro s e h hcloses hassigns hstale
    rcases ((moved_step s e).stale h).mp hstale with hclosing | ⟨hnothing, -⟩
    · exact hcloses hclosing
    · rw [Assigns, hnothing] at hassigns
      cases hassigns
  · intro s e h hcloses hassigns
    have hnothing : touch s e = .nothing := by
      cases htouch : touch s e with
      | nothing => rfl
      | closes => exact absurd htouch hcloses
      | assigns => exact absurd htouch hassigns
    rw [(moved_step s e).stale h, hnothing]
    simp

/-- No socket is closed again exactly if `close` is never reached on a stale `sock_`. -/
theorem reclosed_run (s : NxLink) (events : List Event) :
    (run step s events).reclosed = [] ↔
      s.reclosed = [] ∧ EveryStep step (fun s e => Closes s e → ¬ s.stale ≠ none) s events := by
  induction events generalizing s with
  | nil => exact (and_iff_left trivial).symm
  | cons e events ih => rw [run_cons, ih, (moved_step s e).reclosed, EveryStep, and_assoc]; rfl

/-- No socket is dropped exactly if `sock_` is never assigned over an open one. -/
theorem dropped_run (s : NxLink) (events : List Event) :
    (run step s events).dropped = [] ↔
      s.dropped = [] ∧ EveryStep step (fun s e => Assigns s e → s.live = none) s events := by
  induction events generalizing s with
  | nil => exact (and_iff_left trivial).symm
  | cons e events ih => rw [run_cons, ih, (moved_step s e).dropped, EveryStep, and_assoc]; rfl

/-- While nobody shuts down, only the holder of the lock closes, and it assigns next. -/
structure Locked (s : NxLink) : Prop where
  owned : Owned s
  idle : s.closer = .idle
  stale : s.stale ≠ none → s.holder.phase = some .clearing

/-- The mutex has no part in `shutdown`. -/
theorem closer_advance (s : NxLink) (taken : Option ℕ) : (advance s taken).closer = s.closer := by
  unfold advance
  split
  · rfl
  · split
    · rfl
    · split <;>
      · next hwrite =>
        obtain ⟨sent, rfl⟩ := sysWrite_keeps hwrite
        rfl
  · rfl
  · rfl
  · split <;>
    · next hwrite =>
      obtain ⟨sent, rfl⟩ := sysWrite_keeps hwrite
      rfl
  · rfl
  · rfl

/-- Without a call `shutdown` stays away. -/
theorem closer_step (h : s.closer = .idle) (he : e ≠ .shutdown) : (step s e).closer = .idle := by
  cases e with
  | shutdown => exact absurd rfl he
  | next taken => rw [step, closer_advance]; exact h
  | setHost enabled => exact h
  | dial background gets => rw [step, dial]; split_ifs <;> exact h
  | dialed socket made => rw [step, dialed]; split_ifs <;> exact h
  | write message early => rw [step]; split_ifs <;> exact h
  | wake | look | flush => rw [step]; split <;> exact h
  | joined | close | clear => rw [step, h]; exact h

/-- Who is behind a close stays where it is until its own next step. -/
theorem holder_step {phase : Phase} (h : s.holder.phase = some phase)
    (he : ∀ taken, e ≠ .next taken) :
    (step s e).holder = s.holder := by
  have hbusy : s.holder ≠ .free := fun hfree => by
    rw [hfree] at h
    cases h
  cases e with
  | next taken => exact absurd rfl (he taken)
  | setHost enabled => rfl
  | dial background gets => rw [step, dial]; split_ifs <;> rfl
  | dialed socket made => rw [step, dialed]; split_ifs <;> rfl
  | write message early =>
    rw [step, if_pos hbusy]
    split <;> rfl
  | flush => rw [step, if_neg fun hflush => hbusy hflush.2]
  | wake | look | shutdown | joined | close | clear => rw [step]; split <;> rfl

/-- What closes while nobody shuts down is the holder of the lock. -/
theorem closes_idle (hidle : s.closer = .idle) (hcloses : Closes s e) :
    ∃ taken, e = .next taken ∧ s.holder.phase = some .closing := by
  unfold Closes touch at hcloses
  split at hcloses
  · next taken =>
    refine ⟨taken, rfl, ?_⟩
    split_ifs at hcloses with hclosing
    exact hclosing.1
  · rw [if_neg fun h => by rw [hidle] at h; cases h.1] at hcloses
    cases hcloses
  · split at hcloses <;> cases hcloses
  · split at hcloses <;> cases hcloses
  · cases hcloses

/-- Behind `close` comes the assignment. -/
theorem phase_advance (taken : Option ℕ) (h : s.holder.phase = some .closing) :
    (advance s taken).holder.phase = some .clearing := by
  unfold advance
  split
  · next hholder => rw [hholder] at h; cases h
  · next hholder => rw [hholder] at h; cases h
  · rfl
  · next hholder => rw [hholder] at h; cases h
  · next hholder => rw [hholder] at h; cases h
  · rfl
  · next hholder => rw [hholder] at h; cases h

/-- Without `shutdown` only the holder of the mutex closes, and assigns next. -/
theorem locked_step (h : Locked s) (he : e ≠ .shutdown) : Locked (step s e) := by
  refine ⟨owned_step h.owned e, closer_step h.idle he, fun hstale => ?_⟩
  rcases ((moved_step s e).stale h.owned).mp hstale with hcloses | ⟨hnothing, hbefore⟩
  · obtain ⟨taken, rfl, hclosing⟩ := closes_idle h.idle hcloses
    exact phase_advance taken hclosing
  · have hphase := h.stale hbefore
    rw [holder_step hphase]
    · exact hphase
    · rintro taken rfl
      rw [touch, hphase] at hnothing
      cases hnothing

/-- In every run each socket that was opened is closed, in use, still in `connectToHost`, or was
dropped while open; that happens exactly where `sock_` is assigned while it names an open one. A
socket is closed twice exactly where `sock_` is closed after a close with no assignment in between,
which nobody does unless `shutdown` is called. -/
theorem sockets_owned (events : List Event) :
    ((run step fresh events).closed ++ (run step fresh events).dropped ++
      (run step fresh events).dials ++
        (run step fresh events).live.toList).Perm (List.range (run step fresh events).opened) ∧
      ((run step fresh events).dropped = [] ↔
        EveryStep step (fun s e => Assigns s e → s.live = none) fresh events) ∧
      ((run step fresh events).reclosed = [] ↔
        ∀ before e after, events = before ++ e :: after → Closes (run step fresh before) e →
          ¬ Since step Closes Assigns fresh before) ∧
      (.shutdown ∉ events → (run step fresh events).reclosed = []) := by
  have howned : Always step Owned fresh events :=
    always_of_step (P := Owned) (fun _ e h => owned_step h e) fresh_owned events
  refine ⟨howned.last, ?_, ?_, fun hnever => ?_⟩
  · rw [dropped_run]
    exact and_iff_right rfl
  · rw [reclosed_run, everyStep_iff, and_iff_right (show fresh.reclosed = [] from rfl)]
    simp only [stale_run]
  · have hlocked : Locked fresh := ⟨fresh_owned, rfl, fun h => absurd rfl h⟩
    have hsteps : EveryStep step (fun _ e => e ≠ .shutdown) fresh events :=
      everyStep_of_mem fun e he _ heq => hnever (heq ▸ he)
    rw [reclosed_run]
    refine ⟨rfl, everyStep_of_inv (fun _ _ h he => locked_step h he)
      (fun s e h _ hcloses hstale => ?_)
      hlocked hsteps⟩
    obtain ⟨taken, -, hclosing⟩ := closes_idle h.idle hcloses
    have hclearing := h.stale hstale
    rw [hclosing] at hclearing
    cases hclearing

/-- A writer whose `::write` failed and `shutdown` both close the socket, before either assigns. -/
example :
    (run step fresh [.setHost true, .dial false true, .dialed 0 true, .write [97] false, .next none,
    .next none, .shutdown, .wake, .joined, .next none, .close]).reclosed = [0] := by
  decide

end KdeConnectNx.NxLinkSink
