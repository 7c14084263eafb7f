import KdeConnectNx.Runs
import KdeConnectNx.Sessions

/-!
# The sending side of a connection: send queue and io loop

Any thread appends to the queue of a session; its io thread takes one packet
at a time off it and writes it in as many pieces as the TLS library makes of
it. The machine below runs `io_loop` one test, one pop or one call a step,
between the two steps of any number of `send_packet` calls.
-/

namespace KdeConnectNx.SendLoop

open PacketFormat PacketBody LineReader Sessions Runs

/-- Result of an `mbedtls_ssl_write`. -/
inductive SslWrite where
  /-- So many bytes were taken, at most the bytes given. -/
  | wrote (n : Nat)
  | wantRead
  | wantWrite
  | error
  deriving DecidableEq, Repr

/-- The bytes the TLS library takes of those a call gives it. -/
def SslWrite.taken (offered : List UInt8) : SslWrite → List UInt8
  | .wrote n => offered.take n
  | .wantRead => []
  | .wantWrite => []
  | .error => []

/-- The call has failed: it took nothing and asks for nothing. -/
def SslWrite.fails : SslWrite → Bool
  | .wrote n => n == 0
  | .wantRead => false
  | .wantWrite => false
  | .error => true

/-- Loop body of `send_all_tls_raw`: the new total, none when the call fails.
A write that takes nothing is a failure. -/
def sendStep (len total : Nat) : SslWrite → Option Nat
  | .wrote n => if n = 0 then none else some (total + min n (len - total))
  | .wantRead => some total
  | .wantWrite => some total
  | .error => none

/-- Where the io thread stands. -/
inductive Phase where
  /-- At the condition of the outer loop. -/
  | top
  /-- At the condition of the loop in `drain_sends`. -/
  | draining
  /-- Before the lock of the queue. -/
  | popping
  /-- In `send_all_tls`, with what was popped. -/
  | writing (payload : List UInt8) (total : Nat)
  | selecting
  /-- Reading a line and handling it. -/
  | reading
  /-- Behind the loop, before the session is marked. -/
  | closing
  | ended
  deriving DecidableEq, Repr

/-- Outcome of the `select` on the socket. -/
inductive Select where
  | readable
  /-- It timed out or was interrupted. -/
  | again
  /-- It failed, or the socket is closed already. -/
  | failed
  deriving DecidableEq, Repr

/-- A session, its io thread and the threads that send to it. -/
structure Loop (π : Type) where
  session : DeviceSession π
  running : Bool := true
  phase : Phase := .top
  /-- Threads in `send_packet` that found the session connected, with their
  packet. -/
  senders : Nat → Option NetworkPacket := fun _ => none
  /-- History: everything that was put on the queue. -/
  pushed : List Outgoing := []
  /-- History: the bytes the TLS library took from the loop. -/
  written : List UInt8 := []
  /-- History: a write has failed. -/
  failed : Bool := false

inductive Event where
  /-- A thread calls `send_packet` and looks whether the session is connected. -/
  | test (thread : Nat) (pkt : NetworkPacket)
  /-- It takes the lock and appends its packet. -/
  | push (thread : Nat) (m : Moment Unit)
  /-- Another thread closes the session. -/
  | disconnect
  /-- The client stops. -/
  | stop
  /-- The io thread makes a test, a pop, or its final assignments. -/
  | turn
  | write (r : SslWrite)
  | select (r : Select)
  /-- A line is read and handled, or the read fails. -/
  | read (line : Bool)
  /-- An allocation fails while a line is read or handled. -/
  | outOfMemory

variable {π : Type}

/-- What the io thread does without a call. -/
def turn (y : Yyjson) (l : Loop π) : Loop π :=
  match l.phase with
  | .top =>
    { l with phase := if l.running && !l.session.disconnected then .draining else .closing }
  | .draining => { l with phase := if l.session.disconnected then .closing else .popping }
  | .popping =>
    match l.session.sendQueue with
    | [] => { l with phase := .selecting }
    | o :: queue =>
      { l with session := { l.session with sendQueue := queue }, phase := .writing (o.text y) 0 }
  | .writing payload total => if total < payload.length then l else { l with phase := .draining }
  | .closing => { l with session := l.session.markDisconnected, phase := .ended }
  | _ => l

/-- One step. An event the io thread or a sender is not ready for changes
nothing. -/
def step (y : Yyjson) (l : Loop π) : Event → Loop π
  | .test thread pkt =>
    if l.session.disconnected then l
    else { l with senders := Function.update l.senders thread (some pkt) }
  | .push thread m =>
    match l.senders thread with
    | some pkt =>
      { l with
        session := KdeConnectClient.push m pkt l.session
        senders := Function.update l.senders thread none
        pushed := l.pushed ++ [⟨m.millis, pkt⟩] }
    | none => l
  | .disconnect => { l with session := l.session.markDisconnected }
  | .stop => { l with running := false }
  | .turn => turn y l
  | .write r =>
    match l.phase with
    | .writing payload total =>
      if total < payload.length then
        let l := { l with
          written := l.written ++ r.taken (payload.drop total), failed := l.failed || r.fails }
        match sendStep payload.length total r with
        | some total' => { l with phase := .writing payload total' }
        | none => { l with phase := .closing }
      else l
    | _ => l
  | .select r =>
    match l.phase with
    | .selecting =>
      { l with phase := match r with
        | .readable => .reading
        | .again => .top
        | .failed => .closing }
    | _ => l
  | .read line =>
    match l.phase with
    | .reading => { l with phase := if line then .top else .closing }
    | _ => l
  | .outOfMemory =>
    match l.phase with
    | .reading => { l with phase := .closing }
    | _ => l

/-- The io thread has just been started. -/
def start (s : DeviceSession π) : Loop π := { session := s, pushed := s.sendQueue }

/-- The lines of a list of packets, one after the other. -/
def sentText (y : Yyjson) (outgoing : List Outgoing) : List UInt8 := outgoing.flatMap (·.text y)

/-- What is popped and not written yet. -/
def pending : Phase → List UInt8
  | .writing payload total => payload.drop total
  | _ => []

/-- No byte is lost, moved or doubled: what is written, then a rest, then the
queue make up everything that was pushed; the rest is what is being written as
long as the loop runs. -/
def Accounted (y : Yyjson) (l : Loop π) : Prop :=
  ∃ rest, l.written ++ rest ++ sentText y l.session.sendQueue = sentText y l.pushed ∧
    (l.phase ≠ .closing → l.phase ≠ .ended → rest = pending l.phase)

theorem accounted_start (y : Yyjson) (s : DeviceSession π) : Accounted y (start s) :=
  ⟨[], rfl, fun _ _ => rfl⟩

/-- A change of the phase keeps the account when nothing is left half written
behind, or the loop is left. -/
theorem Accounted.move {y : Yyjson} {l : Loop π} (h : Accounted y l) {phase : Phase}
    (hpending : phase = .closing ∨ phase = .ended ∨
      l.phase ≠ .closing ∧ l.phase ≠ .ended ∧ pending phase = pending l.phase) :
    Accounted y { l with phase := phase } := by
  obtain ⟨rest, htext, hrest⟩ := h
  refine ⟨rest, htext, ?_⟩
  intro hclosing hended
  rcases hpending with hphase | hphase | ⟨hlc, hle, hsame⟩
  · exact absurd hphase hclosing
  · exact absurd hphase hended
  · rw [hrest hlc hle, hsame]

/-- Changes outside the queue, the phase and the two histories keep it. -/
theorem Accounted.congr {y : Yyjson} {l l' : Loop π} (h : Accounted y l)
    (hqueue : l'.session.sendQueue = l.session.sendQueue) (hphase : l'.phase = l.phase)
    (hpushed : l'.pushed = l.pushed) (hwritten : l'.written = l.written) : Accounted y l' := by
  unfold Accounted
  rw [hqueue, hphase, hpushed, hwritten]
  exact h

/-- What is appended to the queue is appended to what was pushed. -/
theorem Accounted.push {y : Yyjson} {l : Loop π} (h : Accounted y l) (m : Moment Unit)
    (pkt : NetworkPacket) (senders : Nat → Option NetworkPacket) :
    Accounted y { l with
      session := KdeConnectClient.push m pkt l.session
      senders := senders
      pushed := l.pushed ++ [⟨m.millis, pkt⟩] } := by
  obtain ⟨rest, htext, hrest⟩ := h
  refine ⟨rest, ?_, hrest⟩
  simp only [KdeConnectClient.push, sentText, List.flatMap_append] at htext ⊢
  rw [← htext]
  simp only [List.append_assoc]

/-- What is popped becomes the rest that is to be written. -/
theorem Accounted.pop {y : Yyjson} {l : Loop π} (h : Accounted y l) (hphase : l.phase = .popping)
    {o : Outgoing} {queue : List Outgoing} (hqueue : l.session.sendQueue = o :: queue) :
    Accounted y { l with
      session := { l.session with sendQueue := queue }
      phase := .writing (o.text y) 0 } := by
  obtain ⟨rest, htext, hrest⟩ := h
  have hnone : rest = [] := by
    have hpending := hrest (by simp [hphase]) (by simp [hphase])
    rw [hpending, hphase]
    rfl
  refine ⟨o.text y, ?_, fun _ _ => rfl⟩
  rw [hqueue, hnone, List.append_nil] at htext
  rw [← htext, sentText, sentText, List.flatMap_cons, List.append_assoc]

/-- The loop counts what the library took: behind a call it stands behind the
bytes taken, and those it still has are the ones that were not taken. -/
theorem sendStep_taken {payload : List UInt8} {total total' : Nat} {r : SslWrite}
    (h : sendStep payload.length total r = some total') :
    payload.take total ++ r.taken (payload.drop total) = payload.take total' ∧
      r.taken (payload.drop total) ++ payload.drop total' = payload.drop total := by
  have hcounted : ∃ n, r.taken (payload.drop total) = (payload.drop total).take n ∧
      total' = total + n := by
    cases r with
    | wrote n =>
      simp only [sendStep] at h
      split at h
      · cases h
      · refine ⟨min n (payload.length - total), ?_, (Option.some.inj h).symm⟩
        rw [SslWrite.taken, ← List.length_drop]
        exact List.take_eq_take_min
    | wantRead => exact ⟨0, rfl, (Option.some.inj h).symm⟩
    | wantWrite => exact ⟨0, rfl, (Option.some.inj h).symm⟩
    | error => cases h
  obtain ⟨n, htaken, htotal⟩ := hcounted
  rw [htaken, htotal]
  refine ⟨List.take_add.symm, ?_⟩
  rw [← List.drop_drop, List.take_append_drop]

/-- The loop never counts beyond what it was given. -/
theorem sendStep_le {len total total' : Nat} {r : SslWrite}
    (h : sendStep len total r = some total') (hle : total ≤ len) : total' ≤ len := by
  cases r with
  | wrote n =>
    simp only [sendStep] at h
    split at h
    · cases h
    · have heq := Option.some.inj h
      omega
  | wantRead => exact Option.some.inj h ▸ hle
  | wantWrite => exact Option.some.inj h ▸ hle
  | error => cases h

/-- The loop gives up exactly when a call has failed. -/
theorem sendStep_isNone (len total : Nat) (r : SslWrite) :
    (sendStep len total r).isNone = r.fails := by
  cases r with
  | wrote n => by_cases hzero : n = 0 <;> simp [sendStep, SslWrite.fails, hzero]
  | wantRead => rfl
  | wantWrite => rfl
  | error => rfl

/-- A call that fails has taken nothing. -/
theorem taken_of_fails {len total : Nat} {r : SslWrite} (h : sendStep len total r = none)
    (offered : List UInt8) : r.taken offered = [] := by
  cases r with
  | wrote n =>
    simp only [sendStep] at h
    split at h
    · rename_i hzero
      rw [hzero, SslWrite.taken, List.take_zero]
    · cases h
  | wantRead => rfl
  | wantWrite => rfl
  | error => rfl

/-- Bytes that are taken move from the rest to what is written. -/
theorem Accounted.write {y : Yyjson} {l : Loop π} (h : Accounted y l) {payload : List UInt8}
    {total total' : Nat} {r : SslWrite} (hphase : l.phase = .writing payload total)
    (hsend : sendStep payload.length total r = some total') :
    Accounted y { l with
      phase := .writing payload total'
      written := l.written ++ r.taken (payload.drop total) } := by
  obtain ⟨rest, htext, hrest⟩ := h
  have hpending : rest = payload.drop total := by
    have hrest := hrest (by simp [hphase]) (by simp [hphase])
    rw [hrest, hphase]
    rfl
  refine ⟨payload.drop total', ?_, fun _ _ => rfl⟩
  rw [← htext, hpending, List.append_assoc l.written, (sendStep_taken hsend).2]

/-- The tests and the pop keep the account. -/
theorem accounted_turn {y : Yyjson} {l : Loop π} (h : Accounted y l) : Accounted y (turn y l) := by
  unfold turn
  split
  · rename_i hphase
    refine h.move ?_
    split
    · right; right
      simp [hphase, pending]
    · exact .inl rfl
  · rename_i hphase
    refine h.move ?_
    split
    · exact .inl rfl
    · right; right
      simp [hphase, pending]
  · rename_i hphase
    split
    · refine h.move (.inr (.inr ?_))
      simp [hphase, pending]
    · rename_i o queue hqueue
      exact h.pop hphase hqueue
  · rename_i payload total hphase
    split
    · exact h
    · rename_i hdone
      refine h.move (.inr (.inr ?_))
      have hnone : payload.drop total = [] := List.drop_eq_nil_of_le (by omega)
      simp [hphase, pending, hnone]
  · exact (h.move (.inr (.inl rfl))).congr rfl rfl rfl rfl
  · exact h

/-- Every step keeps the account. -/
theorem accounted_step {y : Yyjson} {l : Loop π} (h : Accounted y l) (e : Event) :
    Accounted y (step y l e) := by
  cases e with
  | test thread pkt =>
    simp only [step]
    split
    · exact h
    · exact h.congr rfl rfl rfl rfl
  | push thread m =>
    simp only [step]
    split
    · exact h.push m _ _
    · exact h
  | disconnect => exact h.congr rfl rfl rfl rfl
  | stop => exact h.congr rfl rfl rfl rfl
  | turn => exact accounted_turn h
  | write r =>
    simp only [step]
    split
    · rename_i payload total hphase
      split
      · split
        · rename_i total' hsend
          exact (h.write hphase hsend).congr rfl rfl rfl rfl
        · rename_i hfails
          have hcloses : Accounted y { l with phase := .closing } := h.move (.inl rfl)
          refine hcloses.congr rfl rfl rfl ?_
          dsimp only
          rw [taken_of_fails hfails, List.append_nil]
      · exact h
    · exact h
  | select r =>
    simp only [step]
    split
    · rename_i hphase
      refine h.move ?_
      cases r with
      | readable => exact .inr (.inr (by simp [hphase, pending]))
      | again => exact .inr (.inr (by simp [hphase, pending]))
      | failed => exact .inl rfl
    · exact h
  | read line =>
    simp only [step]
    split
    · rename_i hphase
      refine h.move ?_
      cases line with
      | true => exact .inr (.inr (by simp [hphase, pending]))
      | false => exact .inl rfl
    · exact h
  | outOfMemory =>
    simp only [step]
    split
    · exact h.move (.inl rfl)
    · exact h

/-- What the loop has written is a prefix of what was pushed, and all of it
whenever the queue is empty at the top of the loop. -/
theorem written_of_accounted {y : Yyjson} {l : Loop π} (h : Accounted y l) :
    l.written <+: sentText y l.pushed ∧
      (l.phase = .top → l.session.sendQueue = [] → l.written = sentText y l.pushed) := by
  obtain ⟨rest, htext, hrest⟩ := h
  constructor
  · exact ⟨rest ++ sentText y l.session.sendQueue, by rw [← htext, List.append_assoc]⟩
  · intro hphase hqueue
    have hnone : rest = [] := by
      rw [hrest (by simp [hphase]) (by simp [hphase]), hphase]
      rfl
    rw [hqueue, hnone, List.append_nil] at htext
    rw [← htext, sentText, List.flatMap_nil, List.append_nil]

/-- Whatever is sent by whomever and however it is taken, the bytes written
are a prefix of the packets in the order of the queue, and all of them when no
write has failed and the queue is empty at the top of the loop. -/
theorem written_always (y : Yyjson) (s : DeviceSession π) (events : List Event) :
    Always (step y) (fun l => l.written <+: sentText y l.pushed ∧
        (l.phase = .top → l.failed = false → l.session.sendQueue = [] →
          l.written = sentText y l.pushed))
      (start s) events := by
  have hall : Always (step y) (Accounted y) (start s) events :=
    always_of_step (P := Accounted y) (fun _ e h => accounted_step h e) (accounted_start y s) events
  refine hall.imp ?_
  intro l h
  obtain ⟨hpre, hwhole⟩ := written_of_accounted h
  exact ⟨hpre, fun hphase _ hqueue => hwhole hphase hqueue⟩

end KdeConnectNx.SendLoop
