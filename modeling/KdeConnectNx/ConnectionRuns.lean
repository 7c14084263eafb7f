import Mathlib.Data.Set.Insert
import KdeConnectNx.Connection

/-!
# Runs of the client with several connections being set up

The phases of `handle_new_connection` as steps of their own, for any number of
threads at once, between pair packets on any session and the local pairing
operations. Taken in a row the phases of one thread are the whole function.
-/

namespace KdeConnectNx.ConnectionRuns

open Runs PacketBody PacketFormat PairedFiles Sessions Pairing Connection
open KdeConnectClient (setStorage)

/-- How far a connection has come, with what it has found so far. -/
inductive Phase where
  /-- No live session was found. -/
  | checked
  | loaded (stored : Option PairedDeviceInfo)
  /-- The handshake is done and the session object runs. -/
  | made (ref : Nat)

structure Attempt where
  identity : DeviceInfo
  phase : Phase

/-- The client and the connections that its threads are setting up. -/
structure World (φ π : Type) where
  client : KdeConnectClient φ π
  attempts : Nat → Option Attempt := fun _ => none

inductive Event (ε : Type) where
  | check (thread : Nat) (identity : DeviceInfo)
  | load (thread : Nat)
  | connect (thread : Nat) (tcpServerSide : Bool) (io : ConnectionIo)
  | install (thread : Nat) (m : Moment ε) (showOnConnect : Bool)
  /-- A pair packet on a session, in the table or not. -/
  | received (ref : Nat) (m : Moment ε) (body : JsonBody)
  /-- The io thread of a session ends. -/
  | lost (ref : Nat)
  | request (deviceId : String) (m : Moment ε)
  | accept (deviceId : String) (m : Moment ε)
  | reject (deviceId : String) (m : Moment ε)
  | unpair (deviceId : String) (m : Moment ε)

/-- The device a local operation is for. -/
def Event.target {ε : Type} : Event ε → Option String
  | .request deviceId _ => some deviceId
  | .accept deviceId _ => some deviceId
  | .reject deviceId _ => some deviceId
  | .unpair deviceId _ => some deviceId
  | _ => none

/-- The event is about one of these devices; a session and a thread stay with
the device they started with. -/
def Event.Concerns {ε : Type} (ids : Set String) (e : Event ε) : Prop :=
  (∀ thread identity, e = .check thread identity → identity.id ∈ ids) ∧
    ∀ deviceId, e.target = some deviceId → deviceId ∈ ids

section Steps

variable {φ π ε : Type}

/-- A thread goes on to its next phase, or ends. -/
def World.proceed (w : World φ π) (thread : Nat) (client : KdeConnectClient φ π)
    (attempt : Option Attempt) : World φ π where
  client := client
  attempts := Function.update w.attempts thread attempt

/-- The client changes, the threads stay where they are. -/
def World.operate (w : World φ π) (client : KdeConnectClient φ π) : World φ π :=
  { w with client := client }

@[simp] theorem proceed_client (w : World φ π) (thread : Nat) (client : KdeConnectClient φ π)
    (attempt : Option Attempt) : (w.proceed thread client attempt).client = client := rfl

@[simp] theorem proceed_attempts (w : World φ π) (thread : Nat) (client : KdeConnectClient φ π)
    (attempt : Option Attempt) : (w.proceed thread client attempt).attempts thread = attempt :=
  Function.update_self ..

theorem proceed_attempts_ne (w : World φ π) {thread other : Nat} (client : KdeConnectClient φ π)
    (attempt : Option Attempt) (h : other ≠ thread) :
    (w.proceed thread client attempt).attempts other = w.attempts other :=
  Function.update_of_ne h ..

@[simp] theorem operate_client (w : World φ π) (client : KdeConnectClient φ π) :
    (w.operate client).client = client := rfl

variable [FileSystem φ] [PluginHost π ε]

/-- One step. An event no thread or session is ready for changes nothing. -/
def step (y : Yyjson) (w : World φ π) : Event ε → World φ π
  | .check thread identity =>
    if (w.attempts thread).isNone && admitted w.client identity then
      w.proceed thread w.client (some ⟨identity, .checked⟩)
    else w
  | .load thread =>
    match w.attempts thread with
    | some ⟨identity, .checked⟩ =>
      let loaded := loadPairedDevice y identity.id w.client.storage
      w.proceed thread (setStorage w.client loaded.2) (some ⟨identity, .loaded loaded.1⟩)
    | _ => w
  | .connect thread tcpServerSide io =>
    match w.attempts thread with
    | some ⟨identity, .loaded stored⟩ =>
      match makeSession y identity tcpServerSide io stored with
      | none => w.proceed thread w.client none
      | some s => w.proceed thread (allocate s w.client) (some ⟨identity, .made w.client.next⟩)
    | _ => w
  | .install thread m showOnConnect =>
    match w.attempts thread with
    | some ⟨identity, .made ref⟩ =>
      w.proceed thread (announce m identity showOnConnect ref (install ref w.client)) none
    | _ => w
  | .received ref m body =>
    if ref < w.client.next then w.operate (handlePairPacket y m ref body w.client) else w
  | .lost ref =>
    if ref < w.client.next then w.operate (w.client.modify ref DeviceSession.markDisconnected)
    else w
  | .request deviceId m => w.operate (requestPair m deviceId w.client)
  | .accept deviceId m => w.operate (acceptPair y m deviceId w.client)
  | .reject deviceId m => w.operate (rejectPair m deviceId w.client)
  | .unpair deviceId m => w.operate (unpair m deviceId w.client)

/-- The phases of one thread in a row. -/
def phases (thread : Nat) (identity : DeviceInfo) (tcpServerSide : Bool) (io : ConnectionIo)
    (m : Moment ε) : List (Event ε) :=
  [.check thread identity, .load thread, .connect thread tcpServerSide io,
    .install thread m io.showOnConnect]

/-- A thread that is not interrupted does what `handle_new_connection` does. -/
theorem run_phases (y : Yyjson) {w : World φ π} {thread : Nat} (hfree : w.attempts thread = none)
    (identity : DeviceInfo) (tcpServerSide : Bool) (io : ConnectionIo) (m : Moment ε) :
    (run (step y) w (phases thread identity tcpServerSide io m)).client =
      handleNewConnection y m identity tcpServerSide io w.client := by
  simp only [phases, run_cons, run_nil, handleNewConnection]
  cases ha : admitted w.client identity with
  | false => simp [step, hfree, ha]
  | true =>
    cases hs : makeSession (π := π) y identity tcpServerSide io
        (loadPairedDevice y identity.id w.client.storage).1 with
    | none => simp [step, hfree, ha, hs]
    | some s => simp [step, hfree, ha, hs, KdeConnectClient.setStorage]

/-- No thread or session is ready for the event. -/
def Idle (w : World φ π) : Event ε → Prop
  | .install thread _ _ => ∀ identity ref, w.attempts thread ≠ some ⟨identity, .made ref⟩
  | .received ref _ _ => ¬ ref < w.client.next
  | _ => True

/-- What a step leads to, with what is known where it does. -/
inductive Outcome (y : Yyjson) (w : World φ π) : Event ε → World φ π → Prop
  | idle (e : Event ε) (hidle : Idle w e) : Outcome y w e w
  | checked (thread : Nat) (identity : DeviceInfo) :
    Outcome y w (.check thread identity)
      (w.proceed thread w.client (some ⟨identity, .checked⟩))
  | loaded (thread : Nat) (identity : DeviceInfo)
      (hthread : w.attempts thread = some ⟨identity, .checked⟩) :
    Outcome y w (.load thread)
      (w.proceed thread
        (setStorage w.client (loadPairedDevice y identity.id w.client.storage).2)
        (some ⟨identity, .loaded (loadPairedDevice y identity.id w.client.storage).1⟩))
  | dropped (thread : Nat) (tcpServerSide : Bool) (io : ConnectionIo) :
    Outcome y w (.connect thread tcpServerSide io) (w.proceed thread w.client none)
  | made (thread : Nat) (tcpServerSide : Bool) (io : ConnectionIo) (identity : DeviceInfo)
      (stored : Option PairedDeviceInfo) (s : DeviceSession π)
      (hthread : w.attempts thread = some ⟨identity, .loaded stored⟩)
      (hs : makeSession y identity tcpServerSide io stored = some s) :
    Outcome y w (.connect thread tcpServerSide io)
      (w.proceed thread (allocate s w.client) (some ⟨identity, .made w.client.next⟩))
  | installed (thread : Nat) (m : Moment ε) (showOnConnect : Bool) (identity : DeviceInfo)
      (ref : Nat) (hthread : w.attempts thread = some ⟨identity, .made ref⟩) :
    Outcome y w (.install thread m showOnConnect)
      (w.proceed thread (announce m identity showOnConnect ref (install ref w.client)) none)
  | heard (ref : Nat) (m : Moment ε) (body : JsonBody) (c' : KdeConnectClient φ π)
      (href : ref < w.client.next)
      (hf : Follows y w.client c' ref (.heard (body.valueBool "pair" false)
        (timely m.seconds (body.valueI64 "timestamp" 0)) (body.valueI64 "timestamp" 0))) :
    Outcome y w (.received ref m body) (w.operate c')
  | ended (ref : Nat) (c' : KdeConnectClient φ π) (href : ref < w.client.next)
      (hf : Follows y w.client c' ref .lost) :
    Outcome y w (.lost ref) (w.operate c')
  | asked (e : Event ε) (deviceId : String) (ref : Nat) (act : Act) (c' : KdeConnectClient φ π)
      (he : e.target = some deviceId) (hact : act ≠ .lost)
      (hcurrent : w.client.device deviceId = some ref)
      (hf : Follows y w.client c' ref act) :
    Outcome y w e (w.operate c')
  | forgotten (deviceId : String) (m : Moment ε) (hnone : w.client.device deviceId = none) :
    Outcome y w (.unpair deviceId m)
      (w.operate (setStorage w.client (removePairedDevice deviceId w.client.storage)))

/-- The table names sessions that are on the heap by their own ids. -/
def TableNames (c : KdeConnectClient φ π) : Prop :=
  ∀ deviceId ref, c.device deviceId = some ref → ref < c.next ∧ (c.heap ref).info.id = deviceId

/-- Every step has an outcome. -/
theorem step_outcome (y : Yyjson) {w : World φ π} (hw : TableNames w.client) (e : Event ε) :
    Outcome y w e (step y w e) := by
  have hasked : ∀ (c' : KdeConnectClient φ π) (deviceId : String) (act : Act),
      e.target = some deviceId → act ≠ .lost → Idle w e →
      (w.client.device deviceId = none → c' = w.client) →
      (∀ ref, w.client.device deviceId = some ref → Follows y w.client c' ref act) →
      Outcome y w e (w.operate c') := by
    intro c' deviceId act he hact hidle hnone hsome
    cases hd : w.client.device deviceId with
    | none =>
      rw [hnone hd]
      exact .idle e hidle
    | some ref => exact .asked e deviceId ref act c' he hact hd (hsome ref hd)
  cases e with
  | check thread identity =>
    simp only [step]
    split
    · exact .checked thread identity
    · exact .idle _ trivial
  | load thread =>
    simp only [step]
    split
    · rename_i identity hthread
      exact .loaded thread identity hthread
    · exact .idle _ trivial
  | connect thread tcpServerSide io =>
    simp only [step]
    split
    · rename_i identity stored hthread
      cases hs : makeSession (π := π) y identity tcpServerSide io stored with
      | none => exact .dropped thread tcpServerSide io
      | some s => exact .made thread tcpServerSide io identity stored s hthread hs
    · exact .idle _ trivial
  | install thread m showOnConnect =>
    simp only [step]
    split
    · rename_i identity ref hthread
      exact .installed thread m showOnConnect identity ref hthread
    · rename_i hthread
      exact .idle _ hthread
  | received ref m body =>
    simp only [step]
    split
    · rename_i href
      exact .heard ref m body _ href (follows_handlePairPacketTimed y _ m ref body w.client)
    · rename_i href
      exact .idle _ href
  | lost ref =>
    simp only [step]
    split
    · rename_i href
      refine .ended ref _ href ?_
      exact follows_of_modify (SameCores.refl w.client) DeviceSession.markDisconnected
        (fun k => { k with disconnected := true }) (fun _ => rfl) .keep none rfl (SameCores.refl _)
    · exact .idle _ trivial
  | request deviceId m =>
    refine hasked _ deviceId (.request m.seconds) rfl (by simp) trivial ?_ fun ref hd =>
      follows_requestPair y hd m
    intro hd
    simp only [requestPair, hd]
  | accept deviceId m =>
    refine hasked _ deviceId .accept rfl (by simp) trivial ?_ fun ref hd =>
      follows_acceptPair y hd m
    intro hd
    simp only [acceptPair, hd]
  | reject deviceId m =>
    refine hasked _ deviceId .reject rfl (by simp) trivial ?_ fun ref hd =>
      follows_rejectPair y hd m
    intro hd
    simp only [rejectPair, hd]
  | unpair deviceId m =>
    cases hd : w.client.device deviceId with
    | none =>
      simp only [step, unpair, hd]
      exact .forgotten deviceId m hd
    | some ref =>
      have hid := (hw deviceId ref hd).2
      exact .asked _ deviceId ref .unpair _ rfl (by simp) hd (follows_unpair y hd hid m)

end Steps

section Names

variable {φ π ε : Type}

/-- Which sessions there are, whose they are and where the store is. -/
structure SameNames (c c' : KdeConnectClient φ π) : Prop where
  info : ∀ ref, (c'.heap ref).info = (c.heap ref).info
  device : ∀ deviceId, c'.device deviceId = c.device deviceId
  next : c'.next = c.next
  basePath : c'.storage.basePath = c.storage.basePath

/-- A world whose devices are among the given ones: every session and every
thread belongs to one of them, and a session that is made waits for its own
entry in the table. -/
structure Grounded (ids : Set String) (base : String) (w : World φ π) : Prop where
  table : TableNames w.client
  sessions : ∀ ref, ref < w.client.next → (w.client.heap ref).info.id ∈ ids
  threads : ∀ thread attempt, w.attempts thread = some attempt → attempt.identity.id ∈ ids
  made : ∀ thread identity ref, w.attempts thread = some ⟨identity, .made ref⟩ →
    ref < w.client.next ∧ (w.client.heap ref).info.id = identity.id
  outside : ∀ thread identity ref, w.attempts thread = some ⟨identity, .made ref⟩ →
    ∀ deviceId, w.client.device deviceId ≠ some ref
  apart : ∀ thread thread' identity identity' ref,
    w.attempts thread = some ⟨identity, .made ref⟩ →
    w.attempts thread' = some ⟨identity', .made ref⟩ → thread = thread'
  basePath : w.client.storage.basePath = base

theorem sameNames_of_sameCores {c c' : KdeConnectClient φ π} (h : SameCores c c') :
    SameNames c c' where
  info := h.info
  device := h.device
  next := h.next
  basePath := by rw [h.storage]

theorem sameNames_of_follows [FileSystem φ] {y : Yyjson} {c c' : KdeConnectClient φ π} {ref : Nat}
    {act : Act} (h : Follows y c c' ref act) : SameNames c c' where
  info := by
    intro other
    by_cases hother : other = ref
    · have hcore : (c'.heap ref).info = (move (c.heap ref).core act).info :=
        congrArg Core.info h.core
      rw [hother, hcore, (move_info _ _).1]
      rfl
    · exact congrArg Core.info (h.others other hother)
  device := by
    intro deviceId
    unfold KdeConnectClient.device
    rw [h.sessions]
  next := h.next
  basePath := by rw [h.storage, applyEffect_basePath]

namespace Grounded

variable {ids : Set String} {base : String} {w : World φ π} {c' : KdeConnectClient φ π}

/-- A thread goes on without a session of its own. -/
theorem proceed (h : Grounded ids base w) (hc : SameNames w.client c') (thread : Nat)
    {attempt : Option Attempt} (hids : ∀ a, attempt = some a → a.identity.id ∈ ids)
    (hphase : ∀ identity ref, attempt ≠ some ⟨identity, .made ref⟩) :
    Grounded ids base (w.proceed thread c' attempt) := by
  have hmade : ∀ t identity ref,
      (w.proceed thread c' attempt).attempts t = some ⟨identity, .made ref⟩ →
      w.attempts t = some ⟨identity, .made ref⟩ := by
    intro t identity ref ht
    by_cases heq : t = thread
    · subst heq
      rw [proceed_attempts] at ht
      exact absurd ht (hphase identity ref)
    · rw [← proceed_attempts_ne w c' attempt heq]
      exact ht
  refine ⟨?_, ?_, ?_, ?_, ?_, ?_, ?_⟩
  · intro deviceId ref hd
    rw [proceed_client, hc.device] at hd
    rw [proceed_client, hc.next, hc.info]
    exact h.table deviceId ref hd
  · intro ref href
    rw [proceed_client, hc.next] at href
    rw [proceed_client, hc.info]
    exact h.sessions ref href
  · intro t a ht
    by_cases heq : t = thread
    · subst heq
      rw [proceed_attempts] at ht
      exact hids a ht
    · rw [proceed_attempts_ne w c' attempt heq] at ht
      exact h.threads t a ht
  · intro t identity ref ht
    rw [proceed_client, hc.next, hc.info]
    exact h.made t identity ref (hmade t identity ref ht)
  · intro t identity ref ht deviceId
    rw [proceed_client, hc.device]
    exact h.outside t identity ref (hmade t identity ref ht) deviceId
  · intro t t' identity identity' ref ht ht'
    exact h.apart t t' identity identity' ref (hmade t identity ref ht) (hmade t' identity' ref ht')
  · rw [proceed_client, hc.basePath]
    exact h.basePath

/-- A session changes otherwise than by name. -/
theorem operate (h : Grounded ids base w) (hc : SameNames w.client c') :
    Grounded ids base (w.operate c') := by
  refine ⟨?_, ?_, h.threads, ?_, ?_, h.apart, ?_⟩
  · intro deviceId ref hd
    rw [operate_client, hc.device] at hd
    rw [operate_client, hc.next, hc.info]
    exact h.table deviceId ref hd
  · intro ref href
    rw [operate_client, hc.next] at href
    rw [operate_client, hc.info]
    exact h.sessions ref href
  · intro t identity ref ht
    rw [operate_client, hc.next, hc.info]
    exact h.made t identity ref ht
  · intro t identity ref ht deviceId
    rw [operate_client, hc.device]
    exact h.outside t identity ref ht deviceId
  · rw [operate_client, hc.basePath]
    exact h.basePath

/-- A thread makes its session. -/
theorem allocate (h : Grounded ids base w) {thread : Nat} {identity : DeviceInfo}
    (hid : identity.id ∈ ids) {s : DeviceSession π} (hs : s.info.id = identity.id) :
    Grounded ids base (w.proceed thread (Connection.allocate s w.client)
      (some ⟨identity, .made w.client.next⟩)) := by
  have hnew := allocate_heap s w.client
  have hold : ∀ {ref}, ref < w.client.next → (Connection.allocate s w.client).heap ref =
      w.client.heap ref := allocate_heap_ne s
  -- a thread that has made a session is this one, or was one before
  have hmade : ∀ t identity' ref,
      (w.proceed thread (Connection.allocate s w.client)
        (some ⟨identity, .made w.client.next⟩)).attempts t = some ⟨identity', .made ref⟩ →
      (t = thread ∧ identity' = identity ∧ ref = w.client.next) ∨
        (t ≠ thread ∧ ref < w.client.next ∧ w.attempts t = some ⟨identity', .made ref⟩) := by
    intro t identity' ref ht
    by_cases heq : t = thread
    · subst heq
      rw [proceed_attempts] at ht
      cases ht
      exact .inl ⟨rfl, rfl, rfl⟩
    · rw [proceed_attempts_ne w _ _ heq] at ht
      exact .inr ⟨heq, (h.made t identity' ref ht).1, ht⟩
  refine ⟨?_, ?_, ?_, ?_, ?_, ?_, h.basePath⟩
  · intro deviceId ref hd
    obtain ⟨href, hinfo⟩ := h.table deviceId ref hd
    refine ⟨Nat.lt_succ_of_lt href, ?_⟩
    rw [proceed_client, hold href]
    exact hinfo
  · intro ref href
    rw [proceed_client]
    rcases Nat.lt_succ_iff_lt_or_eq.mp href with hlt | rfl
    · rw [hold hlt]
      exact h.sessions ref hlt
    · rw [hnew, hs]
      exact hid
  · intro t a ht
    by_cases heq : t = thread
    · subst heq
      rw [proceed_attempts] at ht
      cases ht
      exact hid
    · rw [proceed_attempts_ne w _ _ heq] at ht
      exact h.threads t a ht
  · intro t identity' ref ht
    rw [proceed_client]
    rcases hmade t identity' ref ht with ⟨-, rfl, rfl⟩ | ⟨-, href, ht⟩
    · rw [hnew]
      exact ⟨Nat.lt_succ_self _, hs⟩
    · rw [hold href]
      exact ⟨Nat.lt_succ_of_lt href, (h.made t identity' ref ht).2⟩
  · intro t identity' ref ht deviceId hd
    rcases hmade t identity' ref ht with ⟨-, -, rfl⟩ | ⟨-, -, ht⟩
    · exact absurd (h.table deviceId _ hd).1 (Nat.lt_irrefl _)
    · exact h.outside t identity' ref ht deviceId hd
  · intro t t' identity' identity'' ref ht ht'
    rcases hmade t identity' ref ht with ⟨heq, -, href⟩ | ⟨hne, href, ht⟩ <;>
      rcases hmade t' identity'' ref ht' with ⟨heq', -, href'⟩ | ⟨hne', href', ht'⟩
    · rw [heq, heq']
    · omega
    · omega
    · exact h.apart t t' identity' identity'' ref ht ht'

/-- A thread ends with its session in the table. -/
theorem install (h : Grounded ids base w) {thread : Nat} {identity : DeviceInfo} {ref : Nat}
    (hthread : w.attempts thread = some ⟨identity, .made ref⟩)
    (hc : SameNames (Connection.install ref w.client) c') :
    Grounded ids base (w.proceed thread c' none) := by
  obtain ⟨hstorage, hnext, hinfo⟩ := install_frame ref w.client
  have hmade : ∀ t identity' ref',
      (w.proceed thread c' none).attempts t = some ⟨identity', .made ref'⟩ →
      ref' ≠ ref ∧ w.attempts t = some ⟨identity', .made ref'⟩ := by
    intro t identity' ref' ht
    by_cases heq : t = thread
    · subst heq
      rw [proceed_attempts] at ht
      cases ht
    · rw [proceed_attempts_ne w _ _ heq] at ht
      refine ⟨?_, ht⟩
      rintro rfl
      exact heq (h.apart t thread identity' identity _ ht hthread)
  have hdevice : ∀ deviceId ref', c'.device deviceId = some ref' →
      (ref' = ref ∧ deviceId = (w.client.heap ref).info.id) ∨
        w.client.device deviceId = some ref' := by
    intro deviceId ref' hd
    rw [hc.device] at hd
    by_cases heq : deviceId = (w.client.heap ref).info.id
    · rw [heq, install_device] at hd
      exact .inl ⟨(Option.some.inj hd).symm, heq⟩
    · rw [install_device_ne heq] at hd
      exact .inr hd
  have hinfo' : ∀ ref', (c'.heap ref').info = (w.client.heap ref').info := by
    intro ref'
    rw [hc.info, hinfo]
  have hnext' : c'.next = w.client.next := by rw [hc.next, hnext]
  refine ⟨?_, ?_, ?_, ?_, ?_, ?_, ?_⟩
  · intro deviceId ref' hd
    rw [proceed_client, hnext', hinfo']
    rcases hdevice deviceId ref' hd with ⟨rfl, hid⟩ | hd
    · exact ⟨(h.made thread identity ref' hthread).1, hid.symm⟩
    · exact h.table deviceId ref' hd
  · intro ref' href
    rw [proceed_client, hnext'] at href
    rw [proceed_client, hinfo']
    exact h.sessions ref' href
  · intro t a ht
    by_cases heq : t = thread
    · subst heq
      rw [proceed_attempts] at ht
      cases ht
    · rw [proceed_attempts_ne w _ _ heq] at ht
      exact h.threads t a ht
  · intro t identity' ref' ht
    rw [proceed_client, hnext', hinfo']
    exact h.made t identity' ref' (hmade t identity' ref' ht).2
  · intro t identity' ref' ht deviceId hd
    obtain ⟨hne, ht⟩ := hmade t identity' ref' ht
    rcases hdevice deviceId ref' hd with ⟨heq, -⟩ | hd
    · exact hne heq
    · exact h.outside t identity' ref' ht deviceId hd
  · intro t t' identity' identity'' ref' ht ht'
    exact h.apart t t' identity' identity'' ref' (hmade t identity' ref' ht).2
      (hmade t' identity'' ref' ht').2
  · rw [proceed_client, hc.basePath, hstorage]
    exact h.basePath

end Grounded

end Names

section Runs

variable {φ π ε : Type} [FileSystem φ] [PluginHost π ε]

omit [PluginHost π ε] in
/-- A load leaves the store where it is. -/
theorem loadPairedDevice_basePath (y : Yyjson) (deviceId : String) (s : Storage φ) :
    (loadPairedDevice y deviceId s).2.basePath = s.basePath := by
  simp only [loadPairedDevice]
  split
  · rfl
  · split <;> rfl

/-- The events about given devices. -/
abbrev EventOf (ε : Type) (ids : Set String) : Type := { e : Event ε // e.Concerns ids }

def stepOf (y : Yyjson) {ids : Set String} (w : World φ π) (e : EventOf ε ids) : World φ π :=
  step y w e.val

/-- Events that are all about given devices. -/
def eventsOf {ε : Type} {ids : Set String} (events : List (Event ε))
    (h : ∀ e ∈ events, e.Concerns ids) : List (EventOf ε ids) :=
  events.pmap Subtype.mk h

omit [FileSystem φ] [PluginHost π ε] in
theorem map_eventsOf {ids : Set String} (events : List (Event ε))
    (h : ∀ e ∈ events, e.Concerns ids) : (eventsOf events h).map Subtype.val = events := by
  simp only [eventsOf, List.map_pmap, List.pmap_eq_map, List.map_id']

/-- They make the run of the events as such, -/
theorem run_eventsOf (y : Yyjson) {ids : Set String} (w : World φ π) (events : List (Event ε))
    (h : ∀ e ∈ events, e.Concerns ids) :
    run (stepOf y) w (eventsOf events h) = run (step y) w events := by
  have hrun : id (run (stepOf y) w (eventsOf events h)) =
      run (step y) (id w) ((eventsOf events h).map Subtype.val) :=
    run_map (P := fun _ => True) (fun _ _ _ => trivial) (fun _ _ _ => rfl) trivial _
  rw [map_eventsOf] at hrun
  exact hrun

/-- and have its step properties. -/
theorem everyStep_eventsOf (y : Yyjson) {ids : Set String} (w : World φ π)
    (Q : World φ π → Event ε → Prop) (events : List (Event ε))
    (h : ∀ e ∈ events, e.Concerns ids) :
    EveryStep (stepOf y) (fun w e => Q w e.val) w (eventsOf events h) ↔
      EveryStep (step y) Q w events := by
  have hstep : EveryStep (step y) Q (id w) ((eventsOf events h).map Subtype.val) ↔
      EveryStep (stepOf y) (fun w e => Q (id w) e.val) w (eventsOf events h) :=
    everyStep_map (P := fun _ => True) (fun _ _ _ => trivial) (fun _ _ _ => rfl) trivial Q _
  rw [map_eventsOf] at hstep
  exact hstep.symm

/-- A step about the given devices keeps the world grounded in them. -/
theorem step_grounded (y : Yyjson) {ids : Set String} {base : String} {w : World φ π}
    (h : Grounded ids base w) {e : Event ε} (he : e.Concerns ids) :
    Grounded ids base (step y w e) := by
  have hrefl := SameCores.refl w.client
  have houtcome := step_outcome y h.table e
  generalize step y w e = w' at houtcome ⊢
  cases houtcome with
  | idle => exact h
  | checked thread identity =>
    refine h.proceed (sameNames_of_sameCores hrefl) thread ?_ (by simp)
    rintro a ⟨⟩
    exact he.1 thread identity rfl
  | loaded thread identity hthread =>
    refine h.proceed ?_ thread ?_ (by simp)
    · exact ⟨fun _ => rfl, fun _ => rfl, rfl, loadPairedDevice_basePath y _ _⟩
    · rintro a ⟨⟩
      exact h.threads thread ⟨identity, .checked⟩ hthread
  | dropped thread tcpServerSide io =>
    exact h.proceed (sameNames_of_sameCores hrefl) thread (by simp) (by simp)
  | made thread tcpServerSide io identity stored s hthread hs =>
    exact h.allocate (h.threads thread _ hthread) (makeSession_some hs).1
  | installed thread m showOnConnect identity ref hthread =>
    exact h.install hthread (sameNames_of_sameCores
      (sameCores_announce m identity showOnConnect ref (Connection.install ref w.client)))
  | heard ref m body c' href hf => exact h.operate (sameNames_of_follows hf)
  | ended ref c' href hf => exact h.operate (sameNames_of_follows hf)
  | asked e deviceId ref act c' he' hact hcurrent hf => exact h.operate (sameNames_of_follows hf)
  | forgotten deviceId m hnone =>
    exact h.operate ⟨fun _ => rfl, fun _ => rfl, rfl, rfl⟩

/-- As the client starts: no session, and no connection on its way. -/
structure Started (w : World φ π) : Prop where
  sessions : w.client.sessions = []
  next : w.client.next = 0
  attempts : ∀ thread, w.attempts thread = none

omit [FileSystem φ] in
theorem Started.device {w : World φ π} (h : Started w) (deviceId : String) :
    w.client.device deviceId = none := by
  rw [KdeConnectClient.device, h.sessions]
  rfl

omit [FileSystem φ] in
theorem Started.grounded {w : World φ π} (h : Started w) (ids : Set String) :
    Grounded ids w.client.storage.basePath w := by
  have hthread : ∀ thread attempt, w.attempts thread ≠ some attempt := by
    intro thread attempt ht
    rw [h.attempts] at ht
    cases ht
  refine ⟨?_, ?_, ?_, ?_, ?_, ?_, rfl⟩
  · intro deviceId ref hd
    rw [h.device] at hd
    cases hd
  · intro ref href
    rw [h.next] at href
    exact absurd href (Nat.not_lt_zero ref)
  · intro thread attempt ht
    exact absurd ht (hthread thread attempt)
  · intro thread identity ref ht
    exact absurd ht (hthread thread _)
  · intro thread identity ref ht
    exact absurd ht (hthread thread _)
  · intro thread thread' identity identity' ref ht
    exact absurd ht (hthread thread _)

end Runs

end KdeConnectNx.ConnectionRuns
