import Mathlib.Data.List.Nodup
import KdeConnectNx.ConnectionRuns

/-!
# The table of sessions under concurrent connections

Any number of runs of `handle_new_connection`, the io threads of the sessions
they start, and a final `stop()`, each in the steps that others can come
between. A session runs before it is in the table, and the one it replaces is
closed after it has left the table; what a plugin replies looks for its
session in the table each time.
-/

namespace KdeConnectNx.SessionTable

open Runs PacketBody PacketFormat PairedFiles Sessions Pairing Connection
open KdeConnectClient (setStorage modify push sendAll)
open RecordStream (phone)

/-- How far a run of `handle_new_connection` has come, with what it has found
so far. -/
inductive Stage where
  /-- No live session was found. -/
  | checked
  | loaded (stored : Option PairedDeviceInfo)
  /-- The session object is made and its io thread started. -/
  | started (ref : Nat)
  /-- The session is in the table, in the place of an old one or of none. -/
  | entered (ref : Nat) (old : Option Nat)
  /-- The old session is closed. -/
  | cleaned (ref : Nat)

structure ConnectionRun where
  identity : DeviceInfo
  stage : Stage

/-- How far `stop()` has come. -/
inductive Stopping where
  | no
  /-- `running_` is false, and the threads are being joined. -/
  | joining
  /-- The table is empty; sessions that were in it are still to be closed. -/
  | closing (toStop : List Nat)

/-- What the io thread of a session is at. -/
structure IoThread where
  /-- Packets a plugin sends in reply to the one being handled. -/
  replies : List NetworkPacket := []
  /-- What `device` gave for the first of them, once it was asked. -/
  found : Option (Option Nat) := none
  ended : Bool := false

structure World (φ π : Type) where
  client : KdeConnectClient φ π
  runs : Nat → Option ConnectionRun := fun _ => none
  /-- The number of runs there have been. -/
  spawned : Nat := 0
  io : Nat → IoThread := fun _ => {}
  stopping : Stopping := .no

inductive Event (ε : Type) where
  /-- A thread enters `handle_new_connection` and passes the first checks. -/
  | check (identity : DeviceInfo)
  | load (n : Nat)
  | connect (n : Nat) (tcpServerSide : Bool) (io : ConnectionIo)
  | enter (n : Nat)
  | cleanUp (n : Nat)
  | announce (n : Nat) (m : Moment ε) (showOnConnect : Bool)
  /-- An io thread reads a line and gives it to the plugins. -/
  | receive (ref : Nat) (m : Moment ε) (line : List UInt8)
  /-- `send_packet` looks for the session of the device. -/
  | lookUp (ref : Nat)
  /-- It goes on with what it found. -/
  | append (ref : Nat) (m : Moment ε)
  /-- The io thread ends. -/
  | lost (ref : Nat)
  | stop
  /-- Every thread is joined, and `stop()` empties the table. -/
  | clear
  /-- `stop()` closes the next session. -/
  | close

section Steps

variable {φ π ε : Type}

/-- A session takes its device's place in the table. -/
def enter (ref : Nat) (c : KdeConnectClient φ π) : KdeConnectClient φ π :=
  let id := (c.heap ref).info.id
  { c with sessions := (id, ref) :: c.sessions.filter fun entry => entry.1 != id }

/-- The session that was replaced is closed. -/
def cleanUp (old : Option Nat) (c : KdeConnectClient φ π) : KdeConnectClient φ π :=
  old.elim c fun oldRef => c.modify oldRef DeviceSession.markDisconnected

/-- A session enters the table and the one it replaces is closed. -/
theorem install_eq (ref : Nat) (c : KdeConnectClient φ π) :
    install ref c = cleanUp (c.device (c.heap ref).info.id) (enter ref c) := rfl

/-- The session a packet of a plugin goes to, when there is one and it is
connected. -/
def appendTo (m : Moment ε) (pkt : NetworkPacket) (found : Option Nat)
    (c : KdeConnectClient φ π) : KdeConnectClient φ π :=
  match found with
  | none => c
  | some ref => if (c.heap ref).disconnected then c else c.modify ref (push m pkt)

/-- The look-up and the append in a row are `send_packet`. -/
theorem sendPacket_eq (m : Moment ε) (deviceId : String) (pkt : NetworkPacket)
    (c : KdeConnectClient φ π) :
    (KdeConnectClient.sendPacket m deviceId pkt c).2 = appendTo m pkt (c.device deviceId) c := by
  unfold KdeConnectClient.sendPacket appendTo
  cases c.device deviceId with
  | none => rfl
  | some ref => cases h : (c.heap ref).disconnected <;> simp [h]

/-- The table is what it is after the whole installation. -/
theorem cleanUp_sessions (old : Option Nat) (c : KdeConnectClient φ π) :
    (cleanUp old c).sessions = c.sessions := by
  cases old <;> rfl

/-- Only the session that is replaced changes. -/
theorem cleanUp_heap (c : KdeConnectClient φ π) {old : Option Nat} {ref : Nat}
    (h : old ≠ some ref) : (cleanUp old c).heap ref = c.heap ref := by
  cases old with
  | none => rfl
  | some other =>
    refine KdeConnectClient.modify_heap_ne c ?_ _
    rintro rfl
    exact h rfl

/-- After its entry a session is found under its id, -/
theorem enter_device (ref : Nat) (c : KdeConnectClient φ π) :
    (enter ref c).device (c.heap ref).info.id = some ref := by
  have h := install_device ref c
  unfold KdeConnectClient.device at h ⊢
  rw [install_eq, cleanUp_sessions] at h
  exact h

/-- and other devices keep their sessions. -/
theorem enter_device_ne {ref : Nat} {c : KdeConnectClient φ π} {deviceId : String}
    (h : deviceId ≠ (c.heap ref).info.id) : (enter ref c).device deviceId = c.device deviceId := by
  have h' := install_device_ne h
  unfold KdeConnectClient.device at h' ⊢
  rw [install_eq, cleanUp_sessions] at h'
  exact h'

variable [FileSystem φ] [PluginHost π ε]

/-- `handle_packet` up to the packets that the plugins send, which are given
with the client. -/
def hear (y : Yyjson) (m : Moment ε) (ref : Nat) (line : List UInt8)
    (c : KdeConnectClient φ π) : KdeConnectClient φ π × List NetworkPacket :=
  match NetworkPacket.parse y line with
  | none => (c, [])
  | some pkt =>
    if pkt.type = PacketTypes.pair then (handlePairPacket y m ref pkt.body c, [])
    else if !(c.heap ref).paired then (c, [])
    else
      let r := offer m.env pkt (c.heap ref).plugins
      (c.modify ref fun s => { s with plugins := r.1 }, r.2)

/-- With the packets sent in a row it is `handle_packet`. -/
theorem handlePacket_eq (y : Yyjson) (m : Moment ε) (ref : Nat) (line : List UInt8)
    (c : KdeConnectClient φ π) :
    handlePacket y m ref line c =
      sendAll m (c.heap ref).info.id (hear y m ref line c).2 (hear y m ref line c).1 := by
  unfold handlePacket hear
  cases NetworkPacket.parse y line with
  | none => rfl
  | some pkt =>
    dsimp only
    split
    · rfl
    · split
      · rfl
      · rfl

/-- A run goes on to its next stage, or ends. -/
def World.proceed (w : World φ π) (n : Nat) (client : KdeConnectClient φ π)
    (run : Option ConnectionRun) : World φ π :=
  { w with client := client, runs := Function.update w.runs n run }

omit [FileSystem φ] [PluginHost π ε] in
/-- The run that goes on is where it goes, and every other where it was. -/
theorem proceed_runs {w : World φ π} {n k : Nat} {client : KdeConnectClient φ π}
    {new : Option ConnectionRun} {run : ConnectionRun}
    (h : (w.proceed n client new).runs k = some run) :
    (k = n ∧ new = some run) ∨ (k ≠ n ∧ w.runs k = some run) := by
  unfold World.proceed at h
  dsimp only at h
  by_cases heq : k = n
  · rw [heq, Function.update_self] at h
    exact .inl ⟨heq, h⟩
  · rw [Function.update_of_ne heq] at h
    exact .inr ⟨heq, h⟩

omit [FileSystem φ] [PluginHost π ε] in
@[simp] theorem proceed_runs_self (w : World φ π) (n : Nat) (client : KdeConnectClient φ π)
    (new : Option ConnectionRun) : (w.proceed n client new).runs n = new :=
  Function.update_self ..

omit [FileSystem φ] [PluginHost π ε] in
theorem proceed_runs_ne (w : World φ π) {n k : Nat} (h : k ≠ n) (client : KdeConnectClient φ π)
    (new : Option ConnectionRun) : (w.proceed n client new).runs k = w.runs k :=
  Function.update_of_ne h ..

/-- An io thread goes on. -/
def World.thread (w : World φ π) (ref : Nat) (client : KdeConnectClient φ π)
    (io : IoThread) : World φ π :=
  { w with client := client, io := Function.update w.io ref io }

/-- One step. An event no thread is ready for changes nothing. -/
def step (y : Yyjson) (w : World φ π) : Event ε → World φ π
  | .check identity =>
    match w.stopping with
    | .closing _ => w
    | _ =>
      if admitted w.client identity then
        { w.proceed w.spawned w.client (some ⟨identity, .checked⟩) with spawned := w.spawned + 1 }
      else w
  | .load n =>
    match w.runs n with
    | some ⟨identity, .checked⟩ =>
      let loaded := loadPairedDevice y identity.id w.client.storage
      w.proceed n (setStorage w.client loaded.2) (some ⟨identity, .loaded loaded.1⟩)
    | _ => w
  | .connect n tcpServerSide io =>
    match w.runs n with
    | some ⟨identity, .loaded stored⟩ =>
      match makeSession y identity tcpServerSide io stored with
      | none => w.proceed n w.client none
      | some s => w.proceed n (allocate s w.client) (some ⟨identity, .started w.client.next⟩)
    | _ => w
  | .enter n =>
    match w.runs n with
    | some ⟨identity, .started ref⟩ =>
      w.proceed n (enter ref w.client)
        (some ⟨identity, .entered ref (w.client.device (w.client.heap ref).info.id)⟩)
    | _ => w
  | .cleanUp n =>
    match w.runs n with
    | some ⟨identity, .entered ref old⟩ =>
      w.proceed n (cleanUp old w.client) (some ⟨identity, .cleaned ref⟩)
    | _ => w
  | .announce n m showOnConnect =>
    match w.runs n with
    | some ⟨identity, .cleaned ref⟩ =>
      w.proceed n (announce m identity showOnConnect ref w.client) none
    | _ => w
  | .receive ref m line =>
    match w.io ref with
    | ⟨[], none, false⟩ =>
      if ref < w.client.next then
        let r := hear y m ref line w.client
        w.thread ref r.1 { replies := r.2 }
      else w
    | _ => w
  | .lookUp ref =>
    match w.io ref with
    | ⟨pkt :: rest, none, false⟩ =>
      w.thread ref w.client
        ⟨pkt :: rest, some (w.client.device (w.client.heap ref).info.id), false⟩
    | _ => w
  | .append ref m =>
    match w.io ref with
    | ⟨pkt :: rest, some found, false⟩ =>
      w.thread ref (appendTo m pkt found w.client) { replies := rest }
    | _ => w
  | .lost ref =>
    match w.io ref with
    | ⟨[], none, false⟩ =>
      if ref < w.client.next then
        w.thread ref (w.client.modify ref DeviceSession.markDisconnected) { ended := true }
      else w
    | _ => w
  | .stop =>
    match w.stopping with
    | .no => { w with stopping := .joining }
    | _ => w
  | .clear =>
    match w.stopping with
    | .joining =>
      if ∀ n < w.spawned, (w.runs n).isNone = true then
        { w with
          client := { w.client with sessions := [] }
          stopping := .closing (w.client.sessions.map (·.2)) }
      else w
    | _ => w
  | .close =>
    match w.stopping with
    | .closing (ref :: rest) =>
      { w with
        client := w.client.modify ref DeviceSession.markDisconnected
        stopping := .closing rest }
    | _ => w

/-- The stages of one run in a row. -/
def stages (n : Nat) (identity : DeviceInfo) (tcpServerSide : Bool) (io : ConnectionIo)
    (m : Moment ε) : List (Event ε) :=
  [.check identity, .load n, .connect n tcpServerSide io, .enter n, .cleanUp n,
    .announce n m io.showOnConnect]

/-- What a step leads to, with what is known where it does. -/
inductive Outcome (y : Yyjson) (w : World φ π) : Event ε → World φ π → Prop
  | idle (e : Event ε) : Outcome y w e w
  | checked (identity : DeviceInfo) (hopen : ∀ toStop, w.stopping ≠ .closing toStop)
      (ha : admitted w.client identity = true) :
    Outcome y w (.check identity)
      { w.proceed w.spawned w.client (some ⟨identity, .checked⟩) with spawned := w.spawned + 1 }
  | loaded (n : Nat) (identity : DeviceInfo) (hn : w.runs n = some ⟨identity, .checked⟩) :
    Outcome y w (.load n)
      (w.proceed n (setStorage w.client (loadPairedDevice y identity.id w.client.storage).2)
        (some ⟨identity, .loaded (loadPairedDevice y identity.id w.client.storage).1⟩))
  | dropped (n : Nat) (tcpServerSide : Bool) (io : ConnectionIo) (identity : DeviceInfo)
      (stored : Option PairedDeviceInfo) (hn : w.runs n = some ⟨identity, .loaded stored⟩) :
    Outcome y w (.connect n tcpServerSide io) (w.proceed n w.client none)
  | started (n : Nat) (tcpServerSide : Bool) (io : ConnectionIo) (identity : DeviceInfo)
      (stored : Option PairedDeviceInfo) (s : DeviceSession π)
      (hn : w.runs n = some ⟨identity, .loaded stored⟩)
      (hs : makeSession y identity tcpServerSide io stored = some s) :
    Outcome y w (.connect n tcpServerSide io)
      (w.proceed n (allocate s w.client) (some ⟨identity, .started w.client.next⟩))
  | entered (n : Nat) (identity : DeviceInfo) (ref : Nat)
      (hn : w.runs n = some ⟨identity, .started ref⟩) :
    Outcome y w (.enter n)
      (w.proceed n (enter ref w.client)
        (some ⟨identity, .entered ref (w.client.device (w.client.heap ref).info.id)⟩))
  | cleaned (n : Nat) (identity : DeviceInfo) (ref : Nat) (old : Option Nat)
      (hn : w.runs n = some ⟨identity, .entered ref old⟩) :
    Outcome y w (.cleanUp n) (w.proceed n (cleanUp old w.client) (some ⟨identity, .cleaned ref⟩))
  | announced (n : Nat) (m : Moment ε) (showOnConnect : Bool) (identity : DeviceInfo) (ref : Nat)
      (hn : w.runs n = some ⟨identity, .cleaned ref⟩) :
    Outcome y w (.announce n m showOnConnect)
      (w.proceed n (announce m identity showOnConnect ref w.client) none)
  | received (ref : Nat) (m : Moment ε) (line : List UInt8) (hio : w.io ref = ⟨[], none, false⟩)
      (href : ref < w.client.next) :
    Outcome y w (.receive ref m line)
      (w.thread ref (hear y m ref line w.client).1 { replies := (hear y m ref line w.client).2 })
  | lookedUp (ref : Nat) (pkt : NetworkPacket) (rest : List NetworkPacket)
      (hio : w.io ref = ⟨pkt :: rest, none, false⟩) :
    Outcome y w (.lookUp ref)
      (w.thread ref w.client
        ⟨pkt :: rest, some (w.client.device (w.client.heap ref).info.id), false⟩)
  | appended (ref : Nat) (m : Moment ε) (pkt : NetworkPacket) (rest : List NetworkPacket)
      (found : Option Nat) (hio : w.io ref = ⟨pkt :: rest, some found, false⟩) :
    Outcome y w (.append ref m)
      (w.thread ref (appendTo m pkt found w.client) { replies := rest })
  | lost (ref : Nat) (href : ref < w.client.next) :
    Outcome y w (.lost ref)
      (w.thread ref (w.client.modify ref DeviceSession.markDisconnected) { ended := true })
  | stopped (hopen : w.stopping = .no) : Outcome y w .stop { w with stopping := .joining }
  | cleared (hjoining : w.stopping = .joining)
      (hjoined : ∀ n < w.spawned, (w.runs n).isNone = true) :
    Outcome y w .clear
      { w with
        client := { w.client with sessions := [] }
        stopping := .closing (w.client.sessions.map (·.2)) }
  | closed (ref : Nat) (rest : List Nat) (hclosing : w.stopping = .closing (ref :: rest)) :
    Outcome y w .close
      { w with
        client := w.client.modify ref DeviceSession.markDisconnected
        stopping := .closing rest }

/-- Every step has an outcome. -/
theorem step_outcome (y : Yyjson) (w : World φ π) (e : Event ε) : Outcome y w e (step y w e) := by
  cases e with
  | check identity =>
    simp only [step]
    split
    · exact .idle _
    · rename_i hopen
      split
      · rename_i ha
        exact .checked identity hopen ha
      · exact .idle _
  | load n =>
    simp only [step]
    split
    · rename_i identity hn
      exact .loaded n identity hn
    · exact .idle _
  | connect n tcpServerSide io =>
    simp only [step]
    split
    · rename_i identity stored hn
      split
      · exact .dropped n tcpServerSide io identity stored hn
      · rename_i s hs
        exact .started n tcpServerSide io identity stored s hn hs
    · exact .idle _
  | enter n =>
    simp only [step]
    split
    · rename_i identity ref hn
      exact .entered n identity ref hn
    · exact .idle _
  | cleanUp n =>
    simp only [step]
    split
    · rename_i identity ref old hn
      exact .cleaned n identity ref old hn
    · exact .idle _
  | announce n m showOnConnect =>
    simp only [step]
    split
    · rename_i identity ref hn
      exact .announced n m showOnConnect identity ref hn
    · exact .idle _
  | receive ref m line =>
    simp only [step]
    split
    · rename_i hio
      split
      · rename_i href
        exact .received ref m line hio href
      · exact .idle _
    · exact .idle _
  | lookUp ref =>
    simp only [step]
    split
    · rename_i pkt rest hio
      exact .lookedUp ref pkt rest hio
    · exact .idle _
  | append ref m =>
    simp only [step]
    split
    · rename_i pkt rest found hio
      exact .appended ref m pkt rest found hio
    · exact .idle _
  | lost ref =>
    simp only [step]
    split
    · split
      · rename_i href
        exact .lost ref href
      · exact .idle _
    · exact .idle _
  | stop =>
    simp only [step]
    split
    · rename_i hopen
      exact .stopped hopen
    · exact .idle _
  | clear =>
    simp only [step]
    split
    · rename_i hjoining
      split
      · rename_i hjoined
        exact .cleared hjoining hjoined
      · exact .idle _
    · exact .idle _
  | close =>
    simp only [step]
    split
    · rename_i ref rest hclosing
      exact .closed ref rest hclosing
    · exact .idle _

/-- A run that is not interrupted does what `handle_new_connection` does. -/
theorem run_stages (y : Yyjson) {w : World φ π} (hopen : w.stopping = .no)
    (hfree : w.runs w.spawned = none) {identity : DeviceInfo}
    (ha : admitted w.client identity = true) (tcpServerSide : Bool) (io : ConnectionIo)
    (m : Moment ε) :
    run (step y) w (stages w.spawned identity tcpServerSide io m) =
      { w with
        client := handleNewConnection y m identity tcpServerSide io w.client
        spawned := w.spawned + 1 } := by
  have hsame : Function.update w.runs w.spawned none = w.runs := by
    rw [← hfree, Function.update_eq_self]
  simp only [stages, run_cons, run_nil, step, hopen, ha, handleNewConnection, World.proceed,
    Function.update_self, Function.update_idem, if_true, Bool.not_true, Bool.false_eq_true,
    if_false]
  cases hs : makeSession (π := π) y identity tcpServerSide io
      (loadPairedDevice y identity.id w.client.storage).1 with
  | none => simp [hsame, hfree]
  | some s => simp [hsame, KdeConnectClient.setStorage, install_eq]

end Steps

section Frames

variable {φ π ε : Type} {c c' c'' : KdeConnectClient φ π}

/-- The table is the same, and so is whose the sessions are; none of them is
connected again. -/
structure SameTable (c c' : KdeConnectClient φ π) : Prop where
  info : ∀ ref, (c'.heap ref).info = (c.heap ref).info
  disconnected : ∀ ref, (c.heap ref).disconnected = true → (c'.heap ref).disconnected = true
  sessions : c'.sessions = c.sessions
  localDevice : c'.localDevice = c.localDevice
  next : c'.next = c.next

theorem SameTable.refl (c : KdeConnectClient φ π) : SameTable c c :=
  ⟨fun _ => rfl, fun _ h => h, rfl, rfl, rfl⟩

theorem SameTable.device (h : SameTable c c') (deviceId : String) :
    c'.device deviceId = c.device deviceId := by
  unfold KdeConnectClient.device
  rw [h.sessions]

theorem sameTable_of_sameCores (h : SameCores c c') : SameTable c c' where
  info := h.info
  disconnected := by
    intro ref hdown
    rw [h.disconnected, hdown]
  sessions := h.sessions
  localDevice := h.localDevice
  next := h.next

/-- A change to one session that keeps whose it is. -/
theorem sameTable_modify (c : KdeConnectClient φ π) (ref : Nat)
    {f : DeviceSession π → DeviceSession π} (hinfo : ∀ s, (f s).info = s.info)
    (hdown : ∀ s, s.disconnected = true → (f s).disconnected = true) :
    SameTable c (c.modify ref f) where
  info := KdeConnectClient.modify_info c ref hinfo
  disconnected := by
    intro other h
    by_cases hother : other = ref
    · subst hother
      rw [KdeConnectClient.modify_heap_self]
      exact hdown _ h
    · rw [KdeConnectClient.modify_heap_ne c hother]
      exact h
  sessions := rfl
  localDevice := rfl
  next := rfl

theorem sameTable_close (c : KdeConnectClient φ π) (ref : Nat) :
    SameTable c (c.modify ref DeviceSession.markDisconnected) :=
  sameTable_modify c ref (fun _ => rfl) fun _ _ => rfl

theorem sameTable_appendTo (m : Moment ε) (pkt : NetworkPacket) (found : Option Nat)
    (c : KdeConnectClient φ π) : SameTable c (appendTo m pkt found c) := by
  unfold appendTo
  split
  · exact SameTable.refl c
  · split
    · exact SameTable.refl c
    · exact sameTable_modify c _ (fun _ => rfl) fun _ h => h

/-- Nothing that is read from a session changes the table. -/
theorem sameTable_hear [FileSystem φ] [PluginHost π ε] (y : Yyjson) (m : Moment ε) (ref : Nat)
    (line : List UInt8) (c : KdeConnectClient φ π) : SameTable c (hear y m ref line c).1 := by
  unfold hear
  split
  · exact SameTable.refl c
  · rename_i pkt _
    split
    · have hf := follows_handlePairPacketTimed y
        (timely m.seconds (pkt.body.valueI64 "timestamp" 0)) m ref pkt.body c
      have hlink := PairingRuns.link_of_follows hf (by simp)
      refine ⟨(ConnectionRuns.sameNames_of_follows hf).info, ?_, hf.sessions, hf.localDevice,
        hf.next⟩
      intro other hdown
      by_cases hother : other = ref
      · rw [hother] at hdown ⊢
        exact hlink.1.trans hdown
      · have hcore := congrArg Core.disconnected (hf.others other hother)
        exact hcore.trans hdown
    · split
      · exact SameTable.refl c
      · dsimp only
        refine sameTable_modify c ref ?_ ?_
        · intro s
          rfl
        · intro s h
          exact h

end Frames

/-! ## Where every session is accounted for -/

/-- The session of the run is not between its start and the clean-up. -/
def Stage.settled : Stage → Bool
  | .started _ => false
  | .entered _ _ => false
  | _ => true

/-- The sessions that `stop()` has taken out of the table and not closed yet. -/
def Stopping.toStop : Stopping → List Nat
  | .closing toStop => toStop
  | _ => []

/-- An id that a session can be for. -/
def ForeignId (localDevice : DeviceInfo) (id : String) : Prop := id ≠ "" ∧ id ≠ localDevice.id

section Invariant

variable {φ π ε : Type}

/-- Where a session is, seen from the table. -/
inductive Accounted (w : World φ π) (ref : Nat) : Prop
  | closed (h : (w.client.heap ref).disconnected = true)
  | current (h : w.client.device (w.client.heap ref).info.id = some ref)
  | awaiting (n : Nat) (identity : DeviceInfo) (h : w.runs n = some ⟨identity, .started ref⟩)
  | replaced (n : Nat) (identity : DeviceInfo) (new : Nat)
      (h : w.runs n = some ⟨identity, .entered new (some ref)⟩)
  | stopping (h : ref ∈ w.stopping.toStop)

/-- The table is one entry a device, every session of it is accounted for, and
`stop()` works alone. -/
structure Sound (w : World φ π) : Prop where
  keys : (w.client.sessions.map (·.1)).Nodup
  table : ∀ entry ∈ w.client.sessions,
    entry.2 < w.client.next ∧ (w.client.heap entry.2).info.id = entry.1
  foreign : ∀ ref < w.client.next,
    ForeignId w.client.localDevice (w.client.heap ref).info.id
  runs : ∀ n run, w.runs n = some run →
    n < w.spawned ∧ ForeignId w.client.localDevice run.identity.id
  started : ∀ n identity ref, w.runs n = some ⟨identity, .started ref⟩ → ref < w.client.next
  accounted : ∀ ref < w.client.next, Accounted w ref
  alone : ∀ toStop, w.stopping = .closing toStop →
    (∀ n, w.runs n = none) ∧ w.client.sessions = [] ∧
      (toStop.map fun ref => (w.client.heap ref).info.id).Nodup

/-- A session that is found is in the table. -/
theorem mem_of_device {c : KdeConnectClient φ π} {deviceId : String} {ref : Nat}
    (h : c.device deviceId = some ref) : (deviceId, ref) ∈ c.sessions := by
  obtain ⟨before, after, hsessions, -⟩ := List.lookup_eq_some_iff.mp h
  rw [hsessions]
  exact List.mem_append_right _ List.mem_cons_self

theorem Sound.device {w : World φ π} (h : Sound w) {deviceId : String} {ref : Nat}
    (hd : w.client.device deviceId = some ref) :
    ref < w.client.next ∧ (w.client.heap ref).info.id = deviceId :=
  h.table (deviceId, ref) (mem_of_device hd)

/-- A session stays accounted for while the unsettled runs go on and what was
found in the table, or on the list of `stop()`, is. -/
theorem Accounted.keep {w w' : World φ π} {ref : Nat} (h : Accounted w ref)
    (hclosed : (w.client.heap ref).disconnected = true → (w'.client.heap ref).disconnected = true)
    (hcurrent : w.client.device (w.client.heap ref).info.id = some ref → Accounted w' ref)
    (hruns : ∀ n run, w.runs n = some run → run.stage.settled = false → w'.runs n = some run)
    (hstop : ref ∈ w.stopping.toStop → Accounted w' ref) : Accounted w' ref := by
  cases h with
  | closed h => exact .closed (hclosed h)
  | current h => exact hcurrent h
  | awaiting n identity h => exact .awaiting n identity (hruns n _ h rfl)
  | replaced n identity new h => exact .replaced n identity new (hruns n _ h rfl)
  | stopping h => exact hstop h

/-- The client before the first connection. -/
def World.fresh (c : KdeConnectClient φ π) : World φ π where
  client := { c with sessions := [], next := 0 }

theorem sound_fresh (c : KdeConnectClient φ π) : Sound (World.fresh c) where
  keys := List.nodup_nil
  table := by
    intro entry hentry
    cases hentry
  foreign := by
    intro ref href
    cases href
  runs := by
    intro n run hn
    cases hn
  started := by
    intro n identity ref hn
    cases hn
  accounted := by
    intro ref href
    cases href
  alone := by
    intro toStop hstopping
    cases hstopping

namespace Sound

variable {w : World φ π} {c' : KdeConnectClient φ π}

/-- The client changes outside the table, and no run moves. -/
theorem operate (h : Sound w) (hc : SameTable w.client c') (io : Nat → IoThread)
    {stopping : Stopping}
    (hstop : stopping = w.stopping ∨ w.stopping = .no ∧ stopping = .joining) :
    Sound { w with client := c', io := io, stopping := stopping } where
  keys := by
    rw [hc.sessions]
    exact h.keys
  table := by
    rw [hc.sessions, hc.next]
    intro entry hentry
    rw [hc.info]
    exact h.table entry hentry
  foreign := by
    rw [hc.next, hc.localDevice]
    intro ref href
    rw [hc.info]
    exact h.foreign ref href
  runs := by
    rw [hc.localDevice]
    exact h.runs
  started := by
    rw [hc.next]
    exact h.started
  accounted := by
    rw [hc.next]
    intro ref href
    refine (h.accounted ref href).keep (hc.disconnected ref) ?_ (fun _ _ hn _ => hn) ?_
    · intro hd
      refine .current ?_
      rw [hc.device, hc.info]
      exact hd
    · intro hmem
      refine .stopping ?_
      rcases hstop with heq | ⟨hno, -⟩
      · rw [heq]
        exact hmem
      · rw [hno] at hmem
        cases hmem
  alone := by
    intro toStop hclosing
    rcases hstop with heq | ⟨-, hjoining⟩
    · rw [heq] at hclosing
      obtain ⟨hruns, hsessions, hids⟩ := h.alone toStop hclosing
      refine ⟨hruns, hc.sessions.trans hsessions, ?_⟩
      simp only [hc.info]
      exact hids
    · rw [hjoining] at hclosing
      cases hclosing

/-- No run is on its way while `stop()` closes sessions. -/
theorem not_closing (h : Sound w) {n : Nat} {run : ConnectionRun} (hn : w.runs n = some run)
    (toStop : List Nat) : w.stopping ≠ .closing toStop := by
  intro hclosing
  rw [(h.alone toStop hclosing).1 n] at hn
  cases hn

/-- A run goes on, the table staying as it is. -/
theorem proceed (h : Sound w) (hc : SameTable w.client c') {n spawned : Nat}
    {new : Option ConnectionRun} (hspawned : w.spawned ≤ spawned) (hn : n < spawned)
    (hold : ∀ run, w.runs n = some run → run.stage.settled = true)
    (hnew : ∀ run, new = some run → run.stage.settled = true ∧
      ForeignId w.client.localDevice run.identity.id)
    (hopen : ∀ toStop, w.stopping ≠ .closing toStop) :
    Sound { w.proceed n c' new with spawned := spawned } := by
  have hsame := h.operate hc w.io (.inl rfl)
  refine ⟨hsame.keys, hsame.table, hsame.foreign, ?_, ?_, ?_, ?_⟩
  · intro k run hk
    have hk' : (w.proceed n c' new).runs k = some run := hk
    rcases proceed_runs hk' with ⟨rfl, hrun⟩ | ⟨-, hrun⟩
    · refine ⟨hn, ?_⟩
      change ForeignId c'.localDevice _
      rw [hc.localDevice]
      exact (hnew run hrun).2
    · exact ⟨Nat.lt_of_lt_of_le (hsame.runs k run hrun).1 hspawned, (hsame.runs k run hrun).2⟩
  · intro k identity ref hk
    have hk' : (w.proceed n c' new).runs k = some ⟨identity, .started ref⟩ := hk
    rcases proceed_runs hk' with ⟨rfl, hrun⟩ | ⟨-, hrun⟩
    · cases (hnew _ hrun).1
    · exact hsame.started k identity ref hrun
  · intro ref href
    refine (hsame.accounted ref href).keep (fun hdown => hdown) (fun hd => .current hd) ?_
      fun hmem => .stopping hmem
    intro k run hk hsettled
    have hne : k ≠ n := by
      rintro rfl
      have := hold run hk
      rw [hsettled] at this
      cases this
    exact (proceed_runs_ne w hne c' new).trans hk
  · intro toStop hclosing
    exact absurd hclosing (hopen toStop)

/-- A session of the run's device is made and started. -/
theorem start (h : Sound w) {n : Nat} {run : ConnectionRun} (hn : w.runs n = some run)
    (hsettled : run.stage.settled = true) {s : DeviceSession π}
    (hs : s.info.id = run.identity.id) :
    Sound (w.proceed n (allocate s w.client) (some ⟨run.identity, .started w.client.next⟩)) := by
  have hnew := allocate_heap s w.client
  have hold : ∀ {ref}, ref < w.client.next →
      (allocate s w.client).heap ref = w.client.heap ref := allocate_heap_ne s
  refine ⟨h.keys, ?_, ?_, ?_, ?_, ?_, ?_⟩
  · intro entry hentry
    obtain ⟨href, hid⟩ := h.table entry hentry
    refine ⟨Nat.lt_succ_of_lt href, ?_⟩
    change ((allocate s w.client).heap entry.2).info.id = entry.1
    rw [hold href, hid]
  · intro ref href
    change ForeignId w.client.localDevice ((allocate s w.client).heap ref).info.id
    rcases Nat.lt_succ_iff_lt_or_eq.mp href with hlt | rfl
    · rw [hold hlt]
      exact h.foreign ref hlt
    · rw [hnew, hs]
      exact (h.runs n run hn).2
  · intro k r hk
    rcases proceed_runs hk with ⟨rfl, hr⟩ | ⟨-, hk⟩
    · cases hr
      exact h.runs k run hn
    · exact h.runs k r hk
  · intro k identity ref hk
    rcases proceed_runs hk with ⟨-, hr⟩ | ⟨-, hk⟩
    · cases hr
      exact Nat.lt_succ_self _
    · exact Nat.lt_succ_of_lt (h.started k identity ref hk)
  · intro ref href
    rcases Nat.lt_succ_iff_lt_or_eq.mp href with hlt | rfl
    · have heap := hold hlt
      refine (h.accounted ref hlt).keep ?_ ?_ ?_ fun hmem => .stopping hmem
      · intro hdown
        change ((allocate s w.client).heap ref).disconnected = true
        rw [heap, hdown]
      · intro hd
        refine .current ?_
        change w.client.device ((allocate s w.client).heap ref).info.id = some ref
        rw [heap, hd]
      · intro k r hk hunsettled
        have hne : k ≠ n := by
          rintro rfl
          rw [hn] at hk
          cases hk
          rw [hsettled] at hunsettled
          cases hunsettled
        exact (proceed_runs_ne w hne _ _).trans hk
    · exact .awaiting n run.identity (Function.update_self ..)
  · intro toStop hclosing
    exact absurd hclosing (h.not_closing hn toStop)

/-- The session of a run enters the table. -/
theorem enter (h : Sound w) {n : Nat} {identity : DeviceInfo} {ref : Nat}
    (hn : w.runs n = some ⟨identity, .started ref⟩) :
    Sound (w.proceed n (SessionTable.enter ref w.client)
      (some ⟨identity, .entered ref (w.client.device (w.client.heap ref).info.id)⟩)) := by
  have href := h.started n identity ref hn
  refine ⟨?_, ?_, h.foreign, ?_, ?_, ?_, ?_⟩
  · refine List.nodup_cons.mpr ⟨?_, ?_⟩
    · simp
    · exact h.keys.sublist (List.filter_sublist.map _)
  · intro entry hentry
    rcases List.mem_cons.mp hentry with rfl | hmem
    · exact ⟨href, rfl⟩
    · exact h.table entry (List.mem_filter.mp hmem).1
  · intro k r hk
    rcases proceed_runs hk with ⟨rfl, hr⟩ | ⟨-, hk⟩
    · cases hr
      have hrun := h.runs k _ hn
      exact hrun
    · exact h.runs k r hk
  · intro k identity' ref' hk
    rcases proceed_runs hk with ⟨-, hr⟩ | ⟨-, hk⟩
    · cases hr
    · exact h.started k identity' ref' hk
  · intro other hother
    -- the run's own session is in the table now, and the run keeps the one it replaced
    cases h.accounted other hother with
    | closed hdown => exact .closed hdown
    | current hd =>
      by_cases hid : (w.client.heap other).info.id = (w.client.heap ref).info.id
      · refine .replaced n identity ref ?_
        rw [proceed_runs_self, ← hid, hd]
      · refine .current ?_
        exact (enter_device_ne hid).trans hd
    | awaiting k identity' hk =>
      by_cases heq : k = n
      · rw [heq, hn] at hk
        cases hk
        exact .current (enter_device ref w.client)
      · exact .awaiting k identity' ((proceed_runs_ne w heq _ _).trans hk)
    | replaced k identity' new hk =>
      have heq : k ≠ n := by
        rintro rfl
        rw [hn] at hk
        cases hk
      exact .replaced k identity' new ((proceed_runs_ne w heq _ _).trans hk)
    | stopping hmem => exact .stopping hmem
  · intro toStop hclosing
    exact absurd hclosing (h.not_closing hn toStop)

/-- The session that a run replaced is closed. -/
theorem cleanUp (h : Sound w) {n : Nat} {identity : DeviceInfo} {ref : Nat} {old : Option Nat}
    (hn : w.runs n = some ⟨identity, .entered ref old⟩) :
    Sound (w.proceed n (SessionTable.cleanUp old w.client) (some ⟨identity, .cleaned ref⟩)) := by
  have hc : SameTable w.client (SessionTable.cleanUp old w.client) := by
    cases old with
    | none => exact SameTable.refl w.client
    | some oldRef => exact sameTable_close w.client oldRef
  have hsame := h.operate hc w.io (.inl rfl)
  refine ⟨hsame.keys, hsame.table, hsame.foreign, ?_, ?_, ?_, ?_⟩
  · intro k run hk
    rcases proceed_runs hk with ⟨rfl, hr⟩ | ⟨-, hk⟩
    · cases hr
      have hrun := hsame.runs k _ hn
      exact hrun
    · exact hsame.runs k run hk
  · intro k identity' ref' hk
    rcases proceed_runs hk with ⟨-, hr⟩ | ⟨-, hk⟩
    · cases hr
    · exact hsame.started k identity' ref' hk
  · intro other hother
    cases hsame.accounted other hother with
    | closed hdown => exact .closed hdown
    | current hd => exact .current hd
    | awaiting k identity' hk =>
      have heq : k ≠ n := by
        rintro rfl
        change w.runs k = _ at hk
        rw [hn] at hk
        cases hk
      exact .awaiting k identity' ((proceed_runs_ne w heq _ _).trans hk)
    | replaced k identity' new hk =>
      by_cases heq : k = n
      · change w.runs k = _ at hk
        rw [heq, hn] at hk
        cases hk
        refine .closed ?_
        change ((w.client.modify other DeviceSession.markDisconnected).heap other).disconnected =
          true
        rw [KdeConnectClient.modify_heap_self]
        rfl
      · exact .replaced k identity' new ((proceed_runs_ne w heq _ _).trans hk)
    | stopping hmem => exact .stopping hmem
  · intro toStop hclosing
    exact absurd hclosing (h.not_closing hn toStop)

/-- `stop()` empties the table once every run has ended. -/
theorem clear (h : Sound w) (hjoining : w.stopping = .joining)
    (hjoined : ∀ n < w.spawned, (w.runs n).isNone = true) :
    Sound { w with
      client := { w.client with sessions := [] }
      stopping := .closing (w.client.sessions.map (·.2)) } := by
  have hruns : ∀ n, w.runs n = none := by
    intro n
    cases hn : w.runs n with
    | none => rfl
    | some run =>
      have hnone := hjoined n (h.runs n run hn).1
      rw [hn] at hnone
      cases hnone
  refine ⟨List.nodup_nil, ?_, h.foreign, h.runs, h.started, ?_, ?_⟩
  · intro entry hentry
    cases hentry
  · intro ref href
    cases h.accounted ref href with
    | closed hdown => exact .closed hdown
    | current hd =>
      refine .stopping ?_
      exact List.mem_map.mpr ⟨_, mem_of_device hd, rfl⟩
    | awaiting n identity hn => exact .awaiting n identity hn
    | replaced n identity new hn => exact .replaced n identity new hn
    | stopping hmem =>
      rw [hjoining] at hmem
      cases hmem
  · intro toStop hclosing
    obtain rfl : w.client.sessions.map (·.2) = toStop := by
      cases hclosing
      rfl
    refine ⟨hruns, rfl, ?_⟩
    have hids : (w.client.sessions.map (·.2)).map (fun ref => (w.client.heap ref).info.id) =
        w.client.sessions.map (·.1) := by
      rw [List.map_map]
      exact List.map_congr_left fun entry hentry => (h.table entry hentry).2
    change ((w.client.sessions.map (·.2)).map fun ref => (w.client.heap ref).info.id).Nodup
    rw [hids]
    exact h.keys

/-- `stop()` closes the next session. -/
theorem close (h : Sound w) {ref : Nat} {rest : List Nat}
    (hclosing : w.stopping = .closing (ref :: rest)) :
    Sound { w with
      client := w.client.modify ref DeviceSession.markDisconnected
      stopping := .closing rest } := by
  have hsame := h.operate (sameTable_close w.client ref) w.io (.inl rfl)
  refine ⟨hsame.keys, hsame.table, hsame.foreign, hsame.runs, hsame.started, ?_, ?_⟩
  · intro other hother
    cases hsame.accounted other hother with
    | closed hdown => exact .closed hdown
    | current hd => exact .current hd
    | awaiting n identity hn => exact .awaiting n identity hn
    | replaced n identity new hn => exact .replaced n identity new hn
    | stopping hmem =>
      change other ∈ w.stopping.toStop at hmem
      rw [hclosing] at hmem
      rcases List.mem_cons.mp hmem with rfl | hrest
      · refine .closed ?_
        change ((w.client.modify other DeviceSession.markDisconnected).heap other).disconnected =
          true
        rw [KdeConnectClient.modify_heap_self]
        rfl
      · exact .stopping hrest
  · intro toStop heq
    obtain rfl : rest = toStop := by
      cases heq
      rfl
    obtain ⟨hruns, hsessions, hids⟩ := hsame.alone (ref :: rest) hclosing
    exact ⟨hruns, hsessions, (List.nodup_cons.mp hids).2⟩

end Sound

/-- Every step keeps every session accounted for. -/
theorem sound_step [FileSystem φ] [PluginHost π ε] (y : Yyjson) {w : World φ π} (h : Sound w)
    (e : Event ε) : Sound (step y w e) := by
  have houtcome := step_outcome y w e
  generalize step y w e = w' at houtcome
  cases houtcome with
  | idle => exact h
  | checked identity hopen ha =>
    have hforeign : ForeignId w.client.localDevice identity.id := by
      simp only [admitted, Bool.and_eq_true, Bool.not_eq_true', bne_iff_ne] at ha
      refine ⟨?_, ha.1.2⟩
      intro hempty
      rw [hempty] at ha
      exact absurd ha.1.1 (by decide)
    refine h.proceed (SameTable.refl w.client) (Nat.le_succ _) (Nat.lt_succ_self _) ?_ ?_ hopen
    · intro run hn
      exact absurd (h.runs _ run hn).1 (Nat.lt_irrefl _)
    · intro run hrun
      cases hrun
      exact ⟨rfl, hforeign⟩
  | loaded n identity hn =>
    have hc : SameTable w.client
        (setStorage w.client (loadPairedDevice y identity.id w.client.storage).2) :=
      ⟨fun _ => rfl, fun _ hdown => hdown, rfl, rfl, rfl⟩
    refine h.proceed hc (Nat.le_refl _) (h.runs n _ hn).1 ?_ ?_ (h.not_closing hn)
    · intro run hrun
      rw [hn] at hrun
      cases hrun
      rfl
    · intro run hrun
      cases hrun
      exact ⟨rfl, (h.runs n _ hn).2⟩
  | dropped n tcpServerSide io identity stored hn =>
    refine h.proceed (SameTable.refl w.client) (Nat.le_refl _) (h.runs n _ hn).1 ?_ ?_
      (h.not_closing hn)
    · intro run hrun
      rw [hn] at hrun
      cases hrun
      rfl
    · intro run hrun
      cases hrun
  | started n tcpServerSide io identity stored s hn hs =>
    exact h.start hn rfl (makeSession_some hs).1
  | entered n identity ref hn => exact h.enter hn
  | cleaned n identity ref old hn => exact h.cleanUp hn
  | announced n m showOnConnect identity ref hn =>
    have hcores := sameCores_announce m identity showOnConnect ref w.client
    refine h.proceed (sameTable_of_sameCores hcores) (Nat.le_refl _) (h.runs n _ hn).1 ?_ ?_
      (h.not_closing hn)
    · intro run hrun
      rw [hn] at hrun
      cases hrun
      rfl
    · intro run hrun
      cases hrun
  | received ref m line hio href =>
    exact h.operate (sameTable_hear y m ref line w.client) _ (.inl rfl)
  | lookedUp ref pkt rest hio => exact h.operate (SameTable.refl w.client) _ (.inl rfl)
  | appended ref m pkt rest found hio =>
    exact h.operate (sameTable_appendTo m pkt found w.client) _ (.inl rfl)
  | lost ref href => exact h.operate (sameTable_close w.client ref) _ (.inl rfl)
  | stopped hopen => exact h.operate (SameTable.refl w.client) _ (.inr ⟨hopen, rfl⟩)
  | cleared hjoining hjoined => exact h.clear hjoining hjoined
  | closed ref rest hclosing => exact h.close hclosing

/-! ## Quiet states -/

/-- No run is between the start of its session and the clean-up. -/
def Quiet (w : World φ π) : Prop := ∀ n run, w.runs n = some run → run.stage.settled = true

/-- The table and the sessions there have been fit together; `spared` are
sessions that may be connected without being in the table. -/
structure Intact (c : KdeConnectClient φ π) (spared : List Nat) : Prop where
  /-- The table has a session only under its own id, which is another device's. -/
  named : ∀ deviceId ref, c.device deviceId = some ref →
    (c.heap ref).info.id = deviceId ∧ deviceId ≠ "" ∧ deviceId ≠ c.localDevice.id
  /-- No device has two live sessions. -/
  unique : ∀ a < c.next, ∀ b < c.next, (c.heap a).disconnected = false →
    (c.heap b).disconnected = false → (c.heap a).info.id = (c.heap b).info.id → a = b
  /-- A session that is not in the table is closed. -/
  removed : ∀ ref < c.next, c.device (c.heap ref).info.id ≠ some ref → ref ∉ spared →
    (c.heap ref).disconnected = true

/-- Where no run is in between, a live session is in the table or on the list
of `stop()`. -/
theorem Sound.live {w : World φ π} (h : Sound w) (hquiet : Quiet w) {ref : Nat}
    (href : ref < w.client.next) (hlive : (w.client.heap ref).disconnected = false) :
    w.client.device (w.client.heap ref).info.id = some ref ∨ ref ∈ w.stopping.toStop := by
  cases h.accounted ref href with
  | closed hdown =>
    rw [hlive] at hdown
    cases hdown
  | current hd => exact .inl hd
  | awaiting n identity hn => cases hquiet n _ hn
  | replaced n identity new hn => cases hquiet n _ hn
  | stopping hmem => exact .inr hmem

/-- The table is empty while `stop()` closes sessions, which are of different
devices. -/
theorem Sound.toStop {w : World φ π} (h : Sound w) {a : Nat} (ha : a ∈ w.stopping.toStop) :
    (∀ deviceId, w.client.device deviceId = none) ∧
      ∀ b ∈ w.stopping.toStop,
        (w.client.heap a).info.id = (w.client.heap b).info.id → a = b := by
  cases hclosing : w.stopping with
  | no =>
    rw [hclosing] at ha
    cases ha
  | joining =>
    rw [hclosing] at ha
    cases ha
  | closing toStop =>
    obtain ⟨-, hsessions, hids⟩ := h.alone toStop hclosing
    rw [hclosing] at ha
    refine ⟨?_, ?_⟩
    · intro deviceId
      unfold KdeConnectClient.device
      rw [hsessions]
      rfl
    · intro b hb heq
      exact List.inj_on_of_nodup_map hids ha hb heq

theorem Sound.intact {w : World φ π} (h : Sound w) (hquiet : Quiet w) :
    Intact w.client w.stopping.toStop where
  named := by
    intro deviceId ref hd
    obtain ⟨href, hid⟩ := h.device hd
    have hforeign := h.foreign ref href
    rw [hid] at hforeign
    exact ⟨hid, hforeign⟩
  unique := by
    intro a ha b hb halive hblive heq
    rcases h.live hquiet ha halive with hda | hsa
    · rcases h.live hquiet hb hblive with hdb | hsb
      · rw [heq, hdb] at hda
        exact (Option.some.inj hda).symm
      · rw [(h.toStop hsb).1] at hda
        cases hda
    · rcases h.live hquiet hb hblive with hdb | hsb
      · rw [(h.toStop hsa).1] at hdb
        cases hdb
      · exact (h.toStop hsa).2 b hsb heq
  removed := by
    intro ref href hout hspared
    by_contra hlive
    rcases h.live hquiet href (Bool.eq_false_iff.mpr hlive) with hd | hmem
    · exact hout hd
    · exact hspared hmem

/-- In every quiet state of every run the table and the sessions fit together;
only those that `stop()` is about to close may be live outside the table. -/
theorem intact_always [FileSystem φ] [PluginHost π ε] (y : Yyjson) (c : KdeConnectClient φ π)
    (events : List (Event ε)) :
    Always (step y) (fun w => Quiet w → Intact w.client w.stopping.toStop) (World.fresh c)
      events := by
  have hsound := always_of_step (P := fun w : World φ π => Sound w)
    (fun w e h => sound_step y h e) (sound_fresh c) events
  refine hsound.imp ?_
  intro w h hquiet
  exact h.intact hquiet

/-- A connection is set up, and `stop()` has emptied the table. -/
theorem not_intact_clear [FileSystem φ] [PluginHost π ε] (y : Yyjson) {c : KdeConnectClient φ π}
    {identity : DeviceInfo} (ha : admitted (World.fresh c).client identity = true)
    {tcpServerSide : Bool} {io : ConnectionIo} {s : DeviceSession π}
    (hs : makeSession y identity tcpServerSide io (c.storage.entry y identity.id) = some s)
    (m : Moment ε) :
    Quiet (run (step y) (World.fresh c)
        (stages 0 identity tcpServerSide io m ++ [.stop, .clear])) ∧
      ¬ Intact (run (step y) (World.fresh c)
        (stages 0 identity tcpServerSide io m ++ [.stop, .clear])).client [] := by
  obtain ⟨hid, -, -, hlive, -⟩ := makeSession_some hs
  obtain ⟨last, hlast⟩ : ∃ last, last =
      handleNewConnection y m identity tcpServerSide io (World.fresh c).client := ⟨_, rfl⟩
  have hstages : run (step y) (World.fresh c) (stages 0 identity tcpServerSide io m) =
      { client := last, spawned := 1 } := by
    rw [hlast]
    exact run_stages y rfl rfl ha tcpServerSide io m
  have hrun : run (step y) (World.fresh c)
      (stages 0 identity tcpServerSide io m ++ [.stop, .clear]) =
      { client := { last with sessions := [] }
        spawned := 1
        stopping := .closing (last.sessions.map (·.2)) } := by
    rw [run_append, hstages]
    rfl
  have hempty : TableOnHeap (World.fresh c).client := by
    intro deviceId ref hd
    cases hd
  have hmade := core_of_made m ha hs hempty
  rw [← hlast] at hmade
  have hsound : Sound { client := last, spawned := 1 : World φ π } := by
    rw [← hstages]
    exact (always_of_step (P := fun w : World φ π => Sound w) (fun w e h => sound_step y h e)
      (sound_fresh c) _).last
  have hdown : (last.heap 0).disconnected = false :=
    (congrArg Core.disconnected hmade.2).trans hlive
  rw [hrun]
  refine ⟨?_, ?_⟩
  · intro n r hn
    cases hn
  · intro hintact
    have hclosed := hintact.removed 0 (hsound.device hmade.1).1 (by simp [KdeConnectClient.device])
      (by simp)
    rw [hdown] at hclosed
    cases hclosed

end Invariant

/-- The phone is connected when `stop()` empties the table. -/
theorem not_intact_phone :
    ¬ ∀ events : List (Event Unit), Always (step Yyjson.reference)
      (fun w => Quiet w → Intact w.client []) (World.fresh phoneStored) events := by
  intro h
  have hrefused := certificateRefused_dialled impostor
    (phoneStored.storage.entry Yyjson.reference phone.id)
  obtain ⟨s, hs⟩ := Option.isSome_iff_exists.mp ((makeSession_isSome (π := Empty)).mpr
    ⟨⟨rfl, rfl, rfl⟩, hrefused, impostor_line⟩)
  have ha : admitted (World.fresh phoneStored).client phone = true := by decide +kernel
  obtain ⟨hquiet, hnot⟩ := not_intact_clear Yyjson.reference ha hs (⟨0, ()⟩ : Moment Unit)
  exact hnot ((h _).last hquiet)

end KdeConnectNx.SessionTable
