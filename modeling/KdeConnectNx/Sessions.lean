import Mathlib.Logic.Function.Basic
import KdeConnectNx.LineReader
import KdeConnectNx.PairedFiles

/-!
# Device sessions and the client that holds them

Sessions are objects that outlive their entry in the table, so the client is a
heap of sessions and a table from device ids to them. Plugins belong to a
session and are seen through the calls made into them; what they send goes
through the table, to the session the device id names at that moment.
-/

namespace KdeConnectNx.Sessions

open PacketBody PacketFormat LineReader PairedFiles

inductive PairState where
  | notPaired
  | requested
  | requestedByPeer
  | paired
  deriving DecidableEq, Repr

/-- What a call reads of the world: the system clock in nanoseconds, and
whatever the plugins look at. -/
structure Moment (ε : Type) where
  nanos : Int64
  env : ε

/-- The system clock in seconds. -/
def Moment.seconds {ε : Type} (m : Moment ε) : Int64 := m.nanos / 1000000000

/-- The system clock in milliseconds. -/
def Moment.millis {ε : Type} (m : Moment ε) : Int64 := m.nanos / 1000000

/-- The calls made into plugins: each gives the plugin's next state and the
packets it sends, in order. -/
class PluginHost (π : Type) (ε : outParam Type) where
  /-- `PluginRegistry::instantiate_plugins` for a device. -/
  instantiate : String → List π
  supportedPacketTypes : π → List String
  onConnected : ε → Bool → π → π × List NetworkPacket
  /-- Also tells whether the packet was handled. -/
  onPacketReceived : ε → NetworkPacket → π → π × List NetworkPacket × Bool
  processEvents : ε → π → π × List NetworkPacket

/-- The host without plugins. -/
instance : PluginHost Empty Unit where
  instantiate := fun _ => []
  supportedPacketTypes := fun _ => []
  onConnected := fun _ _ p => (p, [])
  onPacketReceived := fun _ _ p => (p, [], false)
  processEvents := fun _ p => (p, [])

/-- One connection to a device. -/
structure DeviceSession (π : Type) where
  info : DeviceInfo := {}
  pairState : PairState := .notPaired
  pairingTimestamp : Int64 := 0
  paired : Bool := false
  certPem : String := ""
  peerPubkey : List UInt8 := []
  sendQueue : List Outgoing := []
  disconnected : Bool := false
  plugins : List π := []
  /-- History, which the code does not keep: the packets that were queued while
  `paired` was false. -/
  sentUnpaired : List NetworkPacket := []

namespace DeviceSession

variable {π : Type}

/-- The assignments that complete a pairing. -/
def markPaired (s : DeviceSession π) : DeviceSession π :=
  { s with pairState := .paired, paired := true }

/-- The assignments that end a pairing, or a request. -/
def markUnpaired (s : DeviceSession π) : DeviceSession π :=
  { s with pairState := .notPaired, paired := false }

/-- The assignments after an own request was sent. -/
def markRequested (timestamp : Int64) (s : DeviceSession π) : DeviceSession π :=
  { s with pairState := .requested, pairingTimestamp := timestamp }

/-- The assignments after the peer's request came in; `paired` is not among
them. -/
def markRequestedByPeer (timestamp : Int64) (s : DeviceSession π) : DeviceSession π :=
  { s with pairState := .requestedByPeer, pairingTimestamp := timestamp }

/-- The connection is over. -/
def markDisconnected (s : DeviceSession π) : DeviceSession π := { s with disconnected := true }

end DeviceSession

/-- A call of `NotificationPlugin::post_notification`. -/
structure Notice where
  appId : String
  title : String
  body : String
  id : String
  deriving DecidableEq

/-- The client: the store, the own identity, the sessions and what was shown
to the user. -/
structure KdeConnectClient (φ π : Type) where
  storage : Storage φ
  localDevice : DeviceInfo
  localPubkey : List UInt8 := []
  /-- Hexadecimal SHA-256 in upper case. -/
  sha256HexUpper : List UInt8 → String := fun _ => ""
  tcpPort : Int32 := 0
  /-- Session objects, also those the table has dropped. -/
  heap : Nat → DeviceSession π := fun _ => {}
  /-- The first place of the heap that is not in use. -/
  next : Nat := 0
  /-- The table `sessions_`: device ids and their current session. -/
  sessions : List (String × Nat) := []
  posted : List Notice := []

namespace KdeConnectClient

variable {φ π ε : Type}

/-- The current session of a device. -/
def device (c : KdeConnectClient φ π) (deviceId : String) : Option Nat := c.sessions.lookup deviceId

/-- Change one session object. -/
def modify (c : KdeConnectClient φ π) (ref : Nat) (f : DeviceSession π → DeviceSession π) :
    KdeConnectClient φ π := { c with heap := Function.update c.heap ref (f (c.heap ref)) }

/-- Replace the store. -/
def setStorage (c : KdeConnectClient φ π) (storage : Storage φ) : KdeConnectClient φ π :=
  { c with storage := storage }

/-- Show a notification in the name of the client. -/
def post (c : KdeConnectClient φ π) (title body id : String) : KdeConnectClient φ π :=
  { c with posted := c.posted ++ [⟨"kdeconnect", title, body, id⟩] }

/-- Append a packet to a session's queue. -/
def push (m : Moment ε) (pkt : NetworkPacket) (s : DeviceSession π) : DeviceSession π :=
  { s with
    sendQueue := s.sendQueue ++ [⟨m.millis, pkt⟩]
    sentUnpaired := if s.paired then s.sentUnpaired else s.sentUnpaired ++ [pkt] }

/-- Queue a packet for a device; false when it is not connected. -/
def sendPacket (m : Moment ε) (deviceId : String) (pkt : NetworkPacket)
    (c : KdeConnectClient φ π) : Bool × KdeConnectClient φ π :=
  match c.device deviceId with
  | none => (false, c)
  | some ref =>
    if (c.heap ref).disconnected then (false, c) else (true, c.modify ref (push m pkt))

/-- Packets a plugin sends one after the other, the results unused. -/
def sendAll (m : Moment ε) (deviceId : String) (pkts : List NetworkPacket)
    (c : KdeConnectClient φ π) : KdeConnectClient φ π :=
  pkts.foldl (fun c pkt => (sendPacket m deviceId pkt c).2) c

/-- `on_connected` of every plugin of a session. -/
def notifyPluginsConnected [PluginHost π ε] (m : Moment ε) (ref : Nat)
    (c : KdeConnectClient φ π) : KdeConnectClient φ π :=
  let s := c.heap ref
  let results := s.plugins.map (PluginHost.onConnected m.env s.paired)
  sendAll m s.info.id (results.flatMap (·.2))
    (c.modify ref fun s => { s with plugins := results.map (·.1) })

/-- The session that is changed. -/
@[simp] theorem modify_heap_self (c : KdeConnectClient φ π) (ref : Nat)
    (f : DeviceSession π → DeviceSession π) : (c.modify ref f).heap ref = f (c.heap ref) :=
  Function.update_self ..

/-- The others stay. -/
theorem modify_heap_ne (c : KdeConnectClient φ π) {ref other : Nat} (h : other ≠ ref)
    (f : DeviceSession π → DeviceSession π) : (c.modify ref f).heap other = c.heap other :=
  Function.update_of_ne h ..

/-- A change that is not to the descriptions leaves every one as it was. -/
theorem modify_info (c : KdeConnectClient φ π) (ref : Nat)
    {f : DeviceSession π → DeviceSession π} (hf : ∀ s, (f s).info = s.info) (other : Nat) :
    ((c.modify ref f).heap other).info = (c.heap other).info := by
  by_cases h : other = ref
  · rw [h, modify_heap_self, hf]
  · rw [modify_heap_ne c h]

/-- The table stays. -/
@[simp] theorem modify_sessions (c : KdeConnectClient φ π) (ref : Nat)
    (f : DeviceSession π → DeviceSession π) : (c.modify ref f).sessions = c.sessions := rfl

/-- So does what is found in it. -/
@[simp] theorem modify_device (c : KdeConnectClient φ π) (ref : Nat)
    (f : DeviceSession π → DeviceSession π) (deviceId : String) :
    (c.modify ref f).device deviceId = c.device deviceId := rfl

/-- So does the storage. -/
@[simp] theorem modify_storage (c : KdeConnectClient φ π) (ref : Nat)
    (f : DeviceSession π → DeviceSession π) : (c.modify ref f).storage = c.storage := rfl

end KdeConnectClient

/-- What pairing looks at in a session. -/
structure Core where
  info : DeviceInfo
  paired : Bool
  pairState : PairState
  pairingTimestamp : Int64
  certPem : String
  disconnected : Bool
  deriving DecidableEq

/-- The pairing part of a session. -/
def DeviceSession.core {π : Type} (s : DeviceSession π) : Core where
  info := s.info
  paired := s.paired
  pairState := s.pairState
  pairingTimestamp := s.pairingTimestamp
  certPem := s.certPem
  disconnected := s.disconnected

/-- The two clients differ in send queues, which only grow at their ends, and
in plugin states. -/
structure SameCores {φ π : Type} (c c' : KdeConnectClient φ π) : Prop where
  core : ∀ ref, (c'.heap ref).core = (c.heap ref).core
  queue : ∀ ref, (c.heap ref).sendQueue <+: (c'.heap ref).sendQueue
  sessions : c'.sessions = c.sessions
  storage : c'.storage = c.storage
  localDevice : c'.localDevice = c.localDevice
  next : c'.next = c.next

namespace SameCores

variable {φ π ε : Type} {c c' c'' : KdeConnectClient φ π}

/-- Nothing changes. -/
theorem refl (c : KdeConnectClient φ π) : SameCores c c :=
  ⟨fun _ => rfl, fun _ => List.prefix_rfl, rfl, rfl, rfl, rfl⟩

/-- Two changes one after the other. -/
theorem trans (h : SameCores c c') (h' : SameCores c' c'') : SameCores c c'' where
  core := fun ref => (h'.core ref).trans (h.core ref)
  queue := fun ref => (h.queue ref).trans (h'.queue ref)
  sessions := h'.sessions.trans h.sessions
  storage := h'.storage.trans h.storage
  localDevice := h'.localDevice.trans h.localDevice
  next := h'.next.trans h.next

/-- The same session is found for every device. -/
theorem device (h : SameCores c c') (deviceId : String) :
    c'.device deviceId = c.device deviceId := by
  unfold KdeConnectClient.device
  rw [h.sessions]

/-- Its device stays the same. -/
theorem info (h : SameCores c c') (ref : Nat) : (c'.heap ref).info = (c.heap ref).info :=
  congrArg Core.info (h.core ref)

/-- Its flag stays. -/
theorem paired (h : SameCores c c') (ref : Nat) : (c'.heap ref).paired = (c.heap ref).paired :=
  congrArg Core.paired (h.core ref)

/-- So does its pairing state. -/
theorem pairState (h : SameCores c c') (ref : Nat) :
    (c'.heap ref).pairState = (c.heap ref).pairState := congrArg Core.pairState (h.core ref)

/-- So does whether it is disconnected. -/
theorem disconnected (h : SameCores c c') (ref : Nat) :
    (c'.heap ref).disconnected = (c.heap ref).disconnected :=
  congrArg Core.disconnected (h.core ref)

/-- Changing a session outside its pairing part changes no pairing part. -/
theorem modify (c : KdeConnectClient φ π) (ref : Nat) {f : DeviceSession π → DeviceSession π}
    (hf : (f (c.heap ref)).core = (c.heap ref).core)
    (hq : (c.heap ref).sendQueue <+: (f (c.heap ref)).sendQueue) :
    SameCores c (c.modify ref f) := by
  refine ⟨?_, ?_, rfl, rfl, rfl, rfl⟩
  · intro other
    by_cases h : other = ref
    · subst h
      rw [KdeConnectClient.modify_heap_self, hf]
    · rw [KdeConnectClient.modify_heap_ne c h]
  · intro other
    by_cases h : other = ref
    · subst h
      rw [KdeConnectClient.modify_heap_self]
      exact hq
    · have heq := KdeConnectClient.modify_heap_ne c h f
      simp only [heq, List.prefix_rfl]

/-- Sending changes no pairing part. -/
theorem sendPacket (m : Moment ε) (deviceId : String) (pkt : NetworkPacket)
    (c : KdeConnectClient φ π) : SameCores c (KdeConnectClient.sendPacket m deviceId pkt c).2 := by
  unfold KdeConnectClient.sendPacket
  split
  · exact refl c
  · split
    · exact refl c
    · exact modify c _ rfl (List.prefix_append _ _)

/-- Sending touches queues only. -/
theorem sendAll (m : Moment ε) (deviceId : String) (pkts : List NetworkPacket)
    (c : KdeConnectClient φ π) : SameCores c (KdeConnectClient.sendAll m deviceId pkts c) := by
  induction pkts generalizing c with
  | nil => exact refl c
  | cons pkt pkts ih => exact (sendPacket m deviceId pkt c).trans (ih _)

/-- Neither do the plugins when they are told of a connection. -/
theorem notifyPluginsConnected [PluginHost π ε] (m : Moment ε) (ref : Nat)
    (c : KdeConnectClient φ π) :
    SameCores c (KdeConnectClient.notifyPluginsConnected m ref c) := by
  have hplugins := modify c ref (f := fun s => { s with
    plugins := ((c.heap ref).plugins.map (PluginHost.onConnected m.env (c.heap ref).paired)).map
      (·.1) }) rfl List.prefix_rfl
  exact hplugins.trans (sendAll m _ _ _)

end SameCores

namespace KdeConnectClient

variable {φ π ε : Type}

/-- A send succeeds exactly when the device has a session that is connected. -/
theorem sendPacket_fst {c : KdeConnectClient φ π} {deviceId : String} {ref : Nat}
    (h : c.device deviceId = some ref) (m : Moment ε) (pkt : NetworkPacket) :
    (sendPacket m deviceId pkt c).1 = !(c.heap ref).disconnected := by
  unfold sendPacket
  rw [h]
  dsimp only
  cases hd : (c.heap ref).disconnected <;> simp

/-- What a successful send puts on the queue. -/
theorem sendPacket_queue {c : KdeConnectClient φ π} {deviceId : String} {ref : Nat}
    (h : c.device deviceId = some ref) (hopen : (c.heap ref).disconnected = false) (m : Moment ε)
    (pkt : NetworkPacket) :
    ((sendPacket m deviceId pkt c).2.heap ref).sendQueue =
      (c.heap ref).sendQueue ++ [⟨m.millis, pkt⟩] := by
  unfold sendPacket
  rw [h]
  dsimp only
  rw [hopen, if_neg Bool.false_ne_true]
  dsimp only
  rw [modify_heap_self]
  rfl

end KdeConnectClient

end KdeConnectNx.Sessions
