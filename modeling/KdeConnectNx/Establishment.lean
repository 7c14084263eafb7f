import KdeConnectNx.IdentityPackets
import KdeConnectNx.PairingAgreement
import KdeConnectNx.PluginTalk
import KdeConnectNx.SessionTable
import KdeConnectNx.TlsRoles

/-!
# Two devices that find each other

The left device gets the datagram of the right one, dials it and introduces
itself in the clear; both then run `handle_new_connection`, each in the steps
the other can come between, while their main loops and the io threads of the
new sessions go on. Both get through, in opposite roles, and what only one of
them remembers is taken back.
-/

namespace KdeConnectNx.Establishment

open Runs JsonTree PacketBody PacketFormat LineReader PairedFiles Sessions Pairing Connection
  PairingRuns PairingExchange TlsRoles TextSizes IdentityPackets PluginTalk Plugins
open KdeConnectClient (modify setStorage post sendPacket notifyPluginsConnected)
open PairingAgreement (Side)
open SessionTable (enter cleanUp)

def kMaxUdpPacketSize : Nat := 8 * 1024
def kMinTcpPort : Int32 := 1716

/-- `read_line_fd` over the bytes that arrive. -/
def readLineFd (maxBytes : Nat) : List UInt8 → List UInt8 → Option (List UInt8)
  | _, [] => none
  | out, ch :: bytes =>
    if out.length < maxBytes then
      if ch = 10 then some out else readLineFd maxBytes (out ++ [ch]) bytes
    else none

/-- What `network_loop` makes of a datagram: the device that is discovered and
the port to dial. -/
def hearDatagram (y : Yyjson) (localDevice : DeviceInfo) (datagram : List UInt8) :
    Option (DeviceInfo × Int32) :=
  match NetworkPacket.parse y (datagram.take kMaxUdpPacketSize) with
  | none => none
  | some packet =>
    if packet.type ≠ PacketTypes.identity then none
    else
      let identity := infoFromIdentity packet
      if identity.id.isEmpty || identity.id == localDevice.id then none
      else some ({ identity with
          protocolVersion := packet.body.valueInt "protocolVersion" kProtocolVersion },
        packet.body.valueInt "tcpPort" kMinTcpPort)

/-- What the accepting thread makes of the first line: the identity of the one
who dialled, if the line is meant for this device. -/
def acceptLine (y : Yyjson) (localDevice : DeviceInfo) (line : List UInt8) : Option DeviceInfo :=
  match NetworkPacket.parse y line with
  | none => none
  | some packet =>
    let tid := packet.body.valueStr "targetDeviceId" ""
    if packet.type ≠ PacketTypes.identity then none
    else if packet.body.has "targetDeviceId" && !tid.isEmpty && tid != localDevice.id then none
    else if packet.body.has "targetProtocolVersion" &&
        packet.body.valueInt "targetProtocolVersion" kProtocolVersion != kProtocolVersion then none
    else some (infoFromIdentity packet)

/-- How far a run of `handle_new_connection` has come. -/
inductive Phase where
  | begun
  /-- No live session was found. -/
  | checked
  | loaded (stored : Option PairedDeviceInfo)
  /-- In the handshake. -/
  | created (stored : Option PairedDeviceInfo)
  | shaken (stored : Option PairedDeviceInfo) (session : TlsSession)
  /-- The own identity is sent, that of the peer still to be read. -/
  | said (stored : Option PairedDeviceInfo) (session : TlsSession)
  /-- The session object is made and its io thread started. -/
  | started (ref : Nat)
  | entered (ref : Nat) (old : Option Nat)
  | cleaned (ref : Nat)
  /-- The notice of the connection is shown, if it is to be. -/
  | noticed (ref : Nat)
  /-- A device that is not paired was sent a denial. -/
  | denied (ref : Nat)
  | introduced (ref : Nat)
  | done (ref : Nat)

/-- Where the thread that sets up the connection stands. -/
inductive Stage where
  /-- `network_loop` has nothing yet. -/
  | waiting
  /-- `handle_discovered_peer` is about to dial. -/
  | discovered (identity : DeviceInfo) (port : Int32)
  | running (identity : DeviceInfo) (phase : Phase)
  | dropped

/-- The session of a run, once there is one. -/
def Phase.ref? : Phase → Option Nat
  | .started ref | .entered ref _ | .cleaned ref | .noticed ref | .denied ref | .introduced ref
  | .done ref => some ref
  | _ => none

def Stage.ref? : Stage → Option Nat
  | .running _ phase => phase.ref?
  | _ => none

/-- One of the two devices, and what it has put on the connection. -/
structure Party (φ : Type) where
  client : KdeConnectClient φ Plugin
  stage : Stage := .waiting
  /-- The line the dialling device sends in the clear. -/
  hail : Option (List UInt8) := none
  tls : Option TlsEnd := none
  /-- The line sent through TLS before the session is made. -/
  said : Option (List UInt8) := none
  /-- How many packets of the peer's session the io thread has handled. -/
  heard : Nat := 0

/-- The session's send queue, all that was ever put on it. -/
def Party.queue {φ : Type} (p : Party φ) : List Outgoing :=
  p.stage.ref?.elim [] fun ref => (p.client.heap ref).sendQueue

/-- What stays as it is: the datagrams in which the devices announce themselves,
their certificates, the ports on which they listen, and the TLS library. -/
structure Meeting where
  tls : Tls
  datagram : Side → List UInt8
  certPem : Side → String
  tcpPort : Side → Int32

/-- The right device accepts. -/
def tcpServerSide : Side → Bool
  | .left => false
  | .right => true

/-! ## The steps of one device -/

section Steps

variable {φ : Type}

/-- The notice of a connection. -/
def notice (showOnConnect : Bool) (ref : Nat) (c : KdeConnectClient φ Plugin) :
    KdeConnectClient φ Plugin :=
  if (c.heap ref).paired && showOnConnect then
    post c (c.heap ref).info.name "Connected" ("connect_" ++ (c.heap ref).info.id)
  else c

/-- The denial that goes to a device that is not paired. -/
def deny (m : Moment PluginEnv) (identity : DeviceInfo) (ref : Nat)
    (c : KdeConnectClient φ Plugin) : KdeConnectClient φ Plugin :=
  if !(c.heap ref).paired then (sendPacket m identity.id unpairPacket c).2 else c

/-- The own identity once more. -/
def introduce (m : Moment PluginEnv) (identity : DeviceInfo) (c : KdeConnectClient φ Plugin) :
    KdeConnectClient φ Plugin :=
  (sendPacket m identity.id (makeIdentityPacket c.localDevice (some identity.id)
    (some identity.protocolVersion) (some c.tcpPort)) c).2

/-- With the plugins' part these are what follows the entry into the table. -/
theorem announce_eq (m : Moment PluginEnv) (identity : DeviceInfo) (showOnConnect : Bool)
    (ref : Nat) (c : KdeConnectClient φ Plugin) :
    announce m identity showOnConnect ref c =
      notifyPluginsConnected m ref
        (introduce m identity (deny m identity ref (notice showOnConnect ref c))) := rfl

/-- What the TLS session and the line read through it give. -/
def ioOf (session : TlsSession) (peerPubkey line : List UInt8) : ConnectionIo where
  certificate := some session.peerCertPem
  peerPubkey := peerPubkey
  line := some line

variable [FileSystem φ]

/-- The next step of `handle_new_connection`; the run waits where its peer has
not come far enough. -/
def connect (y : Yyjson) (x : Meeting) (m : Moment PluginEnv) (showOnConnect : Bool) (s : Side)
    (identity : DeviceInfo) (peer me : Party φ) : Phase → Party φ
  | .begun =>
    if admitted me.client identity then { me with stage := .running identity .checked }
    else { me with stage := .dropped }
  | .checked =>
    let loaded := loadPairedDevice y identity.id me.client.storage
    { me with
      client := setStorage me.client loaded.2
      stage := .running identity (.loaded loaded.1) }
  | .loaded stored =>
    { me with
      tls := some (createSession (x.certPem s) (tcpServerSide s))
      stage := .running identity (.created stored) }
  | .created stored =>
    match me.tls, peer.tls with
    | some e, some e' =>
      match x.tls.handshake e e' with
      | some session => { me with stage := .running identity (.shaken stored session) }
      | none => { me with stage := .dropped }
    | _, _ => me
  | .shaken stored session =>
    if certificateRefused (tcpServerSide s) (ioOf session [] []) stored then
      { me with stage := .dropped }
    else
      { me with
        said := some
          ((makeIdentityPacket me.client.localDevice none none none).serialize y m.millis)
        stage := .running identity (.said stored session) }
  | .said stored session =>
    match peer.said with
    | none => me
    | some text =>
      match readLineTls kMaxPacketSize [] (text.map .byte) with
      | (.line line, _) =>
        match makeSession y identity (tcpServerSide s)
            (ioOf session peer.client.localPubkey line) stored with
        | some made =>
          { me with
            client := allocate made me.client
            stage := .running identity (.started me.client.next) }
        | none => { me with stage := .dropped }
      | _ => { me with stage := .dropped }
  | .started ref =>
    { me with
      client := enter ref me.client
      stage := .running identity
        (.entered ref (me.client.device (me.client.heap ref).info.id)) }
  | .entered ref old =>
    { me with client := cleanUp old me.client, stage := .running identity (.cleaned ref) }
  | .cleaned ref =>
    { me with
      client := notice showOnConnect ref me.client
      stage := .running identity (.noticed ref) }
  | .noticed ref =>
    { me with
      client := deny m identity ref me.client
      stage := .running identity (.denied ref) }
  | .denied ref =>
    { me with
      client := introduce m identity me.client
      stage := .running identity (.introduced ref) }
  | .introduced ref =>
    { me with
      client := notifyPluginsConnected m ref me.client
      stage := .running identity (.done ref) }
  | .done _ => me

/-- The next step of the thread that sets up the connection. -/
def advance (y : Yyjson) (x : Meeting) (m : Moment PluginEnv) (showOnConnect : Bool) (s : Side)
    (peer me : Party φ) : Party φ :=
  match me.stage, s with
  | .waiting, .left =>
    match hearDatagram y me.client.localDevice (x.datagram .right) with
    | some found => { me with stage := .discovered found.1 found.2 }
    | none => { me with stage := .dropped }
  | .waiting, .right =>
    match peer.hail with
    | none => me
    | some bytes =>
      match (readLineFd kMaxPacketSize [] bytes).bind (acceptLine y me.client.localDevice) with
      | some identity => { me with stage := .running identity .begun }
      | none => { me with stage := .dropped }
  | .discovered identity port, s =>
    -- the port is cut to 16 bits for the socket address
    if port.toBitVec.setWidth 16 = (x.tcpPort s.other).toBitVec.setWidth 16 then
      { me with
        hail := some ((makeIdentityPacket me.client.localDevice (some identity.id)
          (some identity.protocolVersion) none).serialize y m.millis)
        stage := .running identity .begun }
    else { me with stage := .dropped }
  | .running identity phase, _ => connect y x m showOnConnect s identity peer me phase
  | .dropped, _ => me

/-- The io thread of the session handles the next packet of the peer's, whose
line has reached it whole. -/
def deliver (y : Yyjson) (m : Moment PluginEnv) (peer me : Party φ) : Party φ :=
  match me.stage.ref?, peer.queue[me.heard]? with
  | some ref, some o =>
    { me with
      client := handlePacket y m ref (o.text y).dropLast me.client
      heard := me.heard + 1 }
  | _, _ => me

/-- The main loop of the device goes round once. -/
def tick (m : Moment PluginEnv) (me : Party φ) : Party φ :=
  { me with client := UnpairedSends.processEvents m me.client }

/-- Both devices. -/
abbrev World (φ : Type) := Side → Party φ

inductive Event where
  /-- The thread that sets up the connection goes on. -/
  | turn (s : Side) (m : Moment PluginEnv) (showOnConnect : Bool)
  | arrival (s : Side) (m : Moment PluginEnv)
  | mainLoop (s : Side) (m : Moment PluginEnv)

/-- The device an event happens at. -/
def Event.side : Event → Side
  | .turn s _ _ | .arrival s _ | .mainLoop s _ => s

/-- What becomes of that device. -/
def Event.party (y : Yyjson) (x : Meeting) (w : World φ) : Event → Party φ
  | .turn s m showOnConnect => advance y x m showOnConnect s (w s.other) (w s)
  | .arrival s m => deliver y m (w s.other) (w s)
  | .mainLoop s m => tick m (w s)

def step (y : Yyjson) (x : Meeting) (w : World φ) (e : Event) : World φ :=
  Function.update w e.side (e.party y x w)

end Steps

/-! ## What holds of one device -/

/-- How many steps the thread has still to make. -/
@[simp] def Phase.togo : Phase → Nat
  | .begun => 12
  | .checked => 11
  | .loaded _ => 10
  | .created _ => 9
  | .shaken _ _ => 8
  | .said _ _ => 7
  | .started _ => 6
  | .entered _ _ => 5
  | .cleaned _ => 4
  | .noticed _ => 3
  | .denied _ => 2
  | .introduced _ => 1
  | .done _ => 0

@[simp] def Stage.togo : Stage → Nat
  | .waiting => 14
  | .discovered _ _ => 13
  | .running _ phase => phase.togo
  | .dropped => 15

/-- What both devices bring along: descriptions that fit their datagrams, ids
of their own, the protocol of this code, and a certificate; and what is relied
on of TLS. -/
structure Presentable (y : Yyjson) (x : Meeting) (info : Side → DeviceInfo) : Prop where
  tls : x.tls.Lawful
  plain : ∀ s, Plain (info s)
  id_ne : ∀ s, (info s).id ≠ ""
  distinct : ∀ s, (info s.other).id ≠ (info s).id
  version : ∀ s, (info s).protocolVersion = kProtocolVersion
  certPem : ∀ s, x.certPem s ≠ ""
  datagram : ∀ s, ∃ now target, x.datagram s =
    (makeIdentityPacket (info s) target none (some (x.tcpPort s))).serialize y now
  short : ∀ s, (x.datagram s).length ≤ kMaxUdpPacketSize

section Device

variable {φ : Type} [FileSystem φ] (y : Yyjson) (x : Meeting) (info : Side → DeviceInfo)
  (remembered : Side → Bool)

/-- The stored entry of the peer is the one remembered, with the peer's
certificate. -/
structure Recalls (s : Side) (stored : Option PairedDeviceInfo) : Prop where
  isSome : stored.isSome = remembered s
  certPem : ∀ entry, stored = some entry → entry.certificatePem = x.certPem s.other

/-- The peer's session in the table, if there is one, is an object of the
heap. -/
def Below (s : Side) (c : KdeConnectClient φ Plugin) : Prop :=
  ∀ ref, c.device (info s.other).id = some ref → ref < c.next

/-- No live session with the peer, and the store as it was. -/
structure Unmet (s : Side) (c : KdeConnectClient φ Plugin) : Prop where
  below : Below info s c
  ended : ∀ ref, c.device (info s.other).id = some ref → (c.heap ref).disconnected = true
  entry : Recalls x remembered s (c.storage.entry y (info s.other).id)

/-- A live session with the peer, on which it was sent ordinary packets and
denials only. -/
structure Holds (s : Side) (ref : Nat) (c : KdeConnectClient φ Plugin) : Prop where
  info : (c.heap ref).info = info s.other
  connected : (c.heap ref).disconnected = false
  calm : (c.heap ref).pairState ≠ .requested
  packets : ∀ o ∈ (c.heap ref).sendQueue, Ordinary o.packet ∨ o.packet = unpairPacket

/-- What holds of a client whose run has come so far. -/
def InPhase (s : Side) (c : KdeConnectClient φ Plugin) : Phase → Prop
  | .begun | .checked => Unmet y x info remembered s c
  | .loaded stored | .created stored => Below info s c ∧ Recalls x remembered s stored
  | .shaken stored session | .said stored session =>
    Below info s c ∧ Recalls x remembered s stored ∧ session = ⟨x.certPem s.other⟩
  | .started ref => Holds info s ref c ∧ c.device (info s.other).id ≠ some ref
  | .entered ref old =>
    Holds info s ref c ∧ c.device (info s.other).id = some ref ∧ old ≠ some ref
  | .cleaned ref | .noticed ref | .denied ref | .introduced ref | .done ref =>
    Holds info s ref c ∧ c.device (info s.other).id = some ref

def InStage (s : Side) (c : KdeConnectClient φ Plugin) : Stage → Prop
  | .waiting => Unmet y x info remembered s c
  | .discovered identity port =>
    s = .left ∧ identity = info .right ∧ port = x.tcpPort .right ∧
      Unmet y x info remembered s c
  | .running identity phase => identity = info s.other ∧ InPhase y x info remembered s c phase
  | .dropped => False

/-- A device on its way: what it has sent is what its peer expects, and was
sent by the time its stage tells. -/
structure Sane (s : Side) (p : Party φ) : Prop where
  localDevice : p.client.localDevice = info s
  stage : InStage y x info remembered s p.client p.stage
  hail : ∀ line, p.hail = some line → ∃ now, line =
    (makeIdentityPacket (info s) (some (info s.other).id) (some kProtocolVersion) none).serialize y
      now
  hailed : s = .left → p.stage.togo ≤ 12 → p.hail.isSome = true
  tls : ∀ e, p.tls = some e → e = createSession (x.certPem s) (tcpServerSide s)
  opened : p.stage.togo ≤ 9 → p.tls.isSome = true
  said : ∀ text, p.said = some text → ∃ now, text =
    (makeIdentityPacket (info s) none none none).serialize y now
  spoke : p.stage.togo ≤ 7 → p.said.isSome = true

end Device

/-! ## The four identity packets pass -/

/-- A line that ends within the limit is read whole. -/
theorem readLineFd_line {maxBytes : Nat} (out : List UInt8) {text : List UInt8}
    (hn : (10 : UInt8) ∉ text) (hlen : out.length + text.length < maxBytes) :
    readLineFd maxBytes out (text ++ [10]) = some (out ++ text) := by
  induction text generalizing out with
  | nil =>
    have hroom : out.length < maxBytes := by omega
    rw [List.nil_append, readLineFd, if_pos hroom, if_pos rfl, List.append_nil]
  | cons c text ih =>
    have hroom : out.length < maxBytes := by omega
    have hc : c ≠ 10 := fun h => hn (h ▸ List.mem_cons_self)
    have htext : (10 : UInt8) ∉ text := fun h => hn (List.mem_cons_of_mem c h)
    have hlen' : (out ++ [c]).length + text.length < maxBytes := by
      rw [List.length_append, List.length_singleton]
      rw [List.length_cons] at hlen
      omega
    rw [List.cons_append, readLineFd, if_pos hroom, if_neg hc, ih (out ++ [c]) htext hlen',
      List.append_assoc]
    rfl

/-- A description fits where its datagram does. -/
theorem Presentable.size {y : Yyjson} (hy : y.Lawful) (hm : Minified y) {x : Meeting}
    {info : Side → DeviceInfo} (hx : Presentable y x info) (s : Side) :
    infoSize y (info s) ≤ kMaxUdpPacketSize := by
  obtain ⟨now, target, htext⟩ := hx.datagram s
  have hshort := hx.short s
  rw [htext, length_identity hy hm] at hshort
  omega

section Lines

variable {y : Yyjson} (hy : y.Lawful) (hm : Minified y) {x : Meeting} {info : Side → DeviceInfo}
  (hx : Presentable y x info)

include hy hm hx

/-- The datagram leads to the device that sent it and to its port. -/
theorem hearDatagram_right :
    hearDatagram y (info .left) (x.datagram .right) = some (info .right, x.tcpPort .right) := by
  obtain ⟨now, target, htext⟩ := hx.datagram .right
  have hwhole : (x.datagram .right).take kMaxUdpPacketSize = x.datagram .right :=
    List.take_of_length_le (hx.short .right)
  have hparse := parse_datagram hy hm (info .right) target none (some (x.tcpPort .right)) now
  have hinfo := infoFromIdentity_received target none (some (x.tcpPort .right)) (hx.plain .right)
  have hversion := @valueInt_received (info .right) target none (some (x.tcpPort .right))
  have hport := tcpPort_received (info .right) target (x.tcpPort .right) kMinTcpPort
  have hid : ((info .right).id.isEmpty || (info .right).id == (info .left).id) = false := by
    rw [Bool.or_eq_false_iff, beq_eq_false_iff_ne, String.isEmpty_eq_false_iff]
    exact ⟨hx.id_ne .right, hx.distinct .left⟩
  have htype : ¬ (makeIdentityPacket (info .right) target none
      (some (x.tcpPort .right))).received.type ≠ PacketTypes.identity := fun h => h rfl
  unfold hearDatagram
  rw [hwhole, htext, hparse]
  dsimp only
  rw [if_neg htype, hinfo, hversion, hport, hid, if_neg Bool.false_ne_true]

/-- The line the dialling device sends in the clear is accepted as its. -/
theorem acceptLine_left (now : Int64) :
    (readLineFd kMaxPacketSize [] ((makeIdentityPacket (info .left) (some (info .right).id)
      (some kProtocolVersion) none).serialize y now)).bind (acceptLine y (info .right)) =
        some (info .left) := by
  have hfits : Outgoing.Fits y ⟨now, makeIdentityPacket (info .left) (some (info .right).id)
      (some kProtocolVersion) none⟩ := by
    refine identity_fits hy hm (hx.size hy hm .left) ?_ _ _ (by decide) now
    intro id hid
    rw [← Option.some.inj hid]
    exact Nat.le_trans (size_id_le (info .right)) (hx.size hy hm .right)
  obtain ⟨line, htext, hn, hlen, hparse⟩ := hfits.text_line hy
  have hroom : ([] : List UInt8).length + line.length < kMaxPacketSize := by
    rw [List.length_nil]
    omega
  have hread := readLineFd_line [] hn hroom
  obtain ⟨hid, hversion⟩ :=
    address_received (info .left) (hx.plain .right).id kProtocolVersion none
  have hinfo := infoFromIdentity_received (some (info .right).id) (some kProtocolVersion) none
    (hx.plain .left)
  have htype : ¬ (makeIdentityPacket (info .left) (some (info .right).id) (some kProtocolVersion)
      none).received.type ≠ PacketTypes.identity := fun h => h rfl
  rw [Outgoing.text] at htext
  dsimp only at htext hparse
  rw [htext, hread, List.nil_append, Option.bind_some]
  unfold acceptLine
  rw [hparse]
  dsimp only
  rw [if_neg htype, hid, hversion, bne_self_eq_false, bne_self_eq_false, Bool.and_false,
    Bool.and_false, if_neg Bool.false_ne_true, if_neg Bool.false_ne_true, hinfo]

/-- The identity sent through TLS is the one that was announced. -/
theorem secureInfo_peer (s : Side) (now : Int64) :
    ∃ line, readLineTls kMaxPacketSize []
        (((makeIdentityPacket (info s) none none none).serialize y now).map .byte) =
          (.line line, []) ∧ secureInfo y (info s) line = some (info s) := by
  have hfits : Outgoing.Fits y ⟨now, makeIdentityPacket (info s) none none none⟩ :=
    identity_fits hy hm (hx.size hy hm s) (fun _ h => by cases h) _ _ (by decide) now
  obtain ⟨line, htext, hn, hlen, hparse⟩ := hfits.text_line hy
  have hroom : ([] : List UInt8).length + line.length < kMaxPacketSize := by
    rw [List.length_nil]
    omega
  have hread := readLineTls_bytes [] hn hroom
  have hinfo := infoFromIdentity_received none none none (hx.plain s)
  have htype : ¬ (makeIdentityPacket (info s) none none none).received.type ≠
      PacketTypes.identity := fun h => h rfl
  rw [Outgoing.text] at htext
  dsimp only at htext hparse
  refine ⟨line, by rw [htext]; exact hread, ?_⟩
  unfold secureInfo
  rw [hparse]
  dsimp only
  rw [if_neg htype, hinfo, if_neg]
  rintro (h | h) <;> exact h rfl

end Lines

end KdeConnectNx.Establishment
