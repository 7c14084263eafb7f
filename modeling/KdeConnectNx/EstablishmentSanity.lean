import KdeConnectNx.Establishment

/-!
# A device on its way stays sane

What plugins and main loop send, and what arrives from a sane peer, leave a device
where its thread has brought it.
-/

namespace KdeConnectNx.Establishment

open Runs JsonTree PacketBody PacketFormat LineReader PairedFiles Sessions Pairing Connection
  PairingRuns PairingExchange TlsRoles TextSizes IdentityPackets PluginTalk Plugins
open KdeConnectClient (modify setStorage post sendPacket notifyPluginsConnected)
open PairingAgreement (Side)
open SessionTable (enter cleanUp)

/-! ## Every step keeps a device sane -/

theorem ordinary_identity (info : DeviceInfo) (targetId : Option String)
    (targetProtocol tcpPort : Option Int32) :
    Ordinary (makeIdentityPacket info targetId targetProtocol tcpPort) :=
  ordinary_of_type PacketTypes.identity rfl (by decide) (makeIdentityPacket_realFree _ _ _ _)

section Clients

variable {φ : Type} {info : Side → DeviceInfo} {s : Side} {ref : Nat}
  {c c' : KdeConnectClient φ Plugin}

/-- A session that changes in nothing but its queue stays what it is. -/
theorem Holds.same (h : Holds info s ref c) (hs : SameCores c c')
    (hq : ∀ o ∈ (c'.heap ref).sendQueue, Ordinary o.packet ∨ o.packet = unpairPacket) :
    Holds info s ref c' := by
  refine ⟨(hs.info ref).trans h.info, (hs.disconnected ref).trans h.connected, ?_, hq⟩
  rw [hs.pairState]
  exact h.calm

theorem Holds.chats (h : Holds info s ref c) (hc : Chats ref c c') : Holds info s ref c' := by
  obtain ⟨more, hmore, hall⟩ := hc.queue
  refine h.same hc.same ?_
  intro o hm
  rw [hmore] at hm
  rcases List.mem_append.mp hm with hm | hm
  · exact h.packets o hm
  · exact .inl (hall o hm)

theorem Below.same (h : Below info s c) (hs : SameCores c c') : Below info s c' := by
  intro ref hd
  rw [hs.device] at hd
  rw [hs.next]
  exact h ref hd

/-- The denial is queued on the session in the table. -/
theorem sendPacket_unpairPacket (hd : c.device (info s.other).id = some ref)
    (h : Holds info s ref c) (m : Moment PluginEnv) :
    Holds info s ref (sendPacket m (info s.other).id unpairPacket c).2 := by
  refine h.same (SameCores.sendPacket m _ unpairPacket c) ?_
  intro o hm
  rw [KdeConnectClient.sendPacket_queue hd h.connected] at hm
  rcases List.mem_append.mp hm with hm | hm
  · exact h.packets o hm
  · rw [List.mem_singleton.mp hm]
    exact .inr rfl

/-- The session hears a denial. -/
theorem Holds.unpaired (h : Holds info s ref c) (storage : Storage φ) :
    Holds info s ref (setStorage (modify c ref DeviceSession.markUnpaired) storage) := by
  have hheap : ((setStorage (modify c ref DeviceSession.markUnpaired) storage).heap ref) =
      (c.heap ref).markUnpaired := KdeConnectClient.modify_heap_self ..
  refine ⟨?_, ?_, ?_, ?_⟩
  · rw [hheap]
    exact h.info
  · rw [hheap]
    exact h.connected
  · rw [hheap]
    exact fun hstate => by cases hstate
  · rw [hheap]
    exact h.packets

theorem chats_notice (showOnConnect : Bool) (target ref : Nat) (c : KdeConnectClient φ Plugin) :
    Chats ref c (notice showOnConnect target c) := by
  unfold notice
  split
  · exact .of_queue (sameCores_post c _ _ _) rfl
  · exact .refl ref c

theorem chats_introduce (m : Moment PluginEnv) (identity : DeviceInfo) (ref : Nat)
    (c : KdeConnectClient φ Plugin) : Chats ref c (introduce m identity c) :=
  .send (ordinary_identity _ _ _ _) m identity.id ref c

end Clients

section Packets

variable {φ : Type} [FileSystem φ] {y : Yyjson} (hy : y.Lawful) {o : Outgoing}
  (m : Moment PluginEnv) (ref : Nat) (c : KdeConnectClient φ Plugin)

include hy

/-- An ordinary packet that arrives changes no pairing. -/
theorem chats_handlePacket (ho : Ordinary o.packet) (other : Nat) :
    Chats other c (handlePacket y m ref (o.text y).dropLast c) := by
  have hpair : ¬ o.packet.received.type = PacketTypes.pair := ho.notPair
  have hecho : o.packet.received.type ≠ PacketTypes.mousepadRequest := ho.noEcho
  unfold handlePacket
  rw [parse_text hy ho.nulFree ho.realFree]
  dsimp only
  rw [if_neg hpair]
  split
  · exact .refl other c
  · exact .dispatch hecho m ref other c

/-- A denial ends the pairing, unless a request is open, which it ends. -/
theorem handlePacket_unpairPacket (ho : o.packet = unpairPacket)
    (hcalm : (c.heap ref).pairState ≠ .requested) :
    handlePacket y m ref (o.text y).dropLast c =
      setStorage (modify c ref DeviceSession.markUnpaired)
        (removePairedDevice (c.heap ref).info.id c.storage) := by
  have hparse : NetworkPacket.parse y (o.text y).dropLast = some unpairPacket.received := by
    have hnul : NulFree o.packet.type := by
      rw [ho]
      exact PairingAgreement.packetOf_readable false 0 |>.1
    have hfree : o.packet.body.realFree = true := by
      rw [ho]
      rfl
    rw [parse_text hy hnul hfree, ho]
  have hwants : unpairPacket.received.body.valueBool "pair" false = false := by
    unfold NetworkPacket.received
    dsimp only
    rw [JsonBody.valueBool_canon]
    rfl
  have htype : unpairPacket.received.type = PacketTypes.pair := rfl
  unfold handlePacket
  rw [hparse]
  dsimp only
  rw [if_pos htype, handlePairPacket]
  unfold handlePairPacketTimed
  dsimp only
  rw [hwants, if_neg Bool.false_ne_true, if_neg hcalm]

end Packets

section Sanity

variable {φ : Type} [FileSystem φ] {y : Yyjson} {x : Meeting} {info : Side → DeviceInfo}
  {remembered : Side → Bool} {s : Side} {c c' : KdeConnectClient φ Plugin} {phase : Phase}
  {identity : DeviceInfo} {ref : Nat} {me peer : Party φ}

theorem Unmet.same (h : Unmet y x info remembered s c) (hs : SameCores c c') :
    Unmet y x info remembered s c' := by
  refine ⟨h.below.same hs, ?_, ?_⟩
  · intro ref hd
    rw [hs.device] at hd
    exact (hs.disconnected ref).trans (h.ended ref hd)
  · rw [hs.storage]
    exact h.entry

/-- A run that has a session holds it. -/
theorem InPhase.holds (h : InPhase y x info remembered s c phase) (hr : phase.ref? = some ref) :
    Holds info s ref c := by
  cases phase <;> cases hr <;> exact h.1

/-- While it does, only the session and the table matter. -/
theorem InPhase.session (h : InPhase y x info remembered s c phase) (hr : phase.ref? = some ref)
    (hh : Holds info s ref c') (ht : c'.sessions = c.sessions) :
    InPhase y x info remembered s c' phase := by
  have hdevice : c'.device (info s.other).id = c.device (info s.other).id := by
    unfold KdeConnectClient.device
    rw [ht]
  cases phase <;> cases hr
  case started => exact ⟨hh, by rw [hdevice]; exact h.2⟩
  case entered => exact ⟨hh, by rw [hdevice]; exact h.2.1, h.2.2⟩
  all_goals exact ⟨hh, hdevice.trans h.2⟩

theorem InPhase.chats (h : InPhase y x info remembered s c phase) (hc : ∀ ref, Chats ref c c') :
    InPhase y x info remembered s c' phase := by
  have hs := (hc 0).same
  cases hr : phase.ref? with
  | some ref => exact h.session hr ((h.holds hr).chats (hc ref)) hs.sessions
  | none =>
    cases phase with
    | begun => exact Unmet.same h hs
    | checked => exact Unmet.same h hs
    | loaded stored => exact ⟨h.1.same hs, h.2⟩
    | created stored => exact ⟨h.1.same hs, h.2⟩
    | shaken stored session => exact ⟨h.1.same hs, h.2⟩
    | said stored session => exact ⟨h.1.same hs, h.2⟩
    | _ => cases hr

/-- Between its steps a device stays where it is. -/
theorem Sane.chats (h : Sane y x info remembered s me) (hc : ∀ ref, Chats ref me.client c') :
    Sane y x info remembered s { me with client := c' } := by
  have hs := (hc 0).same
  refine ⟨hs.localDevice.trans h.localDevice, ?_, h.hail, h.hailed, h.tls, h.opened, h.said,
    h.spoke⟩
  have hstage := h.stage
  dsimp only
  cases hst : me.stage with
  | waiting =>
    rw [hst] at hstage
    exact Unmet.same hstage hs
  | discovered identity port =>
    rw [hst] at hstage
    obtain ⟨hleft, hidentity, hport, hunmet⟩ := hstage
    exact ⟨hleft, hidentity, hport, hunmet.same hs⟩
  | running identity phase =>
    rw [hst] at hstage
    exact ⟨hstage.1, hstage.2.chats hc⟩
  | dropped =>
    rw [hst] at hstage
    exact hstage

theorem Stage.running_ref? {stage : Stage} (h : stage.ref? = some ref) :
    ∃ identity phase, stage = .running identity phase ∧ phase.ref? = some ref := by
  cases stage with
  | running identity phase => exact ⟨identity, phase, rfl, h⟩
  | waiting => cases h
  | discovered identity port => cases h
  | dropped => cases h

theorem Sane.holds (h : Sane y x info remembered s me) (hr : me.stage.ref? = some ref) :
    Holds info s ref me.client := by
  obtain ⟨identity, phase, hst, hr⟩ := Stage.running_ref? hr
  have hstage := h.stage
  rw [hst] at hstage
  exact hstage.2.holds hr

/-- All that a device ever sends on its session is ordinary, or a denial. -/
theorem Sane.packets (h : Sane y x info remembered s me) :
    ∀ o ∈ me.queue, Ordinary o.packet ∨ o.packet = unpairPacket := by
  intro o hm
  unfold Party.queue at hm
  cases hr : me.stage.ref? with
  | none =>
    rw [hr] at hm
    cases hm
  | some ref =>
    rw [hr] at hm
    exact (h.holds hr).packets o hm

theorem sane_tick (h : Sane y x info remembered s me) (m : Moment PluginEnv) :
    Sane y x info remembered s (tick m me) :=
  h.chats fun ref => .processEvents m ref me.client

/-- A device that hears its peer stays sane. -/
theorem sane_deliver (hy : y.Lawful) (h : Sane y x info remembered s me)
    (hpeer : Sane y x info remembered s.other peer) (m : Moment PluginEnv) :
    Sane y x info remembered s (deliver y m peer me) := by
  unfold deliver
  split
  · rename_i ref o hr ho
    obtain ⟨identity, phase, hst, hphase⟩ := Stage.running_ref? hr
    have hstage := h.stage
    rw [hst] at hstage
    have hholds := h.holds hr
    have hclient : (handlePacket y m ref (o.text y).dropLast me.client).localDevice =
          me.client.localDevice ∧
        InPhase y x info remembered s (handlePacket y m ref (o.text y).dropLast me.client)
          phase := by
      rcases hpeer.packets o (List.mem_of_getElem? ho) with hordinary | hdenial
      · have hc := chats_handlePacket hy m ref me.client hordinary
        exact ⟨(hc 0).same.localDevice, hstage.2.chats hc⟩
      · rw [handlePacket_unpairPacket hy m ref me.client hdenial hholds.calm]
        exact ⟨rfl, hstage.2.session hphase (hholds.unpaired _) rfl⟩
    refine ⟨hclient.1.trans h.localDevice, ?_, h.hail, h.hailed, h.tls, h.opened, h.said,
      h.spoke⟩
    dsimp only
    rw [hst]
    exact ⟨hstage.1, hclient.2⟩
  · exact h

theorem Phase.togo_le (phase : Phase) : phase.togo ≤ 12 := by
  cases phase <;> simp

/-- A device that is at a later phase, with what it has sent by then. -/
theorem Sane.to (h : Sane y x info remembered s me) (hst : me.stage = .running identity phase)
    {phase' : Phase} {tls : Option TlsEnd} {said : Option (List UInt8)}
    (hlocal : c'.localDevice = me.client.localDevice)
    (hphase : InPhase y x info remembered s c' phase')
    (htls : ∀ e, tls = some e → e = createSession (x.certPem s) (tcpServerSide s))
    (hopened : phase'.togo ≤ 9 → tls.isSome = true)
    (hsaid : ∀ text, said = some text → ∃ now, text =
      (makeIdentityPacket (info s) none none none).serialize y now)
    (hspoke : phase'.togo ≤ 7 → said.isSome = true) :
    Sane y x info remembered s
      { me with client := c', stage := .running identity phase', tls := tls, said := said } := by
  have hstage := h.stage
  rw [hst] at hstage
  refine ⟨hlocal.trans h.localDevice, ⟨hstage.1, hphase⟩, h.hail, ?_, htls, hopened, hsaid,
    hspoke⟩
  intro hleft _
  have hle := Phase.togo_le phase
  refine h.hailed hleft ?_
  rw [hst]
  exact hle

/-- The next phase, when nothing is sent on the way to it. -/
theorem Sane.next (h : Sane y x info remembered s me) (hst : me.stage = .running identity phase)
    {phase' : Phase} (hlocal : c'.localDevice = me.client.localDevice)
    (hphase : InPhase y x info remembered s c' phase') (htogo : phase'.togo + 1 = phase.togo)
    (hsends : phase'.togo ≠ 9 ∧ phase'.togo ≠ 7) :
    Sane y x info remembered s { me with client := c', stage := .running identity phase' } := by
  have hbefore : me.stage.togo = phase.togo := by
    rw [hst]
    rfl
  refine h.to hst hlocal hphase h.tls ?_ h.said ?_
  · intro hle
    exact h.opened (by omega)
  · intro hle
    exact h.spoke (by omega)

/-- The peer is admitted: it has an id of its own and no live session. -/
theorem admitted_peer (hx : Presentable y x info) (hlocal : c.localDevice = info s)
    (h : Unmet y x info remembered s c) : admitted c (info s.other) = true := by
  have hid : (info s.other).id.isEmpty = false := by
    rw [String.isEmpty_eq_false_iff]
    exact hx.id_ne s.other
  have hown : ((info s.other).id != c.localDevice.id) = true := by
    rw [hlocal, bne_iff_ne]
    exact hx.distinct s
  unfold admitted
  rw [hid, hown, Bool.not_false, Bool.and_self, Bool.true_and]
  cases hd : c.device (info s.other).id with
  | none => rfl
  | some ref => exact h.ended ref hd

/-- The certificate of the peer passes, in either role. -/
theorem certificateRefused_peer (hx : Presentable y x info) {stored : Option PairedDeviceInfo}
    (h : Recalls x remembered s stored) (peerPubkey line : List UInt8) :
    certificateRefused (tcpServerSide s) (ioOf ⟨x.certPem s.other⟩ peerPubkey line) stored =
      false := by
  have hpresent : (ioOf ⟨x.certPem s.other⟩ peerPubkey line).peerPem.isEmpty = false := by
    rw [String.isEmpty_eq_false_iff]
    exact hx.certPem s.other
  cases stored with
  | none =>
    unfold certificateRefused
    rw [hpresent]
    rfl
  | some entry =>
    have hpem := h.certPem entry rfl
    refine certificateRefused_stored ?_ ?_ _
    · rw [hpem]
      exact hx.certPem s.other
    · rw [hpem]
      rfl

/-- The session that is made is with the peer, and paired when the peer is
remembered. -/
theorem makeSession_peer (hx : Presentable y x info) {stored : Option PairedDeviceInfo}
    (h : Recalls x remembered s stored) {line : List UInt8}
    (hline : secureInfo y (info s.other) line = some (info s.other)) (peerPubkey : List UInt8) :
    ∃ made : DeviceSession Plugin,
      makeSession y (info s.other) (tcpServerSide s) (ioOf ⟨x.certPem s.other⟩ peerPubkey line)
        stored = some made ∧
      made.info = info s.other ∧ made.disconnected = false ∧ made.pairState ≠ .requested ∧
        made.sendQueue = [] ∧ made.paired = remembered s := by
  have hpasses : (ioOf ⟨x.certPem s.other⟩ peerPubkey line).tls = true ∧
      (ioOf ⟨x.certPem s.other⟩ peerPubkey line).handshake = true ∧
      (ioOf ⟨x.certPem s.other⟩ peerPubkey line).sent = true ∧
      certificateRefused (tcpServerSide s) (ioOf ⟨x.certPem s.other⟩ peerPubkey line) stored =
        false := ⟨rfl, rfl, rfl, certificateRefused_peer hx h peerPubkey line⟩
  have hread : (ioOf ⟨x.certPem s.other⟩ peerPubkey line).line.bind
      (secureInfo y (info s.other)) = some (info s.other) := hline
  rw [makeSession_eq, if_pos hpasses, hread]
  refine ⟨_, rfl, rfl, rfl, ?_, rfl, h.isSome⟩
  dsimp only
  split
  · exact fun hstate => by cases hstate
  · exact fun hstate => by cases hstate

omit [FileSystem φ] in
/-- A session that is made is held, outside the table. -/
theorem holds_allocate {made : DeviceSession Plugin} (hinfo : made.info = info s.other)
    (hopen : made.disconnected = false) (hcalm : made.pairState ≠ .requested)
    (hqueue : made.sendQueue = []) (h : Below info s c) :
    Holds info s c.next (allocate made c) ∧
      (allocate made c).device (info s.other).id ≠ some c.next := by
  have hheap := allocate_heap made c
  refine ⟨⟨?_, ?_, ?_, ?_⟩, ?_⟩
  · rw [hheap]
    exact hinfo
  · rw [hheap]
    exact hopen
  · rw [hheap]
    exact hcalm
  · rw [hheap, hqueue]
    exact fun _ hm => by cases hm
  · exact fun hd => absurd (h c.next hd) (Nat.lt_irrefl _)

omit [FileSystem φ] in
theorem holds_cleanUp (h : Holds info s ref c) {old : Option Nat} (hne : old ≠ some ref) :
    Holds info s ref (cleanUp old c) := by
  have hheap := SessionTable.cleanUp_heap c hne
  refine ⟨?_, ?_, ?_, ?_⟩
  · rw [hheap]
    exact h.info
  · rw [hheap]
    exact h.connected
  · rw [hheap]
    exact h.calm
  · rw [hheap]
    exact h.packets

theorem tcpServerSide_other (s : Side) : tcpServerSide s.other = !tcpServerSide s := by
  cases s <;> rfl

end Sanity

end KdeConnectNx.Establishment
