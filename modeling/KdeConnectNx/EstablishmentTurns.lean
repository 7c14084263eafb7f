import KdeConnectNx.EstablishmentSanity

/-!
# The turns of the thread that sets up a connection

Stage by stage, the next step of the thread is the one that leads on, unless it
waits for what its sane peer has yet to send. What it says about the pairing is
told apart from what else is sent.
-/

namespace KdeConnectNx.Establishment

open Runs JsonTree PacketBody PacketFormat LineReader PairedFiles Sessions Pairing Connection
  PairingRuns PairingExchange TlsRoles TextSizes IdentityPackets PluginTalk Plugins
open KdeConnectClient (modify setStorage post sendPacket notifyPluginsConnected)
open PairingAgreement (Side)
open SessionTable (enter cleanUp)

/-! ## What a step of the thread does -/

/-- Whether the thread can go on. -/
def Ready {φ : Type} (s : Side) (peer me : Party φ) : Prop :=
  match me.stage with
  | .waiting => s = .left ∨ peer.hail.isSome = true
  | .running _ (.created _) => peer.tls.isSome = true
  | .running _ (.said _ _) => peer.said.isSome = true
  | .running _ (.done _) => False
  | .dropped => False
  | _ => True

/-- Whether the device takes its peer for paired, once it has a session. -/
def Party.belief {φ : Type} (p : Party φ) : Option Bool :=
  p.stage.ref?.map fun ref => (p.client.heap ref).paired

/-- A device says nothing new about the pairing. -/
structure Talks {φ : Type} (me me' : Party φ) : Prop where
  belief : me'.belief = me.belief
  queue : ∃ more, me'.queue = me.queue ++ more ∧ ∀ o ∈ more, Ordinary o.packet

/-- The thread waits, prepares or goes on in order, makes the session, or has
its say about the pairing. -/
inductive Pace {φ : Type} (remembered : Side → Bool) (s : Side) (peer me me' : Party φ) : Prop
  | stays (h : ¬ Ready s peer me) (heq : me' = me)
  | talks (h : Talks me me') (togo : me'.stage.togo < me.stage.togo)
    (late : me'.stage.togo ≤ 2 → me.stage.togo ≤ 2)
  | opens (before : me.belief = none ∧ me.queue = [])
    (after : me'.belief = some (remembered s) ∧ me'.queue = [])
    (togo : me.stage.togo = 7 ∧ me'.stage.togo = 6)
  | denies (paired : Bool) (now : Int64)
    (belief : me.belief = some paired ∧ me'.belief = some paired)
    (queue : me'.queue = me.queue ++ if paired then [] else [⟨now, unpairPacket⟩])
    (togo : me.stage.togo = 3 ∧ me'.stage.togo = 2)

/-- What a device has sent stays sent. -/
structure Keeps {φ : Type} (me me' : Party φ) : Prop where
  hail : me.hail.isSome = true → me'.hail.isSome = true
  tls : me.tls.isSome = true → me'.tls.isSome = true
  said : me.said.isSome = true → me'.said.isSome = true

/-- A step of the thread of a device that is sane. -/
structure Goes {φ : Type} [FileSystem φ] (y : Yyjson) (x : Meeting) (info : Side → DeviceInfo)
    (remembered : Side → Bool) (s : Side) (peer me me' : Party φ) : Prop where
  sane : Sane y x info remembered s me'
  heard : me'.heard = me.heard
  keeps : Keeps me me'
  pace : Pace remembered s peer me me'

section Goes

variable {φ : Type} [FileSystem φ] {y : Yyjson} {x : Meeting} {info : Side → DeviceInfo}
  {remembered : Side → Bool} {s : Side} {c' : KdeConnectClient φ Plugin} {phase phase' : Phase}
  {identity : DeviceInfo} {ref : Nat} {me peer : Party φ} {m : Moment PluginEnv}
  {showOnConnect : Bool}

omit [FileSystem φ] in
/-- Without a session nothing is said. -/
theorem Talks.silent {me' : Party φ} (h : me.stage.ref? = none) (h' : me'.stage.ref? = none) :
    Talks me me' := by
  refine ⟨?_, [], ?_, fun _ hm => by cases hm⟩
  · rw [Party.belief, Party.belief, h, h']
    rfl
  · rw [Party.queue, Party.queue, h, h']
    rfl

omit [FileSystem φ] in
/-- A session says ordinary packets, and its flag stays. -/
theorem Talks.session {me' : Party φ} {more : List Outgoing} (h : me.stage.ref? = some ref)
    (h' : me'.stage.ref? = some ref)
    (hpaired : (me'.client.heap ref).paired = (me.client.heap ref).paired)
    (hqueue : (me'.client.heap ref).sendQueue = (me.client.heap ref).sendQueue ++ more)
    (hmore : ∀ o ∈ more, Ordinary o.packet) : Talks me me' := by
  refine ⟨?_, more, ?_, hmore⟩
  · rw [Party.belief, Party.belief, h, h', Option.map_some, Option.map_some, hpaired]
  · rw [Party.queue, Party.queue, h, h', Option.elim_some, Option.elim_some, hqueue]

omit [FileSystem φ] in
/-- Where the plugins talk, the device does. -/
theorem Talks.of_chats {me' : Party φ} (h : me'.stage.ref? = me.stage.ref?)
    (hc : ∀ ref, Chats ref me.client me'.client) : Talks me me' := by
  cases hr : me.stage.ref? with
  | none => exact .silent hr (h.trans hr)
  | some ref =>
    obtain ⟨more, hqueue, hmore⟩ := (hc ref).queue
    exact .session hr (h.trans hr) ((hc ref).same.paired ref) hqueue hmore

/-- A step that has to wait changes nothing. -/
theorem goes_waits {me' : Party φ} (h : Sane y x info remembered s me)
    (hwaits : ¬ Ready s peer me) (hsame : me' = me) : Goes y x info remembered s peer me me' := by
  rw [hsame]
  exact ⟨h, rfl, ⟨id, id, id⟩, .stays hwaits rfl⟩

/-- One more phase without a session. -/
theorem goes_silent (h : Sane y x info remembered s me) (hst : me.stage = .running identity phase)
    (hlocal : c'.localDevice = me.client.localDevice)
    (hphase : InPhase y x info remembered s c' phase') (htogo : phase'.togo + 1 = phase.togo)
    (hsends : phase'.togo ≠ 9 ∧ phase'.togo ≠ 7) (hlate : phase.togo ≠ 3)
    (hr : phase.ref? = none) (hr' : phase'.ref? = none) :
    Goes y x info remembered s peer me
      { me with client := c', stage := .running identity phase' } := by
  have hbefore : me.stage.ref? = none := by
    rw [hst]
    exact hr
  have hnow : me.stage.togo = phase.togo := by
    rw [hst]
    rfl
  refine ⟨h.next hst hlocal hphase htogo hsends, rfl, ⟨id, id, id⟩,
    .talks (.silent hbefore hr') ?_ ?_⟩
  · change phase'.togo < me.stage.togo
    omega
  · change phase'.togo ≤ 2 → me.stage.togo ≤ 2
    omega

/-- One more phase with the session. -/
theorem goes_session (h : Sane y x info remembered s me) (hst : me.stage = .running identity phase)
    (hlocal : c'.localDevice = me.client.localDevice)
    (hphase : InPhase y x info remembered s c' phase') (htogo : phase'.togo + 1 = phase.togo)
    (hlate : phase'.togo < 6 ∧ phase.togo ≠ 3) (hr : phase.ref? = some ref)
    (hr' : phase'.ref? = some ref) {more : List Outgoing}
    (hpaired : (c'.heap ref).paired = (me.client.heap ref).paired)
    (hqueue : (c'.heap ref).sendQueue = (me.client.heap ref).sendQueue ++ more)
    (hmore : ∀ o ∈ more, Ordinary o.packet) :
    Goes y x info remembered s peer me
      { me with client := c', stage := .running identity phase' } := by
  have hbefore : me.stage.ref? = some ref := by
    rw [hst]
    exact hr
  have hsends : phase'.togo ≠ 9 ∧ phase'.togo ≠ 7 := by omega
  have hnow : me.stage.togo = phase.togo := by
    rw [hst]
    rfl
  refine ⟨h.next hst hlocal hphase htogo hsends, rfl, ⟨id, id, id⟩,
    .talks (.session hbefore hr' hpaired hqueue hmore) ?_ ?_⟩
  · change phase'.togo < me.stage.togo
    omega
  · change phase'.togo ≤ 2 → me.stage.togo ≤ 2
    omega

/-- It looks for a live session of the peer and finds none. -/
theorem goes_begun (hx : Presentable y x info) (h : Sane y x info remembered s me)
    (hst : me.stage = .running (info s.other) .begun)
    (hphase : InPhase y x info remembered s me.client .begun) :
    Goes y x info remembered s peer me
      (connect y x m showOnConnect s (info s.other) peer me .begun) := by
  have hadmitted := admitted_peer hx h.localDevice hphase
  unfold connect
  rw [if_pos hadmitted]
  exact goes_silent h hst rfl hphase rfl (by decide) (by decide) rfl rfl

/-- It loads what is stored of the peer. -/
theorem goes_checked (h : Sane y x info remembered s me)
    (hst : me.stage = .running (info s.other) .checked)
    (hphase : InPhase y x info remembered s me.client .checked) :
    Goes y x info remembered s peer me
      (connect y x m showOnConnect s (info s.other) peer me .checked) :=
  goes_silent h hst rfl ⟨hphase.below, hphase.entry⟩ rfl ⟨by simp, by simp⟩
    (by decide) rfl rfl

/-- It creates the handshake. -/
theorem goes_loaded {stored : Option PairedDeviceInfo} (h : Sane y x info remembered s me)
    (hst : me.stage = .running (info s.other) (.loaded stored))
    (hphase : InPhase y x info remembered s me.client (.loaded stored)) :
    Goes y x info remembered s peer me
      (connect y x m showOnConnect s (info s.other) peer me (.loaded stored)) := by
  have hbefore : me.stage.ref? = none := by
    rw [hst]
    rfl
  refine ⟨?_, rfl, ⟨id, fun _ => rfl, id⟩, .talks (.silent hbefore rfl) ?_ ?_⟩
  · refine h.to hst rfl hphase ?_ (fun _ => rfl) h.said ?_
    · intro e he
      exact (Option.some.inj he).symm
    · intro hle
      exact absurd hle (by simp)
  · rw [hst]
    exact Nat.lt_succ_self _
  · change 9 ≤ 2 → me.stage.togo ≤ 2
    omega

/-- The two ends of the connection are in opposite roles. -/
theorem roles_peer (h : Sane y x info remembered s me)
    (hpeer : Sane y x info remembered s.other peer) {e e' : TlsEnd} (he : me.tls = some e)
    (he' : peer.tls = some e') : e.isClient = !e'.isClient := by
  have hroles : e'.isClient = !tcpServerSide s := by
    rw [hpeer.tls e' he']
    exact tcpServerSide_other s
  rw [h.tls e he, hroles]
  exact (Bool.not_not _).symm

/-- They see each other's certificates. -/
theorem handshake_peer (hx : Presentable y x info) (h : Sane y x info remembered s me)
    (hpeer : Sane y x info remembered s.other peer) {e e' : TlsEnd} (he : me.tls = some e)
    (he' : peer.tls = some e') : x.tls.handshake e e' = some ⟨x.certPem s.other⟩ := by
  have hroles : e'.isClient = !tcpServerSide s := by
    rw [hpeer.tls e' he']
    exact tcpServerSide_other s
  have hcert : e'.ownCert = x.certPem s.other := by
    rw [hpeer.tls e' he']
    rfl
  rw [h.tls e he, handshake_createSession hx.tls (x.certPem s) hroles, hcert]

/-- It shakes hands once the peer does. -/
theorem goes_created (hx : Presentable y x info) {stored : Option PairedDeviceInfo}
    (h : Sane y x info remembered s me)
    (hpeer : Sane y x info remembered s.other peer)
    (hst : me.stage = .running (info s.other) (.created stored))
    (hphase : InPhase y x info remembered s me.client (.created stored)) :
    Goes y x info remembered s peer me
      (connect y x m showOnConnect s (info s.other) peer me (.created stored)) := by
  have htogo : me.stage.togo = 9 := by
    rw [hst]
    rfl
  have hopened := h.opened (by omega)
  cases he : me.tls with
  | none =>
    rw [he] at hopened
    cases hopened
  | some e =>
    cases he' : peer.tls with
    | none =>
      have hwaits : ¬ Ready s peer me := by
        unfold Ready
        rw [hst, he']
        exact Bool.false_ne_true
      have hsame : connect y x m showOnConnect s (info s.other) peer me (.created stored) = me := by
        unfold connect
        rw [he, he']
      exact goes_waits h hwaits hsame
    | some e' =>
      have hshake := handshake_peer hx h hpeer he he'
      have hnext : connect y x m showOnConnect s (info s.other) peer me (.created stored) =
          { me with stage := .running (info s.other) (.shaken stored ⟨x.certPem s.other⟩) } := by
        unfold connect
        rw [he, he']
        dsimp only
        rw [hshake]
      have hshaken : InPhase y x info remembered s me.client
          (.shaken stored ⟨x.certPem s.other⟩) := ⟨hphase.1, hphase.2, rfl⟩
      rw [hnext]
      exact goes_silent h hst rfl hshaken rfl ⟨by simp, by simp⟩
        (by simp) rfl rfl

/-- It sends its own identity. -/
theorem goes_shaken (hx : Presentable y x info) {stored : Option PairedDeviceInfo}
    {session : TlsSession} (h : Sane y x info remembered s me)
    (hst : me.stage = .running (info s.other) (.shaken stored session))
    (hphase : InPhase y x info remembered s me.client (.shaken stored session)) :
    Goes y x info remembered s peer me
      (connect y x m showOnConnect s (info s.other) peer me (.shaken stored session)) := by
  obtain ⟨hbelow, hrecalls, rfl⟩ := hphase
  have hpasses := certificateRefused_peer hx hrecalls [] []
  have htogo : me.stage.togo = 8 := by
    rw [hst]
    rfl
  have hbefore : me.stage.ref? = none := by
    rw [hst]
    rfl
  unfold connect
  dsimp only
  rw [hpasses, if_neg Bool.false_ne_true, h.localDevice]
  refine ⟨?_, rfl, ⟨id, id, fun _ => rfl⟩, .talks (.silent hbefore rfl) ?_ ?_⟩
  · refine h.to hst rfl ⟨hbelow, hrecalls, rfl⟩ h.tls ?_ ?_ (fun _ => rfl)
    · intro _
      exact h.opened (by omega)
    · intro text htext
      exact ⟨m.millis, (Option.some.inj htext).symm⟩
  · rw [htogo]
    exact Nat.lt_succ_self _
  · exact fun hle => absurd hle (by simp)

/-- It reads that of the peer and starts the session. -/
theorem goes_said (hy : y.Lawful) (hm : Minified y) (hx : Presentable y x info)
    {stored : Option PairedDeviceInfo} {session : TlsSession}
    (h : Sane y x info remembered s me) (hpeer : Sane y x info remembered s.other peer)
    (hst : me.stage = .running (info s.other) (.said stored session))
    (hphase : InPhase y x info remembered s me.client (.said stored session)) :
    Goes y x info remembered s peer me
      (connect y x m showOnConnect s (info s.other) peer me (.said stored session)) := by
  obtain ⟨hbelow, hrecalls, rfl⟩ := hphase
  have htogo : me.stage.togo = 7 := by
    rw [hst]
    rfl
  have hbefore : me.stage.ref? = none := by
    rw [hst]
    rfl
  cases hsaid : peer.said with
  | none =>
    have hwaits : ¬ Ready s peer me := by
      unfold Ready
      rw [hst, hsaid]
      exact Bool.false_ne_true
    have hsame : connect y x m showOnConnect s (info s.other) peer me
        (.said stored ⟨x.certPem s.other⟩) = me := by
      unfold connect
      rw [hsaid]
    exact goes_waits h hwaits hsame
  | some text =>
    obtain ⟨now, rfl⟩ := hpeer.said text hsaid
    obtain ⟨line, hread, hsecure⟩ := secureInfo_peer hy hm hx s.other now
    obtain ⟨made, hmade, hinfo, hopen, hcalm, hqueue, hpaired⟩ :=
      makeSession_peer hx hrecalls hsecure peer.client.localPubkey
    have hheld := holds_allocate hinfo hopen hcalm hqueue hbelow
    have hheap := allocate_heap made me.client
    unfold connect
    rw [hsaid]
    dsimp only
    rw [hread]
    dsimp only
    rw [hmade]
    refine ⟨?_, rfl, ⟨id, id, id⟩, .opens ⟨?_, ?_⟩ ⟨?_, ?_⟩ ⟨htogo, rfl⟩⟩
    · exact h.next hst rfl hheld (by rfl) ⟨by simp, by simp⟩
    · rw [Party.belief, hbefore]
      rfl
    · rw [Party.queue, hbefore]
      rfl
    · change some ((allocate made me.client).heap me.client.next).paired = some (remembered s)
      rw [hheap, hpaired]
    · change ((allocate made me.client).heap me.client.next).sendQueue = []
      rw [hheap, hqueue]

/-- It enters the session into the table. -/
theorem goes_started (h : Sane y x info remembered s me)
    (hst : me.stage = .running (info s.other) (.started ref))
    (hphase : InPhase y x info remembered s me.client (.started ref)) :
    Goes y x info remembered s peer me
      (connect y x m showOnConnect s (info s.other) peer me (.started ref)) := by
  obtain ⟨hholds, hnew⟩ := hphase
  have hentered := SessionTable.enter_device ref me.client
  rw [hholds.info] at hentered
  have hold : me.client.device (me.client.heap ref).info.id ≠ some ref := by
    rw [hholds.info]
    exact hnew
  have hheld : Holds info s ref (enter ref me.client) :=
    ⟨hholds.info, hholds.connected, hholds.calm, hholds.packets⟩
  have hphase' : InPhase y x info remembered s (enter ref me.client)
      (.entered ref (me.client.device (me.client.heap ref).info.id)) := ⟨hheld, hentered, hold⟩
  exact goes_session h hst rfl hphase' rfl ⟨by simp, by simp⟩ rfl rfl rfl
    (List.append_nil _).symm (List.forall_mem_nil _)

/-- It closes the one that stood there. -/
theorem goes_entered {old : Option Nat} (h : Sane y x info remembered s me)
    (hst : me.stage = .running (info s.other) (.entered ref old))
    (hphase : InPhase y x info remembered s me.client (.entered ref old)) :
    Goes y x info remembered s peer me
      (connect y x m showOnConnect s (info s.other) peer me (.entered ref old)) := by
  obtain ⟨hholds, hdevice, hne⟩ := hphase
  have hsessions := SessionTable.cleanUp_sessions old me.client
  have hheap := SessionTable.cleanUp_heap me.client hne
  have hcleaned : (cleanUp old me.client).device (info s.other).id = some ref := by
    unfold KdeConnectClient.device at hdevice ⊢
    rw [hsessions]
    exact hdevice
  have hlocal : (cleanUp old me.client).localDevice = me.client.localDevice := by
    cases old <;> rfl
  have hphase' : InPhase y x info remembered s (cleanUp old me.client) (.cleaned ref) :=
    ⟨holds_cleanUp hholds hne, hcleaned⟩
  refine goes_session h hst hlocal hphase' rfl ⟨by simp, by simp⟩ rfl rfl
    ?_ ?_ (List.forall_mem_nil _)
  · rw [hheap]
  · rw [hheap, List.append_nil]

/-- One more phase in which only ordinary packets are sent. -/
theorem goes_chats (h : Sane y x info remembered s me) (hst : me.stage = .running identity phase)
    (hphase : InPhase y x info remembered s c' phase') (htogo : phase'.togo + 1 = phase.togo)
    (hlate : phase'.togo < 6 ∧ phase.togo ≠ 3) (hr : phase.ref? = some ref)
    (hr' : phase'.ref? = some ref) (hc : Chats ref me.client c') :
    Goes y x info remembered s peer me
      { me with client := c', stage := .running identity phase' } := by
  obtain ⟨more, hqueue, hmore⟩ := hc.queue
  exact goes_session h hst hc.same.localDevice hphase htogo hlate hr hr' (hc.same.paired ref) hqueue
    hmore

omit [FileSystem φ] in
/-- What a session in the table is sent leaves it there. -/
theorem held_chats {c : KdeConnectClient φ Plugin}
    (h : Holds info s ref c ∧ c.device (info s.other).id = some ref) (hc : Chats ref c c') :
    Holds info s ref c' ∧ c'.device (info s.other).id = some ref :=
  ⟨h.1.chats hc, (hc.same.device _).trans h.2⟩

/-- It shows the notice of the connection. -/
theorem goes_cleaned (h : Sane y x info remembered s me)
    (hst : me.stage = .running (info s.other) (.cleaned ref))
    (hphase : InPhase y x info remembered s me.client (.cleaned ref)) :
    Goes y x info remembered s peer me
      (connect y x m showOnConnect s (info s.other) peer me (.cleaned ref)) := by
  have hc := chats_notice showOnConnect ref ref me.client
  exact goes_chats h hst (held_chats hphase hc) rfl ⟨by simp, by simp⟩ rfl
    rfl hc

/-- It introduces the device. -/
theorem goes_denied (h : Sane y x info remembered s me)
    (hst : me.stage = .running (info s.other) (.denied ref))
    (hphase : InPhase y x info remembered s me.client (.denied ref)) :
    Goes y x info remembered s peer me
      (connect y x m showOnConnect s (info s.other) peer me (.denied ref)) := by
  have hc := chats_introduce m (info s.other) ref me.client
  exact goes_chats h hst (held_chats hphase hc) rfl ⟨by simp, by simp⟩ rfl
    rfl hc

/-- The plugins are told of the connection, and it is done. -/
theorem goes_introduced (h : Sane y x info remembered s me)
    (hst : me.stage = .running (info s.other) (.introduced ref))
    (hphase : InPhase y x info remembered s me.client (.introduced ref)) :
    Goes y x info remembered s peer me
      (connect y x m showOnConnect s (info s.other) peer me (.introduced ref)) := by
  have hc := Chats.notifyPluginsConnected m ref ref me.client
  exact goes_chats h hst (held_chats hphase hc) rfl ⟨by simp, by simp⟩ rfl
    rfl hc

/-- It sends a denial to a device that is not paired. -/
theorem goes_noticed (h : Sane y x info remembered s me)
    (hst : me.stage = .running (info s.other) (.noticed ref))
    (hphase : InPhase y x info remembered s me.client (.noticed ref)) :
    Goes y x info remembered s peer me
      (connect y x m showOnConnect s (info s.other) peer me (.noticed ref)) := by
  obtain ⟨hholds, hdevice⟩ := hphase
  have hbefore : me.stage.ref? = some ref := by
    rw [hst]
    rfl
  have htogo : me.stage.togo = 3 := by
    rw [hst]
    rfl
  have hbelief : me.belief = some (me.client.heap ref).paired := by
    rw [Party.belief, hbefore, Option.map_some]
  have hqueue : me.queue = (me.client.heap ref).sendQueue := by
    rw [Party.queue, hbefore, Option.elim_some]
  have hlocal : (deny m (info s.other) ref me.client).localDevice = me.client.localDevice := by
    unfold deny
    split
    · exact (SameCores.sendPacket m _ unpairPacket me.client).localDevice
    · rfl
  cases hpaired : (me.client.heap ref).paired with
  | true =>
    have hdeny : deny m (info s.other) ref me.client = me.client := by
      unfold deny
      rw [hpaired]
      rfl
    refine ⟨?_, rfl, ⟨id, id, id⟩, .denies true 0 ⟨?_, ?_⟩ ?_ ⟨htogo, rfl⟩⟩
    · refine h.next hst hlocal ?_ (by rfl) ⟨by simp, by simp⟩
      rw [hdeny]
      exact ⟨hholds, hdevice⟩
    · rw [hbelief, hpaired]
    · change some ((deny m (info s.other) ref me.client).heap ref).paired = some true
      rw [hdeny, hpaired]
    · change ((deny m (info s.other) ref me.client).heap ref).sendQueue = _
      rw [hdeny, hqueue]
      exact (List.append_nil _).symm
  | false =>
    have hdeny : deny m (info s.other) ref me.client =
        (sendPacket m (info s.other).id unpairPacket me.client).2 := by
      unfold deny
      rw [hpaired]
      rfl
    have hsame := SameCores.sendPacket m (info s.other).id unpairPacket me.client
    have hsent := KdeConnectClient.sendPacket_queue hdevice hholds.connected m unpairPacket
    refine ⟨?_, rfl, ⟨id, id, id⟩, .denies false m.millis ⟨?_, ?_⟩ ?_ ⟨htogo, rfl⟩⟩
    · refine h.next hst hlocal ?_ (by rfl) ⟨by simp, by simp⟩
      rw [hdeny]
      exact ⟨sendPacket_unpairPacket hdevice hholds m, (hsame.device _).trans hdevice⟩
    · rw [hbelief, hpaired]
    · change some ((deny m (info s.other) ref me.client).heap ref).paired = some false
      rw [hdeny, hsame.paired, hpaired]
    · change ((deny m (info s.other) ref me.client).heap ref).sendQueue = _
      rw [hdeny, hsent, hqueue]
      rfl

/-- The left device hears the datagram. -/
theorem goes_waiting_left (hy : y.Lawful) (hm : Minified y) (hx : Presentable y x info)
    (h : Sane y x info remembered .left me) (hst : me.stage = .waiting) :
    Goes y x info remembered .left peer me (advance y x m showOnConnect .left peer me) := by
  have hstage := h.stage
  rw [hst] at hstage
  have hbefore : me.stage.ref? = none := by
    rw [hst]
    rfl
  have hheard : advance y x m showOnConnect .left peer me =
      { me with stage := .discovered (info .right) (x.tcpPort .right) } := by
    unfold advance
    rw [hst]
    dsimp only
    rw [h.localDevice, hearDatagram_right hy hm hx]
  rw [hheard]
  refine ⟨⟨h.localDevice, ⟨rfl, rfl, rfl, hstage⟩, h.hail, ?_, h.tls, ?_, h.said, ?_⟩, rfl,
    ⟨id, id, id⟩, .talks (.silent hbefore rfl) ?_ ?_⟩
  · exact fun _ hle => absurd hle (by simp)
  · exact fun hle => absurd hle (by simp)
  · exact fun hle => absurd hle (by simp)
  · rw [hst]
    exact Nat.lt_succ_self _
  · exact fun hle => absurd hle (by simp)

/-- The right device accepts. -/
theorem goes_waiting_right (hy : y.Lawful) (hm : Minified y) (hx : Presentable y x info)
    (h : Sane y x info remembered .right me) (hpeer : Sane y x info remembered .left peer)
    (hst : me.stage = .waiting) :
    Goes y x info remembered .right peer me (advance y x m showOnConnect .right peer me) := by
  have hstage := h.stage
  rw [hst] at hstage
  cases hhail : peer.hail with
  | none =>
    have hwaits : ¬ Ready .right peer me := by
      unfold Ready
      rw [hst, hhail]
      rintro (hside | hsome)
      · cases hside
      · cases hsome
    have hsame : advance y x m showOnConnect .right peer me = me := by
      unfold advance
      rw [hst]
      dsimp only
      rw [hhail]
    exact goes_waits h hwaits hsame
  | some bytes =>
    obtain ⟨now, rfl⟩ := hpeer.hail bytes hhail
    have hbefore : me.stage.ref? = none := by
      rw [hst]
      rfl
    have haccepted : advance y x m showOnConnect .right peer me =
        { me with stage := .running (info .left) .begun } := by
      have hline := acceptLine_left hy hm hx now
      rw [show Side.left.other = Side.right from rfl] at hhail
      unfold advance
      rw [hst]
      dsimp only
      rw [hhail]
      dsimp only
      rw [h.localDevice, hline]
    rw [haccepted]
    refine ⟨⟨h.localDevice, ⟨rfl, hstage⟩, h.hail, ?_, h.tls, ?_, h.said, ?_⟩, rfl,
      ⟨id, id, id⟩, .talks (.silent hbefore rfl) ?_ ?_⟩
    · exact fun hside => by cases hside
    · exact fun hle => absurd hle (by simp)
    · exact fun hle => absurd hle (by simp)
    · rw [hst]
      simp
    · exact fun hle => absurd hle (by simp)

/-- The left device dials. -/
theorem goes_discovered (hx : Presentable y x info) {port : Int32}
    (h : Sane y x info remembered s me) (hst : me.stage = .discovered identity port) :
    Goes y x info remembered s peer me (advance y x m showOnConnect s peer me) := by
  have hstage := h.stage
  rw [hst] at hstage
  obtain ⟨rfl, rfl, rfl, hunmet⟩ := hstage
  have hbefore : me.stage.ref? = none := by
    rw [hst]
    rfl
  have hdials : advance y x m showOnConnect .left peer me =
      { me with
        hail := some ((makeIdentityPacket (info .left) (some (info .right).id)
          (some kProtocolVersion) none).serialize y m.millis)
        stage := .running (info .right) .begun } := by
    unfold advance
    rw [hst]
    dsimp only
    rw [show Side.left.other = Side.right from rfl, if_pos rfl, h.localDevice, hx.version]
  rw [hdials]
  refine ⟨⟨h.localDevice, ⟨rfl, hunmet⟩, ?_, fun _ _ => rfl, h.tls, ?_, h.said, ?_⟩, rfl,
    ⟨fun _ => rfl, id, id⟩, .talks (.silent hbefore rfl) ?_ ?_⟩
  · intro line hline
    exact ⟨m.millis, (Option.some.inj hline).symm⟩
  · exact fun hle => absurd hle (by simp)
  · exact fun hle => absurd hle (by simp)
  · rw [hst]
    exact Nat.lt_succ_self _
  · exact fun hle => absurd hle (by simp)

/-- Every step of the thread, from whichever phase. -/
theorem goes_connect (hy : y.Lawful) (hm : Minified y) (hx : Presentable y x info)
    (h : Sane y x info remembered s me) (hpeer : Sane y x info remembered s.other peer)
    (hst : me.stage = .running (info s.other) phase)
    (hphase : InPhase y x info remembered s me.client phase) :
    Goes y x info remembered s peer me
      (connect y x m showOnConnect s (info s.other) peer me phase) := by
  cases phase with
  | begun => exact goes_begun hx h hst hphase
  | checked => exact goes_checked h hst hphase
  | loaded stored => exact goes_loaded h hst hphase
  | created stored => exact goes_created hx h hpeer hst hphase
  | shaken stored session => exact goes_shaken hx h hst hphase
  | said stored session => exact goes_said hy hm hx h hpeer hst hphase
  | started ref => exact goes_started h hst hphase
  | entered ref old => exact goes_entered h hst hphase
  | cleaned ref => exact goes_cleaned h hst hphase
  | noticed ref => exact goes_noticed h hst hphase
  | denied ref => exact goes_denied h hst hphase
  | introduced ref => exact goes_introduced h hst hphase
  | done ref =>
    refine goes_waits h ?_ rfl
    unfold Ready
    rw [hst]
    exact not_false

/-- Whatever the stage, the thread goes on or waits for the peer. -/
theorem goes_advance (hy : y.Lawful) (hm : Minified y) (hx : Presentable y x info)
    (h : Sane y x info remembered s me) (hpeer : Sane y x info remembered s.other peer)
    (m : Moment PluginEnv) (showOnConnect : Bool) :
    Goes y x info remembered s peer me (advance y x m showOnConnect s peer me) := by
  cases hst : me.stage with
  | waiting =>
    cases s with
    | left => exact goes_waiting_left hy hm hx h hst
    | right => exact goes_waiting_right hy hm hx h hpeer hst
  | discovered identity port => exact goes_discovered hx h hst
  | running identity phase =>
    have hstage := h.stage
    rw [hst] at hstage
    obtain ⟨rfl, hphase⟩ := hstage
    have hrun : advance y x m showOnConnect s peer me =
        connect y x m showOnConnect s (info s.other) peer me phase := by
      unfold advance
      rw [hst]
    rw [hrun]
    exact goes_connect hy hm hx h hpeer hst hphase
  | dropped =>
    have hstage := h.stage
    rw [hst] at hstage
    exact hstage.elim

end Goes

end KdeConnectNx.Establishment
