import KdeConnectNx.UnpairedSends

/-!
# What plugins say to each other

The packets the plugins send on their own and in reply to one another: every
receiver reads them back, none is about pairing, and none asks for an echo, the
one reply that repeats what it was sent. So a session's queue grows by such
packets only, whoever looks after its plugins.
-/

namespace KdeConnectNx.PluginTalk

open JsonTree PacketBody PacketFormat LineReader PairedFiles Sessions Pairing Plugins UnpairedSends
open KdeConnectClient (modify sendPacket sendAll notifyPluginsConnected)

/-- A packet that reads back, is not about pairing, and asks for no echo. -/
structure Ordinary (pkt : NetworkPacket) : Prop where
  nulFree : NulFree pkt.type
  realFree : pkt.body.realFree = true
  notPair : pkt.type ≠ PacketTypes.pair
  noEcho : pkt.type ≠ PacketTypes.mousepadRequest

/-! ## The packets of the plugins -/

/-- A packet of a type that is neither pairing nor the mousepad's is ordinary. -/
theorem ordinary_of_type {pkt : NetworkPacket} (type : String) (ht : pkt.type = type)
    (h : NulFree type ∧ type ≠ PacketTypes.pair ∧ type ≠ PacketTypes.mousepadRequest)
    (hfree : pkt.body.realFree = true) : Ordinary pkt := by
  subst ht
  exact ⟨h.1, hfree, h.2.1, h.2.2⟩

/-- The battery's status. -/
theorem ordinary_statusPacket (charge : Int32) (charging : Bool) :
    Ordinary (BatteryPlugin.statusPacket charge charging) :=
  ordinary_of_type PacketTypes.battery rfl (by decide) rfl

/-- Whatever the reading of the battery gives. -/
theorem ordinary_sendStatus {reading : Option (Int32 × Bool)} {p : BatteryPlugin}
    {pkt : NetworkPacket} (h : pkt ∈ p.sendStatus reading) : Ordinary pkt := by
  unfold BatteryPlugin.sendStatus at h
  split at h
  · rw [List.mem_singleton.mp h]
    exact ordinary_statusPacket _ _
  · split at h
    · rw [List.mem_singleton.mp h]
      exact ordinary_statusPacket _ _
    · cases h

/-- The list of sinks. -/
theorem ordinary_sinkListPacket (vol : Int32) :
    Ordinary (SystemVolumePlugin.sinkListPacket vol) :=
  ordinary_of_type PacketTypes.systemVolume rfl (by decide) rfl

/-- The request for the other side's sinks. -/
theorem ordinary_requestSinks : Ordinary SystemVolumePlugin.requestSinks :=
  ordinary_of_type PacketTypes.systemVolumeRequest rfl (by decide) rfl

/-- The volume's state. -/
theorem ordinary_statePacket (p : SystemVolumePlugin) : Ordinary p.statePacket :=
  ordinary_of_type PacketTypes.systemVolume rfl (by decide) rfl

/-- The list of commands, under either power setting. -/
theorem ordinary_localCommandList (powerEnabled : Bool) :
    Ordinary (RunCommandPlugin.localCommandList powerEnabled) :=
  ordinary_of_type PacketTypes.runCommand rfl (by decide) rfl

/-- The request for the other side's list. -/
theorem ordinary_requestRemoteCommandList : Ordinary RunCommandPlugin.requestRemoteCommandList :=
  ordinary_of_type PacketTypes.runCommandRequest rfl (by decide) rfl

/-- The request for the players. -/
theorem ordinary_requestPlayerList : Ordinary MprisPlugin.requestPlayerList :=
  ordinary_of_type PacketTypes.mprisRequest rfl (by decide) rfl

/-- The request for a player's status, whatever its name is. -/
theorem ordinary_requestStatus (player : String) : Ordinary (MprisPlugin.requestStatus player) :=
  ordinary_of_type PacketTypes.mprisRequest rfl (by decide) rfl

/-- The request for album art, whatever its address is. -/
theorem ordinary_requestAlbumArt (player url : String) :
    Ordinary (MprisPlugin.requestAlbumArt player url) :=
  ordinary_of_type PacketTypes.mprisRequest rfl (by decide) rfl

/-- The request for the notifications. -/
theorem ordinary_requestActiveNotifications :
    Ordinary NotificationPlugin.requestActiveNotifications :=
  ordinary_of_type PacketTypes.notificationRequest rfl (by decide) rfl

/-- The state of the keyboard. -/
theorem ordinary_keyboardState : Ordinary MousepadPlugin.keyboardState :=
  ordinary_of_type PacketTypes.mousepadKeyboardState rfl (by decide) rfl

/-- What a plugin sends on a connection is ordinary. -/
theorem ordinary_onConnected {env : PluginEnv} {paired : Bool} {p : Plugin} {pkt : NetworkPacket}
    (h : pkt ∈ (PluginHost.onConnected env paired p).2) : Ordinary pkt := by
  cases paired with
  | false =>
    rw [onConnected_unpaired] at h
    cases h
  | true =>
    cases p with
    | ping p => cases h
    | findMyPhone => cases h
    | share p => cases h
    | notification p =>
      rw [List.mem_singleton.mp h]
      exact ordinary_requestActiveNotifications
    | mpris p =>
      rw [List.mem_singleton.mp h]
      exact ordinary_requestPlayerList
    | mousepad =>
      rw [List.mem_singleton.mp h]
      exact ordinary_keyboardState
    | systemVolume p =>
      rcases List.mem_pair.mp h with rfl | rfl
      · exact ordinary_sinkListPacket _
      · exact ordinary_requestSinks
    | runCommand p =>
      rcases List.mem_pair.mp h with rfl | rfl
      · exact ordinary_localCommandList _
      · exact ordinary_requestRemoteCommandList
    | battery p =>
      change pkt ∈ (p.onConnected env true).2 at h
      unfold BatteryPlugin.onConnected at h
      rw [Bool.not_true, if_neg Bool.false_ne_true] at h
      cases hread : env.hardware with
      | none =>
        rw [hread] at h
        cases h
      | some reading =>
        rw [hread] at h
        dsimp only at h
        exact ordinary_sendStatus h

/-- So is what it sends on a tick. -/
theorem ordinary_processEvents {env : PluginEnv} {p : Plugin} {pkt : NetworkPacket}
    (h : pkt ∈ (PluginHost.processEvents env p).2) : Ordinary pkt := by
  cases p with
  | battery p =>
    change pkt ∈ (p.processEvents env).2 at h
    unfold BatteryPlugin.processEvents at h
    split at h
    · cases h
    · split at h
      · cases h
      · dsimp only at h
        split at h
        · cases h
        · split at h
          · exact ordinary_sendStatus h
          · cases h
  | _ => cases h

/-- Everything the media plugin answers. -/
theorem ordinary_mpris {env : PluginEnv} {np : NetworkPacket} {p : MprisPlugin}
    {pkt : NetworkPacket} (h : pkt ∈ (p.onPacketReceived env np).2.1) : Ordinary pkt := by
  unfold MprisPlugin.onPacketReceived at h
  split at h
  · cases h
  · split at h
    · dsimp only at h
      split at h
      · cases h
      · split at h
        · dsimp only at h
          split at h
          · cases h
          · rw [List.mem_singleton.mp h]
            exact ordinary_requestStatus _
        · cases h
    · split at h
      · dsimp only at h
        split at h
        · cases h
        · unfold MprisPlugin.artRequests at h
          split_ifs at h
          all_goals first
            | cases h; done
            | rw [List.mem_singleton.mp h]; exact ordinary_requestAlbumArt _ _
      · cases h

/-- Everything a command sends. -/
theorem ordinary_runLocalCommand {env : PluginEnv} {key : String} {pkt : NetworkPacket}
    (h : pkt ∈ RunCommandPlugin.runLocalCommand env key) : Ordinary pkt := by
  unfold RunCommandPlugin.runLocalCommand at h
  split at h
  · obtain ⟨shot, -, rfl⟩ := List.mem_map.mp h
    exact ordinary_of_type PacketTypes.shareRequest rfl (by decide) rfl
  · cases h

/-- So is what it sends when a packet comes in that asks for no echo. -/
theorem ordinary_onPacketReceived {env : PluginEnv} {np : NetworkPacket}
    (hnp : np.type ≠ PacketTypes.mousepadRequest) {p : Plugin} {pkt : NetworkPacket}
    (h : pkt ∈ (PluginHost.onPacketReceived env np p).2.1) : Ordinary pkt := by
  cases p with
  | ping p => cases h
  | findMyPhone => cases h
  | battery p =>
    change pkt ∈ (p.onPacketReceived env np).2.1 at h
    unfold BatteryPlugin.onPacketReceived at h
    split at h
    · exact ordinary_sendStatus h
    · split at h <;> cases h
  | notification p =>
    change pkt ∈ (p.onPacketReceived env np).2.1 at h
    unfold NotificationPlugin.onPacketReceived at h
    split at h <;> cases h
  | share p =>
    change pkt ∈ (SharePlugin.onPacketReceived np p).2.1 at h
    unfold SharePlugin.onPacketReceived at h
    split_ifs at h <;> cases h
  | mpris p =>
    change pkt ∈ (p.onPacketReceived env np).2.1 at h
    exact ordinary_mpris h
  | systemVolume p =>
    change pkt ∈ (p.onPacketReceived env np).2.1 at h
    unfold SystemVolumePlugin.onPacketReceived at h
    split at h
    · split at h
      · rw [List.mem_singleton.mp h]
        exact ordinary_sinkListPacket _
      · split at h
        · cases h
        · rw [List.mem_singleton.mp h]
          exact ordinary_statePacket _
    · split at h
      · split at h
        · cases h
        · split at h <;> cases h
      · cases h
  | runCommand p =>
    change pkt ∈ (p.onPacketReceived env np).2.1 at h
    unfold RunCommandPlugin.onPacketReceived at h
    split_ifs at h
    · cases h
    · cases h
    · rw [List.mem_singleton.mp h]
      exact ordinary_localCommandList _
    · exact ordinary_runLocalCommand h
    · cases h
    · cases h
  | mousepad =>
    have hother : (np.type == PacketTypes.mousepadRequest) = false := beq_eq_false_iff_ne.mpr hnp
    change pkt ∈ (if (np.type == PacketTypes.mousepadRequest &&
      np.body.valueBool "sendAck" false) = true then [MousepadPlugin.echo np] else []) at h
    rw [hother, Bool.false_and, if_neg Bool.false_ne_true] at h
    cases h

/-- So is what several plugins send, each offered the packet as often as it
lists the type. -/
theorem ordinary_offer {env : PluginEnv} {np : NetworkPacket}
    (hnp : np.type ≠ PacketTypes.mousepadRequest) (plugins : List Plugin) {pkt : NetworkPacket}
    (h : pkt ∈ (offer env np plugins).2) : Ordinary pkt := by
  have htimes : ∀ (n : Nat) (p : Plugin), pkt ∈ (offerTimes env np n p).2.1 → Ordinary pkt := by
    intro n
    induction n with
    | zero =>
      intro p hm
      cases hm
    | succ n ih =>
      intro p hm
      unfold offerTimes at hm
      dsimp only at hm
      split at hm
      · exact ordinary_onPacketReceived hnp hm
      · rcases List.mem_append.mp hm with hm | hm
        · exact ordinary_onPacketReceived hnp hm
        · exact ih _ hm
  induction plugins with
  | nil => cases h
  | cons p plugins ih =>
    unfold offer at h
    dsimp only at h
    split at h
    · exact htimes _ p h
    · rcases List.mem_append.mp h with h | h
      · exact htimes _ p h
      · exact ih h

/-! ## What a session's queue grows by -/

/-- No pairing part changes, and a session's queue grows by ordinary packets
only. -/
structure Chats {φ : Type} (ref : Nat) (c c' : KdeConnectClient φ Plugin) : Prop where
  same : SameCores c c'
  queue : ∃ more, (c'.heap ref).sendQueue = (c.heap ref).sendQueue ++ more ∧
    ∀ o ∈ more, Ordinary o.packet

namespace Chats

variable {φ : Type} {ref : Nat} {c c' c'' : KdeConnectClient φ Plugin}

/-- Equal cores and an equal send queue: nothing was said. -/
theorem of_queue (h : SameCores c c') (hq : (c'.heap ref).sendQueue = (c.heap ref).sendQueue) :
    Chats ref c c' :=
  ⟨h, [], by rw [hq, List.append_nil], fun _ hm => by cases hm⟩

/-- Nothing was said. -/
theorem refl (ref : Nat) (c : KdeConnectClient φ Plugin) : Chats ref c c :=
  of_queue (SameCores.refl c) rfl

/-- What was said first, then what was said after it. -/
theorem trans (h : Chats ref c c') (h' : Chats ref c' c'') : Chats ref c c'' := by
  obtain ⟨more, hmore, hall⟩ := h.queue
  obtain ⟨more', hmore', hall'⟩ := h'.queue
  refine ⟨h.same.trans h'.same, more ++ more', by rw [hmore', hmore, List.append_assoc], ?_⟩
  intro o hm
  rcases List.mem_append.mp hm with hm | hm
  · exact hall o hm
  · exact hall' o hm

/-- An ordinary packet is sent, to whatever device. -/
theorem send {pkt : NetworkPacket} (hpkt : Ordinary pkt) (m : Moment PluginEnv) (deviceId : String)
    (ref : Nat) (c : KdeConnectClient φ Plugin) : Chats ref c (sendPacket m deviceId pkt c).2 := by
  refine ⟨SameCores.sendPacket m deviceId pkt c, ?_⟩
  unfold sendPacket
  split
  · exact (refl ref c).queue
  · rename_i target htarget
    split
    · exact (refl ref c).queue
    · by_cases href : ref = target
      · subst href
        refine ⟨[⟨m.millis, pkt⟩], by rw [KdeConnectClient.modify_heap_self]; rfl, ?_⟩
        intro o hm
        rw [List.mem_singleton.mp hm]
        exact hpkt
      · refine ⟨[], ?_, fun _ hm => by cases hm⟩
        rw [KdeConnectClient.modify_heap_ne c href, List.append_nil]

/-- Ordinary packets that are sent are ordinary talk. -/
theorem sendAll {pkts : List NetworkPacket} (hpkts : ∀ pkt ∈ pkts, Ordinary pkt)
    (m : Moment PluginEnv) (deviceId : String) (ref : Nat) (c : KdeConnectClient φ Plugin) :
    Chats ref c (sendAll m deviceId pkts c) := by
  induction pkts generalizing c with
  | nil => exact refl ref c
  | cons pkt pkts ih =>
    have hfirst := hpkts pkt List.mem_cons_self
    exact (send hfirst m deviceId ref c).trans
      (ih (fun other hm => hpkts other (List.mem_cons_of_mem pkt hm)) _)

/-- The plugins of a session get their next states. -/
theorem plugins (target : Nat) (plugins : List Plugin) (ref : Nat)
    (c : KdeConnectClient φ Plugin) :
    Chats ref c (modify c target fun s => { s with plugins := plugins }) := by
  refine of_queue (SameCores.modify c target rfl List.prefix_rfl) ?_
  by_cases href : ref = target
  · rw [href, KdeConnectClient.modify_heap_self]
  · rw [KdeConnectClient.modify_heap_ne c href]

/-- They are told of the connection. -/
theorem notifyPluginsConnected (m : Moment PluginEnv) (target ref : Nat)
    (c : KdeConnectClient φ Plugin) :
    Chats ref c (notifyPluginsConnected m target c) := by
  refine (plugins target _ ref c).trans (sendAll ?_ m _ ref _)
  intro pkt hm
  obtain ⟨result, hresult, hpkt⟩ := List.mem_flatMap.mp hm
  obtain ⟨p, -, rfl⟩ := List.mem_map.mp hresult
  exact ordinary_onConnected hpkt

/-- They are offered a packet that asks for no echo. -/
theorem dispatch {np : NetworkPacket} (hnp : np.type ≠ PacketTypes.mousepadRequest)
    (m : Moment PluginEnv) (target ref : Nat) (c : KdeConnectClient φ Plugin) :
    Chats ref c (dispatch m target np c) :=
  (plugins target _ ref c).trans
    (sendAll (fun _ hm => ordinary_offer hnp (c.heap target).plugins hm) m _ ref _)

/-- They have a tick of the main loop. -/
theorem tickSession (m : Moment PluginEnv) (target ref : Nat) (c : KdeConnectClient φ Plugin) :
    Chats ref c (tickSession m target c) := by
  unfold UnpairedSends.tickSession
  dsimp only
  split
  · exact refl ref c
  · refine (plugins target _ ref c).trans (sendAll ?_ m _ ref _)
    intro pkt hm
    obtain ⟨result, hresult, hpkt⟩ := List.mem_flatMap.mp hm
    obtain ⟨p, -, rfl⟩ := List.mem_map.mp hresult
    exact ordinary_processEvents hpkt

/-- So is what the events of the main loop bring. -/
theorem processEvents (m : Moment PluginEnv) (ref : Nat) (c : KdeConnectClient φ Plugin) :
    Chats ref c (processEvents m c) := by
  have hall : ∀ (entries : List (String × Nat)) (c : KdeConnectClient φ Plugin),
      Chats ref c (entries.foldl (fun c entry => UnpairedSends.tickSession m entry.2 c) c) := by
    intro entries
    induction entries with
    | nil => exact fun c => refl ref c
    | cons entry entries ih => exact fun c => (tickSession m entry.2 ref c).trans (ih _)
  exact hall c.sessions c

end Chats

end KdeConnectNx.PluginTalk
