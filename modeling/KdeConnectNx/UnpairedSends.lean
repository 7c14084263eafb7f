import Mathlib.Data.List.Nodup
import KdeConnectNx.ConnectionRuns
import KdeConnectNx.Plugins

/-!
# What an unpaired device is sent

Received lines, pairing, ticks of the main loop and writes of settings at one
session, with the nine plugins. Sending is checked nowhere in the middle, so
whether anything but identity and pair packets reaches an unpaired device is up
to those who send.
-/

namespace KdeConnectNx.UnpairedSends

open Runs PacketBody PacketFormat LineReader PairedFiles Sessions Pairing PairingRuns Connection
  Plugins
open KdeConnectClient (modify setStorage post sendPacket sendAll notifyPluginsConnected)
open RecordStream (phone)

/-- The settings with two values. -/
inductive KdecBoolSettingKey where
  | notificationShowRemoteMessages
  | notificationShowOnConnect
  | notificationShowIcon
  | notificationShowTime
  | notificationDynamicFontSize
  | notificationShowOnBatteryLow
  | runCommandPowerCommandsEnabled
  | mprisShowAlbumArt
  | mprisAlbumArtTopLayout
  deriving DecidableEq

section Application

variable {φ : Type}

/-- `process_events` of the plugins of one session, if it is connected. -/
def tickSession (m : Moment PluginEnv) (ref : Nat) (c : KdeConnectClient φ Plugin) :
    KdeConnectClient φ Plugin :=
  let s := c.heap ref
  if s.disconnected then c
  else
    let results := s.plugins.map (PluginHost.processEvents m.env)
    sendAll m s.info.id (results.flatMap (·.2))
      (modify c ref fun s => { s with plugins := results.map (·.1) })

/-- `NxApplication::processEvents` over the sessions in the table. -/
def processEvents (m : Moment PluginEnv) (c : KdeConnectClient φ Plugin) :
    KdeConnectClient φ Plugin :=
  c.sessions.foldl (fun c entry => tickSession m entry.2 c) c

/-- The session has a `RunCommandPlugin`. -/
def hasRunCommand (s : DeviceSession Plugin) : Bool :=
  s.plugins.any fun
    | .runCommand _ => true
    | _ => false

/-- The own command list goes to the device of one session. -/
def resendCommands (m : Moment PluginEnv) (ref : Nat) (c : KdeConnectClient φ Plugin) :
    KdeConnectClient φ Plugin :=
  if hasRunCommand (c.heap ref) then
    (sendPacket m (c.heap ref).info.id
      (RunCommandPlugin.localCommandList m.env.powerCommands) c).2
  else c

/-- `WriteBoolSetting` over IPC: after a write of the power commands setting the
command list is sent again, to every session in the table. -/
def writeBoolSetting (m : Moment PluginEnv) (key : KdecBoolSettingKey) (value : Bool)
    (c : KdeConnectClient φ Plugin) : KdeConnectClient φ Plugin :=
  if key = .runCommandPowerCommandsEnabled then
    c.sessions.foldl (fun c entry => resendCommands
      { m with env := { m.env with powerCommands := value } } entry.2 c) c
  else c

/-- What happens at a session or to all of them. -/
inductive Event where
  | pairing (e : PairingRuns.Event PluginEnv)
  | line (m : Moment PluginEnv) (line : List UInt8)
  | tick (m : Moment PluginEnv)
  | write (m : Moment PluginEnv) (key : KdecBoolSettingKey) (value : Bool)

def step [FileSystem φ] (y : Yyjson) (deviceId : String) (ref : Nat)
    (c : KdeConnectClient φ Plugin) : Event → KdeConnectClient φ Plugin
  | .pairing e => PairingRuns.step y deviceId ref c e
  | .line m line => handlePacket y m ref line c
  | .tick m => processEvents m c
  | .write m key value => writeBoolSetting m key value c

/-- What may be sent to an unpaired device. -/
def Allowed (pkt : NetworkPacket) : Prop :=
  pkt.type = PacketTypes.identity ∨ pkt.type = PacketTypes.pair

/-- Nothing else was queued for the session while it was unpaired. -/
def NoLeak (ref : Nat) (c : KdeConnectClient φ Plugin) : Prop :=
  ∀ pkt ∈ (c.heap ref).sentUnpaired, Allowed pkt

/-- While the device is connected and unpaired, no tick finds its battery plugin
with something to report, and the power commands setting is not written. -/
def Silent (ref : Nat) (c : KdeConnectClient φ Plugin) : Event → Prop
  | .tick m =>
    (c.heap ref).disconnected = false → (c.heap ref).paired = false →
      ∀ p, Plugin.battery p ∈ (c.heap ref).plugins → ¬ p.Reports m.env
  | .write _ key _ =>
    key = .runCommandPowerCommandsEnabled → (c.heap ref).disconnected = false →
      (c.heap ref).paired = false → hasRunCommand (c.heap ref) = false
  | _ => True

end Application

section History

variable {φ π ε : Type}

/-- The session is in the table, connected and unpaired: what is queued for it
goes into its history. -/
def Exposed (deviceId : String) (ref : Nat) (c : KdeConnectClient φ π) : Prop :=
  c.device deviceId = some ref ∧ (c.heap ref).disconnected = false ∧ (c.heap ref).paired = false

instance (deviceId : String) (ref : Nat) (c : KdeConnectClient φ π) :
    Decidable (Exposed deviceId ref c) := inferInstanceAs (Decidable (_ ∧ _))

/-- Whether a session is exposed depends on its core. -/
theorem exposed_congr {c c' : KdeConnectClient φ π} (h : SameCores c c') (deviceId : String)
    (ref : Nat) : Exposed deviceId ref c' ↔ Exposed deviceId ref c := by
  rw [Exposed, Exposed, h.device, h.disconnected, h.paired]

/-- A paired session is not. -/
theorem not_exposed_of_paired {deviceId : String} {ref : Nat} {c : KdeConnectClient φ π}
    (h : (c.heap ref).paired = true) : ¬ Exposed deviceId ref c := by
  intro hexposed
  rw [Exposed, h] at hexposed
  cases hexposed.2.2

/-- A packet goes into the history of the session it is queued for, if that is
unpaired. -/
theorem sentUnpaired_sendPacket (m : Moment ε) (deviceId : String) (pkt : NetworkPacket)
    (c : KdeConnectClient φ π) (ref : Nat) :
    ((sendPacket m deviceId pkt c).2.heap ref).sentUnpaired =
      (c.heap ref).sentUnpaired ++ if Exposed deviceId ref c then [pkt] else [] := by
  unfold sendPacket
  cases hd : c.device deviceId with
  | none =>
    have hnot : ¬ Exposed deviceId ref c := by
      intro h
      rw [Exposed, hd] at h
      cases h.1
    rw [if_neg hnot, List.append_nil]
  | some target =>
    dsimp only
    by_cases htarget : target = ref
    · subst htarget
      cases hdown : (c.heap target).disconnected with
      | true =>
        have hnot : ¬ Exposed deviceId target c := by
          intro h
          rw [Exposed, hdown] at h
          cases h.2.1
        rw [if_pos rfl, if_neg hnot, List.append_nil]
      | false =>
        rw [if_neg Bool.false_ne_true]
        dsimp only
        rw [KdeConnectClient.modify_heap_self]
        cases hpaired : (c.heap target).paired with
        | true =>
          have hnot : ¬ Exposed deviceId target c := not_exposed_of_paired hpaired
          simp only [KdeConnectClient.push, hpaired, if_neg hnot, if_true, List.append_nil]
        | false =>
          have hexposed : Exposed deviceId target c := ⟨hd, hdown, hpaired⟩
          simp only [KdeConnectClient.push, hpaired, if_pos hexposed, Bool.false_eq_true, if_false]
    · have hnot : ¬ Exposed deviceId ref c := by
        intro h
        rw [Exposed, hd] at h
        exact htarget (Option.some.inj h.1)
      rw [if_neg hnot, List.append_nil]
      split
      · rfl
      · exact congrArg DeviceSession.sentUnpaired
          (KdeConnectClient.modify_heap_ne c (Ne.symm htarget) _)

/-- So do several packets, one after the other. -/
theorem sentUnpaired_sendAll (m : Moment ε) (deviceId : String) (pkts : List NetworkPacket)
    (c : KdeConnectClient φ π) (ref : Nat) :
    ((sendAll m deviceId pkts c).heap ref).sentUnpaired =
      (c.heap ref).sentUnpaired ++ if Exposed deviceId ref c then pkts else [] := by
  induction pkts generalizing c with
  | nil => simp [sendAll]
  | cons pkt pkts ih =>
    have hcons : sendAll m deviceId (pkt :: pkts) c =
        sendAll m deviceId pkts (sendPacket m deviceId pkt c).2 := rfl
    have hsame := exposed_congr (SameCores.sendPacket m deviceId pkt c) deviceId ref
    rw [hcons, ih, sentUnpaired_sendPacket, if_congr hsame rfl rfl]
    split
    · rw [List.append_assoc]
      rfl
    · simp

/-- A change elsewhere in a session leaves every history as it was. -/
theorem sentUnpaired_modify (c : KdeConnectClient φ π) (target : Nat)
    {f : DeviceSession π → DeviceSession π} (hf : ∀ s, (f s).sentUnpaired = s.sentUnpaired)
    (ref : Nat) : ((modify c target f).heap ref).sentUnpaired = (c.heap ref).sentUnpaired := by
  by_cases h : ref = target
  · rw [h, KdeConnectClient.modify_heap_self, hf]
  · rw [KdeConnectClient.modify_heap_ne c h]

end History

section Handlers

variable {φ : Type}

/-- The history grew by allowed packets only. -/
def Harmless (ref : Nat) (c c' : KdeConnectClient φ Plugin) : Prop :=
  ∃ pkts, (c'.heap ref).sentUnpaired = (c.heap ref).sentUnpaired ++ pkts ∧ ∀ pkt ∈ pkts, Allowed pkt

namespace Harmless

variable {ref : Nat} {c c' c'' : KdeConnectClient φ Plugin}

/-- Nothing was sent. -/
theorem of_eq (h : (c'.heap ref).sentUnpaired = (c.heap ref).sentUnpaired) : Harmless ref c c' :=
  ⟨[], by rw [h, List.append_nil], by simp⟩

/-- Two harmless steps one after the other. -/
theorem trans (h : Harmless ref c c') (h' : Harmless ref c' c'') : Harmless ref c c'' := by
  obtain ⟨pkts, hpkts, hallowed⟩ := h
  obtain ⟨pkts', hpkts', hallowed'⟩ := h'
  refine ⟨pkts ++ pkts', by rw [hpkts', hpkts, List.append_assoc], ?_⟩
  intro pkt hm
  rcases List.mem_append.mp hm with hm | hm
  · exact hallowed pkt hm
  · exact hallowed' pkt hm

/-- A harmless step leaks nothing, and takes nothing back. -/
theorem noLeak (h : Harmless ref c c') : NoLeak ref c' ↔ NoLeak ref c := by
  obtain ⟨pkts, hpkts, hallowed⟩ := h
  unfold NoLeak
  rw [hpkts]
  constructor
  · intro hall pkt hm
    exact hall pkt (List.mem_append_left _ hm)
  · intro hall pkt hm
    rcases List.mem_append.mp hm with hm | hm
    · exact hall pkt hm
    · exact hallowed pkt hm

/-- Identity and pair packets may go to anyone. -/
theorem send {pkt : NetworkPacket} (hpkt : Allowed pkt) (m : Moment PluginEnv) (deviceId : String)
    (ref : Nat) (c : KdeConnectClient φ Plugin) :
    Harmless ref c (sendPacket m deviceId pkt c).2 := by
  refine ⟨_, sentUnpaired_sendPacket m deviceId pkt c ref, ?_⟩
  intro other hm
  split at hm
  · rw [List.mem_singleton.mp hm]
    exact hpkt
  · cases hm

end Harmless

/-- What plugins of a paired device send is no part of its history. -/
theorem sentUnpaired_sendAll_paired (m : Moment PluginEnv) (deviceId : String)
    (pkts : List NetworkPacket) {ref : Nat} {c : KdeConnectClient φ Plugin}
    (h : (c.heap ref).paired = true) :
    ((sendAll m deviceId pkts c).heap ref).sentUnpaired = (c.heap ref).sentUnpaired := by
  rw [sentUnpaired_sendAll, if_neg (not_exposed_of_paired h), List.append_nil]

/-- The plugins send nothing on a connection to an unpaired device. -/
theorem sentUnpaired_notify (m : Moment PluginEnv) (ref : Nat) (c : KdeConnectClient φ Plugin) :
    ((notifyPluginsConnected m ref c).heap ref).sentUnpaired = (c.heap ref).sentUnpaired := by
  have hplugins := sentUnpaired_modify c ref (f := fun s => { s with
    plugins := ((c.heap ref).plugins.map (PluginHost.onConnected m.env (c.heap ref).paired)).map
      (·.1) }) (fun _ => rfl) ref
  unfold notifyPluginsConnected
  dsimp only
  cases hpaired : (c.heap ref).paired with
  | true =>
    rw [hpaired] at hplugins
    rw [sentUnpaired_sendAll_paired, hplugins]
    rw [KdeConnectClient.modify_heap_self]
    exact hpaired
  | false =>
    have hnone : (((c.heap ref).plugins.map (PluginHost.onConnected m.env false)).flatMap
        (·.2)) = [] := by
      rw [List.flatMap_eq_nil_iff]
      intro result hm
      obtain ⟨p, -, rfl⟩ := List.mem_map.mp hm
      rw [onConnected_unpaired]
    rw [hpaired] at hplugins
    rw [hnone]
    exact hplugins

variable {ref : Nat} {c : KdeConnectClient φ Plugin}

/-- A pair packet may go out. -/
theorem allowed_pairPacket (timestamp : Int64) : Allowed (pairPacket timestamp) := .inr rfl

/-- So may its denial. -/
theorem allowed_unpairPacket : Allowed unpairPacket := .inr rfl

/-- Changes of the pairing fields and of the store are no part of it. -/
theorem harmless_mark (c : KdeConnectClient φ Plugin) (target : Nat)
    {f : DeviceSession Plugin → DeviceSession Plugin}
    (hf : ∀ s, (f s).sentUnpaired = s.sentUnpaired)
    (storage : Storage φ) (ref : Nat) : Harmless ref c (setStorage (modify c target f) storage) :=
  .of_eq (sentUnpaired_modify c target hf ref)

/-- After the connection: a pair packet, an identity packet, and the plugins'
part. -/
theorem harmless_announce (m : Moment PluginEnv) (identity : DeviceInfo) (showOnConnect : Bool)
    (ref : Nat) (c : KdeConnectClient φ Plugin) :
    Harmless ref c (announce m identity showOnConnect ref c) := by
  have hpost : Harmless ref c (if ((c.heap ref).paired && showOnConnect) = true then
      post c (c.heap ref).info.name "Connected" ("connect_" ++ (c.heap ref).info.id) else c) := by
    split
    · exact .of_eq rfl
    · exact .of_eq rfl
  have hdeny : ∀ c : KdeConnectClient φ Plugin, Harmless ref c
      (if (!(c.heap ref).paired) = true then (sendPacket m identity.id unpairPacket c).2
        else c) := by
    intro c
    split
    · exact .send allowed_unpairPacket m identity.id ref c
    · exact .of_eq rfl
  refine (hpost.trans (hdeny _)).trans ?_
  exact (Harmless.send (.inl rfl) m identity.id ref _).trans (.of_eq (sentUnpaired_notify m ref _))

variable [FileSystem φ]

/-- Whatever a pair packet does, it sends pair packets only. -/
theorem harmless_handlePairPacket (y : Yyjson) (m : Moment PluginEnv) (ref : Nat)
    (body : JsonBody) (c : KdeConnectClient φ Plugin) :
    Harmless ref c (handlePairPacket y m ref body c) := by
  unfold handlePairPacket handlePairPacketTimed
  dsimp only
  split
  · split
    · exact .of_eq rfl
    · split
      · split
        · exact .of_eq rfl
        · have hmark := harmless_mark c ref (f := DeviceSession.markPaired) (fun _ => rfl)
            (savePairedDevice y (c.heap ref).info (c.heap ref).certPem c.storage) ref
          exact hmark.trans (.of_eq (sentUnpaired_notify m ref _))
      · have hmark := sentUnpaired_modify c ref
          (f := DeviceSession.markRequestedByPeer (body.valueI64 "timestamp" 0)) (fun _ => rfl) ref
        exact .of_eq hmark
  · have hmark := harmless_mark c ref (f := DeviceSession.markUnpaired) (fun _ => rfl)
      (removePairedDevice (c.heap ref).info.id c.storage) ref
    split
    · exact hmark
    · exact hmark

omit [FileSystem φ] in
/-- So does a request. -/
theorem harmless_requestPair (m : Moment PluginEnv) (deviceId : String) (ref : Nat)
    (c : KdeConnectClient φ Plugin) : Harmless ref c (requestPair m deviceId c) := by
  have hsend := Harmless.send (allowed_pairPacket m.seconds) m deviceId ref c
  unfold requestPair
  split
  · exact .of_eq rfl
  · rename_i target _
    split
    · exact .of_eq rfl
    · dsimp only
      split
      · have hmark := sentUnpaired_modify (sendPacket m deviceId (pairPacket m.seconds) c).2 target
          (f := DeviceSession.markRequested m.seconds) (fun _ => rfl) ref
        exact hsend.trans (.of_eq hmark)
      · exact hsend

/-- So does accepting. -/
theorem harmless_acceptPair (y : Yyjson) (m : Moment PluginEnv) {deviceId : String} {ref : Nat}
    {c : KdeConnectClient φ Plugin} (h : c.device deviceId = some ref) :
    Harmless ref c (acceptPair y m deviceId c) := by
  have hsend := Harmless.send (allowed_pairPacket m.millis) m deviceId ref c
  unfold acceptPair
  rw [h]
  dsimp only
  split
  · exact .of_eq rfl
  · split
    · have hmark := harmless_mark (sendPacket m deviceId (pairPacket m.millis) c).2 ref
        (f := DeviceSession.markPaired) (fun _ => rfl) (savePairedDevice y
          ((sendPacket m deviceId (pairPacket m.millis) c).2.heap ref).info
          ((sendPacket m deviceId (pairPacket m.millis) c).2.heap ref).certPem
          (sendPacket m deviceId (pairPacket m.millis) c).2.storage) ref
      exact (hsend.trans hmark).trans (.of_eq (sentUnpaired_notify m ref _))
    · exact hsend

omit [FileSystem φ] in
/-- A denial that is sent first, and the pairing ended after it. -/
theorem harmless_deny (m : Moment PluginEnv) (deviceId : String) (target ref : Nat)
    (c : KdeConnectClient φ Plugin) (removed : Storage φ) :
    Harmless ref c
      (if (sendPacket m deviceId unpairPacket c).1 = true then
        setStorage (modify (sendPacket m deviceId unpairPacket c).2 target
          DeviceSession.markUnpaired) removed
      else (sendPacket m deviceId unpairPacket c).2) := by
  have hsend := Harmless.send allowed_unpairPacket m deviceId ref c
  split
  · exact hsend.trans (harmless_mark _ target (f := DeviceSession.markUnpaired)
      (fun _ => rfl) _ ref)
  · exact hsend

/-- So does rejecting. -/
theorem harmless_rejectPair (m : Moment PluginEnv) (deviceId : String) (ref : Nat)
    (c : KdeConnectClient φ Plugin) : Harmless ref c (rejectPair m deviceId c) := by
  unfold rejectPair
  split
  · exact .of_eq rfl
  · exact harmless_deny m deviceId _ ref c _

/-- So does unpairing. -/
theorem harmless_unpair (m : Moment PluginEnv) (deviceId : String) (ref : Nat)
    (c : KdeConnectClient φ Plugin) : Harmless ref c (unpair m deviceId c) := by
  unfold unpair
  split
  · exact .of_eq rfl
  · split
    · exact harmless_mark c _ (f := DeviceSession.markUnpaired) (fun _ => rfl) _ ref
    · split
      · exact .of_eq rfl
      · exact harmless_deny m deviceId _ ref c _

/-- Pairing sends pair packets, and what plugins send to a device that has just
been paired. -/
theorem harmless_pairing (y : Yyjson) {deviceId : String} {ref : Nat}
    {c : KdeConnectClient φ Plugin} (h : c.device deviceId = some ref)
    (e : PairingRuns.Event PluginEnv) :
    Harmless ref c (PairingRuns.step y deviceId ref c e) := by
  cases e with
  | received m body => exact harmless_handlePairPacket y m ref body c
  | request m => exact harmless_requestPair m deviceId ref c
  | accept m => exact harmless_acceptPair y m h
  | reject m => exact harmless_rejectPair m deviceId ref c
  | unpair m => exact harmless_unpair m deviceId ref c
  | lost =>
    have hmark := sentUnpaired_modify c ref (f := DeviceSession.markDisconnected) (fun _ => rfl) ref
    exact .of_eq hmark

/-- Plugins see received packets only while the device is paired. -/
theorem harmless_handlePacket (y : Yyjson) (m : Moment PluginEnv) (ref : Nat) (line : List UInt8)
    (c : KdeConnectClient φ Plugin) : Harmless ref c (handlePacket y m ref line c) := by
  unfold handlePacket
  split
  · exact .of_eq rfl
  · rename_i pkt _
    split
    · exact harmless_handlePairPacket y m ref pkt.body c
    · split
      · exact .of_eq rfl
      · rename_i hpaired
        have hpaired' : (c.heap ref).paired = true := by simpa using hpaired
        have hplugins := sentUnpaired_modify c ref (f := fun s => { s with
          plugins := (offer m.env pkt (c.heap ref).plugins).1 }) (fun _ => rfl) ref
        refine .of_eq ((sentUnpaired_sendAll_paired m _ _ ?_).trans hplugins)
        rw [KdeConnectClient.modify_heap_self]
        exact hpaired'

end Handlers

section Table

variable {φ : Type}

/-- The table has one entry for each device id, a session of that id. -/
structure Tabled (c : KdeConnectClient φ Plugin) : Prop where
  nodup : (c.sessions.map (·.1)).Nodup
  info : ∀ entry ∈ c.sessions, (c.heap entry.2).info.id = entry.1

/-- The session is not of this one, and its device's packets go elsewhere. -/
def Elsewhere (ref : Nat) (c : KdeConnectClient φ Plugin) (other : Nat) : Prop :=
  other ≠ ref ∧ c.device (c.heap other).info.id ≠ some ref

/-- Whether packets go elsewhere depends on the cores. -/
theorem elsewhere_congr {c c' : KdeConnectClient φ Plugin} (h : SameCores c c') (ref other : Nat) :
    Elsewhere ref c' other ↔ Elsewhere ref c other := by
  rw [Elsewhere, Elsewhere, h.info, h.device]

/-- A loop over sessions elsewhere changes nothing here. -/
theorem foldl_elsewhere {visit : Nat → KdeConnectClient φ Plugin → KdeConnectClient φ Plugin}
    {ref : Nat} (hsame : ∀ other c, SameCores c (visit other c))
    (hvisit : ∀ other c, Elsewhere ref c other → (visit other c).heap ref = c.heap ref)
    (entries : List (String × Nat)) (c : KdeConnectClient φ Plugin)
    (h : ∀ entry ∈ entries, Elsewhere ref c entry.2) :
    SameCores c (entries.foldl (fun c entry => visit entry.2 c) c) ∧
      (entries.foldl (fun c entry => visit entry.2 c) c).heap ref = c.heap ref := by
  induction entries generalizing c with
  | nil => exact ⟨SameCores.refl c, rfl⟩
  | cons entry entries ih =>
    have hhead := h entry List.mem_cons_self
    have hrest : ∀ other ∈ entries, Elsewhere ref (visit entry.2 c) other.2 := by
      intro other hm
      exact (elsewhere_congr (hsame entry.2 c) ref other.2).mpr
        (h other (List.mem_cons_of_mem _ hm))
    obtain ⟨hcores, hheap⟩ := ih (visit entry.2 c) hrest
    exact ⟨(hsame entry.2 c).trans hcores, hheap.trans (hvisit entry.2 c hhead)⟩

/-- Of a loop over the whole table only the visit to this session counts here. -/
theorem foldl_sessions {visit : Nat → KdeConnectClient φ Plugin → KdeConnectClient φ Plugin}
    {deviceId : String} {ref : Nat} (hsame : ∀ other c, SameCores c (visit other c))
    (hvisit : ∀ other c, Elsewhere ref c other → (visit other c).heap ref = c.heap ref)
    {c : KdeConnectClient φ Plugin} (hc : Tabled c) (hs : Serves deviceId ref c) :
    SameCores c (c.sessions.foldl (fun c entry => visit entry.2 c) c) ∧
      ∃ before, SameCores c before ∧ before.heap ref = c.heap ref ∧
        (c.sessions.foldl (fun c entry => visit entry.2 c) c).heap ref =
          (visit ref before).heap ref := by
  obtain ⟨earlier, later, hsessions, -⟩ := List.lookup_eq_some_iff.mp hs.device
  have hother : ∀ entry ∈ earlier ++ later, Elsewhere ref c entry.2 := by
    intro entry hm
    have hne : entry.1 ≠ deviceId := by
      have hnodup := hc.nodup
      rw [hsessions, List.map_append, List.map_cons, List.nodup_middle, ← List.map_append] at hnodup
      rintro rfl
      exact (List.nodup_cons.mp hnodup).1 (List.mem_map_of_mem (f := (·.1)) hm)
    have hmem : entry ∈ c.sessions := by
      rw [hsessions]
      rcases List.mem_append.mp hm with hm | hm
      · exact List.mem_append_left _ hm
      · exact List.mem_append_right _ (List.mem_cons_of_mem _ hm)
    have hinfo := hc.info entry hmem
    constructor
    · intro heq
      rw [heq, hs.id] at hinfo
      exact hne hinfo.symm
    · intro hdevice
      rw [hinfo] at hdevice
      obtain ⟨l, l', hl, -⟩ := List.lookup_eq_some_iff.mp hdevice
      have hmem' : (entry.1, ref) ∈ c.sessions := by
        rw [hl]
        exact List.mem_append_right _ List.mem_cons_self
      have hinfo' := hc.info _ hmem'
      exact hne (hinfo'.symm.trans hs.id)
  rw [hsessions, List.foldl_append, List.foldl_cons]
  obtain ⟨hbefore, hheap⟩ := foldl_elsewhere hsame hvisit earlier c
    fun entry hm => hother entry (List.mem_append_left _ hm)
  generalize earlier.foldl (fun c entry => visit entry.2 c) c = before at hbefore hheap ⊢
  have hhere := hbefore.trans (hsame ref before)
  obtain ⟨hafter, hheap'⟩ := foldl_elsewhere hsame hvisit later (visit ref before)
    fun entry hm => (elsewhere_congr hhere ref entry.2).mpr
      (hother entry (List.mem_append_right _ hm))
  exact ⟨hhere.trans hafter, before, hbefore, hheap, hheap'⟩

/-- Packets for another device leave the session alone. -/
theorem sendPacket_heap_elsewhere (m : Moment PluginEnv) {deviceId : String} (pkt : NetworkPacket)
    {c : KdeConnectClient φ Plugin} {ref : Nat} (h : c.device deviceId ≠ some ref) :
    (sendPacket m deviceId pkt c).2.heap ref = c.heap ref := by
  unfold sendPacket
  split
  · rfl
  · rename_i target htarget
    split
    · rfl
    · refine KdeConnectClient.modify_heap_ne c ?_ _
      rintro rfl
      exact h htarget

/-- Sending to one device leaves the sessions of others alone. -/
theorem sendAll_heap_elsewhere (m : Moment PluginEnv) {deviceId : String}
    (pkts : List NetworkPacket) {c : KdeConnectClient φ Plugin} {ref : Nat}
    (h : c.device deviceId ≠ some ref) : (sendAll m deviceId pkts c).heap ref = c.heap ref := by
  induction pkts generalizing c with
  | nil => rfl
  | cons pkt pkts ih =>
    have hnext : (sendPacket m deviceId pkt c).2.device deviceId ≠ some ref := by
      rw [(SameCores.sendPacket m deviceId pkt c).device]
      exact h
    exact (ih hnext).trans (sendPacket_heap_elsewhere m pkt h)

/-- A tick changes no core. -/
theorem sameCores_tickSession (m : Moment PluginEnv) (other : Nat) (c : KdeConnectClient φ Plugin) :
    SameCores c (tickSession m other c) := by
  unfold tickSession
  dsimp only
  split
  · exact SameCores.refl c
  · have hplugins := SameCores.modify c other (f := fun s => { s with
      plugins := ((c.heap other).plugins.map (PluginHost.processEvents m.env)).map (·.1) })
      rfl List.prefix_rfl
    exact hplugins.trans (SameCores.sendAll m _ _ _)

/-- A tick of another session leaves this one alone. -/
theorem tickSession_elsewhere (m : Moment PluginEnv) {ref other : Nat}
    {c : KdeConnectClient φ Plugin} (h : Elsewhere ref c other) :
    (tickSession m other c).heap ref = c.heap ref := by
  unfold tickSession
  dsimp only
  split
  · rfl
  · rw [sendAll_heap_elsewhere m _ (by rw [KdeConnectClient.modify_device]; exact h.2)]
    exact KdeConnectClient.modify_heap_ne c (Ne.symm h.1) _

/-- A battery status may not go out. -/
theorem not_allowed_battery {pkt : NetworkPacket} (h : pkt.type = PacketTypes.battery) :
    ¬ Allowed pkt := by
  unfold Allowed
  rw [h]
  decide

/-- Nor may a list of commands. -/
theorem not_allowed_runCommand {pkt : NetworkPacket} (h : pkt.type = PacketTypes.runCommand) :
    ¬ Allowed pkt := by
  unfold Allowed
  rw [h]
  decide

/-- A tick leaks exactly if the battery plugin of an exposed session reports. -/
theorem noLeak_tickSession (m : Moment PluginEnv) {deviceId : String} {ref : Nat}
    {c : KdeConnectClient φ Plugin} (hs : Serves deviceId ref c) (h : NoLeak ref c) :
    NoLeak ref (tickSession m ref c) ↔
      ((c.heap ref).disconnected = false → (c.heap ref).paired = false →
        ∀ p, Plugin.battery p ∈ (c.heap ref).plugins → ¬ p.Reports m.env) := by
  unfold tickSession
  dsimp only
  cases hdown : (c.heap ref).disconnected with
  | true =>
    rw [if_pos rfl]
    exact iff_of_true h (by simp)
  | false =>
    rw [if_neg Bool.false_ne_true, List.flatMap_map, hs.id]
    have hplugins := SameCores.modify c ref (f := fun s => { s with
      plugins := ((c.heap ref).plugins.map (PluginHost.processEvents m.env)).map (·.1) })
      rfl List.prefix_rfl
    have hkept := sentUnpaired_modify c ref (f := fun s => { s with
      plugins := ((c.heap ref).plugins.map (PluginHost.processEvents m.env)).map (·.1) })
      (fun _ => rfl) ref
    cases hpaired : (c.heap ref).paired with
    | true =>
      refine iff_of_true ?_ (by simp)
      unfold NoLeak
      rw [sentUnpaired_sendAll_paired m, hkept]
      · exact h
      · rw [KdeConnectClient.modify_heap_self]
        exact hpaired
    | false =>
      have hexposed := (exposed_congr hplugins deviceId ref).mpr ⟨hs.device, hdown, hpaired⟩
      unfold NoLeak
      rw [sentUnpaired_sendAll, if_pos hexposed, hkept, ← processEvents_nil]
      constructor
      · intro hall _ _
        rw [List.eq_nil_iff_forall_not_mem]
        intro pkt hm
        exact not_allowed_battery (type_of_processEvents hm) (hall pkt (List.mem_append_right _ hm))
      · intro hnil
        rw [hnil rfl rfl, List.append_nil]
        exact h

/-- Sending the list again changes no core. -/
theorem sameCores_resendCommands (m : Moment PluginEnv) (other : Nat)
    (c : KdeConnectClient φ Plugin) : SameCores c (resendCommands m other c) := by
  unfold resendCommands
  split
  · exact SameCores.sendPacket m _ _ c
  · exact SameCores.refl c

/-- Sending it to another session leaves this one alone. -/
theorem resendCommands_elsewhere (m : Moment PluginEnv) {ref other : Nat}
    {c : KdeConnectClient φ Plugin} (h : Elsewhere ref c other) :
    (resendCommands m other c).heap ref = c.heap ref := by
  unfold resendCommands
  split
  · exact sendPacket_heap_elsewhere m _ h.2
  · rfl

/-- The command list leaks exactly to an exposed session. -/
theorem noLeak_resendCommands (m : Moment PluginEnv) {deviceId : String} {ref : Nat}
    {c : KdeConnectClient φ Plugin} (hs : Serves deviceId ref c) (h : NoLeak ref c) :
    NoLeak ref (resendCommands m ref c) ↔
      ((c.heap ref).disconnected = false → (c.heap ref).paired = false →
        hasRunCommand (c.heap ref) = false) := by
  unfold resendCommands
  cases hplugin : hasRunCommand (c.heap ref) with
  | false =>
    rw [if_neg Bool.false_ne_true]
    exact iff_of_true h fun _ _ => rfl
  | true =>
    rw [if_pos rfl, hs.id]
    unfold NoLeak
    rw [sentUnpaired_sendPacket]
    by_cases hexposed : Exposed deviceId ref c
    · rw [if_pos hexposed]
      refine iff_of_false ?_ ?_
      · intro hall
        have hlist := hall _ (List.mem_append_right _ (List.mem_singleton_self _))
        exact not_allowed_runCommand rfl hlist
      · intro hnone
        cases hnone hexposed.2.1 hexposed.2.2
    · rw [if_neg hexposed, List.append_nil]
      refine iff_of_true h ?_
      intro hdown hpaired
      exact absurd ⟨hs.device, hdown, hpaired⟩ hexposed

end Table

section Leaks

variable {φ : Type} [FileSystem φ]

omit [FileSystem φ] in
/-- What leaked is what the session sent. -/
theorem noLeak_congr {ref : Nat} {c c' : KdeConnectClient φ Plugin}
    (h : c'.heap ref = c.heap ref) : NoLeak ref c' ↔ NoLeak ref c := by
  rw [NoLeak, NoLeak, h]

omit [FileSystem φ] in
/-- Equal cores serve the same device. -/
theorem serves_of_sameCores {deviceId : String} {ref : Nat} {c c' : KdeConnectClient φ Plugin}
    (h : SameCores c c') (hs : Serves deviceId ref c) : Serves deviceId ref c' := by
  exact ⟨by rw [h.device, hs.device], by rw [h.info, hs.id]⟩

omit [FileSystem φ] in
/-- And stand in the same table. -/
theorem tabled_of_sameCores {c c' : KdeConnectClient φ Plugin} (h : SameCores c c')
    (hc : Tabled c) : Tabled c' := by
  refine ⟨by rw [h.sessions]; exact hc.nodup, ?_⟩
  intro entry hm
  rw [h.sessions] at hm
  rw [h.info]
  exact hc.info entry hm

/-- The session stays in its place. -/
theorem step_tabled (y : Yyjson) {deviceId : String} {ref : Nat} {c : KdeConnectClient φ Plugin}
    (hc : Tabled c) (hs : Serves deviceId ref c) (e : Event) :
    Tabled (step y deviceId ref c e) ∧ Serves deviceId ref (step y deviceId ref c e) := by
  have hsame : ∀ c', SameCores c c' → Tabled c' ∧ Serves deviceId ref c' := by
    intro c' h
    exact ⟨tabled_of_sameCores h hc, serves_of_sameCores h hs⟩
  have hfollows : ∀ c' act, Follows y c c' ref act → Tabled c' ∧ Serves deviceId ref c' := by
    intro c' act h
    refine ⟨⟨by rw [h.sessions]; exact hc.nodup, ?_⟩, serves_of_follows hs h⟩
    intro entry hm
    rw [h.sessions] at hm
    rw [(ConnectionRuns.sameNames_of_follows h).info]
    exact hc.info entry hm
  cases e with
  | pairing e => exact hfollows _ _ (step_follows y hs e)
  | line m line =>
    simp only [step, handlePacket]
    split
    · exact ⟨hc, hs⟩
    · rename_i pkt _
      split
      · exact hfollows _ _ (follows_handlePairPacketTimed y _ m ref pkt.body c)
      · split
        · exact ⟨hc, hs⟩
        · have hplugins := SameCores.modify c ref (f := fun s => { s with
            plugins := (offer m.env pkt (c.heap ref).plugins).1 }) rfl List.prefix_rfl
          exact hsame _ (hplugins.trans (SameCores.sendAll m _ _ _))
  | tick m =>
    exact hsame _ (foldl_sessions (sameCores_tickSession m) (fun _ _ h => tickSession_elsewhere m h)
      hc hs).1
  | write m key value =>
    simp only [step, writeBoolSetting]
    split
    · exact hsame _ (foldl_sessions (sameCores_resendCommands _)
        (fun _ _ h => resendCommands_elsewhere _ h) hc hs).1
    · exact ⟨hc, hs⟩

/-- Exactly the silent steps leak nothing. -/
theorem noLeak_step (y : Yyjson) {deviceId : String} {ref : Nat} {c : KdeConnectClient φ Plugin}
    (hc : Tabled c) (hs : Serves deviceId ref c) (h : NoLeak ref c) (e : Event) :
    NoLeak ref (step y deviceId ref c e) ↔ Silent ref c e := by
  cases e with
  | pairing e =>
    have hharmless := harmless_pairing y hs.device e
    exact iff_of_true (hharmless.noLeak.mpr h) trivial
  | line m line =>
    have hharmless := harmless_handlePacket y m ref line c
    exact iff_of_true (hharmless.noLeak.mpr h) trivial
  | tick m =>
    obtain ⟨-, before, hbefore, hheap, hvisit⟩ := foldl_sessions (sameCores_tickSession m)
      (fun _ _ h => tickSession_elsewhere m h) hc hs
    have hleak := noLeak_tickSession m (serves_of_sameCores hbefore hs) ((noLeak_congr hheap).mpr h)
    rw [hheap] at hleak
    exact (noLeak_congr hvisit).trans hleak
  | write m key value =>
    simp only [step, writeBoolSetting, Silent]
    by_cases hkey : key = .runCommandPowerCommandsEnabled
    · rw [if_pos hkey]
      obtain ⟨-, before, hbefore, hheap, hvisit⟩ := foldl_sessions (sameCores_resendCommands
        { m with env := { m.env with powerCommands := value } })
        (fun _ _ h => resendCommands_elsewhere _ h) hc hs
      have hleak := noLeak_resendCommands { m with env := { m.env with powerCommands := value } }
        (serves_of_sameCores hbefore hs) ((noLeak_congr hheap).mpr h)
      rw [hheap] at hleak
      refine ((noLeak_congr hvisit).trans hleak).trans ?_
      exact ⟨fun h _ => h, fun h => h hkey⟩
    · rw [if_neg hkey]
      exact iff_of_true h fun heq => absurd heq hkey

/-- From its entry into the table on, nothing but identity and pair packets is
queued for a session while it is unpaired exactly if every step is silent. -/
theorem noLeak_run_iff (y : Yyjson) {identity : DeviceInfo} {ref : Nat}
    {c : KdeConnectClient φ Plugin} (hc : Tabled c) (hs : Serves identity.id ref c)
    (hnew : (c.heap ref).sentUnpaired = []) (m : Moment PluginEnv) (showOnConnect : Bool)
    (events : List Event) :
    Always (step y identity.id ref) (NoLeak ref) (announce m identity showOnConnect ref c) events ↔
      EveryStep (step y identity.id ref) (Silent ref)
        (announce m identity showOnConnect ref c) events := by
  have hsame := sameCores_announce m identity showOnConnect ref c
  have hstart : NoLeak ref (announce m identity showOnConnect ref c) := by
    refine (harmless_announce m identity showOnConnect ref c).noLeak.mpr ?_
    unfold NoLeak
    rw [hnew]
    simp
  refine always_iff_everyStep_of_inv
    (I := fun c : KdeConnectClient φ Plugin => Tabled c ∧ Serves identity.id ref c) ?_ ?_
    ⟨tabled_of_sameCores hsame hc, serves_of_sameCores hsame hs⟩ hstart events
  · intro c' e h
    exact step_tabled y h.1 h.2 e
  · intro c' e hI h
    exact noLeak_step y hI.1 hI.2 h e

end Leaks

/-- A client with one new session, of the paired phone. -/
def phoneConnected : KdeConnectClient MemoryFiles Plugin where
  storage := ⟨"/config/kdeconnect", {}⟩
  localDevice := { id := "0a" }
  heap := fun _ =>
    { info := phone
      pairState := .paired
      paired := true
      certPem := "phone certificate"
      plugins := instantiatePlugins }
  next := 1
  sessions := [(phone.id, 0)]

/-- The connected phone stands in the table. -/
theorem phoneConnected_tabled : Tabled phoneConnected := by
  refine ⟨List.nodup_singleton phone.id, ?_⟩
  intro entry hm
  rw [List.mem_singleton.mp hm]
  rfl

/-- And is served by its session. -/
theorem phoneConnected_serves : Serves phone.id 0 phoneConnected := ⟨rfl, rfl⟩

/-- Some seconds after the start, with a charge that is read. -/
def atCharge (seconds : Int64) (charge : Int32) : Moment PluginEnv where
  nanos := 1700000000000000000
  env :=
    { json := Yyjson.reference
      steady := seconds * 1000000000
      hardware := some (charge, false) }

/-- The user unpairs the phone, which stays connected; the next poll finds a new
charge and reports it. -/
theorem leak_afterUnpair :
    ¬ ∀ events : List Event,
      Always (step Yyjson.reference phone.id 0) (NoLeak 0)
        (announce (atCharge 1 80) phone false 0 phoneConnected) events := by
  intro h
  have hlast := (h [.pairing (.unpair (atCharge 5 80)), .tick (atCharge 20 79)]).last
  unfold NoLeak Allowed at hlast
  revert hlast
  decide +kernel

/-- A tick while the phone is paired, and another setting written after. -/
theorem noLeak_whilePaired :
    Always (step Yyjson.reference phone.id 0) (NoLeak 0)
      (announce (atCharge 1 80) phone false 0 phoneConnected)
      [.tick (atCharge 20 79), .pairing (.unpair (atCharge 25 79)),
        .write (atCharge 26 79) .notificationShowIcon false] := by
  refine (noLeak_run_iff Yyjson.reference phoneConnected_tabled phoneConnected_serves rfl _ _ _).mpr
    ⟨?_, trivial, ?_, trivial⟩
  · have hpaired : ((announce (atCharge 1 80) phone false 0 phoneConnected).heap
        0).paired = true := by
      decide +kernel
    intro _ hunpaired
    rw [hpaired] at hunpaired
    cases hunpaired
  · intro hkey
    cases hkey

end KdeConnectNx.UnpairedSends
