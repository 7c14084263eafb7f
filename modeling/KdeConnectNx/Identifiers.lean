import KdeConnectNx.Plugins

/-!
# Identifiers on their way through the overlay

The service lists devices, sinks and commands in records with character arrays
of 64 bytes, and the overlay names them in requests with arrays of the same
size. Texts are cut to 63 bytes on the way, and then looked up by equality.
-/

namespace KdeConnectNx.Identifiers

open JsonText PacketBody PacketFormat PairedFiles Sessions Plugins

/-- The size of the arrays for device ids, sink names and command ids. -/
def kIdMax : Nat := 64

def kNameMax : Nat := 128
def kCommandNameMax : Nat := 64
def kMaxDevices : Nat := 16
def kMaxVolumeSinks : Nat := 16
def kMaxCommands : Nat := 256

/-- `strncpy` of a C string to a zeroed array, its last byte left alone. -/
def charArray (size : Nat) (text : List UInt8) : List UInt8 :=
  let copied := (cbytes text).take (size - 1)
  copied ++ List.replicate (size - copied.length) 0

/-- The string an array holds, up to its end (`strnlen`). -/
def ofCharArray (size : Nat) (array : List UInt8) : List UInt8 := cbytes (array.take size)

/-- Bytes as a text; others than UTF-8 are none, and no key of any table. -/
def textOf (bytes : List UInt8) : Option String := (ofUtf8 bytes).map String.ofList

/-! ## The lists -/

inductive DeviceType where
  | desktop
  | laptop
  | phone
  | tablet
  | tv
  deriving DecidableEq, Repr

inductive DevicePairState where
  | none
  | requestedByMe
  | requestedByPeer
  | paired
  deriving DecidableEq, Repr

structure KdecDeviceInfo where
  id : List UInt8
  name : List UInt8
  type : DeviceType := .desktop
  pairState : DevicePairState
  isConnected : Bool
  batteryLevel : Int8 := 0
  isCharging : Bool := false
  supportsFindMyPhone : Bool := false
  supportsCommands : Bool := false
  supportsVolumeSinks : Bool := false
  supportsMprisRemote : Bool := false
  supportsShare : Bool := false

def deviceType (type : String) : DeviceType :=
  if type = "phone" then .phone
  else if type = "laptop" then .laptop
  else if type = "tablet" then .tablet
  else if type = "tv" then .tv
  else .desktop

def devicePairState (s : DeviceSession Plugin) : DevicePairState :=
  if s.paired then .paired
  else if s.pairState = .requestedByPeer then .requestedByPeer
  else if s.pairState = .requested then .requestedByMe
  else .none

/-- `session->plugin<BatteryPlugin>()`. -/
def batteryOf (plugins : List Plugin) : Option BatteryPlugin :=
  plugins.findSome? fun p =>
    match p with
    | .battery p => some p
    | _ => none

/-- `session->plugin<SystemVolumePlugin>()`. -/
def systemVolumeOf (plugins : List Plugin) : Option SystemVolumePlugin :=
  plugins.findSome? fun p =>
    match p with
    | .systemVolume p => some p
    | _ => none

/-- `session->plugin<RunCommandPlugin>()`. -/
def runCommandOf (plugins : List Plugin) : Option RunCommandPlugin :=
  plugins.findSome? fun p =>
    match p with
    | .runCommand p => some p
    | _ => none

/-- The entry of a device with a session. -/
def sessionInfo (id : String) (s : DeviceSession Plugin) : KdecDeviceInfo where
  id := charArray kIdMax (utf8 id.toList)
  name := charArray kNameMax (utf8 s.info.name.toList)
  type := deviceType s.info.type
  pairState := devicePairState s
  isConnected := !s.disconnected
  batteryLevel := ((batteryOf s.plugins).map fun p => p.cachedRemoteCharge.toInt8).getD (-1)
  isCharging := ((batteryOf s.plugins).map BatteryPlugin.cachedRemoteCharging).getD false
  supportsFindMyPhone := s.info.incomingCapabilities.contains PacketTypes.findMyPhoneRequest
  supportsCommands := s.info.incomingCapabilities.contains PacketTypes.runCommandRequest
  supportsVolumeSinks := s.info.incomingCapabilities.contains PacketTypes.systemVolumeRequest
  supportsMprisRemote := s.info.incomingCapabilities.contains PacketTypes.mprisRequest
  supportsShare := s.info.incomingCapabilities.contains PacketTypes.shareRequest

/-- The entry of a paired device without a session. -/
def offlineInfo (device : PairedDeviceInfo) : KdecDeviceInfo where
  id := charArray kIdMax (utf8 device.info.id.toList)
  name := charArray kNameMax (utf8 device.info.name.toList)
  pairState := .paired
  isConnected := false
  batteryLevel := -1

variable {φ : Type}

/-- What an entry of the device list stands for. -/
inductive Listed where
  | session (id : String) (ref : Nat)
  | offline (device : PairedDeviceInfo)

def Listed.id : Listed → String
  | .session id _ => id
  | .offline device => device.info.id

def Listed.entry (c : KdeConnectClient φ Plugin) : Listed → KdecDeviceInfo
  | .session id ref => sessionInfo id (c.heap ref)
  | .offline device => offlineInfo device

section Lists

variable [FileSystem φ]

/-- Stored devices without a session; `ids` are the file names in the folder. -/
def offlinePairedDevices (y : Yyjson) (ids : List String) (c : KdeConnectClient φ Plugin) :
    List PairedDeviceInfo :=
  (ids.filter fun id => (c.device id).isNone).filterMap fun id => c.storage.entry y id

/-- What `GetDevices` lists: the entries of the table, then the others, as many
as the buffer of the overlay takes. -/
def listedDevices (y : Yyjson) (ids : List String) (c : KdeConnectClient φ Plugin) : List Listed :=
  let current := c.sessions.filter fun entry => c.device entry.1 == some entry.2
  (current.map (fun entry => Listed.session entry.1 entry.2) ++
    (offlinePairedDevices y ids c).map Listed.offline).take kMaxDevices

end Lists

structure KdecVolumeSinkInfo where
  name : List UInt8
  description : List UInt8
  volume : Int32
  isMuted : Bool
  isDefaultOutput : Bool

def sinkInfo (s : SinkState) : KdecVolumeSinkInfo where
  name := charArray kIdMax (utf8 s.name.toList)
  description := charArray kNameMax (utf8 s.description.toList)
  volume := s.volume
  isMuted := s.isMuted
  isDefaultOutput := s.isDefaultOutput

structure KdecCommandEntry where
  id : List UInt8
  name : List UInt8

def commandEntry (command : String × String) : KdecCommandEntry where
  id := charArray kIdMax (utf8 command.1.toList)
  name := charArray kCommandNameMax (utf8 command.2.toList)

/-! ## The requests -/

structure KdecWireSetVolumeSink where
  deviceId : List UInt8
  sinkName : List UInt8
  volume : Int32
  muted : Bool
  isDefaultOutput : Bool

structure KdecWireRunCommand where
  deviceId : List UInt8
  commandId : List UInt8

/-- `kdecIpcRequestPair` and its siblings. -/
def kdecIpcDevice (deviceId : List UInt8) : List UInt8 := charArray kIdMax deviceId

def kdecIpcSetVolumeSink (deviceId sinkName : List UInt8) (volume : Int32)
    (muted isDefaultOutput : Bool) : KdecWireSetVolumeSink where
  deviceId := charArray kIdMax deviceId
  sinkName := charArray kIdMax sinkName
  volume := volume
  muted := muted
  isDefaultOutput := isDefaultOutput

def kdecIpcRunCommand (deviceId commandId : List UInt8) : KdecWireRunCommand where
  deviceId := charArray kIdMax deviceId
  commandId := charArray kIdMax commandId

/-- The id in a request. -/
def requestedId (wire : List UInt8) : Option String := textOf (ofCharArray kIdMax wire)

/-- `client->device(id_str)`, with the key it is found under. -/
def requestedDevice (c : KdeConnectClient φ Plugin) (wire : List UInt8) : Option (String × Nat) :=
  (requestedId wire).bind fun id => (c.device id).map fun ref => (id, ref)

/-- The request that sets a remote sink. -/
def sinkRequest (name : String) (maxVolume volume : Int32) (muted isDefaultOutput : Bool) :
    NetworkPacket where
  type := PacketTypes.systemVolumeRequest
  body :=
    let body :=
      ((({} : JsonBody).setStr "name" name).setInt "volume" (volume * maxVolume / 100)).setBool
        "muted" muted
    if isDefaultOutput then body.setBool "enabled" true else body

/-- The largest volume of the first sink of that name. -/
def maxVolumeOf (sinks : List SinkState) (name : String) : Int32 :=
  ((sinks.find? fun s => s.name = name).map SinkState.maxVolume).getD 100

def setRemoteSink (p : SystemVolumePlugin) (name : String) (volume : Int32)
    (muted isDefaultOutput : Bool) : NetworkPacket :=
  sinkRequest name (maxVolumeOf p.remoteSinks name) volume muted isDefaultOutput

def runRemoteCommand (key : String) : NetworkPacket where
  type := PacketTypes.runCommandRequest
  body := ({} : JsonBody).setStr "key" key

/-- `SetVolumeSink` in the service: the session that is found, and the packet its
plugin sends. A name that is no text makes a packet that cannot be written. -/
def setVolumeSink (c : KdeConnectClient φ Plugin) (wire : KdecWireSetVolumeSink) :
    Option (Nat × NetworkPacket) :=
  (requestedDevice c wire.deviceId).bind fun found =>
    (systemVolumeOf (c.heap found.2).plugins).bind fun p =>
      (requestedId wire.sinkName).map fun name =>
        (found.2, setRemoteSink p name wire.volume wire.muted wire.isDefaultOutput)

/-- `RunCommand` in the service. -/
def runCommand (c : KdeConnectClient φ Plugin) (wire : KdecWireRunCommand) :
    Option (Nat × NetworkPacket) :=
  (requestedDevice c wire.deviceId).bind fun found =>
    (runCommandOf (c.heap found.2).plugins).bind fun _ =>
      (requestedId wire.commandId).map fun key => (found.2, runRemoteCommand key)

/-! ## What survives the way -/

/-- Without a NUL, and short enough for the array with its terminator. -/
def Fits (id : String) : Prop := NulFree id ∧ (utf8 id.toList).length < kIdMax

instance (id : String) : Decidable (Fits id) := inferInstanceAs (Decidable (_ ∧ _))

/-- The overlay's copy of a text in a list. -/
def shown (text : String) : List UInt8 := ofCharArray kIdMax (charArray kIdMax (utf8 text.toList))

section Texts

theorem ne_zero_of_mem_cbytes {b : UInt8} {text : List UInt8} (h : b ∈ cbytes text) :
    (b != 0) = true := List.mem_takeWhile_imp (p := fun b => b != 0) h

theorem cbytes_eq_self {text : List UInt8} (h : ∀ b ∈ text, (b != 0) = true) :
    cbytes text = text := List.takeWhile_eq_self_iff.mpr h

/-- An array holds the text up to a NUL and up to its last byte but one. -/
theorem ofCharArray_charArray {size : Nat} (hsize : 0 < size) (text : List UInt8) :
    ofCharArray size (charArray size text) = (cbytes text).take (size - 1) := by
  have hlength : ((cbytes text).take (size - 1)).length < size := by
    rw [List.length_take]
    omega
  have hnul : ∀ b ∈ (cbytes text).take (size - 1), (b != 0) = true := by
    intro b hb
    exact ne_zero_of_mem_cbytes (List.mem_of_mem_take hb)
  unfold ofCharArray charArray
  dsimp only
  generalize (cbytes text).take (size - 1) = copied at hlength hnul ⊢
  obtain ⟨rest, hrest⟩ : ∃ rest, size - copied.length = rest + 1 :=
    Nat.exists_eq_succ_of_ne_zero (by omega)
  rw [hrest, List.replicate_succ, List.take_of_length_le (by simp; omega)]
  unfold cbytes
  rw [List.takeWhile_append_of_pos hnul, List.takeWhile_cons_of_neg (by simp), List.append_nil]

/-- Both ways cut alike: what comes back is what a single array leaves. -/
theorem requested_shown (text : String) :
    ofCharArray kIdMax (charArray kIdMax (shown text)) =
      (cbytes (utf8 text.toList)).take (kIdMax - 1) := by
  have hpos : 0 < kIdMax := by decide
  unfold shown
  rw [ofCharArray_charArray hpos, ofCharArray_charArray hpos]
  have htaken : cbytes ((cbytes (utf8 text.toList)).take (kIdMax - 1)) =
      (cbytes (utf8 text.toList)).take (kIdMax - 1) :=
    cbytes_eq_self fun b hb => ne_zero_of_mem_cbytes (List.mem_of_mem_take hb)
  rw [htaken, List.take_take, Nat.min_self]

/-- A text without a NUL has no zero byte, and the other way round. -/
theorem cbytes_utf8_iff (text : String) :
    cbytes (utf8 text.toList) = utf8 text.toList ↔ NulFree text := by
  constructor
  · intro h hnul
    have hzero : (0 : UInt8) ∈ utf8 text.toList := by
      unfold utf8
      exact List.mem_flatMap.mpr ⟨'\x00', hnul, by decide⟩
    rw [← h] at hzero
    exact absurd (ne_zero_of_mem_cbytes hzero) (by decide)
  · intro h
    apply cbytes_eq_self
    intro b hb
    have habove : ∀ b ∈ utf8 text.toList, 1 ≤ b.toNat := by
      apply utf8_above (by omega)
      intro c hc
      apply Nat.pos_of_ne_zero
      intro hzero
      have hchar : c = '\x00' := Char.ext (UInt32.toNat_inj.mp hzero)
      exact h (hchar ▸ hc)
    have hpos := habove b hb
    rw [bne_iff_ne]
    rintro rfl
    exact absurd hpos (by decide)

/-- Bytes are a text exactly if they are its encoding. -/
theorem textOf_eq_some_iff {bytes : List UInt8} {text : String} :
    textOf bytes = some text ↔ bytes = utf8 text.toList := by
  unfold textOf
  constructor
  · intro h
    obtain ⟨cs, hcs, rfl⟩ := Option.map_eq_some_iff.mp h
    rw [String.toList_ofList, utf8_of_ofUtf8 hcs]
  · rintro rfl
    rw [ofUtf8_utf8, Option.map_some, String.ofList_toList]

/-- A text comes back exactly if it fits. -/
theorem requestedId_iff (text : String) :
    requestedId (charArray kIdMax (shown text)) = some text ↔ Fits text := by
  unfold requestedId
  rw [textOf_eq_some_iff, requested_shown]
  unfold Fits
  rw [← cbytes_utf8_iff]
  have hcut : cbytes (utf8 text.toList) <+: utf8 text.toList := List.takeWhile_prefix _
  have hpos : 0 < kIdMax := by decide
  constructor
  · intro h
    have hlength := congrArg List.length h
    rw [List.length_take] at hlength
    have hle := hcut.length_le
    exact ⟨hcut.eq_of_length (by omega), by omega⟩
  · rintro ⟨hnul, hshort⟩
    rw [hnul, List.take_of_length_le (by omega)]

end Texts

/-! ## What a request addresses -/

section Requests

/-- Numbers with the same quotient by a hundred are near each other. -/
theorem near_of_tdiv {x y : Int} (h : x.tdiv 100 = y.tdiv 100) : x - y < 200 ∧ y - x < 200 := by
  have hpos : (0 : Int) < 100 := by decide
  have hx := Int.mul_tdiv_add_tmod x 100
  have hy := Int.mul_tdiv_add_tmod y 100
  have hx' := Int.tmod_lt_of_pos x hpos
  have hy' := Int.tmod_lt_of_pos y hpos
  have hx'' := Int.lt_tmod_of_pos x hpos
  have hy'' := Int.lt_tmod_of_pos y hpos
  omega

/-- The maximum of a sink can be told from the volumes that are sent: the volume
1 tells it to within 200, a large power of two its last eight bits. -/
theorem maxVolume_of_volumes {a b : Int32}
    (h : ∀ volume : Int32, volume * a / 100 = volume * b / 100) : a = b := by
  have hnear : ∀ volume : Int32,
      (volume.toInt * a.toInt).bmod 4294967296 - (volume.toInt * b.toInt).bmod 4294967296 < 200 ∧
      (volume.toInt * b.toInt).bmod 4294967296 - (volume.toInt * a.toInt).bmod 4294967296 <
        200 := by
    intro volume
    have hvolume := congrArg Int32.toInt (h volume)
    rw [Int32.toInt_div_of_ne_right _ _ (by decide), Int32.toInt_div_of_ne_right _ _ (by decide),
      Int32.toInt_mul, Int32.toInt_mul] at hvolume
    exact near_of_tdiv hvolume
  have hwrap : ∀ x : Int, ∃ k, x.bmod 4294967296 = x - 4294967296 * k :=
    fun x => ⟨x.bdiv 4294967296, Int.bmod_eq_self_sub_mul_bdiv x 4294967296⟩
  have hone := hnear 1
  have hbig := hnear 16777216
  have hone' : (1 : Int32).toInt = 1 := by decide
  have hbig' : (16777216 : Int32).toInt = 16777216 := by decide
  rw [hone', Int.one_mul, Int.one_mul] at hone
  rw [hbig'] at hbig
  obtain ⟨k, hk⟩ := hwrap a.toInt
  obtain ⟨l, hl⟩ := hwrap b.toInt
  obtain ⟨k', hk'⟩ := hwrap (16777216 * a.toInt)
  obtain ⟨l', hl'⟩ := hwrap (16777216 * b.toInt)
  have ha := a.le_toInt
  have hb := b.le_toInt
  have ha' := a.toInt_lt
  have hb' := b.toInt_lt
  apply Int32.toInt_inj.mp
  have hka : a.toInt.bmod 4294967296 = a.toInt :=
    Int.bmod_eq_of_le (by omega) (by omega)
  have hlb : b.toInt.bmod 4294967296 = b.toInt :=
    Int.bmod_eq_of_le (by omega) (by omega)
  omega

theorem volume_sinkRequest (name : String) (maxVolume volume : Int32) (muted : Bool) :
    (sinkRequest name maxVolume volume muted false).body.valueInt "volume" 0 =
      volume * maxVolume / 100 := by
  have hfield : (sinkRequest name maxVolume volume muted false).body.field "volume" =
      some (.int .sint ((volume * maxVolume / 100).toBitVec.signExtend 64)) :=
    (JsonBody.field_setVal_ne (by decide) _ _).trans (JsonBody.field_setVal_self _ _ _)
  unfold JsonBody.valueInt
  rw [hfield]
  exact JsonBody.getInt_signExtend _

variable {φ : Type}

/-- A device is addressed by the id it is listed with: its session is found, or
where it has none, its id comes back whole. -/
def AddressesDevice (c : KdeConnectClient φ Plugin) (d : Listed) : Prop :=
  let wire := kdecIpcDevice (ofCharArray kIdMax (d.entry c).id)
  match d with
  | .session id ref => requestedDevice c wire = some (id, ref)
  | .offline device => requestedId wire = some device.info.id

/-- A sink is addressed by the name it is listed with: on that session, under
its full name, every volume is scaled by its own maximum. -/
structure AddressesSink (c : KdeConnectClient φ Plugin) (id : String) (ref : Nat)
    (s : SinkState) : Prop where
  device : AddressesDevice c (.session id ref)
  name : requestedId (charArray kIdMax (ofCharArray kIdMax (sinkInfo s).name)) = some s.name
  packet : ∀ volume muted isDefaultOutput,
    setVolumeSink c (kdecIpcSetVolumeSink (ofCharArray kIdMax (sessionInfo id (c.heap ref)).id)
      (ofCharArray kIdMax (sinkInfo s).name) volume muted isDefaultOutput) =
      some (ref, sinkRequest s.name s.maxVolume volume muted isDefaultOutput)

/-- A command is addressed by the id it is listed with. -/
structure AddressesCommand (c : KdeConnectClient φ Plugin) (id : String) (ref : Nat)
    (command : String × String) : Prop where
  device : AddressesDevice c (.session id ref)
  key : requestedId (charArray kIdMax (ofCharArray kIdMax (commandEntry command).id)) =
    some command.1
  packet : runCommand c (kdecIpcRunCommand (ofCharArray kIdMax (sessionInfo id (c.heap ref)).id)
      (ofCharArray kIdMax (commandEntry command).id)) = some (ref, runRemoteCommand command.1)

/-- A device with a session is found exactly if its id fits. -/
theorem addressesSession_iff {c : KdeConnectClient φ Plugin} {id : String} {ref : Nat}
    (h : c.device id = some ref) : AddressesDevice c (.session id ref) ↔ Fits id := by
  have hrequested := requestedId_iff id
  change (requestedId (charArray kIdMax (shown id))).bind
    (fun other => (c.device other).map fun found => (other, found)) = some (id, ref) ↔ _
  rw [← hrequested]
  constructor
  · intro hfound
    obtain ⟨other, hother, hentry⟩ := Option.bind_eq_some_iff.mp hfound
    obtain ⟨found, -, hpair⟩ := Option.map_eq_some_iff.mp hentry
    exact hother.trans (congrArg some (congrArg Prod.fst hpair))
  · intro hid
    rw [hid, Option.bind_some, h, Option.map_some]

/-- A sink is addressed exactly if the ids fit and no other sink of its name
comes before it with another maximum. -/
theorem addressesSink_iff {c : KdeConnectClient φ Plugin} {id : String} {ref : Nat}
    (h : c.device id = some ref) {p : SystemVolumePlugin}
    (hp : systemVolumeOf (c.heap ref).plugins = some p) (s : SinkState) :
    AddressesSink c id ref s ↔
      Fits id ∧ Fits s.name ∧ maxVolumeOf p.remoteSinks s.name = s.maxVolume := by
  have hname : requestedId (charArray kIdMax (ofCharArray kIdMax (sinkInfo s).name)) =
      some s.name ↔ Fits s.name := requestedId_iff s.name
  have hset : ∀ volume muted isDefaultOutput, AddressesDevice c (.session id ref) →
      requestedId (charArray kIdMax (ofCharArray kIdMax (sinkInfo s).name)) = some s.name →
      setVolumeSink c (kdecIpcSetVolumeSink (ofCharArray kIdMax (sessionInfo id (c.heap ref)).id)
        (ofCharArray kIdMax (sinkInfo s).name) volume muted isDefaultOutput) =
        some (ref, setRemoteSink p s.name volume muted isDefaultOutput) := by
    intro volume muted isDefaultOutput hdevice hsink
    have hfound : requestedDevice c (kdecIpcSetVolumeSink
        (ofCharArray kIdMax (sessionInfo id (c.heap ref)).id)
        (ofCharArray kIdMax (sinkInfo s).name) volume muted isDefaultOutput).deviceId =
        some (id, ref) := hdevice
    unfold setVolumeSink
    rw [hfound, Option.bind_some, hp, Option.bind_some]
    exact Option.map_eq_some_iff.mpr ⟨s.name, hsink, rfl⟩
  rw [← hname, ← addressesSession_iff h]
  constructor
  · rintro ⟨hdevice, hsink, hpacket⟩
    refine ⟨hdevice, hsink, maxVolume_of_volumes fun volume => ?_⟩
    have hsame := (hset volume false false hdevice hsink).symm.trans (hpacket volume false false)
    have hvolume := congrArg (fun pkt : NetworkPacket => pkt.body.valueInt "volume" 0)
      (Prod.ext_iff.mp (Option.some.inj hsame)).2
    dsimp only [setRemoteSink] at hvolume
    rwa [volume_sinkRequest, volume_sinkRequest] at hvolume
  · rintro ⟨hdevice, hsink, hmax⟩
    refine ⟨hdevice, hsink, ?_⟩
    intro volume muted isDefaultOutput
    rw [hset volume muted isDefaultOutput hdevice hsink, setRemoteSink, hmax]

/-- A command is addressed exactly if the ids fit. -/
theorem addressesCommand_iff {c : KdeConnectClient φ Plugin} {id : String} {ref : Nat}
    (h : c.device id = some ref) {p : RunCommandPlugin}
    (hp : runCommandOf (c.heap ref).plugins = some p) (command : String × String) :
    AddressesCommand c id ref command ↔ Fits id ∧ Fits command.1 := by
  have hkey : requestedId (charArray kIdMax (ofCharArray kIdMax (commandEntry command).id)) =
      some command.1 ↔ Fits command.1 := requestedId_iff command.1
  rw [← hkey, ← addressesSession_iff h]
  constructor
  · rintro ⟨hdevice, hcommand, -⟩
    exact ⟨hdevice, hcommand⟩
  · rintro ⟨hdevice, hcommand⟩
    refine ⟨hdevice, hcommand, ?_⟩
    have hfound : requestedDevice c (kdecIpcRunCommand
        (ofCharArray kIdMax (sessionInfo id (c.heap ref)).id)
        (ofCharArray kIdMax (commandEntry command).id)).deviceId = some (id, ref) := hdevice
    unfold runCommand
    rw [hfound, Option.bind_some, hp, Option.bind_some]
    exact Option.map_eq_some_iff.mpr ⟨command.1, hcommand, rfl⟩

/-- What the device list shows of a session is in the table. -/
theorem device_of_listed [FileSystem φ] {y : Yyjson} {ids : List String}
    {c : KdeConnectClient φ Plugin} {id : String} {ref : Nat}
    (h : Listed.session id ref ∈ listedDevices y ids c) : c.device id = some ref := by
  rcases List.mem_append.mp (List.mem_of_mem_take h) with hcurrent | hoffline
  · obtain ⟨entry, hentry, heq⟩ := List.mem_map.mp hcurrent
    obtain ⟨rfl, rfl⟩ := Listed.session.inj heq
    exact beq_iff_eq.mp (List.mem_filter.mp hentry).2
  · obtain ⟨device, -, heq⟩ := List.mem_map.mp hoffline
    cases heq

/-- Listed devices, sinks and commands are addressed by what the lists show of
them exactly if the texts fit their arrays; a sink needs its maximum to be that
of the first of its name as well. Texts that fit are never taken for one
another. -/
theorem addresses_iff [FileSystem φ] (y : Yyjson) (ids : List String)
    (c : KdeConnectClient φ Plugin) :
    (∀ d ∈ listedDevices y ids c, (AddressesDevice c d ↔ Fits d.id)) ∧
    (∀ id ref p, .session id ref ∈ listedDevices y ids c →
      systemVolumeOf (c.heap ref).plugins = some p →
      ∀ s ∈ p.remoteSinks.take kMaxVolumeSinks, (AddressesSink c id ref s ↔
        Fits id ∧ Fits s.name ∧ maxVolumeOf p.remoteSinks s.name = s.maxVolume)) ∧
    (∀ id ref p, .session id ref ∈ listedDevices y ids c →
      runCommandOf (c.heap ref).plugins = some p →
      ∀ command ∈ p.remoteCommands.take kMaxCommands, (AddressesCommand c id ref command ↔
        Fits id ∧ Fits command.1)) ∧
    ∀ first second, Fits first → Fits second →
      charArray kIdMax (shown first) = charArray kIdMax (shown second) → first = second := by
  refine ⟨?_, ?_, ?_, ?_⟩
  · intro d hd
    cases d with
    | session id ref => exact addressesSession_iff (device_of_listed hd)
    | offline device => exact requestedId_iff device.info.id
  · intro id ref p hlisted hp s _
    exact addressesSink_iff (device_of_listed hlisted) hp s
  · intro id ref p hlisted hp command _
    exact addressesCommand_iff (device_of_listed hlisted) hp command
  · intro first second hfirst hsecond hsame
    have hback := (requestedId_iff first).mpr hfirst
    rw [hsame, (requestedId_iff second).mpr hsecond] at hback
    exact (Option.some.inj hback).symm

end Requests

/-- A sink with a name as sound servers give them. -/
def analogSink : SinkState where
  name := "alsa_output.usb-Focusrite_Scarlett_2i2_USB_Y8GJ1234567890-00.analog-stereo"
  description := "Scarlett 2i2 Analog Stereo"
  maxVolume := 65536
  volume := 40

/-- A client with a session whose device has that sink. -/
def deskConnected : KdeConnectClient MemoryFiles Plugin where
  storage := ⟨"/config/kdeconnect", {}⟩
  localDevice := { id := "0a" }
  heap := fun _ =>
    { info := { id := "5f0c", name := "desk" }
      plugins := [.systemVolume { remoteSinks := [analogSink] }] }
  next := 1
  sessions := [("5f0c", 0)]

theorem notFits_analogSink : ¬ Fits analogSink.name := by decide

/-- The overlay cannot set the sink: its name comes back cut. -/
theorem notAddressed_analogSink :
    ¬ ∀ (c : KdeConnectClient MemoryFiles Plugin) (id : String) (ref : Nat)
        (p : SystemVolumePlugin) (s : SinkState),
      .session id ref ∈ listedDevices Yyjson.reference [] c →
      systemVolumeOf (c.heap ref).plugins = some p →
      s ∈ p.remoteSinks.take kMaxVolumeSinks → AddressesSink c id ref s := by
  intro h
  have hlisted : Listed.session "5f0c" 0 ∈ listedDevices Yyjson.reference [] deskConnected :=
    List.mem_cons_self
  have haddressed := h deskConnected "5f0c" 0 _ analogSink hlisted rfl List.mem_cons_self
  exact notFits_analogSink ((requestedId_iff analogSink.name).mp haddressed.name)

end KdeConnectNx.Identifiers
