import KdeConnectNx.Establishment
import Mathlib.Data.Rat.Init

/-!
# Numbers in packets

The protocol has one kind of number. The reader keeps those that fit 64 bits as
integers and all others as floating-point numbers; the typed reads take every
number, give zero for a floating-point one and the low bits of an integer; and
some values are narrowed again before they are used.
-/

namespace KdeConnectNx.NumberFields

open JsonTree PacketBody PacketFormat Sessions Plugins Establishment

section Words

/-- A number keeps its value in a signed word exactly if it lies in its range. -/
theorem bmod_eq_self_iff {z : ℤ} (k : ℕ) :
    z.bmod (2 ^ (k + 1)) = z ↔ -2 ^ k ≤ z ∧ z < 2 ^ k := by
  have hdouble : (2 : ℤ) ^ (k + 1) = 2 * 2 ^ k := pow_succ' 2 k
  rw [Int.bmod_eq_iff (Nat.two_pow_pos _), Int.sub_self]
  push_cast
  rw [hdouble]
  constructor
  · rintro ⟨hlow, hhigh, -⟩
    omega
  · rintro ⟨hlow, hhigh⟩
    exact ⟨by omega, by omega, Int.dvd_zero _⟩

/-- The low 32 bits of an integer node, as a signed number. -/
theorem toInt_getInt (kind : IntKind) (bits : BitVec 64) :
    (bits.setWidth 32).toInt = (Val.intValue kind bits).bmod (2 ^ 32) := by
  rw [BitVec.toInt_setWidth]
  cases kind with
  | uint => rfl
  | sint =>
    have hvalue : Val.intValue .sint bits = (bits.toNat : ℤ).bmod (2 ^ 64) :=
      BitVec.toInt_eq_toNat_bmod bits
    rw [hvalue, Int.bmod_bmod_of_dvd (by decide)]

/-- `static_cast<uint16_t>` of an `int`. -/
def toU16 (x : Int32) : ℤ := (x.toBitVec.setWidth 16).toNat

/-- The conversion to a port keeps the lower sixteen bits. -/
theorem toU16_eq (x : Int32) : toU16 x = x.toInt % 2 ^ 16 := by
  have hcases := BitVec.toInt_eq_toNat_cond x.toBitVec
  have hint : x.toInt = x.toBitVec.toInt := rfl
  unfold toU16
  rw [BitVec.toNat_setWidth, hint, hcases]
  split <;> omega

end Words

/-! ## What becomes of a number -/

/-- The node of a number: an integer as the reader keeps it, or what the reader
rounds a number to that has a fraction, an exponent or too many digits. -/
inductive Written (round : ℤ → Rat) : ℤ → Val → Prop
  | int (kind : IntKind) (bits : BitVec 64) :
    Written round (Val.intValue kind bits) (.int kind bits)
  | real (z : ℤ) : Written round z (.real (round z))

/-- What the program makes of a field. -/
inductive Outcome where
  /-- The packet, or what the field belongs to, is not used. -/
  | rejected
  | default
  | used (z : ℤ)

/-- The number that is used is the number that was written. -/
def Unaltered (z : ℤ) : Outcome → Prop
  | .rejected => True
  | .default => True
  | .used w => w = z

/-- A field read with a default, which stands for what is no number. -/
def reading (body : JsonBody) (key : String) (w : ℤ) : Outcome :=
  if body.isNum key then .used w else .default

/-- `identity.protocol_version`. -/
def protocolVersion (np : NetworkPacket) : Outcome :=
  reading np.body "protocolVersion" (infoFromIdentity np).protocolVersion.toInt

/-- The version a connection is accepted for. -/
def targetProtocolVersion (y : Yyjson) (localDevice : DeviceInfo) (line : List UInt8) : Outcome :=
  match NetworkPacket.parse y line, acceptLine y localDevice line with
  | some np, some _ => reading np.body "targetProtocolVersion"
      (np.body.valueInt "targetProtocolVersion" kProtocolVersion).toInt
  | _, _ => .rejected

/-- The port that is dialled after a datagram. -/
def tcpPort (y : Yyjson) (localDevice : DeviceInfo) (datagram : List UInt8) : Outcome :=
  match NetworkPacket.parse y (datagram.take kMaxUdpPacketSize),
      hearDatagram y localDevice datagram with
  | some np, some (_, port) => reading np.body "tcpPort" (toU16 port)
  | _, _ => .rejected

/-- The size of the payload that is fetched. -/
def payloadSize (y : Yyjson) (line : List UInt8) : Outcome :=
  match NetworkPacket.parse y line with
  | some np =>
    if np.hasPayload then reading (JsonBody.parse y line) "payloadSize" np.payloadSize.toInt
    else .rejected
  | none => .rejected

/-- The port it is fetched from. -/
def payloadPort (y : Yyjson) (line : List UInt8) : Outcome :=
  match NetworkPacket.parse y line with
  | some np =>
    if np.hasPayload then
      reading ((JsonBody.parse y line).getObj "payloadTransferInfo") "port" (toU16 np.payloadPort)
    else .rejected
  | none => .rejected

/-- `read_remote_state`. -/
def readRemoteState (p : BatteryPlugin) : Int8 × Bool :=
  (p.cachedRemoteCharge.toInt8, p.cachedRemoteCharging)

/-- The charge the overlay is given after a packet of the battery. -/
def currentCharge (env : PluginEnv) (np : NetworkPacket) (p : BatteryPlugin) : Outcome :=
  reading np.body "currentCharge" (readRemoteState (p.onPacketReceived env np).1).1.toInt

/-- What a 32-bit read is worth: the low bits of an integer, and zero for every
other number. -/
def low32 (z : ℤ) : Val → ℤ
  | .int _ _ => z.bmod (2 ^ 32)
  | _ => 0

/-- The number is written as an integer of that range, or it is zero. -/
def Within (low high : ℤ) (z : ℤ) : Val → Prop
  | .int _ _ => low ≤ z ∧ z < high
  | _ => z = 0

/-- An integer whose low bits are the own version is that version. -/
def NotTaken (z : ℤ) : Val → Prop
  | .int _ _ => z.bmod (2 ^ 32) = kProtocolVersion.toInt → z = kProtocolVersion.toInt
  | _ => True

/-- An integer whose low bits are a port is a port. -/
def PortOrNone (z : ℤ) : Val → Prop
  | .int _ _ => 0 < z.bmod (2 ^ 32) → 0 ≤ z ∧ z < 2 ^ 16
  | _ => True

/-- The line introduces another device that means this one. -/
def MeantFor (localDevice : DeviceInfo) (np : NetworkPacket) : Prop :=
  np.type = PacketTypes.identity ∧
    (np.body.has "targetDeviceId" && !(np.body.valueStr "targetDeviceId" "").isEmpty &&
      np.body.valueStr "targetDeviceId" "" != localDevice.id) = false

/-- The datagram introduces another device. -/
def Introduces (localDevice : DeviceInfo) (np : NetworkPacket) : Prop :=
  np.type = PacketTypes.identity ∧
    ((infoFromIdentity np).id.isEmpty || (infoFromIdentity np).id == localDevice.id) = false

section Fields

variable {round : ℤ → Rat} {z : ℤ} {v : Val}

/-- Every number is read as one. -/
theorem isNum_of_written (h : Written round z v) : v.isNum = true := by
  cases h <;> rfl

/-- So is one that stands in a field. -/
theorem isNum_field (h : Written round z v) {body : JsonBody} {key : String}
    (hfield : body.field key = some v) : body.isNum key = true := by
  unfold JsonBody.isNum
  rw [hfield]
  exact isNum_of_written h

/-- A field with a number is used. -/
theorem reading_of_written (h : Written round z v) {body : JsonBody} {key : String}
    (hfield : body.field key = some v) (w : ℤ) : reading body key w = .used w :=
  if_pos (isNum_field h hfield)

/-- What a 32-bit read gives for a number. -/
theorem valueInt_of_written (h : Written round z v) {body : JsonBody} {key : String}
    (hfield : body.field key = some v) (default : Int32) :
    body.valueInt key default = Int32.ofBitVec v.getInt := by
  unfold JsonBody.valueInt
  rw [hfield]
  exact if_pos (isNum_of_written h)

/-- The lower 32 bits, with a sign, are what is read. -/
theorem toInt_read (h : Written round z v) : (Int32.ofBitVec v.getInt).toInt = low32 z v := by
  cases h with
  | int kind bits => exact toInt_getInt kind bits
  | real => rfl

/-- They are the number exactly within 32 bits. -/
theorem signed_iff (h : Written round z v) :
    (Int32.ofBitVec v.getInt).toInt = z ↔ Within (-2 ^ 31) (2 ^ 31) z v := by
  rw [toInt_read h]
  cases h with
  | int kind bits => exact bmod_eq_self_iff 31
  | real => exact eq_comm

/-- A port is the number exactly within sixteen bits. -/
theorem u16_iff (h : Written round z v) :
    toU16 (Int32.ofBitVec v.getInt) = z ↔ Within 0 (2 ^ 16) z v := by
  rw [toU16_eq, toInt_read h]
  cases h with
  | int kind bits =>
    have hmod : (Val.intValue kind bits).bmod (2 ^ 32) % 2 ^ 16 =
        Val.intValue kind bits % 2 ^ 16 := by
      rw [Int.bmod_def]
      split <;> omega
    unfold low32 Within
    dsimp only
    rw [hmod]
    omega
  | real =>
    unfold low32 Within
    dsimp only
    omega

/-- A charge is the number exactly within eight. -/
theorem s8_iff (h : Written round z v) :
    (Int32.ofBitVec v.getInt).toInt8.toInt = z ↔ Within (-2 ^ 7) (2 ^ 7) z v := by
  rw [Int32.toInt_toInt8, toInt_read h]
  cases h with
  | int kind bits =>
    rw [low32, Int.bmod_bmod_of_dvd (by decide)]
    exact bmod_eq_self_iff 7
  | real => exact eq_comm

/-- The version of an identity is kept in the range of an `int`. -/
theorem protocolVersion_iff (h : Written round z v) {np : NetworkPacket}
    (hfield : np.body.field "protocolVersion" = some v) :
    Unaltered z (protocolVersion np) ↔ Within (-2 ^ 31) (2 ^ 31) z v := by
  have hread : (infoFromIdentity np).protocolVersion = Int32.ofBitVec v.getInt :=
    valueInt_of_written h hfield kProtocolVersion
  unfold protocolVersion
  rw [reading_of_written h hfield, hread]
  exact signed_iff h

/-- The version that the peer wants, in an identity that is meant for this device. -/
theorem targetProtocolVersion_iff (h : Written round z v) (localDevice : DeviceInfo) {y : Yyjson}
    {line : List UInt8} {np : NetworkPacket} (hparse : NetworkPacket.parse y line = some np)
    (hfield : np.body.field "targetProtocolVersion" = some v) :
    Unaltered z (targetProtocolVersion y localDevice line) ↔
      (MeantFor localDevice np → NotTaken z v) := by
  have hread := valueInt_of_written h hfield kProtocolVersion
  have hhas : np.body.has "targetProtocolVersion" = true := by
    unfold JsonBody.has
    rw [hfield]
    rfl
  unfold targetProtocolVersion acceptLine MeantFor
  rw [hparse]
  dsimp only
  by_cases htype : np.type = PacketTypes.identity
  · rw [if_neg (not_not_intro htype)]
    cases hother : np.body.has "targetDeviceId" &&
        !(np.body.valueStr "targetDeviceId" "").isEmpty &&
        np.body.valueStr "targetDeviceId" "" != localDevice.id with
    | true =>
      rw [if_pos rfl]
      exact iff_of_true trivial fun hmeant => by cases hmeant.2
    | false =>
      have hvalue := toInt_read h
      rw [if_neg Bool.false_ne_true, hhas, Bool.true_and, hread]
      by_cases hown : Int32.ofBitVec v.getInt = kProtocolVersion
      · rw [hown, bne_self_eq_false, if_neg Bool.false_ne_true]
        dsimp only
        rw [reading_of_written h hfield, hread, hown]
        rw [hown] at hvalue
        cases h with
        | int kind bits =>
          exact ⟨fun hused _ _ => hused.symm, fun hall => (hall ⟨htype, rfl⟩ hvalue.symm).symm⟩
        | real =>
          have hzero : kProtocolVersion.toInt = 0 := hvalue
          exact absurd hzero (by decide)
      · rw [if_pos (bne_iff_ne.mpr hown)]
        refine iff_of_true trivial fun _ => ?_
        cases h with
        | int kind bits =>
          intro hsame
          exact absurd (Int32.toInt_inj.mp (hvalue.trans hsame)) hown
        | real => trivial
  · rw [if_pos htype]
    exact iff_of_true trivial fun hmeant => absurd hmeant.1 htype

/-- The port of a peer that introduces itself. -/
theorem tcpPort_iff (h : Written round z v) (localDevice : DeviceInfo) {y : Yyjson}
    {datagram : List UInt8} {np : NetworkPacket}
    (hparse : NetworkPacket.parse y (datagram.take kMaxUdpPacketSize) = some np)
    (hfield : np.body.field "tcpPort" = some v) :
    Unaltered z (tcpPort y localDevice datagram) ↔
      (Introduces localDevice np → Within 0 (2 ^ 16) z v) := by
  unfold tcpPort hearDatagram Introduces
  rw [hparse]
  dsimp only
  by_cases htype : np.type = PacketTypes.identity
  · rw [if_neg (not_not_intro htype)]
    cases hself : (infoFromIdentity np).id.isEmpty ||
        (infoFromIdentity np).id == localDevice.id with
    | true =>
      rw [if_pos rfl]
      exact iff_of_true trivial fun hother => by cases hother.2
    | false =>
      rw [if_neg Bool.false_ne_true]
      dsimp only
      rw [reading_of_written h hfield, valueInt_of_written h hfield]
      exact (u16_iff h).trans ⟨fun hwithin _ => hwithin, fun hall => hall ⟨htype, rfl⟩⟩
  · rw [if_pos htype]
    exact iff_of_true trivial fun hother => absurd hother.1 htype

/-- The payload fields of a packet are those of its document. -/
theorem parse_payload {y : Yyjson} {line : List UInt8} {np : NetworkPacket}
    (h : NetworkPacket.parse y line = some np) :
    np.payloadSize = NetworkPacket.parsedSize (JsonBody.parse y line) ∧
      np.payloadPort = NetworkPacket.parsedPort (JsonBody.parse y line) := by
  unfold NetworkPacket.parse at h
  dsimp only at h
  split at h
  · cases h
  · cases h
    exact ⟨rfl, rfl⟩

/-- A size above zero is the size that was written. -/
theorem payloadSize_unaltered (h : Written round z v) {y : Yyjson} {line : List UInt8}
    (hfield : (JsonBody.parse y line).field "payloadSize" = some v) :
    Unaltered z (payloadSize y line) := by
  unfold payloadSize
  cases hparse : NetworkPacket.parse y line with
  | none => trivial
  | some np =>
    have hread : (JsonBody.parse y line).getI64 "payloadSize" = Int64.ofBitVec v.getSint := by
      unfold JsonBody.getI64 JsonBody.valueI64
      rw [hfield]
      exact if_pos (isNum_of_written h)
    have hsize : np.payloadSize = Int64.ofBitVec v.getSint := by
      rw [(parse_payload hparse).1, NetworkPacket.parsedSize, if_pos (isNum_field h hfield), hread]
    dsimp only
    cases hpayload : np.hasPayload with
    | false => trivial
    | true =>
      have hpos : 0 < np.payloadSize.toInt :=
        Int64.lt_iff_toInt_lt.mp (of_decide_eq_true hpayload).2
      rw [if_pos rfl, reading_of_written h hfield]
      rw [hsize] at hpos ⊢
      cases h with
      | int kind bits =>
        change 0 < bits.toInt at hpos
        cases kind with
        | uint =>
          have hcases := BitVec.toInt_eq_toNat_cond bits
          have hlt := bits.isLt
          change bits.toInt = bits.toNat
          rw [hcases] at hpos ⊢
          split at hpos
          · rename_i hsmall
            rw [if_pos hsmall]
          · omega
        | sint => rfl
      | real =>
        have hzero : (0 : ℤ) < 0 := hpos
        exact absurd hzero (lt_irrefl 0)

/-- The port of a payload, where one is announced. -/
theorem payloadPort_iff (h : Written round z v) {y : Yyjson} {line : List UInt8}
    {np : NetworkPacket} (hparse : NetworkPacket.parse y line = some np)
    (hfield : ((JsonBody.parse y line).getObj "payloadTransferInfo").field "port" = some v) :
    Unaltered z (payloadPort y line) ↔
      (0 < NetworkPacket.parsedSize (JsonBody.parse y line) → PortOrNone z v) := by
  obtain ⟨hsize, hport⟩ := parse_payload hparse
  unfold payloadPort
  rw [hparse]
  dsimp only
  rw [← hsize]
  by_cases hpos : 0 < np.payloadSize
  · have hnum : (JsonBody.parse y line).isNum "payloadSize" = true := by
      by_contra hnot
      rw [hsize, NetworkPacket.parsedSize, if_neg hnot] at hpos
      exact absurd hpos (by decide)
    have hobj : (JsonBody.parse y line).isObj "payloadTransferInfo" = true := by
      by_contra hnot
      have hempty : (JsonBody.parse y line).getObj "payloadTransferInfo" = {} := by
        unfold JsonBody.isObj at hnot
        unfold JsonBody.getObj
        split
        · rename_i members hmembers
          rw [hmembers] at hnot
          exact absurd rfl hnot
        · rfl
      rw [hempty] at hfield
      cases hfield
    have hread : np.payloadPort = Int32.ofBitVec v.getInt := by
      rw [hport, NetworkPacket.parsedPort, hnum, hobj]
      exact valueInt_of_written h hfield (-1)
    have hvalue := toInt_read h
    have hhas : np.hasPayload = decide (0 < Int32.ofBitVec v.getInt) := by
      unfold NetworkPacket.hasPayload
      rw [hread]
      exact decide_eq_decide.mpr (and_iff_left hpos)
    rw [hhas, hread, reading_of_written h hfield]
    by_cases htaken : 0 < Int32.ofBitVec v.getInt
    · have hgtz : 0 < (Int32.ofBitVec v.getInt).toInt := Int32.lt_iff_toInt_lt.mp htaken
      rw [decide_eq_true htaken, if_pos rfl]
      refine (u16_iff h).trans ?_
      rw [hvalue] at hgtz
      cases h with
      | int kind bits => exact ⟨fun hwithin _ _ => hwithin, fun hall => hall hpos hgtz⟩
      | real =>
        have hzero : (0 : ℤ) < 0 := hgtz
        exact absurd hzero (lt_irrefl 0)
    · rw [decide_eq_false htaken, if_neg Bool.false_ne_true]
      refine iff_of_true trivial fun _ => ?_
      cases h with
      | int kind bits =>
        intro hgtz
        have hpositive : (0 : Int32).toInt < (Int32.ofBitVec (Val.int kind bits).getInt).toInt :=
          hgtz.trans_eq hvalue.symm
        exact absurd (Int32.lt_iff_toInt_lt.mpr hpositive) htaken
      | real => trivial
  · have hnone : np.hasPayload = false := decide_eq_false fun hboth => hpos hboth.2
    rw [hnone, if_neg Bool.false_ne_true]
    exact iff_of_true trivial fun hcontra => absurd hcontra hpos

/-- The charge of the battery. -/
theorem currentCharge_iff (h : Written round z v) (env : PluginEnv) {np : NetworkPacket}
    (htype : np.type = PacketTypes.battery) (hfield : np.body.field "currentCharge" = some v)
    (p : BatteryPlugin) :
    Unaltered z (currentCharge env np p) ↔ Within (-2 ^ 7) (2 ^ 7) z v := by
  have hrequest : np.type ≠ PacketTypes.batteryRequest := by
    rw [htype]
    decide
  have hread : (p.onPacketReceived env np).1.cachedRemoteCharge = Int32.ofBitVec v.getInt := by
    unfold BatteryPlugin.onPacketReceived
    rw [if_neg hrequest, if_pos htype]
    exact valueInt_of_written h hfield (-1)
  unfold currentCharge readRemoteState
  rw [reading_of_written h hfield, hread]
  exact s8_iff h

end Fields

/-- What becomes of a number in each field: it is used as it was written exactly
under these conditions, and a payload size under none. -/
theorem unaltered_iff (round : ℤ → Rat) {z : ℤ} {v : Val} (h : Written round z v) :
    (∀ np, np.body.field "protocolVersion" = some v →
      (Unaltered z (protocolVersion np) ↔ Within (-2 ^ 31) (2 ^ 31) z v)) ∧
    (∀ y localDevice line np, NetworkPacket.parse y line = some np →
      np.body.field "targetProtocolVersion" = some v →
      (Unaltered z (targetProtocolVersion y localDevice line) ↔
        (MeantFor localDevice np → NotTaken z v))) ∧
    (∀ y localDevice datagram np,
      NetworkPacket.parse y (datagram.take kMaxUdpPacketSize) = some np →
      np.body.field "tcpPort" = some v →
      (Unaltered z (tcpPort y localDevice datagram) ↔
        (Introduces localDevice np → Within 0 (2 ^ 16) z v))) ∧
    (∀ y line, (JsonBody.parse y line).field "payloadSize" = some v →
      Unaltered z (payloadSize y line)) ∧
    (∀ y line np, NetworkPacket.parse y line = some np →
      ((JsonBody.parse y line).getObj "payloadTransferInfo").field "port" = some v →
      (Unaltered z (payloadPort y line) ↔
        (0 < NetworkPacket.parsedSize (JsonBody.parse y line) → PortOrNone z v))) ∧
    (∀ env np p, np.type = PacketTypes.battery → np.body.field "currentCharge" = some v →
      (Unaltered z (currentCharge env np p) ↔ Within (-2 ^ 7) (2 ^ 7) z v)) :=
  ⟨fun _ hfield => protocolVersion_iff h hfield,
    fun _ localDevice _ _ hparse hfield => targetProtocolVersion_iff h localDevice hparse hfield,
    fun _ localDevice _ _ hparse hfield => tcpPort_iff h localDevice hparse hfield,
    fun _ _ hfield => payloadSize_unaltered h hfield,
    fun _ _ _ hparse hfield => payloadPort_iff h hparse hfield,
    fun env _ p htype hfield => currentCharge_iff h env htype hfield p⟩

/-- An identity packet that writes its version as `8.0`. -/
def fractionIdentity : NetworkPacket where
  type := PacketTypes.identity
  body := ({} : JsonBody).setVal "protocolVersion" (.real 8)

/-- Its version is altered, since it is not zero. -/
theorem altered_fraction :
    Unaltered 8 (protocolVersion fractionIdentity) ↔ Within (-2 ^ 31) (2 ^ 31) 8 (.real 8) :=
  (unaltered_iff (fun z => z) (.real 8)).1 fractionIdentity rfl

/-- A number that is written as a fraction is read as zero. -/
theorem notUnaltered_fraction :
    ¬ ∀ (z : ℤ) (v : Val) (np : NetworkPacket), Written (fun z => z) z v →
      np.body.field "protocolVersion" = some v → Unaltered z (protocolVersion np) := by
  intro h
  have hused : (0 : ℤ) = 8 := h 8 (.real 8) fractionIdentity (.real 8) rfl
  exact absurd hused (by decide)

end KdeConnectNx.NumberFields
