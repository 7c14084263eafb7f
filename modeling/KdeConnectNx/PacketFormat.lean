import KdeConnectNx.PacketBody

/-!
# Network packets and identity packets

A packet is one line of JSON: a type, a body and, when a payload is
advertised, its size and port. Identity packets carry the device description
of the sender.
-/

namespace KdeConnectNx.PacketFormat

open JsonTree PacketBody

namespace PacketTypes

def identity : String := "kdeconnect.identity"
def pair : String := "kdeconnect.pair"
def ping : String := "kdeconnect.ping"
def battery : String := "kdeconnect.battery"
def batteryRequest : String := "kdeconnect.battery.request"
def notification : String := "kdeconnect.notification"
def notificationRequest : String := "kdeconnect.notification.request"
def findMyPhoneRequest : String := "kdeconnect.findmyphone.request"
def mpris : String := "kdeconnect.mpris"
def mprisRequest : String := "kdeconnect.mpris.request"
def systemVolume : String := "kdeconnect.systemvolume"
def systemVolumeRequest : String := "kdeconnect.systemvolume.request"
def shareRequest : String := "kdeconnect.share.request"
def runCommand : String := "kdeconnect.runcommand"
def runCommandRequest : String := "kdeconnect.runcommand.request"
def mousepadRequest : String := "kdeconnect.mousepad.request"
def mousepadEcho : String := "kdeconnect.mousepad.echo"
def mousepadKeyboardState : String := "kdeconnect.mousepad.keyboardstate"

end PacketTypes

/-- A packet; size and port are −1 when no payload is advertised. -/
structure NetworkPacket where
  type : String := ""
  body : JsonBody := {}
  payloadSize : Int64 := -1
  payloadPort : Int32 := -1

namespace NetworkPacket

/-- A payload is announced on the wire: a port that may be zero, and a size
above zero. -/
def advertises (pkt : NetworkPacket) : Bool := decide (0 ≤ pkt.payloadPort ∧ 0 < pkt.payloadSize)

/-- A payload can be fetched: port and size above zero. -/
def hasPayload (pkt : NetworkPacket) : Bool := decide (0 < pkt.payloadPort ∧ 0 < pkt.payloadSize)

/-- The first three members of the document; `now` is the system clock in
milliseconds. -/
def header (now : Int64) (pkt : NetworkPacket) : JsonBody :=
  (((({} : JsonBody).setI64 "id" now).setStr "type" pkt.type).setObj "body" pkt.body)

/-- The document that is written out. -/
def root (now : Int64) (pkt : NetworkPacket) : JsonBody :=
  if pkt.advertises then
    ((pkt.header now).setI64 "payloadSize" pkt.payloadSize).setObj "payloadTransferInfo"
      (({} : JsonBody).setInt "port" pkt.payloadPort)
  else pkt.header now

/-- One line of text, the newline included. -/
def serialize (y : Yyjson) (now : Int64) (pkt : NetworkPacket) : List UInt8 :=
  (pkt.root now).dump y ++ [10]

/-- Payload size of a received document: any number that is there. -/
def parsedSize (root : JsonBody) : Int64 :=
  if root.isNum "payloadSize" then root.getI64 "payloadSize" else -1

/-- Payload port of a received document, looked for only beside a size. -/
def parsedPort (root : JsonBody) : Int32 :=
  if root.isNum "payloadSize" && root.isObj "payloadTransferInfo" then
    (root.getObj "payloadTransferInfo").valueInt "port" (-1)
  else -1

/-- Read a line; both a type and a body member must be there, of any type. -/
def parse (y : Yyjson) (line : List UInt8) : Option NetworkPacket :=
  let root := JsonBody.parse y line
  if !root.has "type" || !root.has "body" then none
  else some
    { type := root.getStr "type"
      body := root.getObj "body"
      payloadSize := parsedSize root
      payloadPort := parsedPort root }

/-- What a receiver makes of a packet: the body as it is read, and payload
fields only when the payload was announced. -/
def received (pkt : NetworkPacket) : NetworkPacket where
  type := pkt.type
  body := pkt.body.canon
  payloadSize := if pkt.advertises then pkt.payloadSize else -1
  payloadPort := if pkt.advertises then pkt.payloadPort else -1

/-- The document of a packet without floating-point numbers has none. -/
theorem root_realFree {pkt : NetworkPacket} (h : pkt.body.realFree = true) (now : Int64) :
    (pkt.root now).realFree = true := by
  have hbody : (Val.obj pkt.body.members).realFree = true := h
  have htype : ((({} : JsonBody).setI64 "id" now).setStr "type" pkt.type).realFree = true :=
    JsonBody.realFree_setVal (JsonBody.realFree_setVal rfl rfl _) rfl _
  have hheader : (pkt.header now).realFree = true := JsonBody.realFree_setVal htype hbody _
  unfold root
  split
  · exact JsonBody.realFree_setVal (JsonBody.realFree_setVal hheader rfl _) rfl _
  · exact hheader

/-- Type and body are found in the document whether a payload is announced or
not. -/
theorem root_field_type (now : Int64) (pkt : NetworkPacket) :
    (pkt.root now).field "type" = some (.str (cstr pkt.type)) := by
  have hheader : (pkt.header now).field "type" = some (.str (cstr pkt.type)) := by
    rw [header, JsonBody.setObj, JsonBody.field_setVal_ne (by decide)]
    exact JsonBody.field_setVal_self _ _ _
  unfold root
  split
  · rw [JsonBody.setObj, JsonBody.field_setVal_ne (by decide), JsonBody.setI64,
      JsonBody.field_setVal_ne (by decide), hheader]
  · exact hheader

theorem root_field_body (now : Int64) (pkt : NetworkPacket) :
    (pkt.root now).field "body" = some (.obj pkt.body.members) := by
  have hheader : (pkt.header now).field "body" = some (.obj pkt.body.members) :=
    JsonBody.field_setVal_self _ _ _
  unfold root
  split
  · rw [JsonBody.setObj, JsonBody.field_setVal_ne (by decide), JsonBody.setI64,
      JsonBody.field_setVal_ne (by decide), hheader]
  · exact hheader

/-- The payload size member is there exactly when a payload is announced. -/
theorem root_field_payloadSize (now : Int64) (pkt : NetworkPacket) :
    (pkt.root now).field "payloadSize" =
      if pkt.advertises then some (.int .sint pkt.payloadSize.toBitVec) else none := by
  unfold root
  split
  · rw [JsonBody.setObj, JsonBody.field_setVal_ne (by decide)]
    exact JsonBody.field_setVal_self _ _ _
  · rw [header, JsonBody.setObj, JsonBody.field_setVal_ne (by decide), JsonBody.setStr,
      JsonBody.field_setVal_ne (by decide), JsonBody.setI64, JsonBody.field_setVal_ne (by decide),
      JsonBody.field_empty]

/-- Reading the document back gives the announced size, or −1. -/
theorem parsedSize_root (now : Int64) (pkt : NetworkPacket) :
    parsedSize (pkt.root now).canon = if pkt.advertises then pkt.payloadSize else -1 := by
  have hsize := root_field_payloadSize now pkt
  unfold parsedSize
  rw [JsonBody.isNum_canon, JsonBody.getI64, JsonBody.valueI64_canon]
  unfold JsonBody.isNum JsonBody.valueI64
  rw [hsize]
  by_cases h : pkt.advertises = true
  · simp only [h, if_true, Option.any_some, Val.isNum, Val.getSint, Int64.ofBitVec_toBitVec]
  · simp only [h, Bool.false_eq_true, if_false, Option.any_none]

/-- Reading the document back gives the announced port, or −1. -/
theorem parsedPort_root (now : Int64) (pkt : NetworkPacket) :
    parsedPort (pkt.root now).canon = if pkt.advertises then pkt.payloadPort else -1 := by
  have hsize := root_field_payloadSize now pkt
  unfold parsedPort
  rw [JsonBody.isNum_canon, JsonBody.isObj_canon, JsonBody.getObj_canon, JsonBody.valueInt_canon]
  by_cases h : pkt.advertises = true
  · have hnum : (pkt.root now).isNum "payloadSize" = true := by
      unfold JsonBody.isNum
      rw [hsize, if_pos h]
      rfl
    have hinfo : (pkt.root now).field "payloadTransferInfo" =
        some (.obj (({} : JsonBody).setInt "port" pkt.payloadPort).members) := by
      unfold root
      rw [if_pos h]
      exact JsonBody.field_setVal_self _ _ _
    have hobj : (pkt.root now).isObj "payloadTransferInfo" = true := by
      unfold JsonBody.isObj
      rw [hinfo]
      rfl
    have hport : ((pkt.root now).getObj "payloadTransferInfo").valueInt "port" (-1) =
        pkt.payloadPort := by
      unfold JsonBody.getObj
      rw [hinfo]
      exact JsonBody.getInt_signExtend pkt.payloadPort
    rw [hnum, hobj, hport, if_pos h]
    rfl
  · have hnum : (pkt.root now).isNum "payloadSize" = false := by
      unfold JsonBody.isNum
      rw [hsize, if_neg h]
      rfl
    rw [hnum, if_neg h]
    rfl

/-- A line that reads as the document of a packet is what a receiver makes of
that packet. -/
theorem parse_of_root {y : Yyjson} {pkt : NetworkPacket} (ht : NulFree pkt.type) {now : Int64}
    {line : List UInt8} (h : JsonBody.parse y line = (pkt.root now).canon) :
    parse y line = some pkt.received := by
  have htype := root_field_type now pkt
  have hbody := root_field_body now pkt
  have hhasType : (pkt.root now).has "type" = true := by
    rw [JsonBody.has, htype]
    rfl
  have hhasBody : (pkt.root now).has "body" = true := by
    rw [JsonBody.has, hbody]
    rfl
  have hgetType : (pkt.root now).canon.getStr "type" = pkt.type := by
    rw [JsonBody.getStr, JsonBody.valueStr_canon]
    unfold JsonBody.valueStr
    rw [htype]
    simp only [Val.isStr, Val.getStr, if_true]
    rw [cstr_of_nulFree (cstr_nulFree _), cstr_of_nulFree ht]
  have hgetBody : (pkt.root now).canon.getObj "body" = pkt.body.canon := by
    rw [JsonBody.getObj_canon]
    unfold JsonBody.getObj
    rw [hbody]
  unfold parse
  rw [h]
  dsimp only
  rw [JsonBody.has_canon, JsonBody.has_canon, hhasType, hhasBody, hgetType, hgetBody,
    parsedSize_root, parsedPort_root]
  rfl

/-- A written packet is read back as the packet a receiver makes of it, and
its text holds no newline. -/
theorem parse_root {y : Yyjson} (hy : y.Lawful) {pkt : NetworkPacket} (ht : NulFree pkt.type)
    (hb : pkt.body.realFree = true) (now : Int64) :
    parse y ((pkt.root now).dump y) = some pkt.received ∧
      ∀ b ∈ (pkt.root now).dump y, 32 ≤ b.toNat := by
  obtain ⟨hparse, hprint⟩ := JsonBody.parse_dump hy (root_realFree hb now)
  exact ⟨parse_of_root ht hparse, hprint⟩

end NetworkPacket

/-- The protocol version this code speaks. -/
def kProtocolVersion : Int32 := 8

/-- Description of a device, as its identity packet gives it. -/
structure DeviceInfo where
  id : String := ""
  name : String := ""
  type : String := ""
  protocolVersion : Int32 := kProtocolVersion
  incomingCapabilities : List String := []
  outgoingCapabilities : List String := []
  deriving DecidableEq

/-- Device description out of an identity packet, with its defaults. -/
def infoFromIdentity (pkt : NetworkPacket) : DeviceInfo where
  id := pkt.body.valueStr "deviceId" ""
  name := pkt.body.valueStr "deviceName" "unknown"
  type := pkt.body.valueStr "deviceType" "desktop"
  protocolVersion := pkt.body.valueInt "protocolVersion" kProtocolVersion
  incomingCapabilities :=
    if pkt.body.has "incomingCapabilities" then pkt.body.getStrArray "incomingCapabilities" else []
  outgoingCapabilities :=
    if pkt.body.has "outgoingCapabilities" then pkt.body.getStrArray "outgoingCapabilities" else []

/-- A setter that runs only when there is a value. -/
def setWhen {α : Type} (set : JsonBody → α → JsonBody) (value : Option α) (body : JsonBody) :
    JsonBody := value.elim body (set body)

/-- Identity packet of a device, optionally addressed and with a TCP port. -/
def makeIdentityPacket (info : DeviceInfo) (targetId : Option String)
    (targetProtocol tcpPort : Option Int32) : NetworkPacket where
  type := PacketTypes.identity
  body :=
    setWhen (·.setInt "tcpPort" ·) tcpPort <|
      setWhen (·.setInt "targetProtocolVersion" ·) targetProtocol <|
        setWhen (·.setStr "targetDeviceId" ·) targetId <|
          (((((({} : JsonBody).setStr "deviceId" info.id).setStr "deviceName" info.name).setStr
            "deviceType" info.type).setInt "protocolVersion" info.protocolVersion).setStrArray
            "incomingCapabilities" info.incomingCapabilities).setStrArray
            "outgoingCapabilities" info.outgoingCapabilities

/-- Description in the identity packet read after the handshake; none unless it
is an identity packet with the announced id and protocol version. -/
def secureInfo (y : Yyjson) (identity : DeviceInfo) (line : List UInt8) : Option DeviceInfo :=
  match NetworkPacket.parse y line with
  | none => none
  | some packet =>
    if packet.type ≠ PacketTypes.identity then none
    else
      let info := infoFromIdentity packet
      if info.id ≠ identity.id ∨ info.protocolVersion ≠ identity.protocolVersion then none
      else some info

/-- The description that is accepted carries the announced id. -/
theorem secureInfo_id {y : Yyjson} {identity info : DeviceInfo} {line : List UInt8}
    (h : secureInfo y identity line = some info) : info.id = identity.id := by
  unfold secureInfo at h
  split at h
  · cases h
  · split at h
    · cases h
    · dsimp only at h
      split at h
      · cases h
      · rename_i hsame
        rw [not_or, not_not] at hsame
        rw [← Option.some.inj h, hsame.1]

/-- A device id that came out of a packet went through a C string. -/
theorem infoFromIdentity_id_nulFree (pkt : NetworkPacket) : NulFree (infoFromIdentity pkt).id := by
  unfold infoFromIdentity JsonBody.valueStr
  dsimp only
  cases pkt.body.field "deviceId" with
  | none => decide
  | some v =>
    dsimp only
    split
    · exact cstr_nulFree _
    · decide

end KdeConnectNx.PacketFormat
