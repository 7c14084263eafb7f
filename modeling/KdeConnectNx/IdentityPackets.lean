import KdeConnectNx.LineReader
import KdeConnectNx.TextSizes

/-!
# Identity packets on the wire

Whatever an identity packet is addressed to, its receiver gets the description
it was made of, from a line as from a datagram. A description that fits a
datagram fits the line limit with every address beside it.
-/

namespace KdeConnectNx.IdentityPackets

open JsonTree JsonText PacketBody PacketFormat LineReader TextSizes

/-- No text of the description holds a NUL. -/
structure Plain (info : DeviceInfo) : Prop where
  id : NulFree info.id
  name : NulFree info.name
  type : NulFree info.type
  incoming : ∀ s ∈ info.incomingCapabilities, NulFree s
  outgoing : ∀ s ∈ info.outgoingCapabilities, NulFree s

/-- The members that describe the sender. -/
def infoMembers (info : DeviceInfo) : Members :=
  [("deviceId", .str (cstr info.id)), ("deviceName", .str (cstr info.name)),
    ("deviceType", .str (cstr info.type)),
    ("protocolVersion", .int .sint (info.protocolVersion.toBitVec.signExtend 64)),
    ("incomingCapabilities", .arr (info.incomingCapabilities.map fun s => .str (cstr s))),
    ("outgoingCapabilities", .arr (info.outgoingCapabilities.map fun s => .str (cstr s)))]

/-- The members that a packet has beside them. -/
def addressMembers (targetId : Option String) (targetProtocol tcpPort : Option Int32) : Members :=
  (targetId.map fun v => ("targetDeviceId", Val.str (cstr v))).toList ++
    (targetProtocol.map fun v =>
      ("targetProtocolVersion", Val.int .sint (v.toBitVec.signExtend 64))).toList ++
    (tcpPort.map fun v => ("tcpPort", Val.int .sint (v.toBitVec.signExtend 64))).toList

/-- A member that is set when there is a value comes last. -/
theorem members_setWhen {α : Type} (set : JsonBody → α → JsonBody) (key : String) (toVal : α → Val)
    (hset : ∀ body v, set body v = body.setVal key (toVal v)) {body : JsonBody} {members : Members}
    (h : body.members = members) (hk : key ∉ members.map Prod.fst) (value : Option α) :
    (setWhen set value body).members = members ++ (value.map fun v => (key, toVal v)).toList := by
  cases value with
  | none =>
    rw [Option.map_none, Option.toList_none, List.append_nil]
    exact h
  | some v =>
    rw [Option.map_some, Option.toList_some, ← JsonBody.members_setVal h key hk, ← hset]
    rfl

/-- The body of an identity packet, member by member. -/
theorem members_makeIdentityPacket (info : DeviceInfo) (targetId : Option String)
    (targetProtocol tcpPort : Option Int32) :
    (makeIdentityPacket info targetId targetProtocol tcpPort).body.members =
      infoMembers info ++ addressMembers targetId targetProtocol tcpPort := by
  have hid : (({} : JsonBody).setStr "deviceId" info.id).members =
      [("deviceId", .str (cstr info.id))] := rfl
  have hname := JsonBody.members_setVal hid "deviceName" (by simp) (.str (cstr info.name))
  have htype := JsonBody.members_setVal hname "deviceType" (by simp) (.str (cstr info.type))
  have hversion := JsonBody.members_setVal htype "protocolVersion" (by simp)
    (.int .sint (info.protocolVersion.toBitVec.signExtend 64))
  have hincoming := JsonBody.members_setVal hversion "incomingCapabilities" (by simp)
    (.arr (info.incomingCapabilities.map fun s => .str (cstr s)))
  have hinfo := JsonBody.members_setVal hincoming "outgoingCapabilities" (by simp)
    (.arr (info.outgoingCapabilities.map fun s => .str (cstr s)))
  have htarget := members_setWhen (·.setStr "targetDeviceId" ·) "targetDeviceId"
    (fun v => .str (cstr v)) (fun _ _ => rfl) hinfo (by simp) targetId
  have hprotocol := members_setWhen (·.setInt "targetProtocolVersion" ·) "targetProtocolVersion"
    (fun v => .int .sint (v.toBitVec.signExtend 64)) (fun _ _ => rfl) htarget
    (by cases targetId <;> simp) targetProtocol
  have hport := members_setWhen (·.setInt "tcpPort" ·) "tcpPort"
    (fun v => .int .sint (v.toBitVec.signExtend 64)) (fun _ _ => rfl) hprotocol
    (by cases targetId <;> cases targetProtocol <;> simp) tcpPort
  rw [List.append_assoc, List.append_assoc, ← List.append_assoc (Option.toList _)] at hport
  exact hport

/-- A member of the description is found under every address. -/
theorem field_info {info : DeviceInfo} {key : String} {v : Val}
    (h : lookup key (infoMembers info) = some v) (targetId : Option String)
    (targetProtocol tcpPort : Option Int32) :
    (makeIdentityPacket info targetId targetProtocol tcpPort).body.field key = some v := by
  unfold JsonBody.field
  rw [members_makeIdentityPacket, lookup_append, h]
  rfl

/-- A member of the address is found beside every description. -/
theorem field_address {info : DeviceInfo} {key : String} (h : lookup key (infoMembers info) = none)
    (targetId : Option String) (targetProtocol tcpPort : Option Int32) :
    (makeIdentityPacket info targetId targetProtocol tcpPort).body.field key =
      lookup key (addressMembers targetId targetProtocol tcpPort) := by
  unfold JsonBody.field
  rw [members_makeIdentityPacket, lookup_append, h, Option.none_or]

theorem makeIdentityPacket_realFree (info : DeviceInfo) (targetId : Option String)
    (targetProtocol tcpPort : Option Int32) :
    (makeIdentityPacket info targetId targetProtocol tcpPort).body.realFree = true := by
  have hstrings : ∀ l : List String, Val.realFreeItems (l.map fun s => .str (cstr s)) = true := by
    intro l
    induction l with
    | nil => rfl
    | cons s l ih => exact ih
  unfold JsonBody.realFree
  rw [members_makeIdentityPacket, realFreeMembers_append, Bool.and_eq_true]
  constructor
  · simp only [infoMembers, Val.realFreeMembers, Val.realFree, hstrings, Bool.and_true]
  · cases targetId <;> cases targetProtocol <;> cases tcpPort <;> rfl

section Received

variable {info : DeviceInfo} (targetId : Option String) (targetProtocol tcpPort : Option Int32)

theorem valueStr_received (key : String) {value : String}
    (h : lookup key (infoMembers info) = some (.str (cstr value))) (hn : NulFree value)
    (default : String) :
    (makeIdentityPacket info targetId targetProtocol tcpPort).received.body.valueStr key default =
      value := by
  unfold NetworkPacket.received
  dsimp only
  rw [JsonBody.valueStr_canon]
  unfold JsonBody.valueStr
  rw [field_info h]
  change cstr (cstr value) = value
  rw [cstr_of_nulFree hn, cstr_of_nulFree hn]

theorem strArray_received (key : String) {values : List String}
    (h : lookup key (infoMembers info) = some (.arr (values.map fun s => .str (cstr s))))
    (hn : ∀ s ∈ values, NulFree s) :
    (makeIdentityPacket info targetId targetProtocol tcpPort).received.body.has key = true ∧
      (makeIdentityPacket info targetId targetProtocol tcpPort).received.body.getStrArray key =
        values := by
  have hfield := field_info h targetId targetProtocol tcpPort
  have hitems : ∀ l : List String, (∀ s ∈ l, NulFree s) →
      ((Val.canonItems (l.map fun s => .str (cstr s))).filter Val.isStr).map
        (fun v => cstr v.getStr) = l := by
    intro l hl
    induction l with
    | nil => rfl
    | cons s l ih =>
      have hs := hl s List.mem_cons_self
      have hrest := ih fun t ht => hl t (List.mem_cons_of_mem s ht)
      change cstr (cstr s) :: _ = s :: l
      rw [cstr_of_nulFree hs, cstr_of_nulFree hs, hrest]
  unfold NetworkPacket.received
  dsimp only
  constructor
  · rw [JsonBody.has_canon, JsonBody.has, hfield]
    rfl
  · unfold JsonBody.getStrArray
    rw [JsonBody.field_canon, hfield]
    exact hitems values hn

theorem valueInt_received :
    (makeIdentityPacket info targetId targetProtocol tcpPort).received.body.valueInt
      "protocolVersion" kProtocolVersion = info.protocolVersion := by
  have hfield : (makeIdentityPacket info targetId targetProtocol tcpPort).body.field
      "protocolVersion" = some (.int .sint (info.protocolVersion.toBitVec.signExtend 64)) :=
    field_info rfl targetId targetProtocol tcpPort
  unfold NetworkPacket.received
  dsimp only
  rw [JsonBody.valueInt_canon]
  unfold JsonBody.valueInt
  rw [hfield]
  exact JsonBody.getInt_signExtend info.protocolVersion

/-- The receiver of an identity packet gets the description it was made of. -/
theorem infoFromIdentity_received (h : Plain info) :
    infoFromIdentity (makeIdentityPacket info targetId targetProtocol tcpPort).received = info := by
  have hid := valueStr_received targetId targetProtocol tcpPort "deviceId" rfl h.id ""
  have hname := valueStr_received targetId targetProtocol tcpPort "deviceName" rfl h.name "unknown"
  have htype := valueStr_received targetId targetProtocol tcpPort "deviceType" rfl h.type "desktop"
  have hversion := @valueInt_received info targetId targetProtocol tcpPort
  obtain ⟨hhasIn, hin⟩ :=
    strArray_received targetId targetProtocol tcpPort "incomingCapabilities" rfl h.incoming
  obtain ⟨hhasOut, hout⟩ :=
    strArray_received targetId targetProtocol tcpPort "outgoingCapabilities" rfl h.outgoing
  unfold infoFromIdentity
  rw [hid, hname, htype, hversion, hhasIn, hhasOut, hin, hout]
  rfl

end Received

/-- An identity packet addressed to a device names it, the protocol version
taken to be its, and no port. -/
theorem address_received (info : DeviceInfo) {id : String} (hn : NulFree id) (version : Int32)
    (tcpPort : Option Int32) :
    (makeIdentityPacket info (some id) (some version) tcpPort).received.body.valueStr
        "targetDeviceId" "" = id ∧
      (makeIdentityPacket info (some id) (some version) tcpPort).received.body.valueInt
        "targetProtocolVersion" kProtocolVersion = version := by
  have hid : (makeIdentityPacket info (some id) (some version) tcpPort).body.field
      "targetDeviceId" = some (.str (cstr id)) := field_address rfl _ _ _
  have hversion : (makeIdentityPacket info (some id) (some version) tcpPort).body.field
      "targetProtocolVersion" = some (.int .sint (version.toBitVec.signExtend 64)) :=
    field_address rfl _ _ _
  unfold NetworkPacket.received
  dsimp only
  rw [JsonBody.valueStr_canon, JsonBody.valueInt_canon]
  unfold JsonBody.valueStr JsonBody.valueInt
  rw [hid, hversion]
  constructor
  · change cstr (cstr id) = id
    rw [cstr_of_nulFree hn, cstr_of_nulFree hn]
  · exact JsonBody.getInt_signExtend version

/-- A port that is announced is the one that is read. -/
theorem tcpPort_received (info : DeviceInfo) (targetId : Option String) (port default : Int32) :
    (makeIdentityPacket info targetId none (some port)).received.body.valueInt "tcpPort" default =
      port := by
  have hfield : (makeIdentityPacket info targetId none (some port)).body.field "tcpPort" =
      some (.int .sint (port.toBitVec.signExtend 64)) := by
    rw [field_address rfl]
    cases targetId <;> rfl
  unfold NetworkPacket.received
  dsimp only
  rw [JsonBody.valueInt_canon]
  unfold JsonBody.valueInt
  rw [hfield]
  exact JsonBody.getInt_signExtend port

theorem identity_nulFree : NulFree PacketTypes.identity := by decide

/-- A datagram holds the whole line, and its newline does not matter. -/
theorem parse_datagram {y : Yyjson} (hy : y.Lawful) (hm : Minified y) (info : DeviceInfo)
    (targetId : Option String) (targetProtocol tcpPort : Option Int32) (now : Int64) :
    NetworkPacket.parse y
        ((makeIdentityPacket info targetId targetProtocol tcpPort).serialize y now) =
      some (makeIdentityPacket info targetId targetProtocol tcpPort).received := by
  have hfree := NetworkPacket.root_realFree
    (makeIdentityPacket_realFree info targetId targetProtocol tcpPort) now
  obtain ⟨text, hw, -⟩ := hy.read_write (.obj _) hfree
  have hread := hm.read_newline (.obj _) text hfree hw
  refine @NetworkPacket.parse_of_root y _ identity_nulFree now _ ?_
  unfold NetworkPacket.serialize JsonBody.dump
  rw [hw, Option.getD_some]
  refine (JsonBody.parse_of_read hy hread ?_).2
  intro b hb
  rcases List.mem_append.mp hb with hb | hb
  · have hprint := hy.write_escapes _ _ hw b hb
    omega
  · rw [List.mem_singleton.mp hb]
    decide

/-! ## The size of the line -/

/-- The document of a packet without a payload, member by member. -/
theorem members_root {pkt : NetworkPacket} (h : pkt.advertises = false) (now : Int64) :
    (pkt.root now).members =
      [("id", .int .sint now.toBitVec), ("type", .str (cstr pkt.type)),
        ("body", .obj pkt.body.members)] := by
  have hid : (({} : JsonBody).setI64 "id" now).members = [("id", .int .sint now.toBitVec)] := rfl
  have htype := JsonBody.members_setVal hid "type" (by simp) (.str (cstr pkt.type))
  have hbody := JsonBody.members_setVal htype "body" (by simp) (.obj pkt.body.members)
  rw [NetworkPacket.root, h, if_neg Bool.false_ne_true]
  exact hbody

/-- What the size of an identity packet does not owe to its clock and its
address. -/
def infoSize (y : Yyjson) (info : DeviceInfo) : ℕ :=
  size y (.str "id") + memberSize y ("type", .str (cstr PacketTypes.identity)) +
    size y (.str "body") + membersSize y (infoMembers info) + 7

theorem length_identity {y : Yyjson} (hy : y.Lawful) (hm : Minified y) (info : DeviceInfo)
    (targetId : Option String) (targetProtocol tcpPort : Option Int32) (now : Int64) :
    ((makeIdentityPacket info targetId targetProtocol tcpPort).serialize y now).length =
      infoSize y info + size y (.int .sint now.toBitVec) +
        membersSize y (addressMembers targetId targetProtocol tcpPort) := by
  have hbody := makeIdentityPacket_realFree info targetId targetProtocol tcpPort
  have hfree := NetworkPacket.root_realFree hbody now
  have hmembers := members_makeIdentityPacket info targetId targetProtocol tcpPort
  have hroot := @members_root (makeIdentityPacket info targetId targetProtocol tcpPort) rfl now
  have hinner := hm.size_obj _ (by rw [hmembers]; exact List.cons_ne_nil _ _) hbody
  have houter := hm.size_obj _ (by rw [hroot]; exact List.cons_ne_nil _ _) hfree
  rw [hmembers, membersSize_append] at hinner
  rw [hroot, membersSize_cons, membersSize_cons, membersSize_cons, membersSize_nil, hmembers]
    at houter
  have htype : (makeIdentityPacket info targetId targetProtocol tcpPort).type =
      PacketTypes.identity := rfl
  rw [NetworkPacket.serialize, List.length_append, length_dump hy hfree, hroot, hmembers, houter,
    htype, infoSize]
  simp only [memberSize, hinner, List.length_singleton]
  omega

/-- The id is part of every identity packet. -/
theorem size_id_le {y : Yyjson} (info : DeviceInfo) :
    size y (.str (cstr info.id)) ≤ infoSize y info := by
  have hid := memberSize_mk y "deviceId" (.str (cstr info.id))
  unfold infoSize infoMembers
  rw [membersSize_cons]
  omega

/-- The line of a description that fits a datagram, with any address whose id
fits one. -/
theorem identity_fits {y : Yyjson} (hy : y.Lawful) (hm : Minified y) {info : DeviceInfo}
    {limit : ℕ} (hinfo : infoSize y info ≤ limit) {targetId : Option String}
    (hid : ∀ id ∈ targetId, size y (.str (cstr id)) ≤ limit)
    (targetProtocol tcpPort : Option Int32) (hlimit : 2 * limit + 450 ≤ kMaxPacketSize)
    (now : Int64) :
    Outgoing.Fits y ⟨now, makeIdentityPacket info targetId targetProtocol tcpPort⟩ := by
  have hclock := hm.size_int .sint now.toBitVec
  have hstr : ∀ key : String, (utf8 key.toList).length ≤ 21 → size y (.str key) ≤ 128 := by
    intro key hkey
    have hle := hm.size_str key
    omega
  have hint : ∀ (key : String) (v : Option Int32), (utf8 key.toList).length ≤ 21 →
      membersSize y (v.map fun v =>
        (key, Val.int .sint (v.toBitVec.signExtend 64))).toList ≤ 150 := by
    intro key v hkey
    cases v with
    | none => exact Nat.zero_le _
    | some v =>
      have hk := hstr key hkey
      have hv := hm.size_int .sint (v.toBitVec.signExtend 64)
      rw [Option.map_some, Option.toList_some, membersSize_cons, membersSize_nil, memberSize_mk]
      omega
  have htarget : membersSize y (targetId.map fun v =>
      ("targetDeviceId", Val.str (cstr v))).toList ≤ limit + 130 := by
    cases targetId with
    | none => exact Nat.zero_le _
    | some id =>
      have hk := hstr "targetDeviceId" (by decide)
      have hv := hid id rfl
      rw [Option.map_some, Option.toList_some, membersSize_cons, membersSize_nil, memberSize_mk]
      omega
  have hprotocol := hint "targetProtocolVersion" targetProtocol (by decide)
  have hport := hint "tcpPort" tcpPort (by decide)
  have hlength := length_identity hy hm info targetId targetProtocol tcpPort now
  refine ⟨identity_nulFree, makeIdentityPacket_realFree _ _ _ _, ?_⟩
  rw [addressMembers, membersSize_append, membersSize_append] at hlength
  change ((makeIdentityPacket info targetId targetProtocol tcpPort).serialize y now).length ≤ _
  omega

end KdeConnectNx.IdentityPackets
