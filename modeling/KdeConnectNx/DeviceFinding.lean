import KdeConnectNx.MdnsDiscovery
import KdeConnectNx.Runs

/-!
# Devices that find each other

A device that can be found answers the question for the service, and the one who asked
reports its id. Whatever else is received, nothing outside the storages is read, and what is
reported was stated.
-/

namespace KdeConnectNx.DeviceFinding

open DomainNames MdnsReader MdnsMessages MdnsWriter MdnsAnswers MdnsExchange MdnsDiscovery

/-! ## A device that can be found -/

/-- The bytes of two texts, one behind the other. -/
theorem bytes_append (s t : String) : bytes (s ++ t) = bytes s ++ bytes t := by
  rw [bytes, bytes, bytes, JsonText.utf8, JsonText.utf8, JsonText.utf8, String.toList_append,
    List.flatMap_append]

/-- A character has at most four bytes. -/
theorem length_bytes_le (s : String) : (bytes s).length ≤ 4 * s.length := by
  rw [bytes, JsonText.utf8, List.length_flatMap, ← String.length_toList]
  induction s.toList with
  | nil => exact Nat.le_refl _
  | cons c cs ih =>
    have hc := c.utf8Size_le_four
    rw [List.map_cons, List.sum_cons, String.length_utf8EncodeChar, List.length_cons]
    omega

/-- The number of a protocol is short. -/
theorem length_protocol_le (n : Int32) : (bytes (toString n.toInt)).length ≤ 44 := by
  have hlower := n.le_toInt
  have hupper := n.toInt_lt
  have hshort : ∀ m : ℕ, m < 10 ^ 10 → m.repr.length ≤ 10 := fun m hm =>
    (Nat.length_repr_le_iff (by decide)).mpr hm
  have hlength : (toString n.toInt).length ≤ 11 := by
    rw [Int.toString_eq_repr, Int.repr_eq_if]
    split
    · exact Nat.le_succ_of_le (hshort _ (by omega))
    · have hdigits := hshort (-n.toInt).toNat (by omega)
      have hminus : "-".length = 1 := rfl
      rw [String.length_append]
      omega
  have hbytes := length_bytes_le (toString n.toInt)
  omega

/-- The labels of `kServiceType`. -/
def serviceLabels : List Label := [bytes "_kdeconnect", bytes "_udp", bytes "local"]

/-- The service type as its labels. -/
theorem kServiceType_eq : kServiceType = dotted serviceLabels := by decide

/-- They are plain. -/
theorem plain_service {label : Label} (h : label ∈ serviceLabels) : Plain label := by
  simp only [serviceLabels, List.mem_cons, List.not_mem_nil, or_false] at h
  rcases h with rfl | rfl | rfl
  · exact ⟨by decide, by decide, by decide⟩
  · exact ⟨by decide, by decide, by decide⟩
  · exact ⟨by decide, by decide, by decide⟩

/-- And end in the last one only. -/
theorem proper_service : Proper (bytes "local") serviceLabels where
  plain _ hmem := plain_service hmem
  closed := ⟨[bytes "_kdeconnect", bytes "_udp"], rfl, by decide⟩
  apart := apart_of_nodup (by decide)

/-- A label in front of those of the service. -/
theorem proper_instance {label : Label} (hplain : Plain label) (hother : label ∉ serviceLabels) :
    Proper (bytes "local") (label :: serviceLabels) where
  plain := by
    intro other hmem
    rcases List.mem_cons.mp hmem with rfl | hmem
    · exact hplain
    · exact plain_service hmem
  closed := by
    refine ⟨[label, bytes "_kdeconnect", bytes "_udp"], rfl, fun hmem => ?_⟩
    rcases List.mem_cons.mp hmem with heq | hmem
    · exact hother (heq ▸ of_decide_eq_true rfl)
    · exact absurd hmem (by decide)
  apart := apart_of_nodup (List.nodup_cons.mpr ⟨hother, by decide⟩)

/-- A host name of one label that is not the one all names end with. -/
theorem properName_host {name : Label} (hplain : Plain name) (hother : name ≠ bytes "local") :
    ProperName (bytes "local") (name ++ bytes ".local.") := by
  refine ⟨[name, bytes "local"], ?_, (by decide : 2 ≤ MDNS_MAX_SUBSTRINGS), ?_, ⟨[name], rfl, ?_⟩,
    apart_of_nodup ?_⟩
  · rw [dotted_cons, dotted_cons]
    exact congrArg _ (by decide)
  · intro other hmem
    rcases List.mem_cons.mp hmem with rfl | hmem
    · exact hplain
    · exact plain_service (List.mem_cons_of_mem _ (List.mem_cons_of_mem _ hmem))
  · exact fun hmem => hother (List.mem_singleton.mp hmem).symm
  · exact List.nodup_cons.mpr ⟨fun hmem => hother (List.mem_singleton.mp hmem), by decide⟩

/-- A device whose names and texts can be written, with room for them in one answer. -/
structure Findable (device : Announcer) : Prop where
  id : Plain (bytes device.localDevice.id)
  id_other : bytes device.localDevice.id ∉ serviceLabels
  hostname : ProperName (bytes "local") (hostnameOrDefault device.gethostname)
  name : (bytes device.localDevice.name).length ≤ 250
  type : (bytes device.localDevice.type).length ≤ 250
  addresses : device.addresses.length ≤ 59
  room : answerRoom (buildAnnouncedInfo device) ≤ 2048

/-- The texts of a device, in the order in which they are put into the hash map. -/
def textsOf (device : Announcer) : List (List UInt8 × List UInt8) :=
  [(bytes "id", bytes device.localDevice.id), (bytes "name", bytes device.localDevice.name),
    (bytes "type", bytes device.localDevice.type),
    (bytes "protocol", bytes (toString device.localDevice.protocolVersion.toInt))]

/-- The strings are announced in the order of a hash map. -/
theorem texts_perm (device : Announcer) :
    (buildAnnouncedInfo device).txtRecords.Perm (textsOf device) := device.iterate_perm _

variable {device : Announcer}

/-- A pair with a printable key and a short text can be read back. -/
theorem properPair_of_key {key : List UInt8} (value : List UInt8) (hne : key ≠ [])
    (hprintable : (key.all fun byte => ¬ (byte < 0x20 ∨ 0x7E < byte) ∧ byte ≠ 61) = true)
    (hshort : key.length + value.length + 1 ≤ 255) : ProperPair (key, value) :=
  ⟨hne, fun byte hmem => of_decide_eq_true (List.all_eq_true.mp hprintable byte hmem), hshort⟩

/-- All announced pairs can. -/
theorem properPair_text (h : Findable device) {pair : List UInt8 × List UInt8}
    (hmem : pair ∈ textsOf device) : ProperPair pair := by
  have hid := h.id.short
  have hname := h.name
  have htype := h.type
  have hprotocol := length_protocol_le device.localDevice.protocolVersion
  have hrefs : refStart = 192 := rfl
  have hlengths : (bytes "id").length = 2 ∧ (bytes "name").length = 4 ∧ (bytes "type").length = 4 ∧
      (bytes "protocol").length = 8 := by decide
  simp only [textsOf, List.mem_cons, List.not_mem_nil, or_false] at hmem
  rcases hmem with rfl | rfl | rfl | rfl
  · exact properPair_of_key _ (by decide) (by decide) (by omega)
  · exact properPair_of_key _ (by decide) (by decide) (by omega)
  · exact properPair_of_key _ (by decide) (by decide) (by omega)
  · exact properPair_of_key _ (by decide) (by decide) (by omega)

/-- What a device that can be found announces can be written. -/
theorem Findable.announceable (h : Findable device) :
    Announceable (buildAnnouncedInfo device) (bytes "local") 2048 where
  serviceType := ⟨serviceLabels, kServiceType_eq, by decide, proper_service⟩
  serviceInstance := by
    refine ⟨bytes device.localDevice.id :: serviceLabels, ?_, by
      simp [serviceLabels, MDNS_MAX_SUBSTRINGS], proper_instance h.id h.id_other⟩
    have hdot : bytes "." = [46] := by decide
    rw [dotted_cons, ← kServiceType_eq, buildAnnouncedInfo]
    dsimp only
    rw [hdot, List.append_assoc, List.singleton_append]
  hostname := h.hostname
  texts := fun pair hmem => properPair_text h ((texts_perm device).mem_iff.mp hmem)
  few := by
    have hfew := h.addresses
    have htexts : (buildAnnouncedInfo device).txtRecords.length = 4 := (texts_perm device).length_eq
    have hsame : (buildAnnouncedInfo device).addressesV4 = device.addresses := rfl
    rw [htexts, hsame]
    omega
  fits := by decide
  room := h.room

/-! ## What is heard of the answer -/

variable {sender : Option InAddr} {info : AnnouncedInfo} {queryId rtype : ℕ}

/-- The last of some addresses is kept. -/
theorem addresses_kept (addresses : List InAddr) (state : QueryState) :
    addresses.foldl (fun state addr => { state with host := ipv4ToString addr }) state =
      { state with host := addresses.getLast?.elim state.host ipv4ToString } := by
  induction addresses generalizing state with
  | nil => rfl
  | cons addr addresses ih =>
    rw [List.foldl_cons, ih, List.getLast?_cons]
    cases addresses.getLast? <;> rfl

/-- What is kept of the PTR record. -/
theorem keepItem_ptr (info : AnnouncedInfo) (rclass ttl : ℕ) (state : QueryState) :
    keepItem sender (itemOf { ptrRecord info with rclass := rclass, ttl := ttl }) state =
      keepPtr sender (info.serviceType.take 256) state := rfl

/-- Of the SRV record nothing is. -/
theorem keepItem_srv (info : AnnouncedInfo) (state : QueryState) :
    keepItem sender (itemOf (unicastRecord MDNS_CLASS_IN 10 (srvRecord info))) state = state := rfl

/-- Of an A record its address is. -/
theorem keepItem_a (info : AnnouncedInfo) (addr : InAddr) (state : QueryState) :
    keepItem sender (itemOf (unicastRecord MDNS_CLASS_IN 10 (aRecord info addr))) state =
      { state with host := ipv4ToString addr } := rfl

/-- Of the strings the first sixteen are. -/
theorem keepItem_txt (records : List Record) (rclass ttl : ℕ) (first : Record)
    (state : QueryState) :
    keepItem sender (txtItem records rclass ttl first) state =
      keepTxt ((stringsOf records).take 16) state := rfl

/-- The strings of the one TXT record are kept. -/
theorem texts_kept (info : AnnouncedInfo) (state : QueryState) :
    ((firstTxt (additionalOf info)).toList.map (txtItem (additionalOf info) MDNS_CLASS_IN 10)).foldl
      (fun state item => keepItem sender item state) state =
        keepTxt (info.txtRecords.take 16) state := by
  have hstrings := stringsOf_additional info
  rw [firstTxt_additional]
  cases htexts : info.txtRecords with
  | nil => rfl
  | cons txt texts =>
    rw [htexts] at hstrings
    rw [List.head?_cons, Option.map_some, Option.toList_some, List.map_singleton, List.foldl_cons,
      List.foldl_nil, keepItem_txt, hstrings]

/-- What an answer to the question for the service says behind its question. -/
theorem answer_items (info : AnnouncedInfo) (queryId rtype : ℕ) :
    (answerSays info queryId rtype).answers ++ (answerSays info queryId rtype).authority =
      [itemOf { ptrRecord info with rclass := MDNS_CLASS_IN, ttl := 10 }] := rfl

/-- What comes with the answer: SRV, addresses and strings. -/
theorem additional_items (info : AnnouncedInfo) (queryId rtype : ℕ) :
    (answerSays info queryId rtype).additional =
      itemOf (unicastRecord MDNS_CLASS_IN 10 (srvRecord info)) ::
        (info.addressesV4.map fun addr =>
          itemOf (unicastRecord MDNS_CLASS_IN 10 (aRecord info addr))) ++
        (firstTxt (additionalOf info)).toList.map
          (txtItem (additionalOf info) MDNS_CLASS_IN 10) := by
  have hothers := others_additional info (unicastRecord MDNS_CLASS_IN 10) (fun _ => rfl)
  rw [List.map_cons] at hothers
  have haddresses : ((info.addressesV4.map (aRecord info)).map (unicastRecord MDNS_CLASS_IN 10)).map
      itemOf =
      info.addressesV4.map fun addr =>
        itemOf (unicastRecord MDNS_CLASS_IN 10 (aRecord info addr)) := by
    rw [List.map_map, List.map_map]
    rfl
  rw [answerSays, answerMessage]
  dsimp only
  rw [sectionItems, hothers, List.map_cons, haddresses]

/-- What is kept of an answer to the question for the service. -/
theorem answer_kept (info : AnnouncedInfo) (queryId rtype : ℕ) :
    (answerSays info queryId rtype).heeded (fun _ => keepItem sender) {} =
      keepTxt (info.txtRecords.take 16)
        { instanceId := firstLabel (info.serviceType.take 256)
          host := info.addressesV4.getLast?.elim (sockaddrToIpv4String sender) ipv4ToString
          sawPtr := true } := by
  rw [Message.heeded, ← List.foldl_append, ← List.foldl_append, ← List.append_assoc, answer_items,
    additional_items, List.foldl_append, List.foldl_append, texts_kept, List.foldl_cons,
    List.foldl_cons, List.foldl_nil, keepItem_ptr, keepItem_srv, List.foldl_map]
  simp only [keepItem_a]
  rw [addresses_kept]
  rfl

/-- The records of an answer have their types, and their texts come back. -/
theorem typed_answer (h : Findable device) (queryId rtype : ℕ) :
    ∀ item ∈ (answerSays (buildAnnouncedInfo device) queryId rtype).answers ++
      (answerSays (buildAnnouncedInfo device) queryId rtype).authority ++
      (answerSays (buildAnnouncedInfo device) queryId rtype).additional, Typed item := by
  intro item hmem
  rw [answer_items, additional_items] at hmem
  rcases List.mem_append.mp hmem with hmem | hmem
  · obtain rfl := List.mem_singleton.mp hmem
    exact ⟨rfl, rfl⟩
  rcases List.mem_append.mp hmem with hmem | hmem
  · rcases List.mem_cons.mp hmem with rfl | hmem
    · exact ⟨rfl, rfl⟩
    · obtain ⟨addr, -, rfl⟩ := List.mem_map.mp hmem
      exact ⟨rfl, rfl⟩
  · obtain ⟨first, hfirst, rfl⟩ := List.mem_map.mp hmem
    rw [firstTxt_additional, Option.mem_toList] at hfirst
    obtain ⟨txt, -, rfl⟩ := Option.map_eq_some_iff.mp hfirst
    refine ⟨rfl, fun pair hpair => ?_⟩
    rw [stringsOf_additional] at hpair
    exact h.announceable.texts pair hpair

/-- The first element of its kind in a list is the only one of its kind in another order. -/
theorem find?_of_perm {α : Type*} {l m : List α} {p : α → Bool} {a : α} (hperm : l.Perm m)
    (hmem : a ∈ m) (ha : p a = true) (hunique : ∀ b ∈ m, p b = true → b = a) :
    l.find? p = some a := by
  cases hfind : l.find? p with
  | none => exact absurd ha (List.find?_eq_none.mp hfind a (hperm.mem_iff.mpr hmem))
  | some b =>
    have hb :=
      hunique b (hperm.mem_iff.mp (List.mem_of_find?_eq_some hfind)) (List.find?_some hfind)
    rw [hb]

/-- The id comes first or last among the texts, and is found. -/
theorem id_kept (device : Announcer) (state : QueryState) :
    keepTxt ((buildAnnouncedInfo device).txtRecords.take 16) state =
      { state with deviceId := bytes device.localDevice.id } := by
  have hperm := texts_perm device
  have hfour : (buildAnnouncedInfo device).txtRecords.length = 4 := hperm.length_eq
  have hunique : ∀ pair ∈ textsOf device, decide (pair.1 = bytes "id") = true →
      pair = (bytes "id", bytes device.localDevice.id) := by
    intro pair hmem hkey
    simp only [textsOf, List.mem_cons, List.not_mem_nil, or_false] at hmem
    have hkeys : bytes "name" ≠ bytes "id" ∧ bytes "type" ≠ bytes "id" ∧ bytes "protocol" ≠
        bytes "id" := by
      decide
    rcases hmem with rfl | rfl | rfl | rfl
    · rfl
    · exact absurd (of_decide_eq_true hkey) hkeys.1
    · exact absurd (of_decide_eq_true hkey) hkeys.2.1
    · exact absurd (of_decide_eq_true hkey) hkeys.2.2
  have hfind := find?_of_perm hperm List.mem_cons_self (decide_eq_true rfl) hunique
  rw [List.take_of_length_le (by omega), keepTxt, hfind]
  rfl

/-- An address has a text. -/
theorem ipv4ToString_ne_nil (addr : InAddr) : ipv4ToString addr ≠ [] := by
  intro h
  rw [ipv4ToString, bytes_append] at h
  obtain ⟨hfront, -⟩ := List.append_eq_nil_iff.mp h
  rw [bytes_append] at hfront
  exact absurd (List.append_eq_nil_iff.mp hfront).2 (by decide)

/-- The host under which a device is reported: the last address it announces, or else the one
its answer came from. -/
def foundHost (device : Announcer) (sender : InAddr) : List UInt8 :=
  ipv4ToString (device.addresses.getLast?.getD sender)

/-- The host is the last address, or the sender's without one. -/
theorem foundHost_eq (device : Announcer) (sender : InAddr) :
    device.addresses.getLast?.elim (ipv4ToString sender) ipv4ToString =
      foundHost device sender := by
  unfold foundHost
  cases device.addresses.getLast? with
  | none => rw [Option.elim_none, Option.getD_none]
  | some last => rw [Option.elim_some, Option.getD_some]

/-- So a host is always found. -/
theorem foundHost_ne_nil (device : Announcer) (sender : InAddr) : foundHost device sender ≠ [] :=
  ipv4ToString_ne_nil _

/-- Of what was heard to the end is reported the id, unless it is one's own. -/
theorem peerFound_eq (localId : List UInt8) {state : QueryState} (hptr : state.sawPtr = true)
    (hinstance : state.instanceId ≠ []) (hhost : state.host ≠ []) (hid : state.deviceId ≠ []) :
    peerFound localId state =
      if state.deviceId = localId then none else some (state.deviceId, state.host) := by
  by_cases hown : state.deviceId = localId
  · rw [if_pos hown, peerFound, if_neg (fun hall => hall.2.2.2.2 hown)]
  · rw [if_neg hown, peerFound, if_pos ⟨hptr, hinstance, hhost, hid, hown⟩]

/-- Of the answer of a device is reported its id, unless it is one's own. -/
theorem peerFound_answer (h : Findable device) (localId : List UInt8) (sender : InAddr) :
    peerFound localId ((answerSays (buildAnnouncedInfo device) queryId rtype).heeded
        (fun _ => keepItem (some sender)) {}) =
      if bytes device.localDevice.id = localId then none
      else some (bytes device.localDevice.id, foundHost device sender) := by
  have hinstance : firstLabel (kServiceType.take 256) = bytes "_kdeconnect" := by decide
  have htype : (buildAnnouncedInfo device).serviceType = kServiceType := rfl
  have haddresses : (buildAnnouncedInfo device).addressesV4 = device.addresses := rfl
  have hsender : sockaddrToIpv4String (some sender) = ipv4ToString sender := by
    rw [sockaddrToIpv4String, Option.elim_some]
  have hlabel : bytes "_kdeconnect" ≠ [] := by decide
  have hid := h.id.ne_nil
  have hhost := foundHost_ne_nil device sender
  rw [answer_kept, id_kept, htype, hinstance, haddresses, hsender, foundHost_eq]
  generalize foundHost device sender = host at hhost ⊢
  generalize bytes "_kdeconnect" = label at hlabel ⊢
  exact peerFound_eq localId rfl hlabel hhost hid

/-! ## What is heard of any datagram -/

variable {buffer storage datagram : List UInt8} {size : ℕ}

/-- A record of this type and length whose data begins at this place. -/
structure RecordStands (m : Bytes) (rtype start length : ℕ) : Prop where
  behind : 10 ≤ start
  type : TextAt m (start - 10) (word rtype)
  length : TextAt m (start - 2) (word length)

/-- The data of an address record: four bytes are the address, anything else is the one of
zeros. -/
def AddressStands (m : Bytes) (addr : InAddr) : Prop :=
  ∃ start length, RecordStands m MDNS_RECORDTYPE_A start length ∧
    (length = 4 ∧ TextAt m start addr.bytes ∨ length ≠ 4 ∧ addr = ⟨0, 0, 0, 0⟩)

/-- A host that an address record of the message states, or the sender. -/
def HostStands (m : Bytes) (sender : Option InAddr) (host : List UInt8) : Prop :=
  host = sockaddrToIpv4String sender ∨ ∃ addr, host = ipv4ToString addr ∧ AddressStands m addr

/-- An id that stands in a string of a TXT record of the message. -/
def IdStands (m : Bytes) (id : List UInt8) : Prop :=
  ∃ start length place, RecordStands m MDNS_RECORDTYPE_TXT start length ∧ start ≤ place ∧
    place + (txtString (bytes "id") id).length ≤ start + length ∧
    TextAt m place (txtString (bytes "id") id)

variable {n : ℕ} {e : Entry} {s : Service} {sendto : Target → List UInt8 → Bool}

/-- No name of what is announced is empty, and the records have their places. -/
structure Answering (info : AnnouncedInfo) : Prop where
  serviceType : info.serviceType ≠ []
  serviceInstance : info.serviceInstance ≠ []
  hostname : info.hostname ≠ []
  few : 1 + info.addressesV4.length + info.txtRecords.length ≤ 64

/-- The host name is never empty. -/
theorem hostnameOrDefault_ne_nil (name : Option (List UInt8)) : hostnameOrDefault name ≠ [] := by
  rcases name with _ | _ | ⟨first, rest⟩
  · exact of_decide_eq_true rfl
  · exact of_decide_eq_true rfl
  · exact List.cons_ne_nil _ _

/-- A device answers whatever it is called, if it has no more than 59 addresses. -/
theorem answering (hfew : device.addresses.length ≤ 59) :
    Answering (buildAnnouncedInfo device) where
  serviceType := by
    have htype : kServiceType ≠ [] := by decide
    exact htype
  serviceInstance := by
    have hdot : bytes "." ≠ [] := by decide
    rw [buildAnnouncedInfo]
    exact List.append_ne_nil_of_left_ne_nil (List.append_ne_nil_of_right_ne_nil _ hdot) _
  hostname := hostnameOrDefault_ne_nil device.gethostname
  few := by
    have htexts : (buildAnnouncedInfo device).txtRecords.length = 4 := (texts_perm device).length_eq
    have hsame : (buildAnnouncedInfo device).addressesV4 = device.addresses := rfl
    rw [htexts, hsame]
    omega

/-- Records are written inside the buffer, or not at all. -/
theorem writeRecords_keeps {name : List UInt8} {answer : Record} {additional : List Record}
    (hname : name ≠ []) (hanswer : Named answer) (hadditional : ∀ record ∈ additional, Named record)
    (hfew : additional.length ≤ 64) (hs : s.sendBuffer.length = n) :
    ∃ failed s', writeRecords sendto e name answer additional s = some (failed, s') ∧
      s'.sendBuffer.length = n := by
  have hnone : ∀ record ∈ ([] : List Record), Named record :=
    fun _ hmem => absurd hmem List.not_mem_nil
  rw [writeRecords, if_neg (by omega)]
  by_cases hclass : e.rclass &&& MDNS_UNICAST_RESPONSE ≠ 0
  · obtain ⟨⟨buffer, sent⟩, hunicast, hfits⟩ :=
      mdnsQueryAnswerUnicast_fits s.sendBuffer e.queryId e.rtype
        hname hanswer hnone hadditional
    have hlength := hfits.1.trans hs
    rw [if_pos hclass, if_pos hclass, hunicast, Option.map_some]
    cases sent with
    | none => exact ⟨_, _, rfl, hlength⟩
    | some datagram =>
      dsimp only
      split
      · exact ⟨_, _, rfl, hlength⟩
      · exact ⟨_, _, rfl, hlength⟩
  · obtain ⟨⟨buffer, sent⟩, hmulticast, hfits⟩ := mdnsAnswerMulticastRclassTtl_fits s.sendBuffer
      MDNS_CLASS_IN 60 hanswer hnone hadditional
    have hlength := hfits.1.trans hs
    rw [if_neg hclass, if_neg hclass, mdnsQueryAnswerMulticast, hmulticast, Option.map_some]
    cases sent with
    | none => exact ⟨_, _, rfl, hlength⟩
    | some datagram =>
      dsimp only
      split
      · exact ⟨_, _, rfl, hlength⟩
      · exact ⟨_, _, rfl, hlength⟩

/-- Whatever question is asked, nothing outside is read or written. -/
theorem serviceCallback_keeps (h : Answering info) (sendto : Target → List UInt8 → Bool)
    (hsize : size ≤ buffer.length) :
    Keeps (serviceCallback info sendto) buffer size (fun s => s.sendBuffer.length = n) := by
  intro e s hinside hs
  obtain ⟨extracted, hextract, -⟩ := mdnsStringExtract_eq hsize e.nameOffset 256
  have hfew := h.few
  have haddress : ∀ addr, Named (aRecord info addr) := fun addr => ⟨h.hostname, trivial⟩
  have htext : ∀ record ∈ info.txtRecords.map (txtRecord info), Named record := by
    intro record hmem
    obtain ⟨txt, -, rfl⟩ := List.mem_map.mp hmem
    exact ⟨h.serviceInstance, trivial⟩
  have hservice : Named (srvRecord info) := ⟨h.serviceInstance, h.hostname⟩
  have hrest : ∀ record ∈ info.addressesV4.map (aRecord info) ++ info.txtRecords.map
      (txtRecord info), Named record := by
    intro record hmem
    rcases List.mem_append.mp hmem with hmem | hmem
    · obtain ⟨addr, -, rfl⟩ := List.mem_map.mp hmem
      exact haddress addr
    · exact htext record hmem
  have hall : ∀ record ∈ srvRecord info :: info.addressesV4.map (aRecord info) ++
      info.txtRecords.map (txtRecord info), Named record := by
    intro record hmem
    rcases List.mem_cons.mp hmem with rfl | hmem
    · exact hservice
    · exact hrest record hmem
  unfold serviceCallback
  split
  · exact ⟨_, s, rfl, hs⟩
  rw [hextract]
  dsimp only
  split
  · next hname =>
    exact writeRecords_keeps (hname.1 ▸ h.serviceType) ⟨h.serviceType, h.serviceInstance⟩ hall
      (by simp only [List.length_append, List.length_cons, List.length_map]; omega) hs
  split
  · next hname =>
    exact writeRecords_keeps (hname.1 ▸ h.serviceInstance) hservice hrest
      (by simp only [List.length_append, List.length_map]; omega) hs
  split
  · next hname =>
    cases info.addressesV4.head? with
    | none => exact ⟨_, s, rfl, hs⟩
    | some first =>
      exact writeRecords_keeps (hname.1 ▸ h.hostname) (haddress first) htext
        (by rw [List.length_map]; omega) hs
  · exact ⟨_, s, rfl, hs⟩

/-- A datagram that leaves four bytes of the storage free is answered, or not, without a read or
a write outside. -/
theorem serviceHears_safe (h : Answering info) (sendto : Target → List UInt8 → Bool)
    (hstorage : 12 ≤ storage.length) (hroom : datagram.length + 4 ≤ storage.length)
    (sendBuffer : List UInt8) :
    ∃ storage' s, serviceHears info sendto storage sendBuffer datagram = some (storage', s) ∧
      storage'.length = storage.length ∧ s.sendBuffer.length = sendBuffer.length := by
  have hstart : (fun s : Service => s.sendBuffer.length = sendBuffer.length)
      { sendBuffer := sendBuffer } := rfl
  obtain ⟨total, s, hlisten, hs⟩ := mdnsSocketListen_keeps hstorage hroom
    (serviceCallback_keeps h sendto (size_recvfrom_le storage datagram)) hstart
  exact ⟨_, s, by rw [serviceHears, hlisten]; rfl, length_recvfrom storage datagram, hs⟩

/-- Two bytes that are not there cannot be read. -/
theorem mdnsNtohs_outside {offset : ℕ} (h : buffer.length < offset + 2) :
    mdnsNtohs buffer offset = none := by
  have hlow : buffer[offset + 1]? = none := List.getElem?_eq_none (by omega)
  rw [mdnsNtohs, hlow]
  cases buffer[offset]? <;> rfl

/-- What is read stays with more behind it. -/
theorem mdnsNtohs_append {offset value : ℕ} (h : mdnsNtohs buffer offset = some value)
    (more : List UInt8) :
    mdnsNtohs (buffer ++ more) offset = some value := by
  unfold mdnsNtohs at h
  split at h
  · next high low hhigh hlow =>
    cases h
    have hsame : ∀ {place : ℕ} {byte : UInt8}, buffer[place]? = some byte →
        (buffer ++ more)[place]? = some byte := by
      intro place byte hplace
      rw [List.getElem?_append_left (List.getElem?_eq_some_iff.mp hplace).1, hplace]
    exact mdnsNtohs_eq (hsame hhigh) (hsame hlow)
  · cases h

/-- The header is read from what was received only. -/
theorem readHeader_append {header : Header} (h : readHeader buffer = some header)
    (more : List UInt8) :
    readHeader (buffer ++ more) = some header := by
  unfold readHeader at h ⊢
  split at h
  · next hqueryId hflags hquestions hanswers hauthority hadditional =>
    rw [mdnsNtohs_append hqueryId, mdnsNtohs_append hflags, mdnsNtohs_append hquestions,
      mdnsNtohs_append hanswers, mdnsNtohs_append hauthority, mdnsNtohs_append hadditional]
    exact h
  · cases h

/-- A datagram whose first question's name ends fewer than four bytes before the end of the storage
makes the type or the class of the question be read outside of it. -/
theorem mdnsSocketListen_outside {σ : Type} (callback : Callback σ) (state : σ) {header : Header}
    {count stop : ℕ} (hheader : readHeader datagram = some header) (hasks : header.questions ≠ 0)
    (hfits : datagram.length ≤ storage.length) (hcount : count ≤ MDNS_MAX_SUBSTRINGS)
    (hname : Spans (bytesOf datagram) maxRefs 12 count stop) (hfull : storage.length < stop + 4) :
    mdnsSocketListen callback storage datagram state = none := by
  obtain ⟨hreceived, htake⟩ := recvfrom_fits hfits
  have hbuffer := length_recvfrom storage datagram
  have hsize : datagram.length ≤ (recvfrom storage datagram).1.length := by omega
  have hread : readHeader (recvfrom storage datagram).1 = some header := by
    rw [recvfrom, List.take_of_length_le hfits]
    exact readHeader_append hheader _
  have hinside : datagram.length ≠ 0 := fun hnone => by
    rw [List.length_eq_zero_iff.mp hnone] at hheader
    cases hheader
  obtain ⟨ended, hended, hskip⟩ := questionEnd_eq hsize 12
  obtain ⟨skipped, hskipped, hspans⟩ := mdnsStringSkip_eq hsize 12
  rw [htake] at hspans
  have hsame : ended.map Prod.fst = skipped := Option.some.inj (hskip.symm.trans hskipped)
  have hends : ended.map Prod.fst = some stop :=
    hsame.trans ((hspans stop).mpr ⟨count, hcount, hname⟩)
  obtain ⟨⟨offset, dnsSd⟩, rfl, rfl⟩ := Option.map_eq_some_iff.mp hends
  obtain ⟨questions, hquestions⟩ := Nat.exists_eq_succ_of_ne_zero hasks
  have hasked : listenQuestions callback (recvfrom storage datagram).1 datagram.length header
      header.questions 12 0 state = none := by
    have hclass : mdnsNtohs (recvfrom storage datagram).1 (offset + 2) = none :=
      mdnsNtohs_outside (by dsimp only at hfull; omega)
    rw [hquestions, listenQuestions, hended]
    dsimp only
    rw [hclass]
    cases mdnsNtohs (recvfrom storage datagram).1 offset <;> rfl
  unfold mdnsSocketListen
  dsimp only
  rw [hreceived, if_neg hinside, hread]
  dsimp only
  rw [hasked]

/-- A query with an id and flags that tells of two questions and of a record. -/
def twoQuestions : Message :=
  { queryId := 7, flags := 256, questions := [⟨[], 0, 0⟩, ⟨[], 0, 0⟩],
    additional := [⟨MDNS_RECORDTYPE_TXT, MDNS_CLASS_IN, 10, [], .texts []⟩] }

/-- 2045 bytes for a storage of 2048. -/
theorem mdnsSocketListen_outside_full :
    mdnsSocketListen (fun _ _ _ state => some (false, state)) (List.replicate 2048 0)
      (twoQuestions.header ++ wire (List.replicate 16 (List.replicate 126 97))) () = none := by
  have hlabel : (List.replicate 126 (97 : UInt8)).length = 126 := List.length_replicate
  have hroom : room (List.replicate 16 (List.replicate 126 97)) = 2033 := by
    rw [room, List.map_replicate, hlabel, List.sum_replicate_nat]
  have hlabels : ∀ label ∈ List.replicate 16 (List.replicate 126 (97 : UInt8)),
      label ≠ [] ∧ label.length < refStart := by
    intro label hmem
    obtain rfl := (List.mem_replicate.mp hmem).2
    exact ⟨List.cons_ne_nil _ _, by rw [hlabel]; decide⟩
  have hlength : (twoQuestions.header ++ wire (List.replicate 16 (List.replicate 126 97))).length =
      2045 := by
    rw [List.length_append, length_wire, hroom]
    rfl
  have hname : NameAt (bytesOf (twoQuestions.header ++ (wire (List.replicate 16
      (List.replicate 126 97)) ++ []))) 1 twoQuestions.header.length _ _ :=
    nameAt_wire twoQuestions.header [] hlabels
  rw [List.append_nil] at hname
  obtain ⟨count, hcount, hspans⟩ := (hname.more maxRefs (by decide)).spans
  have hheader : readHeader twoQuestions.header = some ⟨7, 256, 2, 0, 0, 1⟩ := rfl
  refine mdnsSocketListen_outside _ () (readHeader_append hheader _) (by decide) ?_ ?_ hspans ?_
  · rw [hlength, List.length_replicate]
    decide
  · rw [List.length_replicate] at hcount
    exact hcount.trans (by decide)
  · rw [hroom, List.length_replicate]
    decide

end KdeConnectNx.DeviceFinding
