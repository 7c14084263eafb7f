import KdeConnectNx.MdnsExchange
import KdeConnectNx.PacketFormat

/-!
# Finding devices

A device asks for the service of this program and answers those who ask for it: with its
name as a host, its addresses and a few texts, among them its id. Of an answer are kept the
sender, an address and the id; a device whose id is another's is reported.
-/

namespace KdeConnectNx.MdnsDiscovery

open DomainNames MdnsReader MdnsMessages MdnsWriter MdnsAnswers MdnsExchange
open PacketFormat (DeviceInfo)

/-- The bytes of a `std::string`. -/
def bytes (s : String) : List UInt8 := JsonText.utf8 s.toList

/-- `kServiceType`. -/
def kServiceType : List UInt8 := bytes "_kdeconnect._udp.local."

/-- `hostname_or_default`, with what `gethostname` gives, if it gives something. -/
def hostnameOrDefault (name : Option (List UInt8)) : List UInt8 :=
  match name with
  | some (first :: rest) => (first :: rest) ++ bytes ".local."
  | _ => bytes "MiniKDEConnect.local."

/-- `ipv4_to_string`. -/
def ipv4ToString (addr : InAddr) : List UInt8 :=
  bytes (toString addr.a.toNat ++ "." ++ toString addr.b.toNat ++ "." ++ toString addr.c.toNat ++
    "." ++
    toString addr.d.toNat)

/-- `AnnouncedInfo`, its texts in the order in which the hash map is gone through. -/
structure AnnouncedInfo where
  serviceType : List UInt8
  serviceInstance : List UInt8
  hostname : List UInt8
  addressesV4 : List InAddr
  port : ℕ
  txtRecords : List (List UInt8 × List UInt8)

/-- The device that announces itself: what it tells of itself, and what its system does. -/
structure Announcer where
  localDevice : DeviceInfo
  tcpPort : ℕ
  gethostname : Option (List UInt8)
  addresses : List InAddr
  iterate : List (List UInt8 × List UInt8) → List (List UInt8 × List UInt8)
  iterate_perm : ∀ records, (iterate records).Perm records

/-- `build_announced_info`. -/
def buildAnnouncedInfo (self : Announcer) : AnnouncedInfo where
  serviceType := kServiceType
  serviceInstance := bytes self.localDevice.id ++ bytes "." ++ kServiceType
  hostname := hostnameOrDefault self.gethostname
  addressesV4 := self.addresses
  port := self.tcpPort % 65536
  txtRecords := self.iterate
    [(bytes "id", bytes self.localDevice.id), (bytes "name", bytes self.localDevice.name),
      (bytes "type", bytes self.localDevice.type),
      (bytes "protocol", bytes (toString self.localDevice.protocolVersion.toInt))]

/-- `make_record` with `MDNS_RECORDTYPE_PTR`. -/
def ptrRecord (self : AnnouncedInfo) : Record where
  name := self.serviceType
  data := .ptr self.serviceInstance

/-- `make_record` with `MDNS_RECORDTYPE_SRV`. -/
def srvRecord (self : AnnouncedInfo) : Record where
  name := self.serviceInstance
  data := .srv 0 0 self.port self.hostname

/-- `make_record` with `MDNS_RECORDTYPE_A`. -/
def aRecord (self : AnnouncedInfo) (addr : InAddr) : Record where
  name := self.hostname
  data := .a addr

/-- `make_record` with `MDNS_RECORDTYPE_TXT`. -/
def txtRecord (self : AnnouncedInfo) (txt : List UInt8 × List UInt8) : Record where
  name := self.serviceInstance
  data := .txt txt.1 txt.2

/-- Whom a datagram is sent to: the one who asked, or all. -/
inductive Target where
  | asker
  | all
deriving DecidableEq

/-- The buffer of the answers, which stays from one to the next, and what was sent. -/
structure Service where
  sendBuffer : List UInt8
  sent : List (Target × List UInt8) := []

/-- `write_records`: whether it fails, with `sendto` telling whether a datagram is taken. -/
def writeRecords (sendto : Target → List UInt8 → Bool) (e : Entry) (name : List UInt8)
    (answer : Record) (additional : List Record) (s : Service) : Option (Bool × Service) :=
  let target := if e.rclass &&& MDNS_UNICAST_RESPONSE ≠ 0 then Target.asker else Target.all
  -- the array for the additional records has 64 places
  if 64 < additional.length then none
  else
    (if e.rclass &&& MDNS_UNICAST_RESPONSE ≠ 0 then
      mdnsQueryAnswerUnicast s.sendBuffer e.queryId e.rtype name answer [] additional
    else mdnsQueryAnswerMulticast s.sendBuffer answer [] additional).map fun r =>
      match r.2 with
      | none => (true, { s with sendBuffer := r.1 })
      | some datagram =>
        if sendto target datagram then
          (false, { sendBuffer := r.1, sent := s.sent ++ [(target, datagram)] })
        else (true, { s with sendBuffer := r.1 })

/-- `service_callback`. -/
def serviceCallback (self : AnnouncedInfo) (sendto : Target → List UInt8 → Bool) :
    Callback Service :=
  fun data size e s =>
    if e.entry ≠ .question then some (false, s)
    else
      match mdnsStringExtract data size e.nameOffset 256 with
      | none => none
      | some extracted =>
        let queriedName := extracted.elim [] Prod.fst
        let addresses := self.addressesV4.map (aRecord self)
        let texts := self.txtRecords.map (txtRecord self)
        if queriedName = self.serviceType ∧
            (e.rtype = MDNS_RECORDTYPE_PTR ∨ e.rtype = MDNS_RECORDTYPE_ANY) then
          writeRecords sendto e queriedName (ptrRecord self) (srvRecord self :: addresses ++ texts)
            s
        else if queriedName = self.serviceInstance ∧
            (e.rtype = MDNS_RECORDTYPE_SRV ∨ e.rtype = MDNS_RECORDTYPE_ANY) then
          writeRecords sendto e queriedName (srvRecord self) (addresses ++ texts) s
        else if queriedName = self.hostname ∧
            (e.rtype = MDNS_RECORDTYPE_A ∨ e.rtype = MDNS_RECORDTYPE_ANY) then
          match self.addressesV4.head? with
          | none => some (false, s)
          | some first => writeRecords sendto e queriedName (aRecord self first) texts s
        else some (false, s)

/-- `mdns_record_parse_a`: a record of another length gives the address of zeros. -/
def mdnsRecordParseA (buffer : List UInt8) (size offset length : ℕ) : Option InAddr :=
  if offset + length ≤ size ∧ length = 4 then
    match buffer[offset]?, buffer[offset + 1]?, buffer[offset + 2]?, buffer[offset + 3]? with
    | some a, some b, some c, some d => some ⟨a, b, c, d⟩
    | _, _, _, _ => none
  else some ⟨0, 0, 0, 0⟩

/-- Where the key of a string ends; none of it is a key when a byte cannot be printed. -/
def separatorFrom (sublength : ℕ) (c : ℕ) : List UInt8 → ℕ
  | [] => sublength
  | byte :: rest =>
    if byte < 0x20 ∨ 0x7E < byte then 0
    else if byte = 61 then c
    else separatorFrom sublength (c + 1) rest

/-- The key and the value of a string; a string without a separator is a key. -/
def txtPair (strdata : List UInt8) (separator : ℕ) : List UInt8 × List UInt8 :=
  (strdata.take separator, strdata.drop (separator + 1))

/-- The loop of `mdns_record_parse_txt`. -/
def parseTxtFrom (buffer : List UInt8) (endPos capacity offset : ℕ)
    (records : List (List UInt8 × List UInt8)) : Option (List (List UInt8 × List UInt8)) :=
  if _h : offset < endPos ∧ records.length < capacity then
    match buffer[offset]? with
    | none => none
    | some byte =>
      if endPos - offset ≤ byte.toNat then some records
      else
        match sliceOf buffer (offset + 1) byte.toNat with
        | none => none
        | some strdata =>
          let separator := separatorFrom byte.toNat 0 strdata
          parseTxtFrom buffer endPos capacity (offset + byte.toNat + 1)
            (if separator = 0 then records else records ++ [txtPair strdata separator])
  else some records
termination_by endPos - offset
decreasing_by omega

/-- `mdns_record_parse_txt`. -/
def mdnsRecordParseTxt (buffer : List UInt8) (size offset length capacity : ℕ) :
    Option (List (List UInt8 × List UInt8)) :=
  parseTxtFrom buffer (min (offset + length) size) capacity offset []

/-- `QueryState`. -/
structure QueryState where
  instanceId : List UInt8 := []
  host : List UInt8 := []
  deviceId : List UInt8 := []
  sawPtr : Bool := false
deriving DecidableEq

/-- `sockaddr_to_ipv4_string`, of a sender without an IPv4 address nothing. -/
def sockaddrToIpv4String (sender : Option InAddr) : List UInt8 := sender.elim [] ipv4ToString

/-- The branch of `discovery_callback` for a PTR record. -/
def keepPtr (sender : Option InAddr) (name : List UInt8) (state : QueryState) : QueryState :=
  { state with
    instanceId := firstLabel name
    host := sockaddrToIpv4String sender
    sawPtr := true }

/-- The first value under the key `id` is kept. -/
def keepTxt (records : List (List UInt8 × List UInt8)) (state : QueryState) : QueryState :=
  (records.find? fun pair => pair.1 = bytes "id").elim state fun pair =>
    { state with deviceId := pair.2 }

/-- `discovery_callback`. -/
def discoveryCallback (sender : Option InAddr) : Callback QueryState :=
  fun data size e state =>
    if e.rtype = MDNS_RECORDTYPE_PTR then
      (mdnsStringExtract data size e.nameOffset 256).map fun extracted =>
        (false, keepPtr sender (extracted.elim [] Prod.fst) state)
    else if e.rtype = MDNS_RECORDTYPE_A then
      (mdnsRecordParseA data size e.recordOffset e.recordLength).map fun addr =>
        (false, { state with host := ipv4ToString addr })
    else if e.rtype = MDNS_RECORDTYPE_TXT then
      (mdnsRecordParseTxt data size e.recordOffset e.recordLength 16).map fun records =>
        (false, keepTxt records state)
    else some (false, state)

/-- `on_peer_found` is called with the id and the host of a device that is another one. -/
def peerFound (localId : List UInt8) (state : QueryState) : Option (List UInt8 × List UInt8) :=
  if state.sawPtr ∧ state.instanceId ≠ [] ∧ state.host ≠ [] ∧ state.deviceId ≠ [] ∧
      state.deviceId ≠ localId then some (state.deviceId, state.host)
  else none

/-- The loop's part for the discovery socket: the storage behind it and the device found. -/
def discoveryHears (localId : List UInt8) (sender : Option InAddr) (storage datagram : List UInt8) :
    Option (List UInt8 × Option (List UInt8 × List UInt8)) :=
  (mdnsQueryRecv (discoveryCallback sender) 0 storage datagram {}).map fun r =>
    (r.1, peerFound localId r.2.2)

/-- The loop's part for the service socket: the storage behind it and the answers. -/
def serviceHears (self : AnnouncedInfo) (sendto : Target → List UInt8 → Bool)
    (storage sendBuffer datagram : List UInt8) : Option (List UInt8 × Service) :=
  (mdnsSocketListen (serviceCallback self sendto) storage datagram { sendBuffer := sendBuffer }).map
    fun r => (r.1, r.2.2)

/-- `send_query`, from a socket that is not bound to the port of mDNS. -/
def sendQuery (self : AnnouncedInfo) (localPort : Option ℕ) (buffer : List UInt8) :
    Option (List UInt8 × Option (List UInt8)) :=
  mdnsQuerySend localPort MDNS_RECORDTYPE_PTR self.serviceType buffer 0

/-- `announce`, at the start and when the device says goodbye. -/
def announce (self : AnnouncedInfo) (goodbye : Bool) (buffer : List UInt8) :
    Option (List UInt8 × Option (List UInt8)) :=
  let additional := srvRecord self :: self.addressesV4.map (aRecord self) ++
    self.txtRecords.map (txtRecord self)
  if goodbye then mdnsGoodbyeMulticast buffer (ptrRecord self) [] additional
  else mdnsAnnounceMulticast buffer (ptrRecord self) [] additional

/-! ## The strings of a TXT record -/

variable {buffer storage datagram : List UInt8} {size offset start stop capacity : ℕ}

/-- A key and a value that come back out of a TXT record. -/
structure ProperPair (pair : List UInt8 × List UInt8) : Prop where
  key_ne_nil : pair.1 ≠ []
  printable : ∀ byte ∈ pair.1, ¬ (byte < 0x20 ∨ 0x7E < byte) ∧ byte ≠ 61
  short : pair.1.length + pair.2.length + 1 ≤ 255

/-- The first `=` ends the key. -/
theorem separatorFrom_key {key : List UInt8}
    (hkey : ∀ byte ∈ key, ¬ (byte < 0x20 ∨ 0x7E < byte) ∧ byte ≠ 61) (sublength c : ℕ)
    (value : List UInt8) : separatorFrom sublength c (key ++ 61 :: value) = c + key.length := by
  induction key generalizing c with
  | nil =>
    rw [List.nil_append, separatorFrom, if_neg (by decide), if_pos rfl]
    rfl
  | cons byte key ih =>
    obtain ⟨hbyte, hne⟩ := hkey byte List.mem_cons_self
    rw [List.cons_append, separatorFrom, if_neg hbyte, if_neg hne,
      ih (fun other hother => hkey other (List.mem_cons_of_mem _ hother)), List.length_cons]
    omega

/-- Key and value are what stands before and behind it. -/
theorem txtPair_key (key value : List UInt8) :
    txtPair (key ++ 61 :: value) key.length = (key, value) := by
  rw [txtPair, List.take_left, ← List.drop_drop, List.drop_left]
  rfl

/-- The strings come back in their order, as many as there is room for. -/
theorem parseTxtFrom_eq {strings : List (List UInt8 × List UInt8)}
    (hproper : ∀ pair ∈ strings, ProperPair pair)
    (htext : TextAt (bytesOf (buffer.take size)) offset (txtData strings))
    (hstop : stop = offset + (txtData strings).length) (records : List (List UInt8 × List UInt8)) :
    parseTxtFrom buffer stop capacity offset records =
      some (records ++ strings.take (capacity - records.length)) := by
  induction strings generalizing offset records with
  | nil =>
    have hend : stop = offset := by simpa [txtData] using hstop
    rw [parseTxtFrom, dif_neg (by omega), List.take_nil, List.append_nil]
  | cons pair strings ih =>
    obtain ⟨key, value⟩ := pair
    have hpair := hproper (key, value) List.mem_cons_self
    have hshort := hpair.short
    have hlong := length_txtString key value
    have hpos := List.length_pos_iff.mpr hpair.key_ne_nil
    dsimp only at hshort hpos
    rw [txtData_cons] at htext hstop
    dsimp only at htext hstop
    obtain ⟨hstring, hrest⟩ := textAt_append.mp htext
    rw [List.length_append] at hstop
    rw [parseTxtFrom]
    by_cases hfull : records.length < capacity
    · have hlength : (UInt8.ofNat (key.length + value.length + 1)).toNat = key.length +
          value.length + 1 := by
        rw [UInt8.toNat_ofNat']
        exact Nat.mod_eq_of_lt (by omega)
      have hbyte := (bytesOf_take_eq.mp (hstring 0 _ rfl)).2
      rw [Nat.add_zero] at hbyte
      have hstrdata : TextAt (bytesOf (buffer.take size)) (offset + 1) (key ++ 61 :: value) := by
        intro i byte hi
        rw [Nat.add_assoc, Nat.add_comm 1 i]
        exact hstring (i + 1) byte hi
      have hslice := sliceOf_of_textAt hstrdata (by simp) (Nat.le_refl _)
      rw [List.take_length, List.length_append, List.length_cons] at hslice
      rw [dif_pos ⟨by omega, hfull⟩, hbyte]
      dsimp only
      rw [if_neg (by omega), hlength]
      have hsame : key.length + value.length + 1 = key.length + (value.length + 1) := by omega
      simp only [hsame, hslice, separatorFrom_key hpair.printable, Nat.zero_add, txtPair_key]
      rw [if_neg (by omega)]
      have hplace : offset + (key.length + (value.length + 1)) + 1 = offset +
          (txtString key value).length := by
        omega
      rw [hplace, ih (fun other hother => hproper other (List.mem_cons_of_mem _ hother)) hrest
        (by omega)]
      have hone : capacity - records.length = capacity - (records.length + 1) + 1 := by omega
      rw [List.length_append, List.length_singleton, hone, List.take_succ_cons, List.append_assoc,
        List.singleton_append]
    · have hzero : capacity - records.length = 0 := by omega
      rw [dif_neg (by omega), hzero, List.take_zero, List.append_nil]

/-! ## What is kept of an answer -/

/-- A record has the type its data is of, and the strings of a TXT record come back. -/
def Typed (item : Item) : Prop :=
  match item.content with
  | .one data => item.rtype = data.type ∧ data.strings = none
  | .texts strings => item.rtype = MDNS_RECORDTYPE_TXT ∧ ∀ pair ∈ strings, ProperPair pair

/-- What is kept of a record by what it says. -/
def keepItem (sender : Option InAddr) (item : Item) (state : QueryState) : QueryState :=
  match item.content with
  | .one (.ptr _) => keepPtr sender (item.name.take 256) state
  | .one (.a addr) => { state with host := ipv4ToString addr }
  | .texts strings => keepTxt (strings.take 16) state
  | _ => state

/-- Four bytes are an address. -/
theorem parseA_of_text {addr : InAddr} (h : TextAt (bytesOf (buffer.take size)) start addr.bytes) :
    mdnsRecordParseA buffer size start 4 = some addr := by
  have ha := h 0 _ rfl
  have hb := h 1 _ rfl
  have hc := h 2 _ rfl
  have hd := h 3 _ rfl
  have hlast := lt_size hd
  rw [Nat.add_zero] at ha
  rw [mdnsRecordParseA, if_pos ⟨by omega, rfl⟩, (bytesOf_take_eq.mp ha).2,
    (bytesOf_take_eq.mp hb).2, (bytesOf_take_eq.mp hc).2, (bytesOf_take_eq.mp hd).2]

section Callback

variable {e : Entry} {state : QueryState} (sender : Option InAddr)

/-- A PTR record gives the id and the sender's address. -/
theorem discoveryCallback_ptr (h : e.rtype = MDNS_RECORDTYPE_PTR) :
    discoveryCallback sender buffer size e state =
      (mdnsStringExtract buffer size e.nameOffset 256).map fun extracted =>
        (false, keepPtr sender (extracted.elim [] Prod.fst) state) := if_pos h

/-- An A record gives the address it holds. -/
theorem discoveryCallback_a (h : e.rtype = MDNS_RECORDTYPE_A) :
    discoveryCallback sender buffer size e state =
      (mdnsRecordParseA buffer size e.recordOffset e.recordLength).map fun addr =>
        (false, { state with host := ipv4ToString addr }) := by
  rw [discoveryCallback, if_neg (by rw [h]; decide), if_pos h]

/-- A TXT record gives its strings. -/
theorem discoveryCallback_txt (h : e.rtype = MDNS_RECORDTYPE_TXT) :
    discoveryCallback sender buffer size e state =
      (mdnsRecordParseTxt buffer size e.recordOffset e.recordLength 16).map fun records =>
        (false, keepTxt records state) := by
  rw [discoveryCallback, if_neg (by rw [h]; decide), if_neg (by rw [h]; decide), if_pos h]

/-- All other records are passed over. -/
theorem discoveryCallback_other (hptr : e.rtype ≠ MDNS_RECORDTYPE_PTR)
    (ha : e.rtype ≠ MDNS_RECORDTYPE_A) (htxt : e.rtype ≠ MDNS_RECORDTYPE_TXT) :
    discoveryCallback sender buffer size e state = some (false, state) := by
  rw [discoveryCallback, if_neg hptr, if_neg ha, if_neg htxt]

end Callback

/-- Of each record is kept what it says, wherever it stands. -/
theorem discoveryCallback_heeds (sender : Option InAddr) (hsize : size ≤ buffer.length) :
    Heeds (discoveryCallback sender) buffer size Typed fun _ => keepItem sender := by
  intro type queryId item spot htyped hplaced hcontent hstop state
  obtain ⟨rtype, rclass, ttl, name, content⟩ := item
  unfold Typed at htyped
  cases content with
  | texts strings =>
    obtain ⟨rfl, hproper⟩ := htyped
    obtain ⟨htext, hspot⟩ := hcontent
    have hmin : min (spot.start + (spot.stop - spot.start)) size = spot.stop := by omega
    have hparse : mdnsRecordParseTxt buffer size spot.start (spot.stop - spot.start) 16 =
        some (strings.take 16) := by
      rw [mdnsRecordParseTxt, hmin, parseTxtFrom_eq hproper htext hspot, List.nil_append]
      rfl
    rw [discoveryCallback_txt sender rfl]
    dsimp only [entryOf]
    rw [hparse]
    rfl
  | one data =>
    obtain ⟨rfl, hdata⟩ := htyped
    cases data with
    | ptr target =>
      have hname := hplaced.name
      dsimp only [Item.placeAt] at hname
      rw [discoveryCallback_ptr sender rfl]
      dsimp only [entryOf]
      rw [extract_of_stands hsize hname]
      rfl
    | a addr =>
      obtain ⟨htext, hspot⟩ := hcontent
      have hfour : spot.stop - spot.start = 4 := by omega
      rw [discoveryCallback_a sender rfl]
      dsimp only [entryOf]
      rw [hfour, parseA_of_text htext]
      rfl
    | srv priority weight port target =>
      exact discoveryCallback_other sender (of_decide_eq_true rfl) (of_decide_eq_true rfl)
        (of_decide_eq_true rfl)
    | aaaa addr =>
      exact discoveryCallback_other sender (of_decide_eq_true rfl) (of_decide_eq_true rfl)
        (of_decide_eq_true rfl)
    | txt key value => cases hdata

/-- An answer that says something is heard as such, whatever the storage held before. -/
theorem discoveryHears_of_says (localId : List UInt8) (sender : Option InAddr) {message : Message}
    (hfits : datagram.length ≤ storage.length) (hsmall : datagram.length < 65536)
    (htells : Says datagram message)
    (htyped : ∀ item ∈ message.answers ++ message.authority ++ message.additional, Typed item) :
    ∃ storage', storage'.length = storage.length ∧
      discoveryHears localId sender storage datagram =
        some (storage', peerFound localId (message.heeded (fun _ => keepItem sender) {})) := by
  have hsize : datagram.length ≤ (recvfrom storage datagram).1.length := by
    rw [length_recvfrom]
    exact hfits
  obtain ⟨total, hrecv⟩ := mdnsQueryRecv_of_says hfits hsmall htells
    (discoveryCallback_heeds sender hsize) htyped {}
  exact ⟨_, length_recvfrom storage datagram, by rw [discoveryHears, hrecv, Option.map_some]⟩

/-! ## The answer to a query -/

variable {self : AnnouncedInfo} {last : Label} {n : ℕ}

/-- The room that the answer to a question for the service needs at most. -/
def answerRoom (info : AnnouncedInfo) : ℕ :=
  12 + (info.serviceType.length + 1) + 4 +
    (info.serviceType.length + 1 + 10 + (info.serviceInstance.length + 1)) +
    (info.serviceInstance.length + 1 + 10 + (6 + (info.hostname.length + 1))) +
    info.addressesV4.length * (info.hostname.length + 1 + 10 + 4) +
    (info.serviceInstance.length + 1 + 10 + (txtData info.txtRecords).length)

/-- What is announced can be written: its names end alike, its strings come back, and there is
room for it. -/
structure Announceable (info : AnnouncedInfo) (last : Label) (length : ℕ) : Prop where
  serviceType : ProperName last info.serviceType
  serviceInstance : ProperName last info.serviceInstance
  hostname : ProperName last info.hostname
  texts : ∀ pair ∈ info.txtRecords, ProperPair pair
  few : 1 + info.addressesV4.length + info.txtRecords.length ≤ 64
  fits : 48 ≤ length ∧ length ≤ 0x4000
  room : answerRoom info ≤ length

/-- The records behind the answer to a question for the service. -/
def additionalOf (self : AnnouncedInfo) : List Record :=
  srvRecord self :: self.addressesV4.map (aRecord self) ++ self.txtRecords.map (txtRecord self)

/-- The records of the announced strings are TXT. -/
theorem isTxt_txtRecord (self : AnnouncedInfo) (txt : List UInt8 × List UInt8) :
    isTxt (txtRecord self txt) = true := rfl

/-- The strings of two lists, one behind the other. -/
theorem stringsOf_append (first second : List Record) :
    stringsOf (first ++ second) = stringsOf first ++ stringsOf second := List.filterMap_append

/-- The strings of an answer are those that are announced. -/
theorem stringsOf_additional (self : AnnouncedInfo) :
    stringsOf (additionalOf self) = self.txtRecords := by
  have haddresses : stringsOf (srvRecord self :: self.addressesV4.map (aRecord self)) = [] := by
    rw [stringsOf, List.filterMap_eq_nil_iff]
    intro record hmem
    rcases List.mem_cons.mp hmem with rfl | hmem
    · rfl
    · obtain ⟨addr, -, rfl⟩ := List.mem_map.mp hmem
      rfl
  have htexts : stringsOf (self.txtRecords.map (txtRecord self)) = self.txtRecords := by
    rw [stringsOf, List.filterMap_map]
    exact List.filterMap_some
  rw [additionalOf, stringsOf_append, haddresses, htexts, List.nil_append]

/-- The records that are no TXT records, whatever is done to their class and time. -/
theorem others_additional (self : AnnouncedInfo) (prepare : Record → Record)
    (hprepare : ∀ record, (prepare record).data = record.data) :
    ((additionalOf self).map prepare).filter (fun record => !isTxt record) =
      (srvRecord self :: self.addressesV4.map (aRecord self)).map prepare := by
  have hsame : ∀ record, isTxt (prepare record) = isTxt record := by
    intro record
    rw [isTxt, isTxt, hprepare]
  rw [additionalOf, List.map_append, List.filter_append]
  have hothers : ((srvRecord self :: self.addressesV4.map (aRecord self)).map prepare).filter
      (fun record => !isTxt record) = (srvRecord self :: self.addressesV4.map (aRecord self)).map
        prepare := by
    rw [List.filter_eq_self]
    intro record hmem
    obtain ⟨old, hold, rfl⟩ := List.mem_map.mp hmem
    rw [hsame]
    rcases List.mem_cons.mp hold with rfl | hold
    · rfl
    · obtain ⟨addr, -, rfl⟩ := List.mem_map.mp hold
      rfl
  have htexts : ((self.txtRecords.map (txtRecord self)).map prepare).filter
      (fun record => !isTxt record) = [] := by
    rw [List.filter_eq_nil_iff]
    intro record hmem
    obtain ⟨old, hold, rfl⟩ := List.mem_map.mp hmem
    obtain ⟨txt, -, rfl⟩ := List.mem_map.mp hold
    rw [hsame]
    simp [isTxt_txtRecord]
  rw [hothers, htexts, List.append_nil]

/-- The TXT record has the name of the service instance. -/
theorem firstTxt_additional (self : AnnouncedInfo) :
    firstTxt (additionalOf self) = self.txtRecords.head?.map (txtRecord self) := by
  have hothers : (srvRecord self :: self.addressesV4.map (aRecord self)).find?
      (fun record => record.data.strings.isSome) = none := by
    rw [List.find?_eq_none]
    intro record hmem
    rcases List.mem_cons.mp hmem with rfl | hmem
    · exact of_decide_eq_true rfl
    · obtain ⟨addr, -, rfl⟩ := List.mem_map.mp hmem
      exact of_decide_eq_true rfl
  rw [firstTxt, additionalOf, List.find?_append, hothers, Option.none_or]
  cases self.txtRecords <;> rfl

/-- No records can always be written. -/
theorem proper_section_nil (last : Label) (prepare : Record → Record) :
    ProperSection last prepare [] :=
  ⟨fun _ hmem => absurd hmem List.not_mem_nil, fun first hfirst => by cases hfirst⟩

/-- The PTR record of an announceable device can be written. -/
theorem proper_ptr (h : Announceable self last n) : ProperRecord last (ptrRecord self) :=
  ⟨h.serviceType, h.serviceInstance⟩

/-- So can what goes with it. -/
theorem proper_section (h : Announceable self last n) (prepare : Record → Record)
    (hname : ∀ record, (prepare record).name = record.name)
    (hdata : ∀ record, (prepare record).data = record.data) :
    ProperSection last prepare (additionalOf self) := by
  refine ⟨fun record hmem htxt => ?_, fun first hfirst => ?_⟩
  · have hproper : isTxt record = false → ProperRecord last record := by
      intro hnot
      unfold additionalOf at hmem
      rcases List.mem_append.mp hmem with hmem | hmem
      · rcases List.mem_cons.mp hmem with rfl | hmem
        · exact ⟨h.serviceInstance, h.hostname⟩
        · obtain ⟨addr, -, rfl⟩ := List.mem_map.mp hmem
          exact ⟨h.hostname, trivial⟩
      · obtain ⟨txt, -, rfl⟩ := List.mem_map.mp hmem
        cases hnot
    rw [isTxt, hdata] at htxt
    obtain ⟨hrecord, hrecordData⟩ := hproper htxt
    exact ⟨(hname record).symm ▸ hrecord, (hdata record).symm ▸ hrecordData⟩
  · rw [firstTxt_additional] at hfirst
    obtain ⟨txt, -, rfl⟩ := Option.map_eq_some_iff.mp hfirst
    exact h.serviceInstance

/-- The room the additional records need. -/
theorem sectionRoom_additional (self : AnnouncedInfo) (prepare : Record → Record)
    (hname : ∀ record, (prepare record).name = record.name)
    (hdata : ∀ record, (prepare record).data = record.data) :
    sectionRoom prepare (additionalOf self) ≤
      (self.serviceInstance.length + 1 + 10 + (6 + (self.hostname.length + 1))) +
      self.addressesV4.length * (self.hostname.length + 1 + 10 + 4) +
      (self.serviceInstance.length + 1 + 10 + (txtData self.txtRecords).length) := by
  have hroom : ∀ record, recordRoom (prepare record) = recordRoom record := by
    intro record
    rw [recordRoom, hname, hdata, recordRoom]
  have hothers : othersRoom ((additionalOf self).map prepare) =
      (self.serviceInstance.length + 1 + 10 + (6 + (self.hostname.length + 1))) +
        self.addressesV4.length * (self.hostname.length + 1 + 10 + 4) := by
    rw [othersRoom, others_additional self prepare hdata, List.map_cons, List.map_cons,
      List.sum_cons, hroom, List.map_map, List.map_map]
    have hsame : (recordRoom ∘ prepare) ∘ aRecord self = fun _ => self.hostname.length + 1 + 10 +
        4 := by
      funext addr
      exact hroom (aRecord self addr)
    rw [hsame, List.map_const', List.sum_replicate_nat]
    rfl
  have htxt : txtRoom (additionalOf self) ≤
      self.serviceInstance.length + 1 + 10 + (txtData self.txtRecords).length := by
    rw [txtRoom, firstTxt_additional, stringsOf_additional]
    cases self.txtRecords.head? with
    | none => exact Nat.zero_le _
    | some txt => exact Nat.le_refl _
  rw [sectionRoom, hothers]
  omega

/-- What the answer to a question for the service says to the one who asked. -/
def answerSays (self : AnnouncedInfo) (queryId rtype : ℕ) : Message :=
  answerMessage (unicastRecord MDNS_CLASS_IN 10) MDNS_CLASS_IN 10 queryId
    [⟨self.serviceType, rtype, MDNS_UNICAST_RESPONSE ||| MDNS_CLASS_IN⟩]
    { ptrRecord self with rclass := MDNS_CLASS_IN, ttl := 10 } [] (additionalOf self)

/-- The question for the service is answered to the one who asked, and the answer says the
records of the service. -/
theorem writeRecords_asker (h : Announceable self last n) {sendto : Target → List UInt8 → Bool}
    (hsendto : ∀ datagram, sendto .asker datagram = true) {e : Entry}
    (hunicast : e.rclass &&& MDNS_UNICAST_RESPONSE ≠ 0) {s : Service}
    (hbuffer : s.sendBuffer.length = n) :
    ∃ s' datagram, writeRecords sendto e self.serviceType (ptrRecord self) (additionalOf self) s =
        some (false, s') ∧ s'.sendBuffer.length = n ∧ s'.sent = s.sent ++ [(.asker, datagram)] ∧
      datagram.length ≤ n ∧ Says datagram (answerSays self e.queryId e.rtype) := by
  have hsection :=
    sectionRoom_additional self (unicastRecord MDNS_CLASS_IN 10) (fun _ => rfl) (fun _ => rfl)
  have hroom := h.room
  unfold answerRoom at hroom
  have hempty : sectionRoom (unicastRecord MDNS_CLASS_IN 10) [] = 0 := rfl
  have hptr : recordRoom (ptrRecord self) =
      self.serviceType.length + 1 + 10 + (self.serviceInstance.length + 1) := rfl
  obtain ⟨buffer, datagram, hanswer, hlength, hdatagram, htells⟩ :=
    mdnsQueryAnswerUnicast_eq e.queryId e.rtype (hbuffer.symm ▸ h.fits.1) (hbuffer.symm ▸ h.fits.2)
      h.serviceType (proper_ptr h) (proper_section_nil _ _)
        (proper_section h _ (fun _ => rfl) (fun _ => rfl))
      (by rw [hempty, hptr, hbuffer]; omega)
  refine ⟨{ sendBuffer := buffer, sent := s.sent ++ [(.asker, datagram)] }, datagram, ?_,
    hlength.trans hbuffer, rfl, hbuffer ▸ hdatagram, htells⟩
  have hfew := h.few
  have hcount : ¬ 64 < (additionalOf self).length := by
    simp only [additionalOf, List.length_append, List.length_cons, List.length_map]
    omega
  rw [writeRecords, if_neg hcount]
  simp only [if_pos hunicast]
  rw [hanswer, Option.map_some]
  dsimp only
  rw [hsendto, if_pos rfl]

/-- A question for the service goes to the branch for it. -/
theorem serviceCallback_service {storage : List UInt8} {size : ℕ} {e : Entry} {s : Service}
    {behind : ℕ} {sendto : Target → List UInt8 → Bool} (hsize : size ≤ storage.length)
    (hquestion : e.entry = .question) (hrtype : e.rtype = MDNS_RECORDTYPE_PTR)
    (hname : NameStands (bytesOf (storage.take size)) self.serviceType e.nameOffset behind)
    (hshort : self.serviceType.length ≤ 256) :
    serviceCallback self sendto storage size e s =
      writeRecords sendto e self.serviceType (ptrRecord self) (additionalOf self) s := by
  rw [serviceCallback, if_neg (not_not.mpr hquestion), extract_of_stands hsize hname,
    List.take_of_length_le hshort]
  exact if_pos ⟨rfl, .inl hrtype⟩

/-- What a query for the service asks. -/
def querySays (self : AnnouncedInfo) (localPort : Option ℕ) : Message :=
  { queryId := 0, flags := 0,
    questions := [⟨self.serviceType, MDNS_RECORDTYPE_PTR, queryRclass localPort⟩] }

/-- The service once a question for it is answered. -/
def answered (self : AnnouncedInfo) (sendto : Target → List UInt8 → Bool) (question : Question)
    (s : Service) : Service :=
  (writeRecords sendto (questionEntry 0 question 0 0) self.serviceType (ptrRecord self)
    (additionalOf self) s).elim s Prod.snd

/-- What a service is after it answered a question. -/
theorem answered_eq {sendto : Target → List UInt8 → Bool} {question : Question} {s s' : Service}
    (h : writeRecords sendto (questionEntry 0 question 0 0) self.serviceType (ptrRecord self)
      (additionalOf self) s = some (false, s')) : answered self sendto question s = s' := by
  rw [answered, h]
  rfl

/-- A query from another port than the one of mDNS is answered to the one who asked, with the
records of the service, whatever the storages held before. -/
theorem serviceHears_query (h : Announceable self last n) (hshort : self.serviceType.length ≤ 256)
    {sendto : Target → List UInt8 → Bool} (hsendto : ∀ datagram, sendto .asker datagram = true)
    {localPort : Option ℕ} (hport : localPort ≠ some MDNS_PORT) {sendBuffer : List UInt8}
    (hbuffer : sendBuffer.length = n) (hfits : datagram.length ≤ storage.length)
    (hsmall : datagram.length < 65536) (htells : Says datagram (querySays self localPort)) :
    ∃ storage' s answer, serviceHears self sendto storage sendBuffer datagram = some (storage', s) ∧
      storage'.length = storage.length ∧ s.sendBuffer.length = n ∧ s.sent = [(.asker, answer)] ∧
      answer.length ≤ n ∧ Says answer (answerSays self 0 MDNS_RECORDTYPE_PTR) := by
  have hrclass : queryRclass localPort = MDNS_CLASS_IN ||| MDNS_UNICAST_RESPONSE := if_neg hport
  have hwrite : ∀ (s : Service), s.sendBuffer.length = n →
      ∃ s' answer, writeRecords sendto (questionEntry 0
          ⟨self.serviceType, MDNS_RECORDTYPE_PTR, queryRclass localPort⟩ 0 0) self.serviceType
          (ptrRecord self) (additionalOf self) s = some (false, s') ∧
        s'.sendBuffer.length = n ∧ s'.sent = s.sent ++ [(.asker, answer)] ∧
        answer.length ≤ n ∧ Says answer (answerSays self 0 MDNS_RECORDTYPE_PTR) := by
    intro s hs
    have hunicast : queryRclass localPort % 65536 &&& MDNS_UNICAST_RESPONSE ≠ 0 := by
      rw [hrclass]
      decide
    exact writeRecords_asker h hsendto hunicast hs
  have hsize : datagram.length ≤ (recvfrom storage datagram).1.length := by
    rw [length_recvfrom]
    exact hfits
  obtain ⟨-, htake⟩ := recvfrom_fits hfits
  obtain ⟨s, answer, hanswer, hs, hsent, hlength, hanswerSays⟩ :=
    hwrite { sendBuffer := sendBuffer } hbuffer
  have hstart : (fun s : Service => s.sendBuffer.length = n) { sendBuffer := sendBuffer } := hbuffer
  obtain ⟨total, hlisten⟩ :=
    mdnsSocketListen_of_says (serviceCallback self sendto) (answered self sendto)
      (fun s => s.sendBuffer.length = n) (fun _ _ s => s) (fun _ => False) hfits hsmall htells rfl
      (by
        intro question hmem
        obtain rfl := List.mem_singleton.mp hmem
        refine .inl ?_
        dsimp only
        rw [hrclass]
        decide)
      (by
        intro question hmem pos behind hname s hs
        obtain rfl := List.mem_singleton.mp hmem
        obtain ⟨s', answer, hanswer, hs', -⟩ := hwrite s hs
        rw [← htake] at hname
        rw [answered_eq hanswer]
        exact ⟨(serviceCallback_service hsize rfl rfl hname hshort).trans hanswer, hs'⟩)
      (fun _ _ _ _ hfalse => hfalse.elim) nofun hstart
  refine ⟨_, s, answer, ?_, length_recvfrom storage datagram, hs, hsent, hlength, hanswerSays⟩
  have hfinal : (querySays self localPort).heeded (fun _ _ s => s)
      ((querySays self localPort).questions.foldl
        (fun s question => answered self sendto question s)
        { sendBuffer := sendBuffer }) = s := answered_eq hanswer
  rw [serviceHears, hlisten, Option.map_some, hfinal]

end KdeConnectNx.MdnsDiscovery
