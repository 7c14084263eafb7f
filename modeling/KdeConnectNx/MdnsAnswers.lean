import KdeConnectNx.MdnsWriter

/-!
# Answers and queries of mDNS

A message is a header, a question and records, each record with its length filled in when
its data is written. The TXT records of a section become one, behind the others. What is
written is read back record by record, whatever the buffer held before.
-/

namespace KdeConnectNx.MdnsAnswers

open DomainNames MdnsReader MdnsMessages MdnsWriter

/-- `in_addr`, in the order of the network. -/
structure InAddr where
  a : UInt8
  b : UInt8
  c : UInt8
  d : UInt8
deriving DecidableEq

def InAddr.bytes (addr : InAddr) : List UInt8 := [addr.a, addr.b, addr.c, addr.d]

/-- `mdns_record_data` with the member its type tells of. -/
inductive RecordData where
  | ptr (name : List UInt8)
  | srv (priority weight port : ℕ) (name : List UInt8)
  | a (addr : InAddr)
  | aaaa (addr : List UInt8)
  | txt (key value : List UInt8)
deriving DecidableEq

def RecordData.type : RecordData → ℕ
  | .ptr _ => MDNS_RECORDTYPE_PTR
  | .srv .. => MDNS_RECORDTYPE_SRV
  | .a _ => MDNS_RECORDTYPE_A
  | .aaaa _ => 28
  | .txt .. => MDNS_RECORDTYPE_TXT

/-- `mdns_record_t`. -/
structure Record where
  name : List UInt8
  data : RecordData
  rclass : ℕ := 0
  ttl : ℕ := 0
deriving DecidableEq

/-- `mdns_answer_add_question_unicast`. -/
def mdnsAnswerAddQuestionUnicast (p : Packet) (data recordType : ℕ) (name : List UInt8) :
    Option Packet :=
  match mdnsStringMake p data name with
  | none => none
  | some p =>
    match p.data with
    | none => some p
    | some data =>
      if p.buffer.length - data < 4 then some { p with data := none }
      else put p data (word recordType ++ word (MDNS_UNICAST_RESPONSE ||| MDNS_CLASS_IN))

/-- `mdns_answer_add_record_header`: the length is filled in later. -/
def mdnsAnswerAddRecordHeader (p : Packet) (data : ℕ) (record : Record) : Option Packet :=
  match mdnsStringMake p data record.name with
  | none => none
  | some p =>
    match p.data with
    | none => some p
    | some data =>
      if p.buffer.length - data < 10 then some { p with data := none }
      else put p data (word record.data.type ++ word record.rclass ++
        (word (record.ttl / 65536) ++ word record.ttl) ++ word 0)

/-- The data of a record, behind its header. -/
def addRecordData (p : Packet) (data : ℕ) : RecordData → Option Packet
  | .ptr name => mdnsStringMake p data name
  | .srv priority weight port name =>
    if p.buffer.length - data ≤ 6 then some { p with data := none }
    else
      match put p data (word priority ++ word weight ++ word port) with
      | none => none
      | some p => mdnsStringMake p (data + 6) name
  | .a addr =>
    if p.buffer.length - data < 4 then some { p with data := none } else put p data addr.bytes
  | .aaaa addr =>
    if p.buffer.length - data < 16 then some { p with data := none } else put p data addr
  | .txt .. => some { p with data := some data }

/-- The length is filled in in front of the data, and the packet goes on where it did. -/
def fillRecordLength (p : Packet) (recordData data : ℕ) : Option Packet :=
  (store p.buffer (recordData - 2) (word (data - recordData))).map fun buffer =>
    { p with buffer := buffer }

/-- `mdns_answer_add_record`; the TXT records are added as one later. -/
def mdnsAnswerAddRecord (p : Packet) (record : Record) : Option Packet :=
  match p.data with
  | none => some p
  | some data =>
    if record.data.type = MDNS_RECORDTYPE_TXT then some p
    else
      match mdnsAnswerAddRecordHeader p data record with
      | none => none
      | some p =>
        match p.data with
        | none => some p
        | some recordData =>
          match addRecordData p recordData record.data with
          | none => none
          | some p =>
            match p.data with
            | none => some p
            | some data => fillRecordLength p recordData data

/-- `mdns_record_update_rclass_ttl`. -/
def mdnsRecordUpdateRclassTtl (record : Record) (rclass ttl : ℕ) : Record :=
  let record := if record.rclass = 0 then { record with rclass := rclass } else record
  let record := if record.ttl = 0 ∨ ttl = 0 then { record with ttl := ttl } else record
  let record := { record with rclass := record.rclass &&& (MDNS_CLASS_IN ||| MDNS_CACHE_FLUSH) }
  if record.data.type = MDNS_RECORDTYPE_PTR then { record with rclass := record.rclass &&& 0x7fff }
  else record

/-- One string of a TXT record; its length is a single byte. -/
def txtString (key value : List UInt8) : List UInt8 :=
  UInt8.ofNat (key.length + value.length + 1) :: (key ++ 61 :: value)

/-- The loop of `mdns_answer_add_txt_record`. -/
def addTxtFrom (p : Packet) (rclass ttl : ℕ) (recordData : Option ℕ) :
    List Record → Option (Packet × Option ℕ)
  | [] => some (p, recordData)
  | record :: records =>
    match p.data, record.data with
    | none, _ => some (p, recordData)
    | some data, .txt key value =>
      match (match recordData with
        | some start => some ({ p with data := some data }, some start)
        | none =>
          (mdnsAnswerAddRecordHeader p data (mdnsRecordUpdateRclassTtl record rclass ttl)).map
            fun p => (p, p.data)) with
      | none => none
      | some (p, recordData) =>
        match p.data with
        | none => some (p, none)
        | some data =>
          if p.buffer.length - data ≤ key.length + value.length + 1 ∨
              0x3FFF < key.length + value.length + 1 then some ({ p with data := none }, none)
          else
            match put p data (txtString key value) with
            | none => none
            | some p => addTxtFrom p rclass ttl recordData records
    | some _, _ => addTxtFrom p rclass ttl recordData records

/-- `mdns_answer_add_txt_record`. -/
def mdnsAnswerAddTxtRecord (p : Packet) (records : List Record) (rclass ttl : ℕ) : Option Packet :=
  match addTxtFrom p rclass ttl none records with
  | none => none
  | some (p, recordData) =>
    match p.data, recordData with
    | some data, some recordData => fillRecordLength p recordData data
    | _, _ => some p

/-- `mdns_answer_get_record_count`. -/
def mdnsAnswerGetRecordCount (records : List Record) : ℕ :=
  let others := records.filter fun record => record.data.type ≠ MDNS_RECORDTYPE_TXT
  let txtRecord := if records.any fun record => record.data.type = MDNS_RECORDTYPE_TXT then 1 else 0
  (others.length + txtRecord) % 65536

/-- The records one after the other, the TXT records behind the others. -/
def addRecords (p : Packet) (records : List Record) : Option Packet :=
  records.foldlM mdnsAnswerAddRecord p

/-- One section: the records, then its TXT records. -/
def addSection (p : Packet) (prepare : Record → Record) (rclass ttl : ℕ) (records : List Record) :
    Option Packet :=
  match addRecords p (records.map prepare) with
  | none => none
  | some p => mdnsAnswerAddTxtRecord p records rclass ttl

/-- The header of an answer with one answer. -/
def answerHeader (queryId questions : ℕ) (authority additional : List Record) : List UInt8 :=
  word queryId ++ word 0x8400 ++ word questions ++ word 1 ++
    word (mdnsAnswerGetRecordCount authority) ++ word (mdnsAnswerGetRecordCount additional)

/-- The records behind the question. -/
def addAnswer (p : Packet) (prepare : Record → Record) (rclass ttl : ℕ) (answer : Record)
    (authority additional : List Record) : Option Packet :=
  match mdnsAnswerAddRecord p answer with
  | none => none
  | some p =>
    match addSection p prepare rclass ttl authority with
    | none => none
    | some p => addSection p prepare rclass ttl additional

/-- The buffer behind it and the datagram, if the packet could be written. -/
def sent (p : Packet) : List UInt8 × Option (List UInt8) :=
  (p.buffer, p.data.map fun data => p.buffer.take data)

/-- In an answer to one asker the class and the time are the same for all. -/
def unicastRecord (rclass ttl : ℕ) (record : Record) : Record :=
  { record with rclass := rclass, ttl := if record.ttl = 0 then ttl else record.ttl }

/-- `mdns_query_answer_unicast`: the buffer behind it and what is sent. -/
def mdnsQueryAnswerUnicast (buffer : List UInt8) (queryId recordType : ℕ) (name : List UInt8)
    (answer : Record) (authority additional : List Record) :
    Option (List UInt8 × Option (List UInt8)) :=
  if buffer.length < 12 + 32 + 4 then some (buffer, none)
  else
    match store buffer 0 (answerHeader queryId 1 authority additional) with
    | none => none
    | some buffer =>
      match mdnsAnswerAddQuestionUnicast
        { buffer := buffer, data := some 12, stringTable := some {} } 12
        recordType name with
      | none => none
      | some p =>
        (addAnswer p (unicastRecord MDNS_CLASS_IN 10) MDNS_CLASS_IN 10
          { answer with rclass := MDNS_CLASS_IN, ttl := 10 } authority additional).map sent

/-- `mdns_answer_multicast_rclass_ttl`. -/
def mdnsAnswerMulticastRclassTtl (buffer : List UInt8) (answer : Record)
    (authority additional : List Record) (rclass ttl : ℕ) :
    Option (List UInt8 × Option (List UInt8)) :=
  if buffer.length < 12 + 32 + 4 then some (buffer, none)
  else
    match store buffer 0 (answerHeader 0 0 authority additional) with
    | none => none
    | some buffer =>
      (addAnswer { buffer := buffer, data := some 12, stringTable := some {} }
        (mdnsRecordUpdateRclassTtl · rclass ttl) rclass ttl
        (mdnsRecordUpdateRclassTtl answer rclass ttl) authority additional).map sent

/-- `mdns_query_answer_multicast`. -/
def mdnsQueryAnswerMulticast (buffer : List UInt8) (answer : Record)
    (authority additional : List Record) : Option (List UInt8 × Option (List UInt8)) :=
  mdnsAnswerMulticastRclassTtl buffer answer authority additional MDNS_CLASS_IN 60

/-- `mdns_announce_multicast`. -/
def mdnsAnnounceMulticast (buffer : List UInt8) (answer : Record)
    (authority additional : List Record) : Option (List UInt8 × Option (List UInt8)) :=
  mdnsAnswerMulticastRclassTtl buffer answer authority additional
    (MDNS_CLASS_IN ||| MDNS_CACHE_FLUSH) 60

/-- `mdns_goodbye_multicast`. -/
def mdnsGoodbyeMulticast (buffer : List UInt8) (answer : Record)
    (authority additional : List Record) : Option (List UInt8 × Option (List UInt8)) :=
  mdnsAnswerMulticastRclassTtl buffer answer authority additional MDNS_CLASS_IN 0

/-- `mdns_query_t`. -/
structure Query where
  type : ℕ
  name : List UInt8

def MDNS_PORT : ℕ := 5353

/-- The class of a query: from any port but the one of mDNS the answer is asked for alone. -/
def queryRclass (localPort : Option ℕ) : ℕ :=
  if localPort = some MDNS_PORT then MDNS_CLASS_IN else MDNS_CLASS_IN ||| MDNS_UNICAST_RESPONSE

/-- The questions of a query. -/
def addQueries (p : Packet) (rclass : ℕ) : List Query → Option Packet
  | [] => some p
  | query :: queries =>
    match p.data with
    | none => some p
    | some data =>
      match mdnsStringMake p data query.name with
      | none => none
      | some p =>
        match p.data with
        | none => some p
        | some data =>
          if p.buffer.length - data < 4 then some { p with data := none }
          else
            match put p data (word query.type ++ word rclass) with
            | none => none
            | some p => addQueries p rclass queries

/-- `mdns_multiquery_send`; `getsockname` tells the local port. -/
def mdnsMultiquerySend (localPort : Option ℕ) (query : List Query) (buffer : List UInt8)
    (queryId : ℕ) :
    Option (List UInt8 × Option (List UInt8)) :=
  if query.length = 0 ∨ buffer.length < 12 + 6 * query.length then some (buffer, none)
  else
    match store buffer 0 (word queryId ++ word 0 ++ word query.length ++ word 0 ++ word 0 ++
      word 0) with
    | none => none
    | some buffer =>
      (addQueries { buffer := buffer, data := some 12, stringTable := none } (queryRclass localPort)
        query).map sent

/-- `mdns_query_send`. -/
def mdnsQuerySend (localPort : Option ℕ) (type : ℕ) (name buffer : List UInt8) (queryId : ℕ) :
    Option (List UInt8 × Option (List UInt8)) :=
  mdnsMultiquerySend localPort [{ type := type, name := name }] buffer queryId

/-! ## Writing a record -/

variable {p : Packet} {m m' : Bytes} {last : Label} {labels : List Label} {pos start stop : ℕ}
  {bytes : List UInt8} {record : Record}

/-- A packet that is filled up to a place, with a table of whole names. -/
structure Ready (p : Packet) (m : Bytes) (last : Label) (pos : ℕ) :
    Prop extends Filling p m pos where
  small : p.buffer.length ≤ 0x4000
  table : ∀ t, p.stringTable = some t → Table m last [] t

/-- The text of a name that can be written. -/
def ProperName (last : Label) (name : List UInt8) : Prop :=
  ∃ labels, name = dotted labels ∧ labels.length ≤ MDNS_MAX_SUBSTRINGS ∧ Proper last labels

/-- A name that can be read stands at a place. -/
def NameStands (m : Bytes) (name : List UInt8) (offset stop : ℕ) : Prop :=
  ∃ labels, name = dotted labels ∧ labels.length ≤ MDNS_MAX_SUBSTRINGS ∧
    NameAt m 1 offset labels stop

/-- A name's text and one byte more is the room that was counted for it. -/
theorem length_dotted (labels : List Label) : (dotted labels).length + 1 = room labels := by
  induction labels with
  | nil => rfl
  | cons label labels ih =>
    rw [dotted_cons, room_cons, ← ih, List.length_append, List.length_cons]
    omega

/-- A name that ends in `last` is written, and the table is ready for the next one. -/
theorem Ready.string_make (h : Ready p m last pos) (name : List UInt8)
    (hname : ProperName last name) (hroom : pos + (name.length + 1) ≤ p.buffer.length) :
    ∃ p' m' stop, mdnsStringMake p pos name = some p' ∧ Grown m pos m' ∧ Ready p' m' last stop ∧
      NameStands m' name pos stop ∧ pos < stop ∧ stop ≤ pos + (name.length + 1) ∧
      p'.buffer.length = p.buffer.length := by
  obtain ⟨labels, rfl, hfew, hproper⟩ := hname
  rw [length_dotted] at hroom ⊢
  obtain ⟨p', m', stop, hmake, hgrown, hfilling, hat, hstop, hlength, htable⟩ :=
    mdnsStringMake_eq h.small h.toFilling h.table hproper hroom
  exact ⟨p', m', stop, hmake, hgrown, ⟨hfilling, hlength ▸ h.small, htable⟩,
    ⟨labels, rfl, hfew, hat⟩, hat.lt_stop, hstop, hlength⟩

/-- Plain bytes are written behind what stands there. -/
theorem Ready.put (h : Ready p m last pos) (bytes : List UInt8)
    (hroom : pos + bytes.length ≤ p.buffer.length) :
    ∃ p' m', put p pos bytes = some p' ∧ Grown m pos m' ∧ Ready p' m' last (pos + bytes.length) ∧
      TextAt m' pos bytes ∧ p'.buffer.length = p.buffer.length := by
  obtain ⟨p', hput, hfilling, hgrown, hlength, hsame⟩ := put_eq bytes h.toFilling hroom
  exact ⟨p', _, hput, hgrown, ⟨hfilling, hlength ▸ h.small,
    fun t ht => (h.table t (hsame ▸ ht)).mono hgrown.within⟩, textAt_stored m pos bytes, hlength⟩

/-- Two bytes. -/
theorem length_word (value : ℕ) : (word value).length = 2 := rfl

/-- The fields of a record in front of its length. -/
def fieldsOf (rtype rclass ttl : ℕ) : List UInt8 :=
  word rtype ++ word rclass ++ (word (ttl / 65536) ++ word ttl)

/-- Type, class and time to live are eight bytes. -/
theorem length_fieldsOf (rtype rclass ttl : ℕ) : (fieldsOf rtype rclass ttl).length = 8 := rfl

/-- Where a record stands: its name, its data and the place behind it. -/
structure Place where
  rtype : ℕ
  rclass : ℕ
  ttl : ℕ
  name : List UInt8
  nameOffset : ℕ
  start : ℕ
  stop : ℕ

/-- A header whose length is not filled in yet. -/
structure Begun (m : Bytes) (place : Place) : Prop where
  name : NameStands m place.name place.nameOffset (place.start - 10)
  behind : place.nameOffset + 10 < place.start
  fields : TextAt m (place.start - 10) (fieldsOf place.rtype place.rclass place.ttl)

/-- A whole record. -/
structure Placed (m : Bytes) (place : Place) : Prop extends Begun m place where
  inside : place.start ≤ place.stop
  length : TextAt m (place.start - 2) (word (place.stop - place.start))

/-- A name stays while bytes are added. -/
theorem NameStands.mono {name : List UInt8} (hwithin : Within m m')
    (h : NameStands m name pos stop) :
    NameStands m' name pos stop := by
  obtain ⟨labels, hlabels, hfew, hname⟩ := h
  exact ⟨labels, hlabels, hfew, hname.mono hwithin⟩

/-- So does the front of a record. -/
theorem Begun.mono {place : Place} (hwithin : Within m m') (h : Begun m place) : Begun m' place :=
  ⟨h.name.mono hwithin, h.behind, h.fields.mono hwithin⟩

/-- So does a record with its length. -/
theorem Placed.mono {place : Place} (hwithin : Within m m') (h : Placed m place) :
    Placed m' place :=
  ⟨h.toBegun.mono hwithin, h.inside, h.length.mono hwithin⟩

/-- The two bytes for the length are left open. -/
def Open (m : Bytes) (start : ℕ) : Prop := ∀ i, start - 2 ≤ i → i < start → m i = none

/-- The front of a record is written, its length still open. -/
theorem Ready.record_header (h : Ready p m last pos) (record : Record)
    (hname : ProperName last record.name)
    (hroom : pos + (record.name.length + 1) + 10 ≤ p.buffer.length) :
    ∃ p' m' start, mdnsAnswerAddRecordHeader p pos record = some p' ∧ Grown m pos m' ∧
      Ready p' m' last start ∧ (∀ stop, Begun m'
        ⟨record.data.type, record.rclass, record.ttl, record.name, pos, start, stop⟩) ∧
        Open m' start ∧ start ≤ pos + (record.name.length + 1) + 10 ∧
      p'.buffer.length = p.buffer.length := by
  obtain ⟨p₁, m₁, stop, hmake, hgrown, hready, hat, hlt, hstop, hlength⟩ :=
    h.string_make record.name hname (by omega)
  obtain ⟨p₂, hput, hfilling, -, hlength', hsame⟩ := put_eq
    (fieldsOf record.data.type record.rclass record.ttl ++ word 0) hready.toFilling
    (by rw [List.length_append, length_fieldsOf, length_word]; omega)
  rw [List.length_append, length_fieldsOf, length_word] at hfilling
  have hfields : Within (Bytes.stored m₁ stop (fieldsOf record.data.type record.rclass record.ttl))
      (Bytes.stored m₁ stop (fieldsOf record.data.type record.rclass record.ttl ++ word 0)) := by
    intro i byte hbyte
    unfold Bytes.stored at hbyte ⊢
    rw [length_fieldsOf] at hbyte
    rw [List.length_append, length_fieldsOf, length_word]
    split at hbyte
    · next hi =>
      rw [if_pos (by omega), List.getElem?_append_left (by rw [length_fieldsOf]; omega)]
      exact hbyte
    · next hi =>
      have hold := (hready.known i byte hbyte).1
      rw [if_neg (by omega)]
      exact hbyte
  have hgrown' : Grown m₁ stop
      (Bytes.stored m₁ stop (fieldsOf record.data.type record.rclass record.ttl)) := by
    refine ⟨within_stored fun i byte hbyte => .inl (hready.known i byte hbyte).1, fun i hi => ?_⟩
    rw [Bytes.stored, if_neg (by omega)]
  have hfront : stop + 10 - 10 = stop := by omega
  refine ⟨p₂, _, stop + 10, ?_, hgrown.trans hgrown' (by omega), ⟨hfilling.weaken hfields, ?_, ?_⟩,
    ?_, ?_, by omega, hlength'.trans hlength⟩
  · rw [mdnsAnswerAddRecordHeader, hmake]
    dsimp only
    rw [hready.data]
    dsimp only
    rw [if_neg (by omega)]
    exact hput
  · rw [hlength']
    exact hready.small
  · exact fun t ht => (hready.table t (hsame ▸ ht)).mono hgrown'.within
  · refine fun stop' => ⟨?_, ?_, ?_⟩
    · dsimp only
      rw [hfront]
      exact hat.mono hgrown'.within
    · dsimp only
      omega
    · dsimp only
      rw [hfront]
      exact textAt_stored m₁ stop _
  · intro i hle hi
    rw [Bytes.stored, length_fieldsOf, if_neg (by omega)]
    cases hbyte : m₁ i with
    | none => rfl
    | some byte =>
      have hold := (hready.known i byte hbyte).1
      omega

/-- The data of a record that can be written. -/
def ProperData (last : Label) : RecordData → Prop
  | .ptr name => ProperName last name
  | .srv _ _ _ name => ProperName last name
  | .a _ => True
  | .aaaa addr => addr.length = 16
  | .txt .. => False

/-- The room the data of a record needs at most. -/
def dataRoom : RecordData → ℕ
  | .ptr name => name.length + 1
  | .srv _ _ _ name => 6 + (name.length + 1)
  | .a _ => 4
  | .aaaa addr => addr.length
  | .txt .. => 0

/-- What stands where a record's data is. -/
def DataAt (m : Bytes) (start stop : ℕ) : RecordData → Prop
  | .ptr name => NameStands m name start stop
  | .srv priority weight port name =>
    TextAt m start (word priority ++ word weight ++ word port) ∧ NameStands m name (start + 6) stop
  | .a addr => TextAt m start addr.bytes ∧ stop = start + 4
  | .aaaa addr => TextAt m start addr ∧ stop = start + 16
  | .txt .. => False

/-- Data stay while bytes are added. -/
theorem DataAt.mono {data : RecordData} (hwithin : Within m m') (h : DataAt m start stop data) :
    DataAt m' start stop data := by
  cases data with
  | ptr name => exact NameStands.mono hwithin h
  | srv priority weight port name => exact ⟨h.1.mono hwithin, h.2.mono hwithin⟩
  | a addr => exact ⟨h.1.mono hwithin, h.2⟩
  | aaaa addr => exact ⟨h.1.mono hwithin, h.2⟩
  | txt key value => exact h

/-- The data of a record are written, with its names by reference. -/
theorem Ready.record_data (h : Ready p m last start) {data : RecordData}
    (hdata : ProperData last data) (hroom : start + dataRoom data ≤ p.buffer.length) :
    ∃ p' m' stop, addRecordData p start data = some p' ∧ Grown m start m' ∧ Ready p' m' last stop ∧
      DataAt m' start stop data ∧ start ≤ stop ∧ stop ≤ start + dataRoom data ∧
      p'.buffer.length = p.buffer.length := by
  cases data with
  | ptr name =>
    obtain ⟨p', m', stop, hmake, hgrown, hready, hat, hlt, hstop, hlength⟩ :=
      h.string_make name hdata hroom
    exact ⟨p', m', stop, hmake, hgrown, hready, hat, Nat.le_of_lt hlt, hstop, hlength⟩
  | srv priority weight port name =>
    simp only [dataRoom] at hroom ⊢
    obtain ⟨p₁, m₁, hput, hgrown, hready, htext, hlength⟩ :=
      h.put (word priority ++ word weight ++ word port)
        (by simp only [List.length_append, length_word]; omega)
    simp only [List.length_append, length_word] at hready
    obtain ⟨p', m', stop, hmake, hgrown', hready', hat, hlt, hstop, hlength'⟩ :=
      hready.string_make name hdata (by omega)
    refine ⟨p', m', stop, ?_, hgrown.trans hgrown' (by omega), hready',
      ⟨htext.mono hgrown'.within, hat⟩, by omega, by omega, hlength'.trans hlength⟩
    rw [addRecordData, if_neg (by omega), hput]
    exact hmake
  | a addr =>
    simp only [dataRoom] at hroom ⊢
    obtain ⟨p', m', hput, hgrown, hready, htext, hlength⟩ := h.put addr.bytes hroom
    refine ⟨p', m', start + 4, ?_, hgrown, hready, ⟨htext, rfl⟩, Nat.le_add_right _ _,
      Nat.le_refl _, hlength⟩
    rw [addRecordData, if_neg (by omega)]
    exact hput
  | aaaa addr =>
    unfold ProperData at hdata
    simp only [dataRoom] at hroom ⊢
    obtain ⟨p', m', hput, hgrown, hready, htext, hlength⟩ := h.put addr hroom
    refine ⟨p', m', start + addr.length, ?_, hgrown, hready, ⟨htext, by rw [hdata]⟩,
      Nat.le_add_right _ _, Nat.le_refl _, hlength⟩
    rw [addRecordData, if_neg (by omega)]
    exact hput
  | txt key value => exact absurd hdata id

/-- The length is filled in where it was left open. -/
theorem Ready.record_length (h : Ready p m last stop) (hopen : Open m start) (hstart : 2 ≤ start)
    (hle : start ≤ stop) :
    ∃ p' m', fillRecordLength p start stop = some p' ∧ Within m m' ∧ Ready p' m' last stop ∧
      TextAt m' (start - 2) (word (stop - start)) ∧ p'.buffer.length = p.buffer.length := by
  have hroom := h.room
  obtain ⟨buffer', hstore⟩ := store_inside p.buffer (start - 2)
    (word (stop - start)) (by rw [length_word]; omega)
  have hlength := length_store hstore
  have hwithin : Within m (Bytes.stored m (start - 2) (word (stop - start))) := by
    refine within_stored fun i byte hbyte => ?_
    rw [length_word]
    by_contra hi
    have hnone := hopen i (by omega) (by omega)
    rw [hbyte] at hnone
    cases hnone
  refine ⟨{ p with buffer := buffer' }, _, ?_, hwithin, ⟨⟨h.data, ?_, ?_⟩, ?_, ?_⟩,
    textAt_stored m _ _, hlength⟩
  · rw [fillRecordLength, hstore, Option.map_some]
  · dsimp only
    omega
  · intro i byte hbyte
    dsimp only
    rw [getElem?_store hstore]
    rw [Bytes.stored] at hbyte
    rw [length_word] at hbyte ⊢
    split at hbyte
    · next hi =>
      rw [if_pos hi]
      exact ⟨by omega, hbyte⟩
    · next hi =>
      rw [if_neg hi]
      exact h.known i byte hbyte
  · dsimp only
    rw [hlength]
    exact h.small
  · exact fun t ht => (h.table t ht).mono hwithin

/-- A record whose names can be written. -/
structure ProperRecord (last : Label) (record : Record) : Prop where
  name : ProperName last record.name
  data : ProperData last record.data

/-- The room a record needs at most. -/
def recordRoom (record : Record) : ℕ := record.name.length + 1 + 10 + dataRoom record.data

/-- The place of a record that was written. -/
def placeOf (record : Record) (nameOffset start stop : ℕ) : Place :=
  ⟨record.data.type, record.rclass, record.ttl, record.name, nameOffset, start, stop⟩

/-- A whole record is written and its length filled in. -/
theorem Ready.add_record (h : Ready p m last pos) (hproper : ProperRecord last record)
    (hroom : pos + recordRoom record ≤ p.buffer.length) :
    ∃ p' m' start stop, mdnsAnswerAddRecord p record = some p' ∧ Within m m' ∧
      Ready p' m' last stop ∧
      Placed m' (placeOf record pos start stop) ∧ DataAt m' start stop record.data ∧
      stop ≤ pos + recordRoom record ∧ p'.buffer.length = p.buffer.length := by
  unfold recordRoom at hroom ⊢
  obtain ⟨p₁, m₁, start, hheader, hgrown, hready, hbegun, hopen, hstart, hlength⟩ :=
    h.record_header record hproper.name (by omega)
  obtain ⟨p₂, m₂, stop, hdata, hgrown', hready', hat, hle, hstop, hlength'⟩ :=
    hready.record_data hproper.data (by omega)
  have hbehind := (hbegun stop).behind
  have hopen' : Open m₂ start := fun i hfrom hi => (hgrown'.before i hi).trans (hopen i hfrom hi)
  obtain ⟨p₃, m₃, hfill, hwithin, hready'', htext, hlength''⟩ :=
    hready'.record_length hopen' (by dsimp only at hbehind; omega) hle
  have htype : record.data.type ≠ MDNS_RECORDTYPE_TXT := by
    have hproperData := hproper.data
    cases hd : record.data with
    | txt key value =>
      rw [hd] at hproperData
      exact absurd hproperData id
    | ptr | srv | a | aaaa => exact of_decide_eq_true rfl
  refine ⟨p₃, m₃, start, stop, ?_, (hgrown.within.trans hgrown'.within).trans hwithin, hready'',
    ⟨(hbegun stop).mono (hgrown'.within.trans hwithin), hle, htext⟩, hat.mono hwithin, by omega,
    hlength''.trans (hlength'.trans hlength)⟩
  rw [mdnsAnswerAddRecord, h.data]
  dsimp only
  rw [if_neg htype, hheader]
  dsimp only
  rw [hready.data]
  dsimp only
  rw [hdata]
  dsimp only
  rw [hready'.data]
  exact hfill

/-! ## Writing the TXT records -/

/-- The key and value of a TXT record. -/
def RecordData.strings : RecordData → Option (List UInt8 × List UInt8)
  | .txt key value => some (key, value)
  | _ => none

/-- The keys and values of the TXT records among these. -/
def stringsOf (records : List Record) : List (List UInt8 × List UInt8) :=
  records.filterMap fun record => record.data.strings

/-- The strings one behind the other as the data of one TXT record, each with its length in front
and a `=` behind its key. -/
def txtData (strings : List (List UInt8 × List UInt8)) : List UInt8 :=
  strings.flatMap fun pair =>
    UInt8.ofNat (pair.1.length + pair.2.length + 1) :: (pair.1 ++ 61 :: pair.2)

/-- The length byte and the `=` come on top. -/
theorem length_txtString (key value : List UInt8) :
    (txtString key value).length = key.length + value.length + 2 := by
  simp only [txtString, List.length_cons, List.length_append]
  omega

/-- The strings stand one behind the other. -/
theorem txtData_cons (pair : List UInt8 × List UInt8) (strings : List (List UInt8 × List UInt8)) :
    txtData (pair :: strings) = txtString pair.1 pair.2 ++ txtData strings := rfl

/-- Only a TXT record has a string. -/
theorem txt_of_strings {data : RecordData} {pair : List UInt8 × List UInt8}
    (h : data.strings = some pair) : data = .txt pair.1 pair.2 := by
  cases data <;> cases h
  rfl

variable {records : List Record} {rclass ttl : ℕ}

/-- Another record brings no string. -/
theorem stringsOf_other (h : record.data.strings = none) :
    stringsOf (record :: records) = stringsOf records :=
  List.filterMap_cons_none (f := fun record : Record => record.data.strings) h

/-- A TXT record brings its own. -/
theorem stringsOf_txt {pair : List UInt8 × List UInt8} (h : record.data.strings = some pair) :
    stringsOf (record :: records) = pair :: stringsOf records :=
  List.filterMap_cons_some (f := fun record : Record => record.data.strings) h

/-- A record of another type is passed over. -/
theorem addTxtFrom_other (hdata : p.data = some pos) (h : record.data.strings = none)
    (recordData : Option ℕ) :
    addTxtFrom p rclass ttl recordData (record :: records) =
      addTxtFrom p rclass ttl recordData records := by
  cases hd : record.data with
  | txt key value =>
    rw [hd] at h
    cases h
  | ptr | srv | a | aaaa =>
    rw [addTxtFrom.eq_def]
    simp only [hdata, hd]

/-- The strings are put one behind the other. -/
theorem Ready.txt_strings (h : Ready p m last pos) (records : List Record) (rclass ttl start : ℕ)
    (hroom : pos + (txtData (stringsOf records)).length ≤ p.buffer.length) :
    ∃ p' m', addTxtFrom p rclass ttl (some start) records = some (p', some start) ∧ Grown m pos m' ∧
      Ready p' m' last (pos + (txtData (stringsOf records)).length) ∧
      TextAt m' pos (txtData (stringsOf records)) ∧ p'.buffer.length = p.buffer.length := by
  induction records generalizing p m pos with
  | nil => exact ⟨p, m, rfl, .refl m pos, h, textAt_nil _ _, rfl⟩
  | cons record records ih =>
    cases hs : record.data.strings with
    | none =>
      rw [stringsOf_other hs] at hroom ⊢
      rw [addTxtFrom_other h.data hs]
      exact ih h hroom
    | some pair =>
      rw [stringsOf_txt hs, txtData_cons, List.length_append] at hroom
      obtain ⟨p₁, m₁, hput, hgrown, hready, htext, hlength⟩ :=
        h.put (txtString pair.1 pair.2) (by omega)
      obtain ⟨p₂, m₂, hrest, hgrown', hready', htext', hlength'⟩ := ih hready (by omega)
      have hsmall := h.small
      have hlong := length_txtString pair.1 pair.2
      rw [stringsOf_txt hs, txtData_cons, List.length_append, ← Nat.add_assoc]
      refine ⟨p₂, m₂, ?_, hgrown.trans hgrown' (Nat.le_add_right _ _), hready',
        textAt_append.mpr ⟨htext.mono hgrown'.within, htext'⟩, hlength'.trans hlength⟩
      rw [addTxtFrom.eq_def]
      simp only [h.data, txt_of_strings hs]
      rw [if_neg (by omega), ← h.data, hput]
      exact hrest

/-- The first TXT record, whose name the one that is sent has. -/
def firstTxt (records : List Record) : Option Record :=
  records.find? fun record => record.data.strings.isSome

/-- Where no record is a TXT record, nothing is written. -/
theorem add_no_txt (hdata : p.data = some pos) (h : firstTxt records = none) :
    mdnsAnswerAddTxtRecord p records rclass ttl = some p := by
  have hfrom : addTxtFrom p rclass ttl none records = some (p, none) := by
    induction records with
    | nil => rfl
    | cons record records ih =>
      unfold firstTxt at h ih
      rw [List.find?_cons] at h
      split at h
      · cases h
      · next hs =>
        rw [addTxtFrom_other hdata (by simpa using hs)]
        exact ih h
  rw [mdnsAnswerAddTxtRecord, hfrom]
  dsimp only
  rw [hdata]

/-- The first TXT record has the header written. -/
theorem addTxtFrom_first {p' : Packet} {pair : List UInt8 × List UInt8} (hdata : p.data = some pos)
    (hs : record.data.strings = some pair)
    (hheader : mdnsAnswerAddRecordHeader p pos (mdnsRecordUpdateRclassTtl record rclass ttl) =
        some p')
    (hdata' : p'.data = some start) :
    addTxtFrom p rclass ttl none (record :: records) =
      addTxtFrom p' rclass ttl (some start) (record :: records) := by
  rw [addTxtFrom.eq_def, addTxtFrom.eq_def p' rclass ttl (some start)]
  simp only [hdata, hdata', txt_of_strings hs, hheader, Option.map_some]
  rw [← hdata']

/-- Name and data stay; only class and time to live are set. -/
theorem updateRclassTtl_name (record : Record) (rclass ttl : ℕ) :
    (mdnsRecordUpdateRclassTtl record rclass ttl).name = record.name ∧
      (mdnsRecordUpdateRclassTtl record rclass ttl).data = record.data := by
  unfold mdnsRecordUpdateRclassTtl
  dsimp only
  constructor <;> split <;> split <;> split <;> rfl

/-- All TXT records are written as one, under the name of the first. -/
theorem Ready.add_txt (h : Ready p m last pos) (rclass ttl : ℕ)
    (hfirst : firstTxt records = some record) (hname : ProperName last record.name)
    (hroom : pos + (record.name.length + 1) + 10 + (txtData (stringsOf records)).length ≤
        p.buffer.length) :
    ∃ p' m' start, mdnsAnswerAddTxtRecord p records rclass ttl = some p' ∧ Within m m' ∧
      Ready p' m' last (start + (txtData (stringsOf records)).length) ∧
      Placed m' (placeOf (mdnsRecordUpdateRclassTtl record rclass ttl) pos start
        (start + (txtData (stringsOf records)).length)) ∧
      TextAt m' start (txtData (stringsOf records)) ∧
      start ≤ pos + (record.name.length + 1) + 10 ∧ p'.buffer.length = p.buffer.length := by
  obtain ⟨hsameName, hsameData⟩ := updateRclassTtl_name record rclass ttl
  obtain ⟨p₁, m₁, start, hheader, hgrown, hready, hbegun, hopen, hstart, hlength⟩ :=
    h.record_header (mdnsRecordUpdateRclassTtl record rclass ttl) (hsameName ▸ hname)
      (by rw [hsameName]; omega)
  rw [hsameName] at hstart
  obtain ⟨p₂, m₂, hstrings, hgrown', hready', htext, hlength'⟩ :=
    hready.txt_strings records rclass ttl start (by omega)
  have hbehind := (hbegun (start + (txtData (stringsOf records)).length)).behind
  have hopen' : Open m₂ start := fun i hfrom hi => (hgrown'.before i hi).trans (hopen i hfrom hi)
  obtain ⟨p₃, m₃, hfill, hwithin, hready'', hlengthAt, hlength''⟩ :=
    hready'.record_length hopen' (by dsimp only at hbehind; omega) (Nat.le_add_right _ _)
  have hall : addTxtFrom p rclass ttl none records = some (p₂, some start) := by
    rw [← hstrings]
    clear hstrings htext hready' hready'' hlengthAt hfill hlength'' hroom hbehind
    induction records with
    | nil => cases hfirst
    | cons other records ih =>
      unfold firstTxt at hfirst ih
      rw [List.find?_cons] at hfirst
      split at hfirst
      · next hs =>
        cases hfirst
        obtain ⟨pair, hpair⟩ := Option.isSome_iff_exists.mp hs
        exact addTxtFrom_first h.data hpair hheader hready.data
      · next hs =>
        have hnone : other.data.strings = none := by simpa using hs
        rw [addTxtFrom_other h.data hnone, addTxtFrom_other hready.data hnone]
        exact ih hfirst
  refine ⟨p₃, m₃, start, ?_, (hgrown.within.trans hgrown'.within).trans hwithin, hready'',
    ⟨(hbegun _).mono (hgrown'.within.trans hwithin), Nat.le_add_right _ _, hlengthAt⟩,
    htext.mono hwithin, hstart, hlength''.trans (hlength'.trans hlength)⟩
  rw [mdnsAnswerAddTxtRecord, hall]
  dsimp only
  rw [hready'.data]
  exact hfill

/-! ## Writing a section -/

/-- The data of a record, or the strings of the TXT records that became one. -/
inductive Content where
  | one (data : RecordData)
  | texts (strings : List (List UInt8 × List UInt8))
deriving DecidableEq

def ContentAt (m : Bytes) (start stop : ℕ) : Content → Prop
  | .one data => DataAt m start stop data
  | .texts strings => TextAt m start (txtData strings) ∧ stop = start + (txtData strings).length

/-- Content stays while bytes are added. -/
theorem ContentAt.mono {content : Content} (hwithin : Within m m')
    (h : ContentAt m start stop content) :
    ContentAt m' start stop content := by
  cases content with
  | one data => exact DataAt.mono hwithin h
  | texts strings => exact ⟨h.1.mono hwithin, h.2⟩

/-- What a record says, wherever it stands. -/
structure Item where
  rtype : ℕ
  rclass : ℕ
  ttl : ℕ
  name : List UInt8
  content : Content
deriving DecidableEq

/-- A record that says this. -/
def itemOf (record : Record) : Item :=
  ⟨record.data.type, record.rclass, record.ttl, record.name, .one record.data⟩

/-- The one record that the TXT records become. -/
def txtItem (records : List Record) (rclass ttl : ℕ) (first : Record) : Item :=
  { itemOf (mdnsRecordUpdateRclassTtl first rclass ttl) with content := .texts (stringsOf records) }

def isTxt (record : Record) : Bool := record.data.strings.isSome

/-- What the records of a section say when they are sent. -/
def sectionItems (prepare : Record → Record) (rclass ttl : ℕ) (records : List Record) : List Item :=
  ((records.map prepare).filter fun record => !isTxt record).map itemOf ++
    (firstTxt records).toList.map (txtItem records rclass ttl)

/-- The three offsets of a record. -/
structure Spot where
  nameOffset : ℕ
  start : ℕ
  stop : ℕ

def Item.placeAt (item : Item) (spot : Spot) : Place :=
  ⟨item.rtype, item.rclass, item.ttl, item.name, spot.nameOffset, spot.start, spot.stop⟩

/-- Records one behind the other. -/
inductive Chain (m : Bytes) : ℕ → List (Item × Spot) → ℕ → Prop
  | nil {pos : ℕ} : Chain m pos [] pos
  | cons {stop : ℕ} {item : Item} {spot : Spot} {chain : List (Item × Spot)}
      (hplaced : Placed m (item.placeAt spot))
    (hcontent : ContentAt m spot.start spot.stop item.content)
      (hrest : Chain m spot.stop chain stop) : Chain m spot.nameOffset ((item, spot) :: chain) stop

variable {chain chain' : List (Item × Spot)}

/-- One more record in front of a chain. -/
theorem chain_cons {item : Item} {place : ℕ} (hplaced : Placed m (item.placeAt ⟨pos, start, place⟩))
    (hcontent : ContentAt m start place item.content) (hrest : Chain m place chain stop) :
    Chain m pos ((item, ⟨pos, start, place⟩) :: chain) stop := .cons hplaced hcontent hrest

/-- A chain stays while bytes are added. -/
theorem Chain.mono (hwithin : Within m m') (h : Chain m pos chain stop) :
    Chain m' pos chain stop := by
  induction h with
  | nil => exact .nil
  | cons hplaced hcontent hrest ih => exact .cons (hplaced.mono hwithin) (hcontent.mono hwithin) ih

/-- A chain behind a chain. -/
theorem Chain.append {place : ℕ} (h : Chain m pos chain place) (h' : Chain m place chain' stop) :
    Chain m pos (chain ++ chain') stop := by
  induction h with
  | nil => exact h'
  | cons hplaced hcontent hrest ih => exact .cons hplaced hcontent (ih h')

/-- A record takes at least a byte. -/
theorem Chain.length_le (h : Chain m pos chain stop) : pos + chain.length ≤ stop := by
  induction h with
  | nil => exact Nat.le_refl _
  | cons hplaced hcontent hrest ih =>
    have hbehind := hplaced.behind
    have hinside := hplaced.inside
    dsimp only [Item.placeAt] at hbehind hinside
    rw [List.length_cons]
    omega

/-- The room the records of a section need at most, the TXT records aside. -/
def othersRoom (records : List Record) : ℕ :=
  ((records.filter fun record => !isTxt record).map recordRoom).sum

/-- A TXT record is left for later. -/
theorem addRecord_txt (hdata : p.data = some pos) (h : isTxt record = true) :
    mdnsAnswerAddRecord p record = some p := by
  obtain ⟨pair, hpair⟩ := Option.isSome_iff_exists.mp h
  rw [mdnsAnswerAddRecord, hdata]
  dsimp only
  rw [txt_of_strings hpair]
  exact if_pos rfl

/-- The records of a section that are not TXT are written one behind the other. -/
theorem Ready.add_records (h : Ready p m last pos) (records : List Record)
    (hproper : ∀ record ∈ records, isTxt record = false → ProperRecord last record)
    (hroom : pos + othersRoom records ≤ p.buffer.length) :
    ∃ p' m' stop chain, addRecords p records = some p' ∧ Within m m' ∧ Ready p' m' last stop ∧
      Chain m' pos chain stop ∧
      chain.map Prod.fst = (records.filter fun record => !isTxt record).map itemOf ∧
      stop ≤ pos + othersRoom records ∧ p'.buffer.length = p.buffer.length := by
  induction records generalizing p m pos with
  | nil => exact ⟨p, m, pos, [], rfl, .refl m, h, .nil, rfl, Nat.le_add_right _ _, rfl⟩
  | cons record records ih =>
    have hproper' := fun other hother => hproper other (List.mem_cons_of_mem record hother)
    cases htxt : isTxt record with
    | true =>
      have hothers : othersRoom (record :: records) = othersRoom records := by
        rw [othersRoom, List.filter_cons_of_neg (by simp [htxt]), othersRoom]
      rw [hothers] at hroom ⊢
      obtain ⟨p', m', stop, chain, hadd, hrest⟩ := ih h hproper' hroom
      refine ⟨p', m', stop, chain, ?_, ?_⟩
      · rw [addRecords, List.foldlM_cons, addRecord_txt h.data htxt]
        exact hadd
      · rw [List.filter_cons_of_neg (by simp [htxt])]
        exact hrest
    | false =>
      have hothers : othersRoom (record :: records) = recordRoom record + othersRoom records := by
        rw [othersRoom, List.filter_cons_of_pos (by simp [htxt]), List.map_cons, List.sum_cons,
          othersRoom]
      rw [hothers] at hroom ⊢
      obtain ⟨p₁, m₁, start, place, hrecord, hwithin, hready, hplaced, hdata, hplace, hlength⟩ :=
        h.add_record (hproper record List.mem_cons_self htxt) (by omega)
      obtain ⟨p', m', stop, chain, hadd, hwithin', hready', hchain, hitems, hstop, hlength'⟩ :=
        ih hready hproper' (by omega)
      refine ⟨p', m', stop, (itemOf record, ⟨pos, start, place⟩) :: chain, ?_,
        hwithin.trans hwithin', hready', chain_cons (hplaced.mono hwithin')
        (DataAt.mono hwithin' hdata) hchain, ?_, by omega,
        hlength'.trans hlength⟩
      · rw [addRecords, List.foldlM_cons, hrecord]
        exact hadd
      · rw [List.map_cons, hitems, List.filter_cons_of_pos (by simp [htxt]), List.map_cons]

/-- The room the one TXT record of a section needs at most. -/
def txtRoom (records : List Record) : ℕ :=
  (firstTxt records).elim 0 fun first =>
    first.name.length + 1 + 10 + (txtData (stringsOf records)).length

/-- A section that can be written. -/
structure ProperSection (last : Label) (prepare : Record → Record) (records : List Record) :
    Prop where
  prepared : ∀ record ∈ records, isTxt (prepare record) = false → ProperRecord last (prepare record)
  txt : ∀ first ∈ firstTxt records, ProperName last first.name

def sectionRoom (prepare : Record → Record) (records : List Record) : ℕ :=
  othersRoom (records.map prepare) + txtRoom records

/-- A section is written: its other records first, then its strings as one record. -/
theorem Ready.add_section (h : Ready p m last pos) {prepare : Record → Record} (rclass ttl : ℕ)
    (hproper : ProperSection last prepare records)
    (hroom : pos + sectionRoom prepare records ≤ p.buffer.length) :
    ∃ p' m' stop chain, addSection p prepare rclass ttl records = some p' ∧ Within m m' ∧
      Ready p' m' last stop ∧ Chain m' pos chain stop ∧
      chain.map Prod.fst = sectionItems prepare rclass ttl records ∧
      stop ≤ pos + sectionRoom prepare records ∧ p'.buffer.length = p.buffer.length := by
  unfold sectionRoom at hroom ⊢
  obtain ⟨p₁, m₁, place, chain, hadd, hwithin, hready, hchain, hitems, hplace, hlength⟩ :=
    h.add_records (records.map prepare) (by
      intro record hmem htxt
      obtain ⟨old, hold, rfl⟩ := List.mem_map.mp hmem
      exact hproper.prepared old hold htxt) (by omega)
  unfold sectionItems txtRoom at *
  cases hfirst : firstTxt records with
  | none =>
    refine ⟨p₁, m₁, place, chain, ?_, hwithin, hready, hchain, ?_, ?_, hlength⟩
    · rw [addSection, hadd]
      exact add_no_txt hready.data hfirst
    · rw [hitems, Option.toList_none, List.map_nil, List.append_nil]
    · exact hplace
  | some first =>
    rw [hfirst] at hroom
    dsimp only [Option.elim_some] at hroom ⊢
    obtain ⟨p₂, m₂, start, htxt, hwithin', hready', hplaced, htext, hstart, hlength'⟩ :=
      hready.add_txt rclass ttl hfirst (hproper.txt first hfirst) (by omega)
    have hlast : Chain m₂ place [(txtItem records rclass ttl first,
        ⟨place, start, start + (txtData (stringsOf records)).length⟩)]
        (start + (txtData (stringsOf records)).length) :=
      chain_cons hplaced ⟨htext, rfl⟩ .nil
    refine ⟨p₂, m₂, _, _, ?_, hwithin.trans hwithin', hready', (hchain.mono hwithin').append hlast,
      ?_, ?_, hlength'.trans hlength⟩
    · rw [addSection, hadd]
      exact htxt
    · rw [List.map_append, hitems]
      rfl
    · omega

/-! ## Whole messages -/

structure Question where
  name : List UInt8
  rtype : ℕ
  rclass : ℕ
deriving DecidableEq

/-- What a message says. -/
structure Message where
  queryId : ℕ
  flags : ℕ
  questions : List Question := []
  answers : List Item := []
  authority : List Item := []
  additional : List Item := []
deriving DecidableEq

/-- Questions one behind the other. -/
inductive Asks (m : Bytes) : ℕ → List Question → ℕ → Prop
  | nil {pos : ℕ} : Asks m pos [] pos
  | cons {pos behind stop : ℕ} {question : Question} {questions : List Question}
      (hname : NameStands m question.name pos behind)
      (hfields : TextAt m behind (word question.rtype ++ word question.rclass))
      (hrest : Asks m (behind + 4) questions stop) : Asks m pos (question :: questions) stop

/-- Questions stay while bytes are added. -/
theorem Asks.mono {questions : List Question} (hwithin : Within m m')
    (h : Asks m pos questions stop) :
    Asks m' pos questions stop := by
  induction h with
  | nil => exact .nil
  | cons hname hfields hrest ih => exact .cons (hname.mono hwithin) (hfields.mono hwithin) ih

/-- Each question takes at least a byte. -/
theorem Asks.length_le {questions : List Question} (h : Asks m pos questions stop) :
    pos + questions.length ≤ stop := by
  induction h with
  | nil => exact Nat.le_refl _
  | cons hname hfields hrest ih =>
    obtain ⟨labels, -, -, hat⟩ := hname
    have hlt := hat.lt_stop
    rw [List.length_cons]
    omega

/-- What is kept of a message when each record is heeded in its turn, as one of its section. -/
def Message.heeded {σ : Type} (next : EntryType → Item → σ → σ) (message : Message) (state : σ) :
    σ :=
  let state := message.answers.foldl (fun state item => next .answer item state) state
  let state := message.authority.foldl (fun state item => next .authority item state) state
  message.additional.foldl (fun state item => next .additional item state) state

def Message.header (message : Message) : List UInt8 :=
  word message.queryId ++ word message.flags ++ word message.questions.length ++
    word message.answers.length ++ word message.authority.length ++ word message.additional.length

/-- Records that say this, one behind the other. -/
def Listed (m : Bytes) (pos : ℕ) (items : List Item) (stop : ℕ) : Prop :=
  ∃ chain, Chain m pos chain stop ∧ chain.map Prod.fst = items

/-- Listed records stay while bytes are added. -/
theorem Listed.mono {items : List Item} (hwithin : Within m m') (h : Listed m pos items stop) :
    Listed m' pos items stop := by
  obtain ⟨chain, hchain, hitems⟩ := h
  exact ⟨chain, hchain.mono hwithin, hitems⟩

/-- Each record takes at least a byte. -/
theorem Listed.length_le {items : List Item} (h : Listed m pos items stop) :
    pos + items.length ≤ stop := by
  obtain ⟨chain, hchain, rfl⟩ := h
  rw [List.length_map]
  exact hchain.length_le

/-- The bytes are a message that says this. -/
def Says (datagram : List UInt8) (message : Message) : Prop :=
  ∃ q a b, TextAt (bytesOf datagram) 0 message.header ∧
    Asks (bytesOf datagram) 12 message.questions q ∧
    Listed (bytesOf datagram) q message.answers a ∧
    Listed (bytesOf datagram) a message.authority b ∧
    Listed (bytesOf datagram) b message.additional datagram.length

/-- The header is stored at the front, and the rest follows behind it. -/
theorem ready_header {storage : List UInt8} (header : List UInt8) (hsmall : storage.length ≤ 0x4000)
    (hheader : header.length = 12) (hroom : 12 ≤ storage.length) (last : Label)
    (table : Option StringTable) (htable : ∀ t, table = some t → t = {}) :
    ∃ buffer, store storage 0 header = some buffer ∧ buffer.length = storage.length ∧
      Ready { buffer := buffer, data := some 12, stringTable := table }
        (Bytes.stored (fun _ => none) 0 header) last 12 ∧
      TextAt (Bytes.stored (fun _ => none) 0 header) 0 header := by
  obtain ⟨buffer, hstore⟩ := store_inside storage 0 header (by omega)
  have hlength := length_store hstore
  refine ⟨buffer, hstore, hlength, ⟨⟨rfl, ?_, ?_⟩, ?_, ?_⟩, textAt_stored _ _ _⟩
  · dsimp only
    omega
  · intro i byte hbyte
    dsimp only
    rw [getElem?_store hstore]
    rw [Bytes.stored] at hbyte
    split at hbyte
    · next hi =>
      rw [if_pos hi]
      exact ⟨by omega, hbyte⟩
    · cases hbyte
  · dsimp only
    omega
  · intro t ht
    rw [htable t ht]
    exact table_empty _ last

/-- The question that is repeated in a unicast answer. -/
theorem Ready.add_question (h : Ready p m last pos) {name : List UInt8} (rtype : ℕ)
    (hname : ProperName last name) (hroom : pos + (name.length + 1) + 4 ≤ p.buffer.length) :
    ∃ p' m' stop, mdnsAnswerAddQuestionUnicast p pos rtype name = some p' ∧ Within m m' ∧
      Ready p' m' last stop ∧
      Asks m' pos [⟨name, rtype, MDNS_UNICAST_RESPONSE ||| MDNS_CLASS_IN⟩] stop ∧
      stop ≤ pos + (name.length + 1) + 4 ∧ p'.buffer.length = p.buffer.length := by
  obtain ⟨p₁, m₁, behind, hmake, hgrown, hready, hat, hlt, hstop, hlength⟩ :=
    h.string_make name hname (by omega)
  obtain ⟨p₂, m₂, hput, hgrown', hready', htext, hlength'⟩ :=
    hready.put (word rtype ++ word (MDNS_UNICAST_RESPONSE ||| MDNS_CLASS_IN))
      (by rw [List.length_append, length_word, length_word]; omega)
  refine ⟨p₂, m₂, _, ?_, hgrown.within.trans hgrown'.within, hready',
    .cons (hat.mono hgrown'.within) htext .nil, ?_, hlength'.trans hlength⟩
  · rw [mdnsAnswerAddQuestionUnicast, hmake]
    dsimp only
    rw [hready.data]
    dsimp only
    rw [if_neg (by omega)]
    exact hput
  · rw [List.length_append, length_word, length_word]
    omega

variable {authority additional : List Record} {answer : Record} {prepare : Record → Record}

/-- The answer and the two sections behind it. -/
theorem Ready.add_answer (h : Ready p m last pos) (rclass ttl : ℕ)
    (hanswer : ProperRecord last answer)
    (hauthority : ProperSection last prepare authority)
    (hadditional : ProperSection last prepare additional)
    (hroom : pos + recordRoom answer + sectionRoom prepare authority +
        sectionRoom prepare additional ≤
      p.buffer.length) :
    ∃ p' m' a b stop, addAnswer p prepare rclass ttl answer authority additional = some p' ∧
      Within m m' ∧
      Ready p' m' last stop ∧ Listed m' pos [itemOf answer] a ∧
      Listed m' a (sectionItems prepare rclass ttl authority) b ∧
      Listed m' b (sectionItems prepare rclass ttl additional) stop ∧
      p'.buffer.length = p.buffer.length := by
  obtain ⟨p₁, m₁, start, a, hrecord, hwithin, hready, hplaced, hdata, ha, hlength⟩ :=
    h.add_record hanswer (by omega)
  obtain ⟨p₂, m₂, b, chain, hadd, hwithin', hready', hchain, hitems, hb, hlength'⟩ :=
    hready.add_section rclass ttl hauthority (by omega)
  obtain ⟨p₃, m₃, stop, chain', hadd', hwithin'', hready'', hchain', hitems', hstop, hlength''⟩ :=
    hready'.add_section rclass ttl hadditional (by omega)
  have hfirst : Chain m₁ pos [(itemOf answer, ⟨pos, start, a⟩)] a := chain_cons hplaced hdata .nil
  refine ⟨p₃, m₃, a, b, stop, ?_, (hwithin.trans hwithin').trans hwithin'', hready'',
    ⟨_, hfirst.mono (hwithin'.trans hwithin''), rfl⟩, ⟨_, hchain.mono hwithin'', hitems⟩,
    ⟨_, hchain', hitems'⟩, hlength''.trans (hlength'.trans hlength)⟩
  rw [addAnswer, hrecord]
  dsimp only
  rw [hadd]
  exact hadd'

/-- The check by type. -/
theorem isTxt_eq (record : Record) :
    isTxt record = decide (record.data.type = MDNS_RECORDTYPE_TXT) := by
  unfold isTxt
  cases record.data <;> rfl

/-- As many records are counted as are sent. -/
theorem recordCount_eq (prepare : Record → Record) (rclass ttl : ℕ) (records : List Record)
    (hprepare : ∀ record, (prepare record).data = record.data)
    (hsmall : (sectionItems prepare rclass ttl records).length < 65536) :
    mdnsAnswerGetRecordCount records = (sectionItems prepare rclass ttl records).length := by
  have hothers : (records.map prepare).filter (fun record => !isTxt record) =
      (records.filter fun record => decide (record.data.type ≠ MDNS_RECORDTYPE_TXT)).map
        prepare := by
    rw [List.filter_map]
    refine congrArg _ (List.filter_congr fun record _ => ?_)
    rw [Function.comp_apply, isTxt_eq, hprepare, decide_not]
  have htxt : (firstTxt records).toList.length =
      if (records.any fun record => record.data.type = MDNS_RECORDTYPE_TXT) = true then 1
      else 0 := by
    have hsome : (firstTxt records).isSome = records.any fun record =>
        record.data.type = MDNS_RECORDTYPE_TXT := by
      rw [firstTxt, List.isSome_find?]
      exact congrArg records.any (funext isTxt_eq)
    rw [← hsome]
    cases firstTxt records <;> rfl
  unfold sectionItems at hsmall ⊢
  rw [List.length_append, List.length_map, List.length_map, hothers, List.length_map, htxt]
    at hsmall ⊢
  rw [mdnsAnswerGetRecordCount]
  exact Nat.mod_eq_of_lt hsmall

/-- What an answer says to the questions that were put in front of it. -/
def answerMessage (prepare : Record → Record) (rclass ttl queryId : ℕ) (questions : List Question)
    (answer : Record) (authority additional : List Record) : Message where
  queryId := queryId
  flags := 0x8400
  questions := questions
  answers := [itemOf answer]
  authority := sectionItems prepare rclass ttl authority
  additional := sectionItems prepare rclass ttl additional

/-- What is sent once header and questions stand: the answer and both sections. -/
theorem Ready.answer_sent (h : Ready p m last pos) (prepare : Record → Record)
    (questions : List Question) {queryId : ℕ} (rclass ttl : ℕ)
    (hheader : TextAt m 0 (answerHeader queryId questions.length authority additional))
    (hasks : Asks m 12 questions pos) (hprepare : ∀ record, (prepare record).data = record.data)
    (hanswer : ProperRecord last answer) (hauthority : ProperSection last prepare authority)
    (hadditional : ProperSection last prepare additional)
    (hroom : pos + recordRoom answer + sectionRoom prepare authority +
        sectionRoom prepare additional ≤
      p.buffer.length) :
    ∃ buffer datagram,
      (addAnswer p prepare rclass ttl answer authority additional).map sent =
        some (buffer, some datagram) ∧
      buffer.length = p.buffer.length ∧ datagram.length ≤ p.buffer.length ∧
      Says datagram (answerMessage prepare rclass ttl queryId questions answer authority
        additional) := by
  obtain ⟨p', m', a, b, stop, hadd, hwithin, hready, hanswers, hauthorities, hadditionals,
    hlength⟩ :=
    h.add_answer rclass ttl hanswer hauthority hadditional hroom
  have hsent := hready.sent
  have hsize := hready.room
  have hsmall := hready.small
  have hdatagram : (p'.buffer.take stop).length = stop := by
    rw [List.length_take]
    omega
  have hfew := hauthorities.length_le
  have hfew' := hadditionals.length_le
  refine ⟨p'.buffer, p'.buffer.take stop, ?_, hlength, by omega, pos, a, b, ?_,
    hasks.mono (hwithin.trans hsent), hanswers.mono hsent, hauthorities.mono hsent, ?_⟩
  · rw [hadd, Option.map_some, sent, hready.data, Option.map_some]
  · rw [answerHeader, recordCount_eq prepare rclass ttl authority hprepare (by omega),
      recordCount_eq prepare rclass ttl additional hprepare (by omega)] at hheader
    exact hheader.mono (hwithin.trans hsent)
  · rw [hdatagram]
    exact hadditionals.mono hsent

/-- The answer to one asker says the question, the answer and the records of both sections. -/
theorem mdnsQueryAnswerUnicast_eq {storage name : List UInt8} (queryId recordType : ℕ)
    (hlarge : 48 ≤ storage.length) (hsmall : storage.length ≤ 0x4000) (hname : ProperName last name)
    (hanswer : ProperRecord last answer)
    (hauthority : ProperSection last (unicastRecord MDNS_CLASS_IN 10) authority)
    (hadditional : ProperSection last (unicastRecord MDNS_CLASS_IN 10) additional)
    (hroom : 12 + (name.length + 1) + 4 + recordRoom answer +
      sectionRoom (unicastRecord MDNS_CLASS_IN 10) authority +
      sectionRoom (unicastRecord MDNS_CLASS_IN 10) additional ≤ storage.length) :
    ∃ buffer datagram,
      mdnsQueryAnswerUnicast storage queryId recordType name answer authority additional =
        some (buffer, some datagram) ∧
      buffer.length = storage.length ∧ datagram.length ≤ storage.length ∧
      Says datagram (answerMessage (unicastRecord MDNS_CLASS_IN 10) MDNS_CLASS_IN 10 queryId
        [⟨name, recordType, MDNS_UNICAST_RESPONSE ||| MDNS_CLASS_IN⟩]
        { answer with rclass := MDNS_CLASS_IN, ttl := 10 } authority additional) := by
  obtain ⟨buffer, hstore, hlength, hready, hheader⟩ := ready_header
    (answerHeader queryId 1 authority additional) hsmall rfl (by omega) last (some {})
    (by rintro _ ⟨⟩; rfl)
  obtain ⟨p₁, m₁, q, hquestion, hwithin, hready', hasks, hq, hlength'⟩ :=
    hready.add_question recordType hname (by dsimp only; omega)
  have hanswer' : ProperRecord last { answer with rclass := MDNS_CLASS_IN, ttl := 10 } :=
    ⟨hanswer.name, hanswer.data⟩
  have hroom' : recordRoom { answer with rclass := MDNS_CLASS_IN, ttl := 10 } = recordRoom answer :=
    rfl
  dsimp only at hlength'
  obtain ⟨buffer', datagram, hsent, hbuffer, hdatagram, htells⟩ :=
    hready'.answer_sent (unicastRecord MDNS_CLASS_IN 10) _ MDNS_CLASS_IN 10
      (hheader.mono hwithin) hasks (fun _ => rfl) hanswer' hauthority
      hadditional (by omega)
  refine ⟨buffer', datagram, ?_, by omega, by omega, htells⟩
  rw [mdnsQueryAnswerUnicast, if_neg (by omega), hstore]
  dsimp only
  rw [hquestion]
  exact hsent

/-- The answer to all says the answer and the records of both sections. -/
theorem mdnsAnswerMulticastRclassTtl_eq {storage : List UInt8} (rclass ttl : ℕ)
    (hlarge : 48 ≤ storage.length) (hsmall : storage.length ≤ 0x4000)
    (hanswer : ProperRecord last answer)
    (hauthority : ProperSection last (mdnsRecordUpdateRclassTtl · rclass ttl) authority)
    (hadditional : ProperSection last (mdnsRecordUpdateRclassTtl · rclass ttl) additional)
    (hroom : 12 + recordRoom answer + sectionRoom (mdnsRecordUpdateRclassTtl · rclass ttl)
        authority +
      sectionRoom (mdnsRecordUpdateRclassTtl · rclass ttl) additional ≤ storage.length) :
    ∃ buffer datagram,
      mdnsAnswerMulticastRclassTtl storage answer authority additional rclass ttl =
        some (buffer, some datagram) ∧
      buffer.length = storage.length ∧ datagram.length ≤ storage.length ∧
      Says datagram (answerMessage (mdnsRecordUpdateRclassTtl · rclass ttl) rclass ttl 0 []
        (mdnsRecordUpdateRclassTtl answer rclass ttl) authority additional) := by
  obtain ⟨buffer, hstore, hlength, hready, hheader⟩ := ready_header
    (answerHeader 0 0 authority additional) hsmall rfl (by omega) last (some {})
    (by rintro _ ⟨⟩; rfl)
  obtain ⟨hsameName, hsameData⟩ := updateRclassTtl_name answer rclass ttl
  have hanswer' : ProperRecord last (mdnsRecordUpdateRclassTtl answer rclass ttl) :=
    ⟨hsameName ▸ hanswer.name, hsameData ▸ hanswer.data⟩
  have hroom' : recordRoom (mdnsRecordUpdateRclassTtl answer rclass ttl) = recordRoom answer := by
    rw [recordRoom, hsameName, hsameData, recordRoom]
  obtain ⟨buffer', datagram, hsent, hbuffer, hdatagram, htells⟩ :=
    hready.answer_sent (mdnsRecordUpdateRclassTtl · rclass ttl) [] rclass ttl hheader .nil
      (fun record => (updateRclassTtl_name record rclass ttl).2) hanswer' hauthority hadditional
      (by dsimp only; omega)
  refine ⟨buffer', datagram, ?_, by dsimp only at hbuffer; omega, by dsimp only at hdatagram; omega,
    htells⟩
  rw [mdnsAnswerMulticastRclassTtl, if_neg (by omega), hstore]
  exact hsent

/-- A query says its question. -/
theorem mdnsQuerySend_eq {name : List UInt8} (storage : List UInt8) (localPort : Option ℕ)
    (type queryId : ℕ)
    (hlarge : 18 ≤ storage.length) (hsmall : storage.length ≤ 0x4000) (hname : ProperName last name)
    (hroom : 12 + (name.length + 1) + 4 ≤ storage.length) :
    ∃ buffer datagram,
      mdnsQuerySend localPort type name storage queryId = some (buffer, some datagram) ∧
      buffer.length = storage.length ∧ datagram.length ≤ 12 + (name.length + 1) + 4 ∧
      Says datagram
        { queryId := queryId, flags := 0, questions := [⟨name, type, queryRclass localPort⟩] } := by
  obtain ⟨buffer, hstore, hlength, hready, hheader⟩ := ready_header
    (word queryId ++ word 0 ++ word 1 ++ word 0 ++ word 0 ++ word 0) hsmall rfl
      (by omega) last none nofun
  obtain ⟨p₁, m₁, behind, hmake, hgrown, hready', hat, hlt, hbehind, hlength'⟩ :=
    hready.string_make name hname (by dsimp only; omega)
  dsimp only at hlength'
  obtain ⟨p₂, m₂, hput, hgrown', hready'', htext, hlength''⟩ :=
    hready'.put (word type ++ word (queryRclass localPort))
      (by rw [List.length_append, length_word, length_word]; omega)
  rw [List.length_append, length_word, length_word] at hready''
  have hsent := hready''.sent
  have hsize := hready''.room
  have hdatagram : (p₂.buffer.take (behind + 4)).length = behind + 4 := by
    rw [List.length_take]
    omega
  refine ⟨p₂.buffer, p₂.buffer.take (behind + 4), ?_, by omega, by omega, behind + 4, behind + 4,
    behind + 4, hheader.mono ((hgrown.within.trans hgrown'.within).trans hsent),
    .cons (hat.mono (hgrown'.within.trans hsent)) (htext.mono hsent) .nil, ⟨[], .nil, rfl⟩,
    ⟨[], .nil, rfl⟩, ?_⟩
  · rw [mdnsQuerySend, mdnsMultiquerySend, if_neg (by simp only [List.length_singleton]; omega)]
    simp only [List.length_singleton, hstore]
    rw [addQueries]
    dsimp only
    rw [hmake]
    dsimp only
    rw [hready'.data]
    dsimp only
    rw [if_neg (by omega), hput]
    dsimp only
    rw [addQueries, Option.map_some, sent, hready''.data, Option.map_some]
  · rw [hdatagram]
    exact ⟨[], .nil, rfl⟩

/-! ## Nothing outside the buffer is written -/

variable {length : ℕ}

/-- A name in the data is not empty. -/
def NamedData : RecordData → Prop
  | .ptr name => name ≠ []
  | .srv _ _ _ name => name ≠ []
  | .a _ => True
  | .aaaa addr => addr.length = 16
  | .txt .. => True

/-- No name of the record is empty. -/
structure Named (record : Record) : Prop where
  name : record.name ≠ []
  data : NamedData record.data

/-- The front of a record stays within the storage, or nothing is written any more. -/
theorem recordHeader_kept (record : Record) (h : p.buffer.length = length) (hpos : pos ≤ length)
    (hname : record.name ≠ []) :
    ∃ p', mdnsAnswerAddRecordHeader p pos record = some p' ∧ Kept length p' ∧
      ∀ data, p'.data = some data → 2 ≤ data := by
  obtain ⟨p₁, hmake, hkept⟩ := mdnsStringMake_kept h hpos hname
  unfold mdnsAnswerAddRecordHeader
  rw [hmake]
  dsimp only
  cases hdata : p₁.data with
  | none => exact ⟨p₁, rfl, hkept, fun data hd => by rw [hdata] at hd; cases hd⟩
  | some data =>
    dsimp only
    split
    · exact ⟨_, rfl, kept_null hkept.length_eq, nofun⟩
    · next hroom =>
      have hle := hkept.data_le data hdata
      have hlength := hkept.length_eq
      obtain ⟨p₂, hput, hkept', hdata'⟩ := put_kept p₁ data (fieldsOf record.data.type record.rclass
        record.ttl ++ word 0) hkept.length_eq
          (by rw [List.length_append, length_fieldsOf, length_word]; omega)
      refine ⟨p₂, hput, hkept', fun data' hd => ?_⟩
      rw [hdata', List.length_append, length_fieldsOf, length_word] at hd
      cases hd
      omega

/-- So do its data. -/
theorem recordData_kept (h : p.buffer.length = length) (hpos : pos ≤ length) {data : RecordData}
    (hnamed : NamedData data) : ∃ p', addRecordData p pos data = some p' ∧ Kept length p' := by
  cases data with
  | ptr name => exact mdnsStringMake_kept h hpos hnamed
  | srv priority weight port name =>
    rw [addRecordData]
    split
    · exact ⟨_, rfl, kept_null h⟩
    · obtain ⟨p₁, hput, hkept, -⟩ := put_kept p pos (word priority ++ word weight ++ word port) h
        (by simp only [List.length_append, length_word]; omega)
      rw [hput]
      exact mdnsStringMake_kept hkept.length_eq (by omega) hnamed
  | a addr =>
    rw [addRecordData]
    split
    · exact ⟨_, rfl, kept_null h⟩
    · obtain ⟨p₁, hput, hkept, -⟩ := put_kept p pos addr.bytes h
        (by simp only [InAddr.bytes, List.length_cons, List.length_nil]; omega)
      exact ⟨p₁, hput, hkept⟩
  | aaaa addr =>
    have hlength : addr.length = 16 := hnamed
    rw [addRecordData]
    split
    · exact ⟨_, rfl, kept_null h⟩
    · obtain ⟨p₁, hput, hkept, -⟩ := put_kept p pos addr h (by omega)
      exact ⟨p₁, hput, hkept⟩
  | txt key value =>
    refine ⟨_, rfl, h, ?_⟩
    rintro _ ⟨⟩
    exact hpos

/-- So does its length, which stands two bytes before the data. -/
theorem recordLength_kept {start : ℕ} (h : Kept length p) (hstart : 2 ≤ start)
    (hle : start ≤ length) :
    ∃ p', fillRecordLength p start stop = some p' ∧ Kept length p' := by
  have hlength := h.length_eq
  obtain ⟨buffer', hstore⟩ := store_inside p.buffer (start - 2) (word (stop - start))
    (by rw [length_word]; omega)
  refine ⟨{ p with buffer := buffer' }, ?_, (length_store hstore).trans hlength, h.data_le⟩
  rw [fillRecordLength, hstore, Option.map_some]

/-- A record stays within the storage, with room for it or without. -/
theorem addRecord_kept (h : Kept length p) (hnamed : Named record) :
    ∃ p', mdnsAnswerAddRecord p record = some p' ∧ Kept length p' := by
  unfold mdnsAnswerAddRecord
  cases hdata : p.data with
  | none => exact ⟨p, rfl, h⟩
  | some data =>
    dsimp only
    split
    · exact ⟨p, rfl, h⟩
    obtain ⟨p₁, hheader, hkept, hstart⟩ :=
      recordHeader_kept record h.length_eq (h.data_le data hdata) hnamed.name
    rw [hheader]
    dsimp only
    cases hdata₁ : p₁.data with
    | none => exact ⟨p₁, rfl, hkept⟩
    | some start =>
      obtain ⟨p₂, hadd, hkept₂⟩ :=
        recordData_kept hkept.length_eq (hkept.data_le start hdata₁) hnamed.data
      dsimp only
      rw [hadd]
      dsimp only
      cases hdata₂ : p₂.data with
      | none => exact ⟨p₂, rfl, hkept₂⟩
      | some stop =>
        exact recordLength_kept hkept₂ (hstart start hdata₁) (hkept.data_le start hdata₁)

/-- So do the records of a section. -/
theorem addRecords_kept (h : Kept length p) (hnamed : ∀ record ∈ records, Named record) :
    ∃ p', addRecords p records = some p' ∧ Kept length p' := by
  induction records generalizing p with
  | nil => exact ⟨p, rfl, h⟩
  | cons record records ih =>
    obtain ⟨p₁, hadd, hkept⟩ := addRecord_kept h (hnamed record List.mem_cons_self)
    rw [addRecords, List.foldlM_cons, hadd]
    exact ih hkept fun other hother => hnamed other (List.mem_cons_of_mem _ hother)

/-- A string is put behind the others where there is room for it. -/
theorem addTxtFrom_put (records : List Record) (rclass ttl start : ℕ) (h : Kept length p)
    (hdata : p.data = some pos) {pair : List UInt8 × List UInt8}
    (hs : record.data.strings = some pair) :
    (∃ p', addTxtFrom p rclass ttl (some start) (record :: records) = some (p', none) ∧
      Kept length p') ∨
      ∃ p', addTxtFrom p rclass ttl (some start) (record :: records) =
        addTxtFrom p' rclass ttl (some start) records ∧ Kept length p' ∧ ∃ data, p'.data =
          some data := by
  have hlength := h.length_eq
  have hlong := length_txtString pair.1 pair.2
  have heq : addTxtFrom p rclass ttl (some start) (record :: records) =
      if p.buffer.length - pos ≤ pair.1.length + pair.2.length + 1 ∨
          0x3FFF < pair.1.length + pair.2.length + 1 then some ({ p with data := none }, none)
      else
        match put p pos (txtString pair.1 pair.2) with
        | none => none
        | some p => addTxtFrom p rclass ttl (some start) records := by
    rw [addTxtFrom.eq_def]
    simp only [hdata, txt_of_strings hs]
    rw [← hdata]
  rw [heq]
  by_cases hfull : p.buffer.length - pos ≤ pair.1.length + pair.2.length + 1 ∨
      0x3FFF < pair.1.length + pair.2.length + 1
  · exact .inl ⟨_, if_pos hfull, kept_null hlength⟩
  · have hle := h.data_le pos hdata
    obtain ⟨p', hput, hkept, hdata'⟩ := put_kept p pos (txtString pair.1 pair.2) hlength (by omega)
    rw [if_neg hfull, hput]
    exact .inr ⟨p', rfl, hkept, _, hdata'⟩

/-- Further strings stay within the storage and in their one record. -/
theorem addTxtFrom_kept (h : Kept length p) (hdata : p.data = some pos) :
    ∃ p' recordData', addTxtFrom p rclass ttl (some start) records = some (p', recordData') ∧
      Kept length p' ∧ ∀ start' ∈ recordData', start' = start := by
  induction records generalizing p pos with
  | nil => exact ⟨p, some start, rfl, h, fun _ hs => (Option.some.inj hs).symm⟩
  | cons record records ih =>
    cases hs : record.data.strings with
    | none =>
      rw [addTxtFrom_other hdata hs]
      exact ih h hdata
    | some pair =>
      rcases addTxtFrom_put records rclass ttl start h hdata hs
        with ⟨p', hadd, hkept⟩ | ⟨p', hadd, hkept, data, hdata'⟩
      · exact ⟨p', none, hadd, hkept, nofun⟩
      · rw [hadd]
        exact ih hkept hdata'

/-- The first string opens that record, behind two bytes for its length. -/
theorem addTxtFrom_start (rclass ttl : ℕ) (h : Kept length p) (hdata : p.data = some pos)
    (hnamed : ∀ record ∈ records, Named record) :
    ∃ p' recordData', addTxtFrom p rclass ttl none records = some (p', recordData') ∧
      Kept length p' ∧ ∀ start ∈ recordData', 2 ≤ start ∧ start ≤ length := by
  induction records with
  | nil => exact ⟨p, none, rfl, h, nofun⟩
  | cons record records ih =>
    cases hs : record.data.strings with
    | none =>
      rw [addTxtFrom_other hdata hs]
      exact ih fun other hother => hnamed other (List.mem_cons_of_mem _ hother)
    | some pair =>
      have hname :=
        (updateRclassTtl_name record rclass ttl).1 ▸ (hnamed record List.mem_cons_self).name
      obtain ⟨p₁, hheader, hkept, hstart⟩ := recordHeader_kept
        (mdnsRecordUpdateRclassTtl record rclass ttl) h.length_eq (h.data_le pos hdata) hname
      cases hdata₁ : p₁.data with
      | none =>
        refine ⟨p₁, none, ?_, hkept, nofun⟩
        rw [addTxtFrom.eq_def]
        simp only [hdata, txt_of_strings hs, hheader, Option.map_some, hdata₁]
      | some start =>
        rw [addTxtFrom_first hdata hs hheader hdata₁]
        obtain ⟨p', recordData', hadd, hkept', hsame⟩ := addTxtFrom_kept hkept hdata₁
        refine ⟨p', recordData', hadd, hkept', fun start' hs' => ?_⟩
        rw [hsame start' hs']
        exact ⟨hstart start hdata₁, hkept.data_le start hdata₁⟩

/-- The TXT records are written or not, and nothing outside the buffer is touched. -/
theorem addTxtRecord_kept (h : Kept length p) (hnamed : ∀ record ∈ records, Named record) :
    ∃ p', mdnsAnswerAddTxtRecord p records rclass ttl = some p' ∧ Kept length p' := by
  unfold mdnsAnswerAddTxtRecord
  cases hdata : p.data with
  | none =>
    have hnone : addTxtFrom p rclass ttl none records = some (p, none) := by
      cases records with
      | nil => rfl
      | cons record records =>
        rw [addTxtFrom.eq_def]
        simp only [hdata]
    rw [hnone]
    dsimp only
    rw [hdata]
    exact ⟨p, rfl, h⟩
  | some pos =>
    obtain ⟨p₁, recordData, hadd, hkept, hstart⟩ :=
      addTxtFrom_start rclass ttl h hdata hnamed
    rw [hadd]
    dsimp only
    cases hdata₁ : p₁.data with
    | none => exact ⟨p₁, rfl, hkept⟩
    | some stop =>
      cases recordData with
      | none => exact ⟨p₁, rfl, hkept⟩
      | some start => exact recordLength_kept hkept (hstart start rfl).1 (hstart start rfl).2

/-- A section stays within the storage. -/
theorem addSection_kept (rclass ttl : ℕ) (h : Kept length p)
    (hprepared : ∀ record ∈ records.map prepare, Named record)
    (hnamed : ∀ record ∈ records, Named record) :
    ∃ p', addSection p prepare rclass ttl records = some p' ∧ Kept length p' := by
  obtain ⟨p₁, hadd, hkept⟩ := addRecords_kept h hprepared
  unfold addSection
  rw [hadd]
  exact addTxtRecord_kept hkept hnamed

/-- So does an answer with its sections. -/
theorem addAnswer_kept (prepare : Record → Record) (rclass ttl : ℕ) (h : Kept length p)
    (hanswer : Named answer) (hprepare : ∀ record, Named record → Named (prepare record))
    (hauthority : ∀ record ∈ authority, Named record)
    (hadditional : ∀ record ∈ additional, Named record) :
    ∃ p', addAnswer p prepare rclass ttl answer authority additional = some p' ∧
      Kept length p' := by
  have hprepared : ∀ records : List Record, (∀ record ∈ records, Named record) →
      ∀ record ∈ records.map prepare, Named record := by
    intro records hnamed record hmem
    obtain ⟨old, hold, rfl⟩ := List.mem_map.mp hmem
    exact hprepare old (hnamed old hold)
  obtain ⟨p₁, hadd, hkept⟩ := addRecord_kept h hanswer
  obtain ⟨p₂, hadd₂, hkept₂⟩ := addSection_kept rclass ttl hkept
    (hprepared authority hauthority) hauthority
  obtain ⟨p₃, hadd₃, hkept₃⟩ := addSection_kept rclass ttl hkept₂
    (hprepared additional hadditional) hadditional
  unfold addAnswer
  rw [hadd]
  dsimp only
  rw [hadd₂]
  exact ⟨p₃, hadd₃, hkept₃⟩

/-- A result of the right length: the buffer behind it, and a datagram that is no longer. -/
def Fits (length : ℕ) (r : List UInt8 × Option (List UInt8)) : Prop :=
  r.1.length = length ∧ ∀ datagram ∈ r.2, datagram.length ≤ length

/-- No more is sent than the storage holds. -/
theorem sent_fits (h : Kept length p) : Fits length (sent p) := by
  refine ⟨h.length_eq, fun datagram hmem => ?_⟩
  obtain ⟨data, hdata, rfl⟩ := Option.map_eq_some_iff.mp hmem
  rw [List.length_take]
  have hle := h.data_le data hdata
  have hlength := h.length_eq
  omega

/-- The header of twelve bytes fits into twelve bytes. -/
theorem kept_header (storage header : List UInt8) (hheader : header.length = 12)
    (hlarge : 12 ≤ storage.length) (table : Option StringTable) :
    ∃ buffer, store storage 0 header = some buffer ∧
      Kept storage.length { buffer := buffer, data := some 12, stringTable := table } := by
  obtain ⟨buffer, hstore⟩ := store_inside storage 0 header (by omega)
  refine ⟨buffer, hstore, length_store hstore, ?_⟩
  rintro _ ⟨⟩
  exact hlarge

/-- An answer to one asker stays inside its buffer, whatever it is to say. -/
theorem mdnsQueryAnswerUnicast_fits (storage : List UInt8) (queryId recordType : ℕ)
    {name : List UInt8}
    (hname : name ≠ []) (hanswer : Named answer) (hauthority : ∀ record ∈ authority, Named record)
    (hadditional : ∀ record ∈ additional, Named record) :
    ∃ r, mdnsQueryAnswerUnicast storage queryId recordType name answer authority additional =
      some r ∧
      Fits storage.length r := by
  unfold mdnsQueryAnswerUnicast
  by_cases hsmall : storage.length < 12 + 32 + 4
  · exact ⟨_, if_pos hsmall, rfl, nofun⟩
  obtain ⟨buffer, hstore, hkept⟩ := kept_header storage
    (answerHeader queryId 1 authority additional) rfl (by omega) (some {})
  rw [if_neg hsmall, hstore]
  dsimp only
  have hquestion : ∃ p₁, mdnsAnswerAddQuestionUnicast
      { buffer := buffer, data := some 12, stringTable := some {} } 12 recordType name = some p₁ ∧
      Kept storage.length p₁ := by
    obtain ⟨p₁, hmake, hkept₁⟩ := mdnsStringMake_kept hkept.length_eq (hkept.data_le 12 rfl) hname
    unfold mdnsAnswerAddQuestionUnicast
    rw [hmake]
    dsimp only
    cases hdata : p₁.data with
    | none => exact ⟨p₁, rfl, hkept₁⟩
    | some data =>
      dsimp only
      split
      · exact ⟨_, rfl, kept_null hkept₁.length_eq⟩
      · have hlength := hkept₁.length_eq
        have hle := hkept₁.data_le data hdata
        obtain ⟨p₂, hput, hkept₂, -⟩ := put_kept p₁ data (word recordType ++
          word (MDNS_UNICAST_RESPONSE ||| MDNS_CLASS_IN)) hlength
          (by rw [List.length_append, length_word, length_word]; omega)
        exact ⟨p₂, hput, hkept₂⟩
  obtain ⟨p₁, hadd, hkept₁⟩ := hquestion
  rw [hadd]
  dsimp only
  have hanswer' : Named { answer with rclass := MDNS_CLASS_IN, ttl := 10 } :=
    ⟨hanswer.name, hanswer.data⟩
  obtain ⟨p₂, hadd₂, hkept₂⟩ := addAnswer_kept (unicastRecord MDNS_CLASS_IN 10)
    MDNS_CLASS_IN 10 hkept₁ hanswer' (fun record h => ⟨h.name, h.data⟩)
    hauthority hadditional
  rw [hadd₂, Option.map_some]
  exact ⟨_, rfl, sent_fits hkept₂⟩

/-- An answer to all stays inside its buffer, whatever it is to say. -/
theorem mdnsAnswerMulticastRclassTtl_fits (storage : List UInt8) (rclass ttl : ℕ)
    (hanswer : Named answer)
    (hauthority : ∀ record ∈ authority, Named record)
    (hadditional : ∀ record ∈ additional, Named record) :
    ∃ r, mdnsAnswerMulticastRclassTtl storage answer authority additional rclass ttl = some r ∧
      Fits storage.length r := by
  have hprepare : ∀ record, Named record → Named (mdnsRecordUpdateRclassTtl record rclass ttl) := by
    intro record h
    obtain ⟨hname, hdata⟩ := updateRclassTtl_name record rclass ttl
    exact ⟨hname.symm ▸ h.name, hdata.symm ▸ h.data⟩
  unfold mdnsAnswerMulticastRclassTtl
  by_cases hsmall : storage.length < 12 + 32 + 4
  · exact ⟨_, if_pos hsmall, rfl, nofun⟩
  obtain ⟨buffer, hstore, hkept⟩ := kept_header storage (answerHeader 0 0 authority additional) rfl
    (by omega) (some {})
  rw [if_neg hsmall, hstore]
  dsimp only
  obtain ⟨p₁, hadd, hkept₁⟩ :=
    addAnswer_kept (mdnsRecordUpdateRclassTtl · rclass ttl) rclass ttl hkept
      (hprepare answer hanswer) hprepare hauthority hadditional
  rw [hadd, Option.map_some]
  exact ⟨_, rfl, sent_fits hkept₁⟩

end KdeConnectNx.MdnsAnswers
