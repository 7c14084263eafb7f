import KdeConnectNx.MdnsAnswers

/-!
# Messages read as they were written

A message that says something is read record by record. Where the callback does with a
record what the record says, all of the message is done in its order, at whatever places
the records stand and whatever the receive buffer held before.
-/

namespace KdeConnectNx.MdnsExchange

open DomainNames MdnsReader MdnsMessages MdnsWriter MdnsAnswers

variable {σ : Type} {callback : Callback σ} {buffer storage datagram name : List UInt8}
  {size pos start stop behind : ℕ}

/-! ## Fields -/

theorem mdnsNtohs_word {value : ℕ} (h : TextAt (bytesOf (buffer.take size)) start (word value)) :
    mdnsNtohs buffer start = some (value % 65536) ∧ start + 2 ≤ size := by
  have hhigh := h 0 _ rfl
  have hlow := h 1 _ rfl
  have hlast := lt_size hlow
  rw [Nat.add_zero] at hhigh
  rw [mdnsNtohs_eq (bytesOf_take_eq.mp hhigh).2 (bytesOf_take_eq.mp hlow).2, UInt8.toNat_ofNat',
    UInt8.toNat_ofNat']
  refine ⟨congrArg some ?_, by omega⟩
  omega

theorem mdnsNtohl_word {value : ℕ}
    (h : TextAt (bytesOf (buffer.take size)) start (word (value / 65536) ++ word value)) :
    mdnsNtohl buffer start = some (value % 4294967296) := by
  obtain ⟨hhigh, hlow⟩ := textAt_append.mp h
  rw [length_word] at hlow
  rw [mdnsNtohl, (mdnsNtohs_word hhigh).1, (mdnsNtohs_word hlow).1]
  refine congrArg some ?_
  omega

theorem skip_of_stands (hsize : size ≤ buffer.length)
    (h : NameStands (bytesOf (buffer.take size)) name pos behind) :
    mdnsStringSkip buffer size pos = some (some behind) := by
  obtain ⟨labels, -, hfew, hname⟩ := h
  obtain ⟨result, hresult, hiff⟩ := mdnsStringSkip_eq hsize pos
  obtain ⟨count, hcount, hspans⟩ := (hname.more maxRefs (by decide)).spans
  rw [hresult, (hiff behind).mpr ⟨count, Nat.le_trans hcount hfew, hspans⟩]

theorem extract_of_stands (hsize : size ≤ buffer.length)
    (h : NameStands (bytesOf (buffer.take size)) name pos behind) (capacity : ℕ) :
    mdnsStringExtract buffer size pos capacity = some (some (name.take capacity, behind)) := by
  obtain ⟨labels, rfl, hfew, hname⟩ := h
  obtain ⟨result, hresult, hiff⟩ := mdnsStringExtract_eq hsize pos capacity
  rw [hresult, (hiff _ behind).mpr ⟨labels, hfew, hname.more maxRefs (by decide), rfl⟩]

/-! ## Records -/

/-- What the callback is called with for a record that stands somewhere. -/
def entryOf (type : EntryType) (queryId : ℕ) (item : Item) (spot : Spot) : Entry where
  entry := type
  queryId := queryId
  rtype := item.rtype % 65536
  rclass := item.rclass % 65536
  ttl := item.ttl % 4294967296
  nameOffset := spot.nameOffset
  nameLength := spot.start - 10 - spot.nameOffset
  recordOffset := spot.start
  recordLength := spot.stop - spot.start

/-- Wherever such a record stands, the callback goes on and keeps what the record says, by its
section. -/
def Heeds (callback : Callback σ) (buffer : List UInt8) (size : ℕ) (ok : Item → Prop)
    (next : EntryType → Item → σ → σ) : Prop :=
  ∀ type queryId item spot, ok item → Placed (bytesOf (buffer.take size)) (item.placeAt spot) →
    ContentAt (bytesOf (buffer.take size)) spot.start spot.stop item.content → spot.stop ≤ size →
    ∀ state, callback buffer size (entryOf type queryId item spot) state =
      some (false, next type item state)

variable {next : EntryType → Item → σ → σ} {ok : Item → Prop}

theorem recordHeader_of_placed {place : Place} (h : Placed (bytesOf (buffer.take size)) place)
    (hlength : place.stop - place.start < 65536) :
    recordHeader buffer (place.start - 10) =
      some ⟨place.rtype % 65536, place.rclass % 65536, place.ttl % 4294967296,
        place.stop - place.start⟩ := by
  have hbehind := h.behind
  obtain ⟨hfields, httl⟩ := textAt_append.mp h.fields
  obtain ⟨hrtype, hrclass⟩ := textAt_append.mp hfields
  have hlengthAt := h.length
  rw [List.length_append, length_word, length_word] at httl
  rw [length_word] at hrclass
  have hplace : place.start - 2 = place.start - 10 + 8 := by omega
  rw [hplace] at hlengthAt
  rw [recordHeader, (mdnsNtohs_word hrtype).1, (mdnsNtohs_word hrclass).1, mdnsNtohl_word httl,
    (mdnsNtohs_word hlengthAt).1, Nat.mod_eq_of_lt hlength]

/-- A section is read in its order. -/
theorem mdnsRecordsParse_of_chain (hsize : size ≤ buffer.length) (hsmall : size < 65536)
    (hheeds : Heeds callback buffer size ok next) (type : EntryType) (queryId : ℕ)
    {chain : List (Item × Spot)} (h : Chain (bytesOf (buffer.take size)) pos chain stop)
    (hok : ∀ item ∈ chain.map Prod.fst, ok item) (hstop : stop ≤ size) (parsed : ℕ) (state : σ) :
    mdnsRecordsParse callback buffer size type queryId chain.length parsed pos state =
      some (parsed + chain.length, stop,
        (chain.map Prod.fst).foldl (fun state item => next type item state) state) := by
  induction h generalizing parsed state with
  | nil => rfl
  | @cons stop item spot chain hplaced hcontent hrest ih =>
    have hbehind := hplaced.behind
    have hinside := hplaced.inside
    have hrestLength := hrest.length_le
    dsimp only [Item.placeAt] at hbehind hinside
    have hskip := skip_of_stands hsize hplaced.name
    have hheader := recordHeader_of_placed hplaced (by dsimp only [Item.placeAt]; omega)
    dsimp only [Item.placeAt] at hskip hheader
    rw [List.length_cons, mdnsRecordsParse, hskip]
    dsimp only [Option.getD_some]
    rw [if_neg (by omega), hheader]
    dsimp only
    have hfront : spot.start - 10 + 10 = spot.start := by omega
    simp only [hfront]
    rw [if_pos (by omega)]
    have hcall :=
      hheeds type queryId item spot (hok item List.mem_cons_self) hplaced hcontent (by omega) state
    unfold entryOf at hcall
    rw [hcall]
    dsimp only
    have hnext : spot.start + (spot.stop - spot.start) = spot.stop := by omega
    rw [hnext, ih (fun other hother => hok other (List.mem_cons_of_mem _ hother)) hstop,
      List.map_cons, List.foldl_cons]
    congr 2
    omega

theorem mdnsRecordsParse_of_listed (hsize : size ≤ buffer.length) (hsmall : size < 65536)
    (hheeds : Heeds callback buffer size ok next) (type : EntryType) (queryId : ℕ)
    {items : List Item}
    (h : Listed (bytesOf (buffer.take size)) pos items stop) (hok : ∀ item ∈ items, ok item)
    (hstop : stop ≤ size) (state : σ) :
    mdnsRecordsParse callback buffer size type queryId items.length 0 pos state =
      some (items.length, stop, items.foldl (fun state item => next type item state) state) := by
  obtain ⟨chain, hchain, rfl⟩ := h
  have hparse := mdnsRecordsParse_of_chain hsize hsmall hheeds type queryId hchain hok hstop 0 state
  rw [Nat.zero_add] at hparse
  rw [List.length_map]
  exact hparse

/-! ## Messages -/

theorem recvfrom_fits (h : datagram.length ≤ storage.length) :
    (recvfrom storage datagram).2 = datagram.length ∧
      (recvfrom storage datagram).1.take datagram.length = datagram := by
  have htake : datagram.take storage.length = datagram := List.take_of_length_le h
  refine ⟨Nat.min_eq_left h, ?_⟩
  rw [recvfrom, htake, List.take_left]

/-- The header of a message that was written. -/
theorem readHeader_of_says {message : Message}
    (h : TextAt (bytesOf (buffer.take size)) 0 message.header) :
    readHeader buffer = some ⟨message.queryId % 65536, message.flags % 65536,
      message.questions.length % 65536, message.answers.length % 65536,
        message.authority.length % 65536,
      message.additional.length % 65536⟩ := by
  unfold Message.header at h
  obtain ⟨h, hadditional⟩ := textAt_append.mp h
  obtain ⟨h, hauthority⟩ := textAt_append.mp h
  obtain ⟨h, hanswers⟩ := textAt_append.mp h
  obtain ⟨h, hquestions⟩ := textAt_append.mp h
  obtain ⟨hqueryId, hflags⟩ := textAt_append.mp h
  simp only [List.length_append, length_word, Nat.zero_add, Nat.reduceAdd] at *
  rw [readHeader, (mdnsNtohs_word hqueryId).1, (mdnsNtohs_word hflags).1,
    (mdnsNtohs_word hquestions).1, (mdnsNtohs_word hanswers).1, (mdnsNtohs_word hauthority).1,
    (mdnsNtohs_word hadditional).1]

/-- The three sections are read one after the other. -/
theorem parseSections_of_listed (hsize : size ≤ buffer.length) (hsmall : size < 65536)
    (hheeds : Heeds callback buffer size ok next) {message : Message}
    (hok : ∀ item ∈ message.answers ++ message.authority ++ message.additional, ok item) {a b : ℕ}
    (hanswers : Listed (bytesOf (buffer.take size)) pos message.answers a)
    (hauthority : Listed (bytesOf (buffer.take size)) a message.authority b)
    (hadditional : Listed (bytesOf (buffer.take size)) b message.additional size)
    (queryId flags questions total : ℕ) (state : σ) :
    ∃ total' additionals, parseSections callback buffer size ⟨queryId, flags, questions,
      message.answers.length % 65536, message.authority.length % 65536,
      message.additional.length % 65536⟩ pos total state =
        some (total', additionals, message.heeded next state) := by
  have ha := hanswers.length_le
  have hb := hauthority.length_le
  have hc := hadditional.length_le
  rw [Nat.mod_eq_of_lt (a := message.answers.length) (by omega),
    Nat.mod_eq_of_lt (a := message.authority.length) (by omega),
    Nat.mod_eq_of_lt (a := message.additional.length) (by omega)]
  refine ⟨total + message.answers.length + message.authority.length, message.additional.length, ?_⟩
  unfold parseSections
  dsimp only
  rw [mdnsRecordsParse_of_listed hsize hsmall hheeds .answer queryId hanswers
    (fun item hmem => hok item (List.mem_append_left _ (List.mem_append_left _ hmem))) (by omega)]
  dsimp only
  rw [if_neg (not_not.mpr rfl),
    mdnsRecordsParse_of_listed hsize hsmall hheeds .authority queryId hauthority
      (fun item hmem => hok item (List.mem_append_left _ (List.mem_append_right _ hmem)))
        (by omega)]
  dsimp only
  rw [if_neg (not_not.mpr rfl),
    mdnsRecordsParse_of_listed hsize hsmall hheeds .additional queryId hadditional
      (fun item hmem => hok item (List.mem_append_right _ hmem)) (Nat.le_refl _)]
  rfl

theorem skipQuestions_of_asks (hsize : size ≤ buffer.length) {questions : List Question}
    (h : Asks (bytesOf (buffer.take size)) pos questions stop) :
    skipQuestions buffer size questions.length pos = some (some stop) := by
  induction h with
  | nil => rfl
  | cons hname hfields hrest ih =>
    rw [List.length_cons, skipQuestions, skip_of_stands hsize hname]
    exact ih

/-- An answer that says something is received as such. -/
theorem mdnsQueryRecv_of_says {message : Message} (hfits : datagram.length ≤ storage.length)
    (hsmall : datagram.length < 65536) (htells : Says datagram message)
    (hheeds : Heeds callback (recvfrom storage datagram).1 datagram.length ok next)
    (hok : ∀ item ∈ message.answers ++ message.authority ++ message.additional, ok item)
    (state : σ) :
    ∃ total, mdnsQueryRecv callback 0 storage datagram state =
      some ((recvfrom storage datagram).1, total, message.heeded next state) := by
  obtain ⟨q, a, b, hheader, hasks, hanswers, hauthority, hadditional⟩ := htells
  obtain ⟨hsame, htake⟩ := recvfrom_fits hfits
  have hsize : datagram.length ≤ (recvfrom storage datagram).1.length := by
    rw [length_recvfrom]
    exact hfits
  have hq := hasks.length_le
  have ha := hanswers.length_le
  have hb := hauthority.length_le
  have hc := hadditional.length_le
  have hbytes : bytesOf ((recvfrom storage datagram).1.take datagram.length) =
      bytesOf datagram := by
    rw [htake]
  rw [← hbytes] at hheader hasks hanswers hauthority hadditional
  obtain ⟨total, additionals, hparse⟩ := parseSections_of_listed hsize hsmall hheeds hok hanswers
    hauthority hadditional (message.queryId % 65536) (message.flags % 65536)
    (message.questions.length % 65536) 0 state
  refine ⟨total + additionals, ?_⟩
  unfold mdnsQueryRecv
  dsimp only
  rw [hsame, if_neg (by omega), readHeader_of_says hheader]
  dsimp only
  rw [if_neg (fun h => absurd h.1 (Nat.lt_irrefl 0)),
    Nat.mod_eq_of_lt (a := message.questions.length) (by omega), skipQuestions_of_asks hsize hasks]
  rw [Nat.mod_eq_of_lt (a := message.questions.length) (by omega)] at hparse
  dsimp only
  rw [hparse, Option.map_some]

/-- What the callback is called with for a question that stands somewhere. -/
def questionEntry (queryId : ℕ) (question : Question) (pos behind : ℕ) : Entry where
  entry := .question
  queryId := queryId
  rtype := question.rtype % 65536
  rclass := question.rclass % 65536
  ttl := 0
  nameOffset := pos
  nameLength := behind - pos
  recordOffset := pos
  recordLength := behind - pos

/-- The class of a question is one that is answered. -/
def InClass (question : Question) : Prop :=
  question.rclass % 65536 &&& 0x7fff = MDNS_CLASS_IN ∨ question.rclass % 65536 &&& 0x7fff =
    MDNS_CLASS_ANY

/-- Questions without flags are handed over one after the other, while the callback goes on. -/
theorem listenQuestions_of_asks (hsize : size ≤ buffer.length) {ask : Question → σ → σ}
    {P : σ → Prop}
    {questions : List Question} (hclass : ∀ question ∈ questions, InClass question)
    (header : Header) (hask : ∀ question ∈ questions, ∀ pos behind,
      NameStands (bytesOf (buffer.take size)) question.name pos behind → ∀ state, P state →
        callback buffer size (questionEntry header.queryId question pos behind) state =
          some (false, ask question state) ∧ P (ask question state))
    (h : Asks (bytesOf (buffer.take size)) pos questions stop) (hflags : header.flags = 0)
    (total : ℕ) {state : σ} (hstate : P state) :
    listenQuestions callback buffer size header questions.length pos total state =
      some (.records stop (total + questions.length)
        (questions.foldl (fun state question => ask question state) state)) := by
  induction h generalizing total state with
  | nil => rfl
  | @cons pos behind stop question questions hname hfields hrest ih =>
    obtain ⟨ended, hended, hskip⟩ := questionEnd_eq hsize pos
    rw [skip_of_stands hsize hname] at hskip
    obtain ⟨⟨offset, dnsSd⟩, rfl, hoffset⟩ := Option.map_eq_some_iff.mp (Option.some.inj hskip).symm
    dsimp only at hoffset
    subst hoffset
    obtain ⟨hrtype, hrclass⟩ := textAt_append.mp hfields
    rw [length_word] at hrclass
    have hin : question.rclass % 65536 &&& 0x7fff = MDNS_CLASS_IN ∨
        question.rclass % 65536 &&& 0x7fff = MDNS_CLASS_ANY := hclass question List.mem_cons_self
    obtain ⟨hcall, hstate'⟩ := hask question List.mem_cons_self pos offset hname state hstate
    unfold questionEntry at hcall
    rw [List.length_cons, listenQuestions, hended]
    dsimp only
    rw [(mdnsNtohs_word hrtype).1, (mdnsNtohs_word hrclass).1]
    dsimp only
    rw [if_neg (not_not.mpr hin), if_neg (fun h => h.2 hflags), hcall]
    dsimp only
    rw [ih (fun other hother => hclass other (List.mem_cons_of_mem _ hother))
      (fun other hother => hask other (List.mem_cons_of_mem _ hother)) (total + 1) hstate',
        List.foldl_cons]
    congr 2
    omega

/-- Questions that were asked are listened to, whatever the receive buffer held before. -/
theorem mdnsSocketListen_of_says (callback : Callback σ) (ask : Question → σ → σ) (P : σ → Prop)
    (next : EntryType → Item → σ → σ) (ok : Item → Prop) {message : Message}
    (hfits : datagram.length ≤ storage.length)
    (hsmall : datagram.length < 65536) (htells : Says datagram message)
    (hflags : message.flags % 65536 = 0) (hclass : ∀ question ∈ message.questions, InClass question)
    (hask : ∀ question ∈ message.questions, ∀ pos behind,
      NameStands (bytesOf datagram) question.name pos behind → ∀ state, P state →
        callback (recvfrom storage datagram).1 datagram.length
          (questionEntry (message.queryId % 65536) question pos behind) state =
          some (false, ask question state) ∧ P (ask question state))
    (hheeds : Heeds callback (recvfrom storage datagram).1 datagram.length ok next)
    (hok : ∀ item ∈ message.answers ++ message.authority ++ message.additional, ok item)
    {state : σ} (hstate : P state) :
    ∃ total, mdnsSocketListen callback storage datagram state =
      some ((recvfrom storage datagram).1, total,
      message.heeded next (message.questions.foldl (fun state question => ask question state)
      state)) := by
  obtain ⟨q, a, b, hheader, hasks, hanswers, hauthority, hadditional⟩ := htells
  obtain ⟨hsame, htake⟩ := recvfrom_fits hfits
  have hsize : datagram.length ≤ (recvfrom storage datagram).1.length := by
    rw [length_recvfrom]
    exact hfits
  have hq := hasks.length_le
  have ha := hanswers.length_le
  have hb := hauthority.length_le
  have hc := hadditional.length_le
  have hbytes : bytesOf ((recvfrom storage datagram).1.take datagram.length) =
      bytesOf datagram := by
    rw [htake]
  rw [← hbytes] at hheader hasks hanswers hauthority hadditional hask
  have hquestions := listenQuestions_of_asks hsize hclass
    ⟨message.queryId % 65536, message.flags % 65536, message.questions.length % 65536,
      message.answers.length % 65536, message.authority.length % 65536,
      message.additional.length % 65536⟩ hask hasks hflags 0 hstate
  obtain ⟨total, additionals, hparse⟩ := parseSections_of_listed hsize hsmall hheeds hok hanswers
    hauthority hadditional (message.queryId % 65536) (message.flags % 65536)
    (message.questions.length % 65536) (0 + message.questions.length)
    (message.questions.foldl (fun state question => ask question state) state)
  refine ⟨total, ?_⟩
  unfold mdnsSocketListen
  dsimp only
  rw [hsame, if_neg (by omega), readHeader_of_says hheader]
  dsimp only
  rw [Nat.mod_eq_of_lt (a := message.questions.length) (by omega)] at hquestions hparse ⊢
  rw [hquestions]
  dsimp only
  rw [hparse, Option.map_some]

/-! ## What is sent is received -/

/-- Whoever receives the datagram, keeps of it what the message says, section by section. -/
def Received (datagram : List UInt8) (message : Message) : Prop :=
  ∀ {σ : Type} (callback : Callback σ) (storage : List UInt8) (ok : Item → Prop)
    (next : EntryType → Item → σ → σ), datagram.length ≤ storage.length →
    Heeds callback (recvfrom storage datagram).1 datagram.length ok next →
    (∀ item ∈ message.answers ++ message.authority ++ message.additional, ok item) → ∀ state,
    ∃ total, mdnsQueryRecv callback 0 storage datagram state =
      some ((recvfrom storage datagram).1, total, message.heeded next state)

variable {last : Label} {answer : Record} {authority additional records : List Record}

/-! ## What is told of the records -/

/-- One asker is told class IN and a record's own time to live, or ten seconds. -/
def toldToOne (record : Record) : Item where
  rtype := record.data.type
  rclass := MDNS_CLASS_IN
  ttl := if record.ttl = 0 then 10 else record.ttl
  name := record.name
  content := .one record.data

/-- All are told a record's own class or else the given one, of which IN counts and, but for a
PTR record, that caches are to be flushed, and its own time to live unless it or the given one
is zero. -/
def toldToAll (rclass ttl : ℕ) (record : Record) : Item where
  rtype := record.data.type
  rclass := (if record.rclass = 0 then rclass else record.rclass) &&&
    (if record.data.type = MDNS_RECORDTYPE_PTR then MDNS_CLASS_IN else 0x8001)
  ttl := if record.ttl = 0 ∨ ttl = 0 then ttl else record.ttl
  name := record.name
  content := .one record.data

/-- The other records of a section in their order, then all its strings under the first TXT
record. -/
def toldSection (one texts : Record → Item) (records : List Record) : List Item :=
  (records.filter fun record => !isTxt record).map one ++
    (firstTxt records).toList.map fun first =>
      { texts first with content := .texts (stringsOf records) }

theorem itemOf_updateRclassTtl (record : Record) (rclass ttl : ℕ) :
    itemOf (mdnsRecordUpdateRclassTtl record rclass ttl) = toldToAll rclass ttl record := by
  have hptr : ∀ own : ℕ, own &&& (MDNS_CLASS_IN ||| MDNS_CACHE_FLUSH) &&& 0x7fff =
      own &&& MDNS_CLASS_IN := fun own => Nat.and_assoc ..
  unfold mdnsRecordUpdateRclassTtl toldToAll itemOf
  by_cases hclass : record.rclass = 0 <;> by_cases httl : record.ttl = 0 ∨ ttl = 0 <;>
    by_cases htype : record.data.type = MDNS_RECORDTYPE_PTR <;>
    simp only [hclass, httl, htype, if_true, if_false, hptr] <;> rfl

/-- What a section says once its records are prepared. -/
theorem sectionItems_eq {prepare : Record → Record} {told : Record → Item} (rclass ttl : ℕ)
    (htold : ∀ record, itemOf (prepare record) = told record)
    (hdata : ∀ record, (prepare record).data = record.data) :
    sectionItems prepare rclass ttl records =
      toldSection told (toldToAll rclass ttl) records := by
  have htxt : ((fun record => !isTxt record) ∘ prepare) = fun record => !isTxt record := by
    funext record
    rw [Function.comp_apply, isTxt, hdata, isTxt]
  have hitems : itemOf ∘ prepare = told := funext htold
  have htexts : txtItem records rclass ttl = fun first =>
      { toldToAll rclass ttl first with content := .texts (stringsOf records) } := by
    funext first
    rw [txtItem, itemOf_updateRclassTtl]
  rw [sectionItems, toldSection, List.filter_map, htxt, List.map_map, hitems, htexts]

/-- Preparing records changes nothing about which can be written. -/
theorem properSection_prepared {prepare : Record → Record}
    (hname : ∀ record, (prepare record).name = record.name)
    (hdata : ∀ record, (prepare record).data = record.data)
    (h : ProperSection last id records) : ProperSection last prepare records := by
  refine ⟨fun record hmem htxt => ?_, h.txt⟩
  rw [isTxt, hdata] at htxt
  obtain ⟨hproperName, hproperData⟩ := h.prepared record hmem htxt
  exact ⟨(hname record).symm ▸ hproperName, (hdata record).symm ▸ hproperData⟩

/-- Nor about the room they need. -/
theorem sectionRoom_prepared {prepare : Record → Record}
    (hname : ∀ record, (prepare record).name = record.name)
    (hdata : ∀ record, (prepare record).data = record.data) :
    sectionRoom prepare records = sectionRoom id records := by
  have htxt : ((fun record => !isTxt record) ∘ prepare) = fun record => !isTxt record := by
    funext record
    rw [Function.comp_apply, isTxt, hdata, isTxt]
  have hroom : recordRoom ∘ prepare = recordRoom := by
    funext record
    rw [Function.comp_apply, recordRoom, hname, hdata, recordRoom]
  rw [sectionRoom, othersRoom, List.filter_map, htxt, List.map_map, hroom, sectionRoom, othersRoom,
    List.map_id]

/-- An answer to one asker is received as it was given, whatever the storages held before. -/
theorem unicast_answer_received (queryId recordType : ℕ) {name : List UInt8}
    (hlarge : 48 ≤ storage.length)
    (hsmall : storage.length ≤ 0x4000) (hname : ProperName last name)
    (hanswer : ProperRecord last answer)
    (hauthority : ProperSection last id authority) (hadditional : ProperSection last id additional)
    (hroom : 12 + (name.length + 1) + 4 + recordRoom answer + sectionRoom id authority +
      sectionRoom id additional ≤ storage.length) :
    ∃ buffer datagram,
      mdnsQueryAnswerUnicast storage queryId recordType name answer authority additional =
        some (buffer, some datagram) ∧
      Received datagram
        { queryId := queryId
          flags := 0x8400
          questions := [⟨name, recordType, MDNS_UNICAST_RESPONSE ||| MDNS_CLASS_IN⟩]
          answers := [{ toldToOne answer with ttl := 10 }]
          authority := toldSection toldToOne (toldToAll MDNS_CLASS_IN 10) authority
          additional := toldSection toldToOne (toldToAll MDNS_CLASS_IN 10) additional } := by
  have hroom' : ∀ records, sectionRoom (unicastRecord MDNS_CLASS_IN 10) records =
      sectionRoom id records := fun _ => sectionRoom_prepared (fun _ => rfl) fun _ => rfl
  obtain ⟨buffer, datagram, hsent, -, hdatagram, htells⟩ :=
    mdnsQueryAnswerUnicast_eq queryId recordType hlarge hsmall hname hanswer
      (properSection_prepared (fun _ => rfl) (fun _ => rfl) hauthority)
      (properSection_prepared (fun _ => rfl) (fun _ => rfl) hadditional)
      (by rw [hroom', hroom']; exact hroom)
  have hsection : ∀ records,
      sectionItems (unicastRecord MDNS_CLASS_IN 10) MDNS_CLASS_IN 10 records =
        toldSection toldToOne (toldToAll MDNS_CLASS_IN 10) records :=
    fun _ => sectionItems_eq MDNS_CLASS_IN 10 (fun _ => rfl) fun _ => rfl
  rw [answerMessage, hsection, hsection] at htells
  exact ⟨buffer, datagram, hsent, fun callback storage ok next hfits hheeds hok state =>
    mdnsQueryRecv_of_says hfits (by omega) htells hheeds hok state⟩

/-- So is what is announced to all, or taken back. -/
theorem multicast_answer_received (rclass ttl : ℕ) (hlarge : 48 ≤ storage.length)
    (hsmall : storage.length ≤ 0x4000) (hanswer : ProperRecord last answer)
    (hauthority : ProperSection last id authority) (hadditional : ProperSection last id additional)
    (hroom : 12 + recordRoom answer + sectionRoom id authority + sectionRoom id additional ≤
      storage.length) :
    ∃ buffer datagram,
      mdnsAnswerMulticastRclassTtl storage answer authority additional rclass ttl =
        some (buffer, some datagram) ∧
      Received datagram
        { queryId := 0
          flags := 0x8400
          answers := [toldToAll rclass ttl answer]
          authority := toldSection (toldToAll rclass ttl) (toldToAll rclass ttl) authority
          additional := toldSection (toldToAll rclass ttl) (toldToAll rclass ttl) additional } := by
  have hsame : ∀ record, (mdnsRecordUpdateRclassTtl record rclass ttl).name = record.name ∧
      (mdnsRecordUpdateRclassTtl record rclass ttl).data = record.data :=
    fun record => updateRclassTtl_name record rclass ttl
  have hroom' : ∀ records, sectionRoom (mdnsRecordUpdateRclassTtl · rclass ttl) records =
      sectionRoom id records :=
    fun _ => sectionRoom_prepared (fun record => (hsame record).1) fun record => (hsame record).2
  obtain ⟨buffer, datagram, hsent, -, hdatagram, htells⟩ :=
    mdnsAnswerMulticastRclassTtl_eq rclass ttl hlarge hsmall hanswer
      (properSection_prepared (fun record => (hsame record).1) (fun record => (hsame record).2)
        hauthority)
      (properSection_prepared (fun record => (hsame record).1) (fun record => (hsame record).2)
        hadditional)
      (by rw [hroom', hroom']; exact hroom)
  have hsection : ∀ records,
      sectionItems (mdnsRecordUpdateRclassTtl · rclass ttl) rclass ttl records =
        toldSection (toldToAll rclass ttl) (toldToAll rclass ttl) records :=
    fun _ => sectionItems_eq rclass ttl (fun record => itemOf_updateRclassTtl record rclass ttl)
      fun record => (hsame record).2
  rw [answerMessage, hsection, hsection, itemOf_updateRclassTtl] at htells
  exact ⟨buffer, datagram, hsent, fun callback storage ok next hfits hheeds hok state =>
    mdnsQueryRecv_of_says hfits (by omega) htells hheeds hok state⟩

end KdeConnectNx.MdnsExchange
