import KdeConnectNx.MdnsReader

/-!
# The messages of mDNS

A message has a header, questions and three sections of records. Each question and record is
handed to a callback with the places of its parts. The header is read whatever the size of
the message, the class of a question too; of a record nothing is read but what is inside.
-/

namespace KdeConnectNx.MdnsMessages

open DomainNames MdnsReader

def MDNS_RECORDTYPE_A : ℕ := 1

def MDNS_RECORDTYPE_PTR : ℕ := 12

def MDNS_RECORDTYPE_TXT : ℕ := 16

def MDNS_RECORDTYPE_SRV : ℕ := 33

def MDNS_RECORDTYPE_ANY : ℕ := 255

def MDNS_CLASS_IN : ℕ := 1

def MDNS_CLASS_ANY : ℕ := 255

def MDNS_CACHE_FLUSH : ℕ := 0x8000

def MDNS_UNICAST_RESPONSE : ℕ := 0x8000

/-- `mdns_entry_type_t`. -/
inductive EntryType where
  | question
  | answer
  | authority
  | additional
deriving DecidableEq

/-- What the callback is called with, but for the socket, the sender and the packet. -/
structure Entry where
  entry : EntryType
  queryId : ℕ
  rtype : ℕ
  rclass : ℕ
  ttl : ℕ
  nameOffset : ℕ
  nameLength : ℕ
  recordOffset : ℕ
  recordLength : ℕ
deriving DecidableEq

/-- Tells whether to stop, with what it keeps; without a result it reads outside. -/
abbrev Callback (σ : Type) := List UInt8 → ℕ → Entry → σ → Option (Bool × σ)

variable {σ : Type}

/-- `_services._dns-sd._udp.local.` with the rest of the query it is asked in. -/
def mdnsServicesQuery : List UInt8 :=
  [0, 0, 0, 0, 0, 1, 0, 0, 0, 0, 0, 0,
    9, 95, 115, 101, 114, 118, 105, 99, 101, 115, 7, 95, 100, 110, 115, 45, 115, 100,
    4, 95, 117, 100, 112, 5, 108, 111, 99, 97, 108, 0,
    0, 12, 0x80, 1]

def tolower (c : UInt8) : UInt8 := if 65 ≤ c ∧ c ≤ 90 then c + 32 else c

/-- `strncasecmp` finds no difference; behind a zero it does not look. -/
def strncasecmpEqual : List UInt8 → List UInt8 → Bool
  | l :: lhs, r :: rhs => tolower l == tolower r && (l == 0 || strncasecmpEqual lhs rhs)
  | _, _ => true

/-- The loop of `mdns_string_equal`, with the rounds that are left. -/
def equalFrom (lhs : List UInt8) (sizeLhs : ℕ) (rhs : List UInt8) (sizeRhs : ℕ)
    (left lhsCur rhsCur : ℕ) (lhsEnd rhsEnd : Option ℕ) : Option (Option (ℕ × ℕ)) :=
  match mdnsGetNextSubstring lhs sizeLhs lhsCur, mdnsGetNextSubstring rhs sizeRhs rhsCur with
  | some lhsSubstr, some rhsSubstr =>
    match lhsSubstr.offset, rhsSubstr.offset, left with
    | some lhsStart, some rhsStart, left + 1 =>
      if lhsSubstr.length ≠ rhsSubstr.length then some none
      else
        match sliceOf rhs rhsStart rhsSubstr.length, sliceOf lhs lhsStart rhsSubstr.length with
        | some rhsText, some lhsText =>
          if strncasecmpEqual rhsText lhsText then
            let lhsEnd := if lhsSubstr.ref && lhsEnd.isNone then some (lhsCur + 2) else lhsEnd
            let rhsEnd := if rhsSubstr.ref && rhsEnd.isNone then some (rhsCur + 2) else rhsEnd
            let lhsCur := lhsStart + lhsSubstr.length
            let rhsCur := rhsStart + rhsSubstr.length
            if lhsSubstr.length = 0 then
              some (some (lhsEnd.getD (lhsCur + 1), rhsEnd.getD (rhsCur + 1)))
            else equalFrom lhs sizeLhs rhs sizeRhs left lhsCur rhsCur lhsEnd rhsEnd
          else some none
        | _, _ => none
    | _, _, _ => some none
  | _, _ => none

/-- `mdns_string_equal`: the offsets behind the names where they are equal. -/
def mdnsStringEqual (lhs : List UInt8) (sizeLhs ofsLhs : ℕ) (rhs : List UInt8)
    (sizeRhs ofsRhs : ℕ) :
    Option (Option (ℕ × ℕ)) :=
  equalFrom lhs sizeLhs rhs sizeRhs (MDNS_MAX_SUBSTRINGS + 1) ofsLhs ofsRhs none none

/-- The fields of a record in front of its data. -/
structure RecordHeader where
  rtype : ℕ
  rclass : ℕ
  ttl : ℕ
  length : ℕ

def recordHeader (buffer : List UInt8) (offset : ℕ) : Option RecordHeader :=
  match mdnsNtohs buffer offset, mdnsNtohs buffer (offset + 2), mdnsNtohl buffer (offset + 4),
    mdnsNtohs buffer (offset + 8) with
  | some rtype, some rclass, some ttl, some length => some ⟨rtype, rclass, ttl, length⟩
  | _, _, _, _ => none

/-- `mdns_records_parse`: how many records were parsed, the offset and what the callback keeps. -/
def mdnsRecordsParse (callback : Callback σ) (buffer : List UInt8) (size : ℕ) (type : EntryType)
    (queryId : ℕ) : (records parsed offset : ℕ) → σ → Option (ℕ × ℕ × σ)
  | 0, parsed, offset, state => some (parsed, offset, state)
  | records + 1, parsed, nameOffset, state =>
    match mdnsStringSkip buffer size nameOffset with
    | none => none
    | some skipped =>
      -- where the name cannot be skipped the record is taken to begin where the name does
      let offset := skipped.getD nameOffset
      if size < offset + 10 then some (parsed, offset, state)
      else
        match recordHeader buffer offset with
        | none => none
        | some header =>
          if header.length ≤ size - (offset + 10) then
            match callback buffer size
              { entry := type, queryId := queryId, rtype := header.rtype, rclass := header.rclass,
                ttl := header.ttl, nameOffset := nameOffset, nameLength := offset - nameOffset,
                recordOffset := offset + 10, recordLength := header.length } state with
            | none => none
            | some (true, state) => some (parsed + 1, offset + 10, state)
            | some (false, state) =>
              mdnsRecordsParse callback buffer size type queryId records (parsed + 1)
                (offset + 10 + header.length) state
          else
            mdnsRecordsParse callback buffer size type queryId records parsed
              (offset + 10 + header.length) state

/-- `mdns_header_t`. -/
structure Header where
  queryId : ℕ
  flags : ℕ
  questions : ℕ
  answerRrs : ℕ
  authorityRrs : ℕ
  additionalRrs : ℕ

def readHeader (buffer : List UInt8) : Option Header :=
  match mdnsNtohs buffer 0, mdnsNtohs buffer 2, mdnsNtohs buffer 4, mdnsNtohs buffer 6,
    mdnsNtohs buffer 8, mdnsNtohs buffer 10 with
  | some queryId, some flags, some questions, some answerRrs, some authorityRrs,
    some additionalRrs => some ⟨queryId, flags, questions, answerRrs, authorityRrs, additionalRrs⟩
  | _, _, _, _, _, _ => none

/-- The three sections, each only where the one before was parsed to its end. The records of
the last one are counted for themselves. -/
def parseSections (callback : Callback σ) (buffer : List UInt8) (size : ℕ) (header : Header)
    (offset total : ℕ) (state : σ) : Option (ℕ × ℕ × σ) :=
  match mdnsRecordsParse callback buffer size .answer header.queryId header.answerRrs 0 offset
    state with
  | none => none
  | some (answers, offset, state) =>
    if answers ≠ header.answerRrs then some (total + answers, 0, state)
    else
      match mdnsRecordsParse callback buffer size .authority header.queryId header.authorityRrs 0
        offset state with
      | none => none
      | some (authorities, offset, state) =>
        if authorities ≠ header.authorityRrs then some (total + answers + authorities, 0, state)
        else
          match mdnsRecordsParse callback buffer size .additional header.queryId
            header.additionalRrs 0 offset state with
          | none => none
          | some (additionals, _, state) => some (total + answers + authorities, additionals, state)

/-- `recvfrom`: the storage with the datagram, as much of it as there is room for, and the size. -/
def recvfrom (storage datagram : List UInt8) : List UInt8 × ℕ :=
  (datagram.take storage.length ++ storage.drop datagram.length, min datagram.length storage.length)

/-- How the loop over the questions ends: at the records that follow, or for good. -/
inductive Asked (σ : Type) where
  | records (offset total : ℕ) (state : σ)
  | done (total : ℕ) (state : σ)

/-- Where the name of a question ends, and whether it asks for all services. -/
def questionEnd (buffer : List UInt8) (size questionOffset : ℕ) : Option (Option (ℕ × Bool)) :=
  match mdnsStringEqual buffer size questionOffset mdnsServicesQuery mdnsServicesQuery.length
    12 with
  | none => none
  | some (some (offset, _)) => some (some (offset, true))
  | some none =>
    match mdnsStringSkip buffer size questionOffset with
    | none => none
    | some none => some none
    | some (some offset) => some (some (offset, false))

/-- The loop of `mdns_socket_listen` over the questions. -/
def listenQuestions (callback : Callback σ) (buffer : List UInt8) (size : ℕ) (header : Header) :
    (questions questionOffset total : ℕ) → σ → Option (Asked σ)
  | 0, questionOffset, total, state => some (.records questionOffset total state)
  | questions + 1, questionOffset, total, state =>
    match questionEnd buffer size questionOffset with
    | none => none
    | some none => some (.records questionOffset total state)
    | some (some (offset, dnsSd)) =>
      match mdnsNtohs buffer offset, mdnsNtohs buffer (offset + 2) with
      | some rtype, some rclass =>
        let classWithoutFlushbit := rclass &&& 0x7fff
        if ¬ (classWithoutFlushbit = MDNS_CLASS_IN ∨ classWithoutFlushbit = MDNS_CLASS_ANY) then
          some (.records (offset + 4) total state)
        else if dnsSd ∧ header.flags ≠ 0 then
          listenQuestions callback buffer size header questions (offset + 4) total state
        else
          match callback buffer size
            { entry := .question, queryId := header.queryId, rtype := rtype, rclass := rclass,
              ttl := 0, nameOffset := questionOffset, nameLength := offset - questionOffset,
              recordOffset := questionOffset, recordLength := offset - questionOffset } state with
          | none => none
          | some (true, state) => some (.done (total + 1) state)
          | some (false, state) =>
            listenQuestions callback buffer size header questions (offset + 4) (total + 1) state
      | _, _ => none

/-- `mdns_socket_listen`: the storage behind it, how much was parsed and what the callback keeps.
Additional records are not counted. -/
def mdnsSocketListen (callback : Callback σ) (storage datagram : List UInt8) (state : σ) :
    Option (List UInt8 × ℕ × σ) :=
  let (buffer, size) := recvfrom storage datagram
  if size = 0 then some (buffer, 0, state)
  else
    match readHeader buffer with
    | none => none
    | some header =>
      match listenQuestions callback buffer size header header.questions 12 0 state with
      | none => none
      | some (.done total state) => some (buffer, total, state)
      | some (.records offset total state) =>
        (parseSections callback buffer size header offset total state).map fun r =>
          (buffer, r.1, r.2.2)

/-- The questions are skipped, their types and classes unread. -/
def skipQuestions (buffer : List UInt8) (size : ℕ) : (questions offset : ℕ) → Option (Option ℕ)
  | 0, offset => some (some offset)
  | questions + 1, offset =>
    match mdnsStringSkip buffer size offset with
    | none => none
    | some none => some none
    | some (some stop) => skipQuestions buffer size questions (stop + 4)

/-- `mdns_query_recv`; with a positive id only an answer to that query is parsed. -/
def mdnsQueryRecv (callback : Callback σ) (onlyQueryId : ℕ) (storage datagram : List UInt8)
    (state : σ) : Option (List UInt8 × ℕ × σ) :=
  let (buffer, size) := recvfrom storage datagram
  if size = 0 then some (buffer, 0, state)
  else
    match readHeader buffer with
    | none => none
    | some header =>
      if 0 < onlyQueryId ∧ header.queryId ≠ onlyQueryId then some (buffer, 0, state)
      else
        match skipQuestions buffer size header.questions 12 with
        | none => none
        | some none => some (buffer, 0, state)
        | some (some offset) =>
          (parseSections callback buffer size header offset 0 state).map fun r =>
            (buffer, r.1 + r.2.1, r.2.2)

/-! ## Nothing outside is read -/

/-- The parts of an entry lie inside the message. -/
structure Inside (size : ℕ) (e : Entry) : Prop where
  name : e.nameOffset + e.nameLength ≤ size
  record : e.recordOffset + e.recordLength ≤ size

/-- Its fields stand in front of the data of a record. -/
structure Recorded (buffer : List UInt8) (size : ℕ) (e : Entry) : Prop extends Inside size e where
  behind : 10 ≤ e.recordOffset
  header : recordHeader buffer (e.recordOffset - 10) =
    some ⟨e.rtype, e.rclass, e.ttl, e.recordLength⟩

/-- For an entry that lies inside the callback reads nothing outside, and what holds of what
it keeps holds of it afterwards. -/
def Keeps (callback : Callback σ) (buffer : List UInt8) (size : ℕ) (P : σ → Prop) : Prop :=
  ∀ e state, Inside size e → P state →
    ∃ stop state', callback buffer size e state = some (stop, state') ∧ P state'

/-- The same for the entries of records. -/
def KeepsRecords (callback : Callback σ) (buffer : List UInt8) (size : ℕ) (P : σ → Prop) : Prop :=
  ∀ e state, Recorded buffer size e → P state →
    ∃ stop state', callback buffer size e state = some (stop, state') ∧ P state'

variable {callback : Callback σ} {buffer storage datagram : List UInt8} {size offset : ℕ}
    {state : σ}
  {P : σ → Prop}

/-- What is kept with questions is kept without them. -/
theorem Keeps.records (h : Keeps callback buffer size P) : KeepsRecords callback buffer size P :=
  fun e state hrecorded hstate => h e state hrecorded.toInside hstate

/-- Two bytes that are there can be read. -/
theorem mdnsNtohs_inside (buffer : List UInt8) (offset : ℕ) (h : offset + 2 ≤ buffer.length) :
    ∃ word, mdnsNtohs buffer offset = some word :=
  ⟨_, mdnsNtohs_eq (List.getElem?_eq_getElem (by omega)) (List.getElem?_eq_getElem (by omega))⟩

/-- So can four. -/
theorem mdnsNtohl_inside (buffer : List UInt8) (offset : ℕ) (h : offset + 4 ≤ buffer.length) :
    ∃ word, mdnsNtohl buffer offset = some word := by
  obtain ⟨high, hhigh⟩ := mdnsNtohs_inside buffer offset (by omega)
  obtain ⟨low, hlow⟩ := mdnsNtohs_inside buffer (offset + 2) (by omega)
  exact ⟨high * 65536 + low, by simp only [mdnsNtohl, hhigh, hlow]⟩

/-- So can the ten of a record's header. -/
theorem recordHeader_inside (buffer : List UInt8) (offset : ℕ) (h : offset + 10 ≤ buffer.length) :
    ∃ header, recordHeader buffer offset = some header := by
  obtain ⟨rtype, hrtype⟩ := mdnsNtohs_inside buffer offset (by omega)
  obtain ⟨rclass, hrclass⟩ := mdnsNtohs_inside buffer (offset + 2) (by omega)
  obtain ⟨ttl, httl⟩ := mdnsNtohl_inside buffer (offset + 4) (by omega)
  obtain ⟨length, hlength⟩ := mdnsNtohs_inside buffer (offset + 8) (by omega)
  exact ⟨⟨rtype, rclass, ttl, length⟩, by simp only [recordHeader, hrtype, hrclass, httl, hlength]⟩

/-- So can the twelve of a message's. -/
theorem readHeader_inside (h : 12 ≤ buffer.length) : ∃ header, readHeader buffer = some header := by
  obtain ⟨queryId, h₀⟩ := mdnsNtohs_inside buffer 0 (by omega)
  obtain ⟨flags, h₁⟩ := mdnsNtohs_inside buffer 2 (by omega)
  obtain ⟨questions, h₂⟩ := mdnsNtohs_inside buffer 4 (by omega)
  obtain ⟨answers, h₃⟩ := mdnsNtohs_inside buffer 6 (by omega)
  obtain ⟨authorities, h₄⟩ := mdnsNtohs_inside buffer 8 (by omega)
  obtain ⟨additionals, h₅⟩ := mdnsNtohs_inside buffer 10 (by omega)
  exact ⟨⟨queryId, flags, questions, answers, authorities, additionals⟩, by
    simp only [readHeader, h₀, h₁, h₂, h₃, h₄, h₅]⟩

/-- A name that is skipped lies inside. -/
theorem mdnsStringSkip_inside (hsize : size ≤ buffer.length) (offset : ℕ) :
    ∃ result, mdnsStringSkip buffer size offset = some result ∧
      ∀ stop ∈ result, offset < stop ∧ stop ≤ size := by
  obtain ⟨result, hresult, hiff⟩ := mdnsStringSkip_eq hsize offset
  refine ⟨result, hresult, fun stop hstop => ?_⟩
  obtain ⟨count, hcount, hspans⟩ := (hiff stop).mp hstop
  obtain ⟨hlt, byte, hbyte⟩ := hspans.stop_known
  have hlast := lt_size hbyte
  exact ⟨hlt, by omega⟩

/-- Where two names are equal, the first is a name and ends there. -/
theorem equalFrom_eq {rhs : List UInt8} {sizeRhs : ℕ} (hsize : size ≤ buffer.length)
    (hsizeRhs : sizeRhs ≤ rhs.length) (left lhsCur rhsCur : ℕ) (lhsEnd rhsEnd : Option ℕ) :
    ∃ result, equalFrom buffer size rhs sizeRhs left lhsCur rhsCur lhsEnd rhsEnd = some result ∧
      ∀ ends ∈ result, ∃ labels stop, labels.length < left ∧
        NameAt (bytesOf (buffer.take size)) maxRefs lhsCur labels stop ∧
        ends.1 = lhsEnd.getD stop := by
  induction left generalizing lhsCur rhsCur lhsEnd rhsEnd with
  | zero =>
    obtain ⟨lhsSubstr, hlhs, -⟩ := mdnsGetNextSubstring_cases hsize lhsCur
    obtain ⟨rhsSubstr, hrhs, -⟩ := mdnsGetNextSubstring_cases hsizeRhs rhsCur
    unfold equalFrom
    rw [hlhs, hrhs]
    refine ⟨none, ?_, nofun⟩
    dsimp only
    split <;> first | rfl | contradiction
  | succ left ih =>
    obtain ⟨lhsSubstr, hlhs, hleft⟩ := mdnsGetNextSubstring_cases hsize lhsCur
    obtain ⟨rhsSubstr, hrhs, hright⟩ := mdnsGetNextSubstring_cases hsizeRhs rhsCur
    unfold equalFrom
    rw [hlhs, hrhs]
    dsimp only
    cases hleft with
    | failed ref hnone => exact ⟨none, rfl, nofun⟩
    | @found hops place length label hleads hhops hlength htext =>
      cases hright with
      | failed ref' hnone => exact ⟨none, rfl, nofun⟩
      | @found hops' place' length' label' hleads' hhops' hlength' htext' =>
        dsimp only
        by_cases hlengths : length.toNat ≠ length'.toNat
        · exact ⟨none, if_pos hlengths, nofun⟩
        rw [if_neg hlengths, ← not_not.mp hlengths, sliceOf_found hleads hlength htext,
          not_not.mp hlengths, sliceOf_found hleads' hlength' htext', ← not_not.mp hlengths]
        dsimp only
        split
        · by_cases hend : length = 0
          · subst hend
            refine ⟨_, if_pos rfl, ?_⟩
            rintro _ ⟨⟩
            exact ⟨[], _, Nat.succ_pos _, .root hleads hhops, getD_endPos_root lhsEnd hleads⟩
          · have hne : length.toNat ≠ 0 := fun h => hend (UInt8.toNat_inj.mp h)
            have hbegin : startOf hops place length = place + 1 := by simp [startOf, hend]
            rw [if_neg hne, hbegin]
            obtain ⟨result, hresult, hends⟩ := ih (place + 1 + length.toNat)
              (startOf hops' place' length' + length.toNat)
              (if decide (hops ≠ 0) && lhsEnd.isNone then some (lhsCur + 2) else lhsEnd)
              (if decide (hops' ≠ 0) && rhsEnd.isNone then some (rhsCur + 2) else rhsEnd)
            refine ⟨result, hresult, fun ends hmem => ?_⟩
            obtain ⟨labels, stop, hfew, hname, hstop⟩ := hends ends hmem
            rw [← hlength] at hname
            refine ⟨_, _, ?_, .label hleads hhops hend hlength htext hname, by
              rw [hstop, getD_endPos]⟩
            rw [List.length_cons]
            omega
        · exact ⟨none, rfl, nofun⟩

/-- The name of a question ends where it is skipped to, whatever it is compared with. -/
theorem questionEnd_eq (hsize : size ≤ buffer.length) (offset : ℕ) :
    ∃ result, questionEnd buffer size offset = some result ∧
      mdnsStringSkip buffer size offset = some (result.map Prod.fst) := by
  obtain ⟨result, hequal, hends⟩ := equalFrom_eq hsize (Nat.le_refl mdnsServicesQuery.length)
    (MDNS_MAX_SUBSTRINGS + 1) offset 12 none none
  obtain ⟨skipped, hskip, hspans⟩ := mdnsStringSkip_eq hsize offset
  unfold questionEnd mdnsStringEqual
  rw [hequal, hskip]
  cases result with
  | none =>
    cases skipped with
    | none => exact ⟨none, rfl, rfl⟩
    | some stop => exact ⟨some (stop, false), rfl, rfl⟩
  | some ends =>
    obtain ⟨labels, stop, hfew, hname, hstop⟩ := hends ends rfl
    obtain ⟨count, hcount, hspan⟩ := hname.spans
    have hskipped : skipped = some stop :=
      (hspans stop).mpr ⟨count, Nat.le_trans hcount (Nat.lt_succ_iff.mp hfew), hspan⟩
    rw [Option.getD_none] at hstop
    refine ⟨some (ends.1, true), rfl, ?_⟩
    rw [hskipped, hstop]
    rfl

/-- A section is parsed without a read outside, and each record handed over lies inside. -/
theorem mdnsRecordsParse_keeps (hsize : size ≤ buffer.length)
    (hkeeps : KeepsRecords callback buffer size P)
    (type : EntryType) (queryId records parsed offset : ℕ) (hstate : P state) :
    ∃ parsed' offset' state',
      mdnsRecordsParse callback buffer size type queryId records parsed offset state =
        some (parsed', offset', state') ∧ P state' := by
  induction records generalizing parsed offset state with
  | zero => exact ⟨_, _, state, rfl, hstate⟩
  | succ records ih =>
    obtain ⟨skipped, hskip, hinside⟩ := mdnsStringSkip_inside hsize offset
    have hstop : offset ≤ skipped.getD offset := by
      cases skipped with
      | none => exact Nat.le_refl _
      | some stop => exact Nat.le_of_lt (hinside stop rfl).1
    unfold mdnsRecordsParse
    rw [hskip]
    dsimp only
    by_cases hshort : size < skipped.getD offset + 10
    · exact ⟨_, _, state, if_pos hshort, hstate⟩
    rw [if_neg hshort]
    obtain ⟨header, hheader⟩ := recordHeader_inside buffer (skipped.getD offset) (by omega)
    rw [hheader]
    dsimp only
    by_cases hroom : header.length ≤ size - (skipped.getD offset + 10)
    · rw [if_pos hroom]
      obtain ⟨stop, state', hcall, hstate'⟩ := hkeeps
        { entry := type, queryId := queryId, rtype := header.rtype, rclass := header.rclass,
          ttl := header.ttl, nameOffset := offset, nameLength := skipped.getD offset - offset,
          recordOffset := skipped.getD offset + 10, recordLength := header.length } state
        ⟨⟨by dsimp only; omega, by dsimp only; omega⟩, Nat.le_add_left _ _, hheader⟩ hstate
      rw [hcall]
      cases stop with
      | true => exact ⟨_, _, state', rfl, hstate'⟩
      | false => exact ih _ _ hstate'
    · rw [if_neg hroom]
      exact ih _ _ hstate

/-- The three sections are gone through inside of the storage. -/
theorem parseSections_keeps (hsize : size ≤ buffer.length)
    (hkeeps : KeepsRecords callback buffer size P)
    (header : Header) (offset total : ℕ) (hstate : P state) :
    ∃ total' additionals state', parseSections callback buffer size header offset total state =
      some (total', additionals, state') ∧ P state' := by
  unfold parseSections
  obtain ⟨answers, offset, state, hanswers, hstate⟩ :=
    mdnsRecordsParse_keeps hsize hkeeps .answer header.queryId header.answerRrs 0 offset hstate
  rw [hanswers]
  dsimp only
  split
  · exact ⟨_, _, state, rfl, hstate⟩
  obtain ⟨authorities, offset, state, hauthorities, hstate⟩ :=
    mdnsRecordsParse_keeps hsize hkeeps .authority header.queryId header.authorityRrs 0 offset
      hstate
  rw [hauthorities]
  dsimp only
  split
  · exact ⟨_, _, state, rfl, hstate⟩
  obtain ⟨additionals, offset, state, hadditionals, hstate⟩ :=
    mdnsRecordsParse_keeps hsize hkeeps .additional header.queryId header.additionalRrs 0 offset
      hstate
  rw [hadditionals]
  exact ⟨_, _, state, rfl, hstate⟩

/-- Receiving leaves the length of the storage. -/
theorem length_recvfrom (storage datagram : List UInt8) :
    (recvfrom storage datagram).1.length = storage.length := by
  simp only [recvfrom, List.length_append, List.length_take, List.length_drop]
  omega

/-- No more is received than it holds. -/
theorem size_recvfrom_le (storage datagram : List UInt8) :
    (recvfrom storage datagram).2 ≤ (recvfrom storage datagram).1.length := by
  rw [length_recvfrom]
  exact Nat.min_le_right _ _

/-- What the loop over the questions keeps. -/
def Asked.kept : Asked σ → σ
  | .records _ _ state => state
  | .done _ state => state

/-- The questions are read inside the storage when four bytes of it are behind the message. -/
theorem listenQuestions_keeps (hsize : size + 4 ≤ buffer.length)
    (hkeeps : Keeps callback buffer size P)
    (header : Header) (questions offset total : ℕ) (hstate : P state) :
    ∃ asked, listenQuestions callback buffer size header questions offset total state = some asked ∧
      P asked.kept := by
  induction questions generalizing offset total state with
  | zero => exact ⟨_, rfl, hstate⟩
  | succ questions ih =>
    obtain ⟨ended, hended, hskip⟩ := questionEnd_eq (by omega : size ≤ buffer.length) offset
    obtain ⟨skipped, hskip', hinside⟩ :=
      mdnsStringSkip_inside (by omega : size ≤ buffer.length) offset
    unfold listenQuestions
    rw [hended]
    cases ended with
    | none => exact ⟨_, rfl, hstate⟩
    | some ended =>
      obtain ⟨stop, dnsSd⟩ := ended
      have hstop : skipped = some stop := Option.some.inj (hskip'.symm.trans hskip)
      have hle := hinside stop hstop
      obtain ⟨rtype, hrtype⟩ := mdnsNtohs_inside buffer stop (by omega)
      obtain ⟨rclass, hrclass⟩ := mdnsNtohs_inside buffer (stop + 2) (by omega)
      simp only [hrtype, hrclass]
      split
      · exact ⟨_, rfl, hstate⟩
      split
      · exact ih _ _ hstate
      obtain ⟨done, state', hcall, hstate'⟩ := hkeeps
        { entry := .question, queryId := header.queryId, rtype := rtype, rclass := rclass, ttl := 0,
          nameOffset := offset, nameLength := stop - offset, recordOffset := offset,
          recordLength := stop - offset } state
        ⟨by dsimp only; omega, by dsimp only; omega⟩ hstate
      rw [hcall]
      cases done with
      | true => exact ⟨_, rfl, hstate'⟩
      | false => exact ih _ _ hstate'

/-- A datagram that leaves four bytes of the storage free is listened to without a read outside. -/
theorem mdnsSocketListen_keeps (hstorage : 12 ≤ storage.length)
    (hroom : datagram.length + 4 ≤ storage.length)
    (hkeeps : Keeps callback (recvfrom storage datagram).1 (recvfrom storage datagram).2 P)
    (hstate : P state) :
    ∃ total state', mdnsSocketListen callback storage datagram state =
      some ((recvfrom storage datagram).1, total, state') ∧ P state' := by
  have hlength := length_recvfrom storage datagram
  have hsize : (recvfrom storage datagram).2 + 4 ≤ (recvfrom storage datagram).1.length := by
    rw [hlength]
    exact Nat.le_trans (Nat.add_le_add_right (Nat.min_le_left _ _) 4) hroom
  unfold mdnsSocketListen
  dsimp only
  split
  · exact ⟨_, state, rfl, hstate⟩
  obtain ⟨header, hheader⟩ := readHeader_inside (hlength.symm ▸ hstorage)
  rw [hheader]
  dsimp only
  obtain ⟨asked, hasked, hstate'⟩ :=
    listenQuestions_keeps hsize hkeeps header header.questions 12 0 hstate
  rw [hasked]
  cases asked with
  | done total state' => exact ⟨total, state', rfl, hstate'⟩
  | records offset total state' =>
    obtain ⟨total', additionals, state'', hparse, hstate''⟩ := parseSections_keeps
      (Nat.le_trans (Nat.le_add_right _ 4) hsize) hkeeps.records header offset total hstate'
    refine ⟨total', state'', ?_, hstate''⟩
    dsimp only [Asked.kept] at hparse ⊢
    rw [hparse, Option.map_some]

end KdeConnectNx.MdnsMessages
