import KdeConnectNx.PairingExchange

/-!
# The key both users compare

The device that asks computes the key from its own public key, the peer's and the
time stamp of its packet. The other one computes it with the two keys the other way
round, and the time stamp as it reads it in the packet.
-/

namespace KdeConnectNx.VerificationKeys

open PacketBody PacketFormat LineReader PairedFiles Sessions Pairing PairingRuns PairingExchange
open KdeConnectClient (modify sendPacket)
open DeviceSession (markRequested)

/-- The two keys one after the other, the smaller one last. -/
def combined (a b : List UInt8) : List UInt8 := if a < b then b ++ a else a ++ b

/-- Unequal keys are ordered one way or the other, and equal ones do not matter. -/
theorem combined_comm (a b : List UInt8) : combined a b = combined b a := by
  unfold combined
  by_cases hab : a < b
  · have hba : ¬ b < a := List.lt_asymm hab
    rw [if_pos hab, if_neg hba]
  · by_cases hba : b < a
    · rw [if_neg hab, if_pos hba]
    · have heq : a = b := List.le_antisymm hba hab
      rw [heq]

section Keys

variable {φ π ε : Type} {a b : KdeConnectClient φ π} {refA refB : Nat} {deviceId : String}

/-- The key `request_pair` computes once its packet is queued. -/
def requestedKey (m : Moment ε) (deviceId : String) (c : KdeConnectClient φ π) : Option String :=
  match c.device deviceId with
  | none => none
  | some ref =>
    if (c.heap ref).paired then none
    else
      let sent := sendPacket m deviceId (pairPacket m.seconds) c
      if sent.1 then
        let c := modify sent.2 ref (markRequested m.seconds)
        some (verificationKey c (c.heap ref) m.seconds)
      else none

/-- The key `handle_pair_packet` computes for a packet that asks: it passes the test of
the clock, and no own request waits for an answer. -/
def heardKey (y : Yyjson) (m : Moment ε) (ref : Nat) (line : List UInt8)
    (c : KdeConnectClient φ π) : Option String :=
  match NetworkPacket.parse y line with
  | none => none
  | some pkt =>
    let timestamp := pkt.body.valueI64 "timestamp" 0
    if pkt.type = PacketTypes.pair ∧ pkt.body.valueBool "pair" false = true ∧
        timely m.seconds timestamp = true ∧ (c.heap ref).pairState ≠ .requested then
      some (verificationKey c (c.heap ref) timestamp)
    else none

/-- Two sessions that are the ends of one connection, on clients with one hash. -/
structure Peers (a b : KdeConnectClient φ π) (refA refB : Nat) : Prop where
  ofA : (a.heap refA).peerPubkey = b.localPubkey
  ofB : (b.heap refB).peerPubkey = a.localPubkey
  hash : a.sha256HexUpper = b.sha256HexUpper

theorem verificationKey_eq (c : KdeConnectClient φ π) (s : DeviceSession π) (timestamp : Int64) :
    verificationKey c s timestamp =
      if c.localPubkey.isEmpty || s.peerPubkey.isEmpty then "<ERROR>"
      else uppercaseFirst8 (c.sha256HexUpper (combined c.localPubkey s.peerPubkey ++
        if timestamp ≠ 0 then (toString timestamp.toInt).toList.map fun d => UInt8.ofNat d.toNat
        else [])) := rfl

/-- The roles do not matter. -/
theorem verificationKey_comm (h : Peers a b refA refB) (timestamp : Int64) :
    verificationKey b (b.heap refB) timestamp = verificationKey a (a.heap refA) timestamp := by
  rw [verificationKey_eq, verificationKey_eq, h.ofA, h.ofB, h.hash, combined_comm, Bool.or_comm]

/-- Sending changes a session's queue. -/
theorem sendPacket_of_open {m : Moment ε} {pkt : NetworkPacket}
    (hdevice : a.device deviceId = some refA) (hopen : (a.heap refA).disconnected = false) :
    sendPacket m deviceId pkt a = (true, modify a refA (KdeConnectClient.push m pkt)) := by
  unfold sendPacket
  rw [hdevice]
  dsimp only
  rw [hopen, if_neg Bool.false_ne_true]

/-- A key is computed for a connected session that is not paired. -/
theorem requestedKey_eq_some {m : Moment ε} {key : String} (hdevice : a.device deviceId = some refA)
    (h : requestedKey m deviceId a = some key) :
    (a.heap refA).disconnected = false ∧ (a.heap refA).paired = false ∧
      key = verificationKey a (a.heap refA) m.seconds := by
  unfold requestedKey at h
  rw [hdevice] at h
  dsimp only at h
  split at h
  · cases h
  · rename_i hpaired
    split at h
    · rename_i hsent
      rw [KdeConnectClient.sendPacket_fst hdevice, Bool.not_eq_true'] at hsent
      rw [sendPacket_of_open hdevice hsent] at h
      refine ⟨hsent, Bool.eq_false_iff.mpr hpaired, ?_⟩
      rw [← Option.some.inj h]
      dsimp only
      rw [KdeConnectClient.modify_heap_self, KdeConnectClient.modify_heap_self]
      rfl
    · cases h

/-- What is heard of a request packet. -/
theorem heardKey_pairPacket {y : Yyjson} (hy : y.Lawful) (m : Moment ε) (ref : Nat)
    (millis timestamp : Int64) (c : KdeConnectClient φ π) :
    heardKey y m ref ((⟨millis, pairPacket timestamp⟩ : Outgoing).text y).dropLast c =
      if timely m.seconds timestamp = true ∧ (c.heap ref).pairState ≠ .requested then
        some (verificationKey c (c.heap ref) timestamp)
      else none := by
  obtain ⟨hpair, hstamp⟩ := pairPacket_body timestamp
  have htype : (pairPacket timestamp).received.type = PacketTypes.pair := rfl
  unfold heardKey
  rw [parse_text (o := ⟨millis, pairPacket timestamp⟩) hy (pairPacket_nulFree timestamp) rfl]
  dsimp only
  rw [htype, hpair, hstamp]
  simp only [true_and]

/-- The notice of a request shows the key that was heard. -/
theorem posted_heardKey [FileSystem φ] [PluginHost π ε] {y : Yyjson} {m : Moment ε} {ref : Nat}
    {line : List UInt8} {c : KdeConnectClient φ π} {key : String}
    (h : heardKey y m ref line c = some key) :
    (handlePacket y m ref line c).posted = c.posted ++ [⟨"kdeconnect", (c.heap ref).info.name,
      "Incoming pair request. Open the overlay to accept. Key: " ++ key,
      (c.heap ref).info.id ++ "_incoming"⟩] := by
  unfold heardKey at h
  unfold handlePacket
  cases hparse : NetworkPacket.parse y line with
  | none =>
    rw [hparse] at h
    cases h
  | some pkt =>
    rw [hparse] at h
    dsimp only at h ⊢
    split at h
    · rename_i hasks
      obtain ⟨htype, hpair, htimely, hstate⟩ := hasks
      rw [← Option.some.inj h, if_pos htype, handlePairPacket, htimely]
      unfold handlePairPacketTimed
      rw [if_pos hpair]
      dsimp only
      rw [Bool.not_true, if_neg Bool.false_ne_true, if_neg hstate]
      rfl
    · cases h

/-- For any two public keys and at any time of the request: if the packet of a request
for which a key was computed is heard at the other end, the key computed there is the
same, and it is the one that is shown. -/
theorem sameKey [FileSystem φ] [PluginHost π ε] {y : Yyjson} (hy : y.Lawful)
    (hpeers : Peers a b refA refB) (hdevice : a.device deviceId = some refA) (m m' : Moment ε)
    {key : String} (hasked : requestedKey m deviceId a = some key) :
    ∃ o, newPair (a.heap refA) ((requestPair m deviceId a).heap refA) = some o ∧
      heardKey y m' refB (o.text y).dropLast b =
        (if timely m'.seconds m.seconds = true ∧ (b.heap refB).pairState ≠ .requested then some key
        else none) ∧
      (heardKey y m' refB (o.text y).dropLast b = some key →
        (handlePacket y m' refB (o.text y).dropLast b).posted = b.posted ++
          [⟨"kdeconnect", (b.heap refB).info.name,
            "Incoming pair request. Open the overlay to accept. Key: " ++ key,
            (b.heap refB).info.id ++ "_incoming"⟩]) := by
  obtain ⟨hopen, hunpaired, hkey⟩ := requestedKey_eq_some hdevice hasked
  refine ⟨⟨m.millis, pairPacket m.seconds⟩, newPair_requestPair hdevice hopen hunpaired m, ?_,
    posted_heardKey⟩
  rw [heardKey_pairPacket hy, verificationKey_comm hpeers, hkey]

end Keys

/-- A client with one session, its own key and the peer's; for the hash stands the text
of the bytes. -/
def keyed (s : DeviceSession Empty) (own peer : List UInt8) : KdeConnectClient MemoryFiles Empty :=
  { oneSession { s with peerPubkey := peer } with
    localPubkey := own
    sha256HexUpper := fun bytes => String.ofList (bytes.map fun b => Char.ofNat b.toNat) }

/-- One key is the beginning of the other. -/
theorem sameKey_prefix :
    ∃ o, newPair (phoneSession false) ((requestPair (atSecond 1700000000) "5f0c"
        (keyed (phoneSession false) [75, 69] [75, 69, 89])).heap 0) = some o ∧
      heardKey Yyjson.reference (atSecond 1700000001) 0 (o.text Yyjson.reference).dropLast
        (keyed consoleSession [75, 69, 89] [75, 69]) = some "KEYKE170" := by
  have hpeers : Peers (keyed (phoneSession false) [75, 69] [75, 69, 89])
      (keyed consoleSession [75, 69, 89] [75, 69]) 0 0 := ⟨rfl, rfl, rfl⟩
  have hdevice : (keyed (phoneSession false) [75, 69] [75, 69, 89]).device "5f0c" = some 0 := rfl
  have hasked : requestedKey (atSecond 1700000000) "5f0c"
      (keyed (phoneSession false) [75, 69] [75, 69, 89]) = some "KEYKE170" := by decide +kernel
  obtain ⟨o, hsent, hheard, -⟩ := sameKey Yyjson.reference_lawful hpeers hdevice
    (atSecond 1700000000) (atSecond 1700000001) hasked
  exact ⟨o, hsent, hheard⟩

end KdeConnectNx.VerificationKeys
