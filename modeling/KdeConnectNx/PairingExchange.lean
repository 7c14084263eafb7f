import KdeConnectNx.PairingRuns

/-!
# A pairing between two devices

One device asks, the other accepts, and both packets travel as text. The
request carries seconds and passes the receiver's test; the acceptance carries
milliseconds, and the exchange completes on both sides exactly when that
number passes for seconds at the device that asked.
-/

namespace KdeConnectNx.PairingExchange

open JsonTree PacketBody PacketFormat LineReader PairedFiles Sessions Pairing PairingRuns

/-- The text of a queued packet reads back as what a receiver makes of it. -/
theorem parse_text {y : Yyjson} (hy : y.Lawful) {o : Outgoing} (hnul : NulFree o.packet.type)
    (hfree : o.packet.body.realFree = true) :
    NetworkPacket.parse y (o.text y).dropLast = some o.packet.received := by
  have hparse := (NetworkPacket.parse_root hy hnul hfree o.millis).1
  rw [Outgoing.text, NetworkPacket.serialize, List.dropLast_concat]
  exact hparse

theorem pairPacket_nulFree (timestamp : Int64) : NulFree (pairPacket timestamp).type := by
  change NulFree PacketTypes.pair
  decide

/-- The body of a pair packet that asks, as a receiver reads it. -/
theorem pairPacket_body (timestamp : Int64) :
    (pairPacket timestamp).received.body.valueBool "pair" false = true ∧
      (pairPacket timestamp).received.body.valueI64 "timestamp" 0 = timestamp := by
  unfold NetworkPacket.received
  dsimp only
  rw [JsonBody.valueBool_canon, JsonBody.valueI64_canon]
  have hpair : (pairPacket timestamp).body.field "pair" = some (.bool true) := by
    unfold pairPacket JsonBody.setI64
    dsimp only
    rw [JsonBody.field_setVal_ne (by decide)]
    exact JsonBody.field_setVal_self _ _ _
  have hstamp : (pairPacket timestamp).body.field "timestamp" =
      some (.int .sint timestamp.toBitVec) := JsonBody.field_setVal_self _ _ _
  unfold JsonBody.valueBool JsonBody.valueI64
  rw [hpair, hstamp]
  simp only [Val.isBool, Val.getBool, Val.isNum, Val.getSint, if_true, Int64.ofBitVec_toBitVec,
    and_self]

section Exchange

variable {φ π ε : Type}

/-- The pair packet an operation put on a session's queue. -/
def newPair (before after : DeviceSession π) : Option Outgoing :=
  (after.sendQueue.drop before.sendQueue.length).find? fun o => o.packet.type = PacketTypes.pair

theorem newPair_of_prefix {before after : DeviceSession π} {o : Outgoing}
    (ho : o.packet.type = PacketTypes.pair)
    (h : before.sendQueue ++ [o] <+: after.sendQueue) : newPair before after = some o := by
  obtain ⟨more, hmore⟩ := h
  unfold newPair
  rw [← hmore, List.append_assoc, List.drop_left, List.singleton_append, List.find?_cons_of_pos]
  rw [ho]
  decide

/-- A queued packet arrives at the other device. -/
def deliver [FileSystem φ] [PluginHost π ε] (y : Yyjson) (m : Moment ε) (ref : Nat)
    (o : Option Outgoing) (c : KdeConnectClient φ π) : KdeConnectClient φ π :=
  o.elim c fun o => handlePacket y m ref (o.text y).dropLast c

/-- `a` asks, the packet goes to `b`, `b` accepts, the packet goes to `a`. -/
def exchange [FileSystem φ] [PluginHost π ε] (y : Yyjson) (idA idB : String) (refA refB : Nat)
    (asked heard accepted answered : Moment ε) (a b : KdeConnectClient φ π) :
    KdeConnectClient φ π × KdeConnectClient φ π :=
  let a₁ := requestPair asked idB a
  let b₁ := deliver y heard refB (newPair (a.heap refA) (a₁.heap refA)) b
  let b₂ := acceptPair y accepted idA b₁
  (deliver y answered refA (newPair (b₁.heap refB) (b₂.heap refB)) a₁, b₂)

/-- A packet that asks makes the automaton's step when it arrives. -/
theorem follows_deliver [FileSystem φ] [PluginHost π ε] {y : Yyjson} (hy : y.Lawful)
    (m : Moment ε) (ref : Nat) (millis timestamp : Int64) (c : KdeConnectClient φ π) :
    Follows y c (deliver y m ref (some ⟨millis, pairPacket timestamp⟩) c) ref
      (.heard true (timely m.seconds timestamp) timestamp) := by
  obtain ⟨hpair, hstamp⟩ := pairPacket_body timestamp
  have hf := follows_handlePairPacketTimed y (timely m.seconds timestamp) m ref
    (pairPacket timestamp).received.body c
  have htype : (pairPacket timestamp).received.type = PacketTypes.pair := rfl
  rw [hpair, hstamp] at hf
  unfold deliver handlePacket
  dsimp only [Option.elim]
  rw [parse_text (o := ⟨millis, pairPacket timestamp⟩) hy (pairPacket_nulFree timestamp) rfl]
  dsimp only
  rw [if_pos htype, handlePairPacket, hstamp]
  exact hf

/-- A request at a connected and unpaired session puts its packet on the
queue. -/
theorem newPair_requestPair {deviceId : String} {ref : Nat} {c : KdeConnectClient φ π}
    (h : c.device deviceId = some ref) (hopen : (c.heap ref).disconnected = false)
    (hunpaired : (c.heap ref).paired = false) (m : Moment ε) :
    newPair (c.heap ref) ((requestPair m deviceId c).heap ref) =
      some ⟨m.millis, pairPacket m.seconds⟩ := by
  have hqueue := KdeConnectClient.sendPacket_queue h hopen m (pairPacket m.seconds)
  have hsent := KdeConnectClient.sendPacket_fst h m (pairPacket m.seconds)
  rw [hopen, Bool.not_false] at hsent
  refine newPair_of_prefix rfl ?_
  unfold requestPair
  rw [h]
  dsimp only
  rw [hunpaired, if_neg Bool.false_ne_true, hsent, if_pos rfl,
    KdeConnectClient.modify_heap_self, ← hqueue]
  exact List.prefix_rfl

/-- So does an acceptance at a connected session whose certificate is known;
what the plugins send comes after it. -/
theorem newPair_acceptPair [FileSystem φ] [PluginHost π ε] (y : Yyjson) {deviceId : String}
    {ref : Nat} {c : KdeConnectClient φ π} (h : c.device deviceId = some ref)
    (hopen : (c.heap ref).disconnected = false) (hcert : (c.heap ref).certPem.isEmpty = false)
    (m : Moment ε) :
    newPair (c.heap ref) ((acceptPair y m deviceId c).heap ref) =
      some ⟨m.millis, pairPacket m.millis⟩ := by
  have hqueue := KdeConnectClient.sendPacket_queue h hopen m (pairPacket m.millis)
  have hsent := KdeConnectClient.sendPacket_fst h m (pairPacket m.millis)
  rw [hopen, Bool.not_false] at hsent
  refine newPair_of_prefix rfl ?_
  unfold acceptPair
  rw [h]
  dsimp only
  rw [hcert, if_neg Bool.false_ne_true, hsent, if_pos rfl, ← hqueue]
  refine List.IsPrefix.trans ?_ ((SameCores.notifyPluginsConnected m ref _).queue ref)
  change _ <+: ((KdeConnectClient.modify _ ref _).heap ref).sendQueue
  rw [KdeConnectClient.modify_heap_self]
  exact List.prefix_rfl

/-- An installed, connected and unpaired session to a device whose certificate
is known. -/
structure Endpoint (deviceId : String) (ref : Nat) (c : KdeConnectClient φ π) : Prop where
  serves : Serves deviceId ref c
  connected : (c.heap ref).disconnected = false
  unpaired : (c.heap ref).paired = false
  cert : (c.heap ref).certPem.isEmpty = false
  pem : NulFree (c.heap ref).certPem
  path : ShortPath c.storage deviceId

/-- The session is paired in both fields and the peer's certificate stored. -/
structure Completed [FileSystem φ] (y : Yyjson) (deviceId : String) (ref : Nat)
    (c : KdeConnectClient φ π) : Prop where
  paired : (c.heap ref).paired = true
  pairState : (c.heap ref).pairState = .paired
  stored : ∃ entry, c.storage.entry y deviceId = some entry ∧
    entry.certificatePem = (c.heap ref).certPem

/-- A session that has become paired and was saved is complete. -/
theorem completed_of_saved [LawfulFileSystem φ] {y : Yyjson} (hy : y.Lawful)
    {c : KdeConnectClient φ π} {deviceId : String} {ref : Nat} {k : Core} {storage : Storage φ}
    (hcore : (c.heap ref).core = becomePaired k)
    (hstorage : c.storage = savePairedDevice y k.info k.certPem storage)
    (hid : k.info.id = deviceId) (hpem : NulFree k.certPem) (hpath : ShortPath storage deviceId) :
    Completed y deviceId ref c := by
  subst hid
  have hentry := entry_savePairedDevice hy hpath k.certPem
  rw [← hstorage, cstr_of_nulFree hpem] at hentry
  have hcert : (c.heap ref).certPem = k.certPem := congrArg Core.certPem hcore
  exact ⟨congrArg Core.paired hcore, congrArg Core.pairState hcore, _, hentry, hcert.symm⟩

/-- The clock of the receiver is within the window of the clock of the
sender. -/
def Within (sender receiver : Moment ε) : Prop :=
  receiver.nanos.toInt - sender.nanos.toInt ≤ 1800000000000 ∧
    sender.nanos.toInt - receiver.nanos.toInt ≤ 1800000000000

variable {idA idB : String} {refA refB : Nat} {a b : KdeConnectClient φ π}

/-- Asking leaves a request pending and its packet on the queue. -/
theorem requestPair_endpoint [FileSystem φ] (y : Yyjson) (h : Endpoint idB refA a)
    (m : Moment ε) :
    newPair (a.heap refA) ((requestPair m idB a).heap refA) =
        some ⟨m.millis, pairPacket m.seconds⟩ ∧
      Changes a (requestPair m idB a) refA
        { (a.heap refA).core with pairState := .requested, pairingTimestamp := m.seconds }
        a.storage := by
  have hfree : ¬ ((a.heap refA).core.paired = true ∨ (a.heap refA).core.disconnected = true) := by
    have hpaired : (a.heap refA).core.paired = false := h.unpaired
    have hdown : (a.heap refA).core.disconnected = false := h.connected
    rw [hpaired, hdown]
    exact not_or.mpr ⟨Bool.false_ne_true, Bool.false_ne_true⟩
  have hreact : react (a.heap refA).core (.request m.seconds) =
      { core := { (a.heap refA).core with
          pairState := .requested
          pairingTimestamp := m.seconds }
        sent := some true } := if_neg hfree
  have hf := follows_requestPair y h.serves.device m
  unfold Follows move at hf
  rw [hreact] at hf
  exact ⟨newPair_requestPair h.serves.device h.connected h.unpaired m, hf⟩

/-- Accepting at an endpoint completes it there, its packet on the queue. -/
theorem acceptPair_endpoint [LawfulFileSystem φ] [PluginHost π ε] {y : Yyjson} (hy : y.Lawful)
    (hserves : Serves idA refB b) (hopen : (b.heap refB).disconnected = false)
    (hcert : (b.heap refB).certPem.isEmpty = false) (hpem : NulFree (b.heap refB).certPem)
    (hpath : ShortPath b.storage idA) (m : Moment ε) :
    newPair (b.heap refB) ((acceptPair y m idA b).heap refB) =
        some ⟨m.millis, pairPacket m.millis⟩ ∧
      Completed y idA refB (acceptPair y m idA b) := by
  have hfree : ¬ ((b.heap refB).core.certPem.isEmpty = true ∨
      (b.heap refB).core.disconnected = true) := by
    have hc : (b.heap refB).core.certPem.isEmpty = false := hcert
    have hd : (b.heap refB).core.disconnected = false := hopen
    rw [hc, hd]
    exact not_or.mpr ⟨Bool.false_ne_true, Bool.false_ne_true⟩
  have hreact : react (b.heap refB).core .accept =
      { core := becomePaired (b.heap refB).core, store := .save, sent := some true } :=
    if_neg hfree
  have hf := follows_acceptPair y hserves.device m
  unfold Follows move at hf
  rw [hreact] at hf
  exact ⟨newPair_acceptPair y hserves.device hopen hcert m,
    completed_of_saved hy hf.core hf.storage hserves.id hpem hpath⟩

/-- Any pair packet leaves an endpoint a connected session to the same device,
with the same certificate. -/
theorem endpoint_heard [FileSystem φ] [PluginHost π ε] {y : Yyjson} (h : Endpoint idA refB b)
    {b' : KdeConnectClient φ π} {wants inTime : Bool} {timestamp : Int64}
    (hf : Follows y b b' refB (.heard wants inTime timestamp)) :
    Serves idA refB b' ∧ (b'.heap refB).disconnected = false ∧
      (b'.heap refB).certPem = (b.heap refB).certPem ∧ ShortPath b'.storage idA := by
  obtain ⟨hdown, hcert⟩ := link_of_follows hf (by simp)
  refine ⟨serves_of_follows h.serves hf, hdown.trans h.connected, hcert, ?_⟩
  have hpath := h.path
  unfold ShortPath at hpath ⊢
  rw [hf.storage, applyEffect_basePath]
  exact hpath

/-- The exchange completes on both sides exactly when the acceptance's
milliseconds pass for seconds at the device that asked. -/
theorem exchange_completes_iff [LawfulFileSystem φ] [PluginHost π ε] {y : Yyjson}
    (hy : y.Lawful) (hA : Endpoint idB refA a) (hB : Endpoint idA refB b)
    {asked heard accepted answered : Moment ε}
    (hclocks : Within asked heard ∧ Within accepted answered) :
    (Completed y idB refA (exchange y idA idB refA refB asked heard accepted answered a b).1 ∧
        Completed y idA refB (exchange y idA idB refA refB asked heard accepted answered a b).2) ↔
      timely answered.seconds accepted.millis = true := by
  obtain ⟨hasked, hchanged⟩ := requestPair_endpoint y hA asked
  have hheard := follows_deliver hy heard refB asked.millis asked.seconds b
  have htime : timely heard.seconds asked.seconds = true :=
    timely_seconds hclocks.1.1 hclocks.1.2
  rw [htime] at hheard
  obtain ⟨hserves, hopen, hcert, hpath⟩ := endpoint_heard hB hheard
  have hfull := hB.cert
  have hpem := hB.pem
  rw [← hcert] at hfull hpem
  obtain ⟨haccepted, hdoneB⟩ := acceptPair_endpoint hy hserves hopen hfull hpem hpath accepted
  have hanswered := follows_deliver hy answered refA accepted.millis accepted.millis
    (requestPair asked idB a)
  have hcore := hchanged.core
  unfold exchange
  dsimp only
  rw [hasked, haccepted]
  cases hstamp : timely answered.seconds accepted.millis with
  | false =>
    refine iff_of_false ?_ Bool.false_ne_true
    rintro ⟨hdoneA, -⟩
    rw [hstamp] at hanswered
    have hstay := hanswered.core
    have hflag : ((deliver y answered refA (some ⟨accepted.millis, pairPacket accepted.millis⟩)
        (requestPair asked idB a)).heap refA).paired = (a.heap refA).paired := by
      have hpaired := congrArg Core.paired (hstay.trans hcore)
      exact hpaired
    rw [hdoneA.paired, hA.unpaired] at hflag
    cases hflag
  | true =>
    refine iff_of_true ⟨?_, hdoneB⟩ rfl
    rw [hstamp] at hanswered
    unfold Follows move at hanswered
    rw [hcore] at hanswered
    have hknown : ¬ (a.heap refA).core.certPem.isEmpty = true := by
      have hc : (a.heap refA).core.certPem.isEmpty = false := hA.cert
      rw [hc]
      exact Bool.false_ne_true
    have hreact : react { (a.heap refA).core with
          pairState := .requested
          pairingTimestamp := asked.seconds } (.heard true true accepted.millis) =
        { core := becomePaired { (a.heap refA).core with
            pairState := .requested
            pairingTimestamp := asked.seconds }
          store := .save } := by
      simp only [react, Bool.true_eq_false, if_false, if_true]
      exact if_neg hknown
    rw [hreact] at hanswered
    refine completed_of_saved hy hanswered.core hanswered.storage hA.serves.id hA.pem ?_
    have hshort := hA.path
    unfold ShortPath at hshort ⊢
    rw [hchanged.storage]
    exact hshort

end Exchange

/-- The phone's own session, with the device that `oneSession` stands for. -/
def consoleSession : DeviceSession Empty where
  info := { id := "0a", name := "Console" }
  certPem := "console certificate"

theorem phoneSession_endpoint : Endpoint "5f0c" 0 (oneSession (phoneSession false)) :=
  ⟨oneSession_serves (phoneSession false), rfl, rfl, by decide +kernel, by decide, by
    unfold ShortPath; decide +kernel⟩

theorem consoleSession_endpoint : Endpoint "0a" 0 (oneSession consoleSession) :=
  ⟨oneSession_serves consoleSession, rfl, rfl, by decide +kernel, by decide, by
    unfold ShortPath; decide +kernel⟩

/-- With all clocks at the same second of November 2023 the device that asked
drops the acceptance and stays unpaired. -/
theorem exchange_incomplete :
    ¬ ∀ asked heard accepted answered : Moment Unit,
      Within asked heard ∧ Within accepted answered →
      Completed Yyjson.reference "5f0c" 0 (exchange Yyjson.reference "0a" "5f0c" 0 0 asked heard
        accepted answered (oneSession (phoneSession false)) (oneSession consoleSession)).1 ∧
      Completed Yyjson.reference "0a" 0 (exchange Yyjson.reference "0a" "5f0c" 0 0 asked heard
        accepted answered (oneSession (phoneSession false)) (oneSession consoleSession)).2 := by
  intro h
  have hwithin : Within (atSecond 1700000000) (atSecond 1700000000) := by
    unfold Within
    decide
  have hdone := (h _ _ _ _ ⟨hwithin, hwithin⟩).1.paired
  revert hdone
  decide +kernel

/-- A second after the epoch the exchange completes: its milliseconds still pass for seconds. -/
theorem exchange_completes_firstSecond :
    Completed Yyjson.reference "5f0c" 0 (exchange Yyjson.reference "0a" "5f0c" 0 0 (atSecond 1)
        (atSecond 1) (atSecond 1) (atSecond 1) (oneSession (phoneSession false))
        (oneSession consoleSession)).1 ∧
      Completed Yyjson.reference "0a" 0 (exchange Yyjson.reference "0a" "5f0c" 0 0 (atSecond 1)
        (atSecond 1) (atSecond 1) (atSecond 1) (oneSession (phoneSession false))
        (oneSession consoleSession)).2 := by
  have hwithin : Within (atSecond 1) (atSecond 1) := by
    unfold Within
    decide
  exact (exchange_completes_iff Yyjson.reference_lawful phoneSession_endpoint
    consoleSession_endpoint ⟨hwithin, hwithin⟩).mpr (by decide)

end KdeConnectNx.PairingExchange
