import KdeConnectNx.Sessions

/-!
# Pair packets and the four local pairing operations

The handlers work on the client as the code does. Beside them stands the
pairing of one session as an automaton over its pairing part: what an
operation does to that part, to the device's stored entry and to the wire.
Each handler is shown to be the automaton's step.
-/

namespace KdeConnectNx.Pairing

open PacketBody PacketFormat LineReader PairedFiles Sessions
open KdeConnectClient (modify setStorage post sendPacket sendAll notifyPluginsConnected)
open DeviceSession (markPaired markUnpaired markRequested markRequestedByPeer markDisconnected)

/-- Seconds a pair request may be off the own clock. -/
def kPairingWindowSeconds : Int64 := 1800

def llabs (x : Int64) : Int64 := if x < 0 then -x else x

/-- The time stamp passes the clock-skew test. -/
def timely (now timestamp : Int64) : Bool :=
  !(timestamp != 0 && decide (kPairingWindowSeconds < llabs (now - timestamp)))

/-- A pair packet that asks for pairing or accepts it. -/
def pairPacket (timestamp : Int64) : NetworkPacket where
  type := PacketTypes.pair
  body := (({} : JsonBody).setBool "pair" true).setI64 "timestamp" timestamp

/-- A pair packet that denies, cancels or ends a pairing. -/
def unpairPacket : NetworkPacket where
  type := PacketTypes.pair
  body := ({} : JsonBody).setBool "pair" false

def uppercaseFirst8 (hex : String) : String :=
  if hex.length ≤ 8 then hex else String.ofList (hex.toList.take 8)

/-- The seconds of a clock, as an integer. -/
theorem seconds_toInt {ε : Type} (m : Moment ε) :
    m.seconds.toInt = m.nanos.toInt.tdiv 1000000000 :=
  Int64.toInt_div_of_ne_right _ _ (by decide)

/-- Clocks at most half an hour apart show seconds at most 1800 apart. -/
theorem seconds_apart {ε ε' : Type} {m : Moment ε} {m' : Moment ε'}
    (h : m.nanos.toInt - m'.nanos.toInt ≤ 1800000000000) :
    m.seconds.toInt - m'.seconds.toInt ≤ 1800 := by
  have hs := seconds_toInt m
  have hs' := seconds_toInt m'
  have hsign : Int.sign 1000000000 = 1 := rfl
  rw [Int.tdiv_eq_ediv, hsign] at hs hs'
  split at hs <;> split at hs' <;> omega

/-- A difference within the window passes the test. -/
theorem llabs_le {x : Int64} (h : -1800 ≤ x.toInt) (h' : x.toInt ≤ 1800) :
    ¬ kPairingWindowSeconds < llabs x := by
  rw [Int64.lt_iff_toInt_lt]
  have hw : kPairingWindowSeconds.toInt = 1800 := by decide
  unfold llabs
  split
  · have hneg : (-x).toInt = -x.toInt := by
      rw [Int64.toInt_neg]
      exact Int.bmod_eq_of_le (by omega) (by omega)
    omega
  · omega

/-- A time stamp in seconds passes at any clock within the window of the clock
it was taken from. -/
theorem timely_seconds {ε ε' : Type} {m : Moment ε} {m' : Moment ε'}
    (h : m.nanos.toInt - m'.nanos.toInt ≤ 1800000000000)
    (h' : m'.nanos.toInt - m.nanos.toInt ≤ 1800000000000) :
    timely m.seconds m'.seconds = true := by
  have hle := seconds_apart h
  have hle' := seconds_apart h'
  have hsub : (m.seconds - m'.seconds).toInt = m.seconds.toInt - m'.seconds.toInt := by
    rw [Int64.toInt_sub]
    exact Int.bmod_eq_of_le (by omega) (by omega)
  have hin : ¬ kPairingWindowSeconds < llabs (m.seconds - m'.seconds) :=
    llabs_le (by omega) (by omega)
  unfold timely
  rw [decide_eq_false hin, Bool.and_false, Bool.not_false]
section Handlers

variable {φ π ε : Type} [FileSystem φ] [PluginHost π ε]

/-- The key both users compare: hash of the greater and the smaller public key
and the time stamp. -/
def verificationKey (c : KdeConnectClient φ π) (s : DeviceSession π) (timestamp : Int64) : String :=
  let a := c.localPubkey
  let b := s.peerPubkey
  if a.isEmpty || b.isEmpty then "<ERROR>"
  else
    let keys := if a < b then b ++ a else a ++ b
    let stamp := if timestamp ≠ 0 then
        (toString timestamp.toInt).toList.map fun d => UInt8.ofNat d.toNat
      else []
    uppercaseFirst8 (c.sha256HexUpper (keys ++ stamp))

/-- `handle_pair_packet` after its clock-skew test came out as `inTime`. -/
def handlePairPacketTimed (y : Yyjson) (inTime : Bool) (m : Moment ε) (ref : Nat)
    (body : JsonBody) (c : KdeConnectClient φ π) : KdeConnectClient φ π :=
  let s := c.heap ref
  if body.valueBool "pair" false then
    let timestamp := body.valueI64 "timestamp" 0
    if !inTime then
      post c s.info.name "Pair request rejected due to clock skew. Check the system time."
        (s.info.id ++ "_error")
    else if s.pairState = .requested then
      if s.certPem.isEmpty then c
      else
        let c := setStorage (modify c ref markPaired)
          (savePairedDevice y s.info s.certPem c.storage)
        post (notifyPluginsConnected m ref c) s.info.name "Pair request accepted"
          (s.info.id ++ "_accepted")
    else
      post (modify c ref (markRequestedByPeer timestamp)) s.info.name
        ("Incoming pair request. Open the overlay to accept. Key: " ++
          verificationKey c s timestamp)
        (s.info.id ++ "_incoming")
  else
    let c := setStorage (modify c ref markUnpaired) (removePairedDevice s.info.id c.storage)
    if s.pairState = .requested then
      post c s.info.name "Pair request denied" (s.info.id ++ "_denied")
    else c

def handlePairPacket (y : Yyjson) (m : Moment ε) (ref : Nat) (body : JsonBody)
    (c : KdeConnectClient φ π) : KdeConnectClient φ π :=
  handlePairPacketTimed y (timely m.seconds (body.valueI64 "timestamp" 0)) m ref body c

def requestPair (m : Moment ε) (deviceId : String) (c : KdeConnectClient φ π) :
    KdeConnectClient φ π :=
  match c.device deviceId with
  | none => c
  | some ref =>
    if (c.heap ref).paired then c
    else
      let sent := sendPacket m deviceId (pairPacket m.seconds) c
      if sent.1 then modify sent.2 ref (markRequested m.seconds) else sent.2

/-- The time stamp of an acceptance is in milliseconds. -/
def acceptPair (y : Yyjson) (m : Moment ε) (deviceId : String) (c : KdeConnectClient φ π) :
    KdeConnectClient φ π :=
  match c.device deviceId with
  | none => c
  | some ref =>
    if (c.heap ref).certPem.isEmpty then c
    else
      let sent := sendPacket m deviceId (pairPacket m.millis) c
      if sent.1 then
        let s := sent.2.heap ref
        notifyPluginsConnected m ref
          (setStorage (modify sent.2 ref markPaired)
            (savePairedDevice y s.info s.certPem sent.2.storage))
      else sent.2

def rejectPair (m : Moment ε) (deviceId : String) (c : KdeConnectClient φ π) :
    KdeConnectClient φ π :=
  match c.device deviceId with
  | none => c
  | some ref =>
    let sent := sendPacket m deviceId unpairPacket c
    if sent.1 then
      setStorage (modify sent.2 ref markUnpaired)
        (removePairedDevice (sent.2.heap ref).info.id sent.2.storage)
    else sent.2

/-- Without a connected session only the stored device is dropped, and the
session marked unpaired if there is one. -/
def unpair (m : Moment ε) (deviceId : String) (c : KdeConnectClient φ π) :
    KdeConnectClient φ π :=
  match c.device deviceId with
  | none => setStorage c (removePairedDevice deviceId c.storage)
  | some ref =>
    if (c.heap ref).disconnected then
      setStorage (modify c ref markUnpaired) (removePairedDevice deviceId c.storage)
    else if !(c.heap ref).paired then c
    else
      let sent := sendPacket m deviceId unpairPacket c
      if sent.1 then
        setStorage (modify sent.2 ref markUnpaired)
          (removePairedDevice (sent.2.heap ref).info.id sent.2.storage)
      else sent.2

/-- Calls of one plugin with a packet, at most as many as given, up to the
first that handles it. -/
def offerTimes (env : ε) (pkt : NetworkPacket) : Nat → π → π × List NetworkPacket × Bool
  | 0, p => (p, [], false)
  | n + 1, p =>
    let r := PluginHost.onPacketReceived env pkt p
    if r.2.2 then r
    else
      let r' := offerTimes env pkt n r.1
      (r'.1, r.2.1 ++ r'.2.1, r'.2.2)

/-- Offer a packet to the plugins in order, once for each time a plugin lists
its type, until one handles it. -/
def offer (env : ε) (pkt : NetworkPacket) : List π → List π × List NetworkPacket
  | [] => ([], [])
  | p :: ps =>
    let r := offerTimes env pkt
      ((PluginHost.supportedPacketTypes p).countP (· = pkt.type)) p
    if r.2.2 then (r.1 :: ps, r.2.1)
    else
      let rest := offer env pkt ps
      (r.1 :: rest.1, r.2.1 ++ rest.2)

/-- Give a packet to the plugins of a session. -/
def dispatch (m : Moment ε) (ref : Nat) (pkt : NetworkPacket) (c : KdeConnectClient φ π) :
    KdeConnectClient φ π :=
  let s := c.heap ref
  let r := offer m.env pkt s.plugins
  sendAll m s.info.id r.2 (modify c ref fun s => { s with plugins := r.1 })

/-- A line read from a session; plugins see it only when the device is
paired. -/
def handlePacket (y : Yyjson) (m : Moment ε) (ref : Nat) (line : List UInt8)
    (c : KdeConnectClient φ π) : KdeConnectClient φ π :=
  match NetworkPacket.parse y line with
  | none => c
  | some pkt =>
    if pkt.type = PacketTypes.pair then handlePairPacket y m ref pkt.body c
    else if !(c.heap ref).paired then c
    else dispatch m ref pkt c

end Handlers

/-! ## The pairing of one session as an automaton -/

/-- What happens to the pairing of a session. -/
inductive Act where
  /-- A pair packet: whether it asks for pairing, whether it passes the
  clock-skew test, and its time stamp. -/
  | heard (wants inTime : Bool) (timestamp : Int64)
  | request (now : Int64)
  | accept
  | reject
  | unpair
  /-- The connection ends. -/
  | lost
  deriving DecidableEq

/-- What an act does to the stored entry of the device. -/
inductive StoreEffect where
  | keep
  | save
  | remove
  deriving DecidableEq

/-- The pairing part marked paired. -/
def becomePaired (k : Core) : Core := { k with pairState := .paired, paired := true }

/-- The pairing part marked unpaired. -/
def becomeUnpaired (k : Core) : Core := { k with pairState := .notPaired, paired := false }

@[simp] theorem becomePaired_paired (k : Core) : (becomePaired k).paired = true := rfl

@[simp] theorem becomePaired_pairState (k : Core) : (becomePaired k).pairState = .paired := rfl

@[simp] theorem becomeUnpaired_paired (k : Core) : (becomeUnpaired k).paired = false := rfl

@[simp] theorem becomeUnpaired_pairState (k : Core) :
    (becomeUnpaired k).pairState = .notPaired := rfl

/-- What an act leads to: the next pairing part, the effect on the stored
entry, and the `pair` member of the pair packet that is sent, if one is. -/
structure Reaction where
  core : Core
  store : StoreEffect := .keep
  sent : Option Bool := none

/-- Step of the automaton. -/
def react (k : Core) : Act → Reaction
  | .heard true inTime timestamp =>
    if inTime = false then { core := k }
    else if k.pairState = .requested then
      if k.certPem.isEmpty then { core := k }
      else { core := becomePaired k, store := .save }
    else { core := { k with pairState := .requestedByPeer, pairingTimestamp := timestamp } }
  | .heard false _ _ => { core := becomeUnpaired k, store := .remove }
  | .request now =>
    if k.paired = true ∨ k.disconnected = true then { core := k }
    else
      { core := { k with pairState := .requested, pairingTimestamp := now }
        sent := some true }
  | .accept =>
    if k.certPem.isEmpty = true ∨ k.disconnected = true then { core := k }
    else { core := becomePaired k, store := .save, sent := some true }
  | .reject =>
    if k.disconnected then { core := k }
    else { core := becomeUnpaired k, store := .remove, sent := some false }
  | .unpair =>
    if k.disconnected then { core := becomeUnpaired k, store := .remove }
    else if k.paired = false then { core := k }
    else { core := becomeUnpaired k, store := .remove, sent := some false }
  | .lost => { core := { k with disconnected := true } }

/-- The pairing part after an act. -/
def move (k : Core) (a : Act) : Core := (react k a).core

/-- The device and its certificate stay what they are. -/
theorem move_info (k : Core) (a : Act) :
    (move k a).info = k.info ∧ (move k a).certPem = k.certPem := by
  cases a with
  | heard wants inTime timestamp =>
    cases wants with
    | true =>
      unfold move react
      dsimp only
      split
      · exact ⟨rfl, rfl⟩
      · split
        · split <;> exact ⟨rfl, rfl⟩
        · exact ⟨rfl, rfl⟩
    | false => exact ⟨rfl, rfl⟩
  | request now => unfold move react; dsimp only; split <;> exact ⟨rfl, rfl⟩
  | accept => unfold move react; dsimp only; split <;> exact ⟨rfl, rfl⟩
  | reject => unfold move react; dsimp only; split <;> exact ⟨rfl, rfl⟩
  | unpair =>
    unfold move react
    dsimp only
    split
    · exact ⟨rfl, rfl⟩
    · split <;> exact ⟨rfl, rfl⟩
  | lost => exact ⟨rfl, rfl⟩

/-- Only the end of the connection disconnects. -/
theorem move_disconnected (k : Core) {a : Act} (ha : a ≠ .lost) :
    (move k a).disconnected = k.disconnected := by
  cases a with
  | heard wants inTime timestamp =>
    cases wants with
    | true =>
      unfold move react
      dsimp only
      split
      · rfl
      · split
        · split <;> rfl
        · rfl
    | false => rfl
  | request now => unfold move react; dsimp only; split <;> rfl
  | accept => unfold move react; dsimp only; split <;> rfl
  | reject => unfold move react; dsimp only; split <;> rfl
  | unpair =>
    unfold move react
    dsimp only
    split
    · rfl
    · split <;> rfl
  | lost => exact absurd rfl ha

/-- The stored devices after a step's effect. -/
def applyEffect {φ : Type} [FileSystem φ] (y : Yyjson) (k : Core) (storage : Storage φ) :
    StoreEffect → Storage φ
  | .keep => storage
  | .save => savePairedDevice y k.info k.certPem storage
  | .remove => removePairedDevice k.info.id storage

theorem applyEffect_basePath {φ : Type} [FileSystem φ] (y : Yyjson) (k : Core)
    (storage : Storage φ) (effect : StoreEffect) :
    (applyEffect y k storage effect).basePath = storage.basePath := by
  cases effect <;> rfl

/-! ## The handlers make the automaton's steps -/

/-- From one client to the other the pairing part of one session becomes `k`
and the store `storage`; every other pairing part stays. -/
structure Changes {φ π : Type} (c c' : KdeConnectClient φ π) (ref : Nat) (k : Core)
    (storage : Storage φ) : Prop where
  core : (c'.heap ref).core = k
  others : ∀ other, other ≠ ref → (c'.heap other).core = (c.heap other).core
  sessions : c'.sessions = c.sessions
  localDevice : c'.localDevice = c.localDevice
  storage : c'.storage = storage
  next : c'.next = c.next

/-- The session makes the automaton's step on an act. -/
def Follows {φ π : Type} [FileSystem φ] (y : Yyjson) (c c' : KdeConnectClient φ π) (ref : Nat)
    (a : Act) : Prop :=
  Changes c c' ref (move (c.heap ref).core a)
    (applyEffect y (c.heap ref).core c.storage (react (c.heap ref).core a).store)

namespace Changes

variable {φ π : Type} {c c' c'' : KdeConnectClient φ π} {ref : Nat} {k : Core}
  {storage : Storage φ}

theorem ofSame (h : SameCores c c') : Changes c c' ref (c.heap ref).core c.storage :=
  ⟨h.core ref, fun other _ => h.core other, h.sessions, h.localDevice, h.storage, h.next⟩

/-- A session and the store are changed at once, after a step that changed no
pairing part. -/
theorem modify (hs : SameCores c c') (ref : Nat) (f : DeviceSession π → DeviceSession π)
    (g : Core → Core) (hf : ∀ s, (f s).core = g s.core) (storage : Storage φ) :
    Changes c (setStorage (modify c' ref f) storage) ref (g (c.heap ref).core) storage := by
  refine ⟨?_, ?_, hs.sessions, hs.localDevice, rfl, hs.next⟩
  · change ((KdeConnectClient.modify c' ref f).heap ref).core = _
    rw [KdeConnectClient.modify_heap_self, hf, hs.core ref]
  · intro other h
    change ((KdeConnectClient.modify c' ref f).heap other).core = _
    rw [KdeConnectClient.modify_heap_ne c' h, hs.core other]

theorem after (h : Changes c c' ref k storage) (hs : SameCores c' c'') :
    Changes c c'' ref k storage where
  core := (hs.core ref).trans h.core
  others := fun other hne => (hs.core other).trans (h.others other hne)
  sessions := hs.sessions.trans h.sessions
  localDevice := hs.localDevice.trans h.localDevice
  storage := hs.storage.trans h.storage
  next := hs.next.trans h.next

end Changes

theorem sameCores_post {φ π : Type} (c : KdeConnectClient φ π) (title body id : String) :
    SameCores c (post c title body id) :=
  ⟨fun _ => rfl, fun _ => List.prefix_rfl, rfl, rfl, rfl, rfl⟩

section Refinement

variable {φ π ε : Type} [FileSystem φ]

/-- Nothing changes where the automaton stays and keeps the stored entry. -/
theorem follows_of_same {y : Yyjson} {c c' : KdeConnectClient φ π} {ref : Nat} {a : Act}
    (hs : SameCores c c') (ha : react (c.heap ref).core a = { core := (c.heap ref).core }) :
    Follows y c c' ref a := by
  unfold Follows move
  rw [ha]
  exact Changes.ofSame hs

/-- A session that changes as the automaton does, its store included. -/
theorem follows_of_modify {y : Yyjson} {c c' c'' : KdeConnectClient φ π} {ref : Nat} {a : Act}
    (hs : SameCores c c') (f : DeviceSession π → DeviceSession π) (g : Core → Core)
    (hf : ∀ s, (f s).core = g s.core) (effect : StoreEffect) (sent : Option Bool)
    (ha : react (c.heap ref).core a = ⟨g (c.heap ref).core, effect, sent⟩)
    (hc : SameCores (setStorage (modify c' ref f)
      (applyEffect y (c.heap ref).core c.storage effect)) c'') :
    Follows y c c'' ref a := by
  unfold Follows move
  rw [ha]
  exact (Changes.modify hs ref f g hf _).after hc

/-- A pair packet makes the automaton's step, whichever way the clock-skew
test came out. -/
theorem follows_handlePairPacketTimed [PluginHost π ε] (y : Yyjson) (inTime : Bool) (m : Moment ε)
    (ref : Nat) (body : JsonBody) (c : KdeConnectClient φ π) :
    Follows y c (handlePairPacketTimed y inTime m ref body c) ref
      (.heard (body.valueBool "pair" false) inTime (body.valueI64 "timestamp" 0)) := by
  have hrefl := SameCores.refl c
  unfold handlePairPacketTimed
  cases hwants : body.valueBool "pair" false with
  | false =>
    dsimp only
    rw [if_neg Bool.false_ne_true]
    refine follows_of_modify hrefl markUnpaired becomeUnpaired (fun _ => rfl) .remove none rfl ?_
    split
    · exact sameCores_post _ _ _ _
    · exact SameCores.refl _
  | true =>
    rw [if_pos rfl]
    cases inTime with
    | false => exact follows_of_same (sameCores_post c _ _ _) rfl
    | true =>
      dsimp only
      rw [Bool.not_true, if_neg Bool.false_ne_true]
      by_cases hstate : (c.heap ref).pairState = .requested
      · rw [if_pos hstate]
        by_cases hcert : (c.heap ref).certPem.isEmpty = true
        · rw [if_pos hcert]
          refine follows_of_same hrefl ?_
          simp only [react, Bool.true_eq_false, if_false]
          exact (if_pos hstate).trans (if_pos hcert)
        · rw [if_neg hcert]
          refine follows_of_modify hrefl markPaired becomePaired (fun _ => rfl) .save none ?_
            ((SameCores.notifyPluginsConnected m ref _).trans (sameCores_post _ _ _ _))
          simp only [react, Bool.true_eq_false, if_false]
          exact (if_pos hstate).trans (if_neg hcert)
      · rw [if_neg hstate]
        refine follows_of_modify hrefl (markRequestedByPeer (body.valueI64 "timestamp" 0))
          (fun k => { k with
            pairState := .requestedByPeer
            pairingTimestamp := body.valueI64 "timestamp" 0 })
          (fun _ => rfl) .keep none ?_ (sameCores_post _ _ _ _)
        simp only [react, Bool.true_eq_false, if_false]
        exact if_neg hstate

variable {deviceId : String} {ref : Nat} {c : KdeConnectClient φ π}

/-- Requests make the automaton's step. -/
theorem follows_requestPair (y : Yyjson) (h : c.device deviceId = some ref) (m : Moment ε) :
    Follows y c (requestPair m deviceId c) ref (.request m.seconds) := by
  have hsame := SameCores.sendPacket m deviceId (pairPacket m.seconds) c
  have hsent := KdeConnectClient.sendPacket_fst h m (pairPacket m.seconds)
  unfold requestPair
  rw [h]
  dsimp only
  rw [hsent]
  by_cases hpaired : (c.heap ref).paired = true
  · rw [if_pos hpaired]
    exact follows_of_same (SameCores.refl c) (if_pos (.inl hpaired))
  · rw [if_neg hpaired]
    cases hdown : (c.heap ref).disconnected with
    | true => exact follows_of_same hsame (if_pos (.inr hdown))
    | false =>
      have hopen : (c.heap ref).core.disconnected ≠ true := by
        change (c.heap ref).disconnected ≠ true
        rw [hdown]
        exact Bool.false_ne_true
      refine follows_of_modify hsame (markRequested m.seconds)
        (fun k => { k with pairState := .requested, pairingTimestamp := m.seconds })
        (fun _ => rfl) .keep (some true) (if_neg (not_or.mpr ⟨hpaired, hopen⟩)) ?_
      exact ⟨fun _ => rfl, fun _ => List.prefix_rfl, rfl, hsame.storage, rfl, rfl⟩

/-- So do acceptances, whatever the pair state. -/
theorem follows_acceptPair [PluginHost π ε] (y : Yyjson) (h : c.device deviceId = some ref)
    (m : Moment ε) :
    Follows y c (acceptPair y m deviceId c) ref .accept := by
  have hsame := SameCores.sendPacket m deviceId (pairPacket m.millis) c
  have hsent := KdeConnectClient.sendPacket_fst h m (pairPacket m.millis)
  unfold acceptPair
  rw [h]
  dsimp only
  rw [hsent]
  by_cases hcert : (c.heap ref).certPem.isEmpty = true
  · rw [if_pos hcert]
    exact follows_of_same (SameCores.refl c) (if_pos (.inl hcert))
  · rw [if_neg hcert]
    cases hdown : (c.heap ref).disconnected with
    | true => exact follows_of_same hsame (if_pos (.inr hdown))
    | false =>
      have hopen : (c.heap ref).core.disconnected ≠ true := by
        change (c.heap ref).disconnected ≠ true
        rw [hdown]
        exact Bool.false_ne_true
      have hstored : savePairedDevice y ((sendPacket m deviceId (pairPacket m.millis) c).2.heap
            ref).info ((sendPacket m deviceId (pairPacket m.millis) c).2.heap ref).certPem
            (sendPacket m deviceId (pairPacket m.millis) c).2.storage =
          applyEffect y (c.heap ref).core c.storage .save := by
        have hcore := hsame.core ref
        have hinfo := congrArg Core.info hcore
        have hpem := congrArg Core.certPem hcore
        rw [hsame.storage]
        exact congrArg₂ (fun info pem => savePairedDevice y info pem c.storage) hinfo hpem
      refine follows_of_modify hsame markPaired becomePaired (fun _ => rfl) .save (some true)
        (if_neg (not_or.mpr ⟨hcert, hopen⟩)) ?_
      rw [← hstored]
      exact SameCores.notifyPluginsConnected m ref _

/-- Ending the pairing of a connected session, after the packet that says so. -/
theorem follows_unpairPacket (y : Yyjson) (h : c.device deviceId = some ref) (m : Moment ε)
    {a : Act} (hopen : (c.heap ref).disconnected = false)
    (ha : react (c.heap ref).core a =
      { core := becomeUnpaired (c.heap ref).core, store := .remove, sent := some false }) :
    Follows y c
      (if (sendPacket m deviceId unpairPacket c).1 = true then
        setStorage (modify (sendPacket m deviceId unpairPacket c).2 ref markUnpaired)
          (removePairedDevice ((sendPacket m deviceId unpairPacket c).2.heap ref).info.id
            (sendPacket m deviceId unpairPacket c).2.storage)
      else (sendPacket m deviceId unpairPacket c).2) ref a := by
  have hsame := SameCores.sendPacket m deviceId unpairPacket c
  have hsent := KdeConnectClient.sendPacket_fst h m unpairPacket
  rw [hopen] at hsent
  rw [hsent, Bool.not_false, if_pos rfl]
  refine follows_of_modify hsame markUnpaired becomeUnpaired (fun _ => rfl) .remove
    (some false) ha ?_
  have hinfo := hsame.info ref
  have hstored : removePairedDevice ((sendPacket m deviceId unpairPacket c).2.heap ref).info.id
      (sendPacket m deviceId unpairPacket c).2.storage =
        applyEffect y (c.heap ref).core c.storage .remove := by
    rw [hsame.storage]
    exact congrArg (fun info : DeviceInfo => removePairedDevice info.id c.storage) hinfo
  rw [hstored]
  exact SameCores.refl _

/-- Rejections make the automaton's step. -/
theorem follows_rejectPair (y : Yyjson) (h : c.device deviceId = some ref) (m : Moment ε) :
    Follows y c (rejectPair m deviceId c) ref .reject := by
  unfold rejectPair
  rw [h]
  dsimp only
  cases hdown : (c.heap ref).disconnected with
  | true =>
    have hsent := KdeConnectClient.sendPacket_fst h m unpairPacket
    rw [hdown] at hsent
    rw [hsent, Bool.not_true, if_neg Bool.false_ne_true]
    exact follows_of_same (SameCores.sendPacket m deviceId unpairPacket c) (if_pos hdown)
  | false =>
    refine follows_unpairPacket y h m hdown (if_neg ?_)
    change ¬ (c.heap ref).disconnected = true
    rw [hdown]
    exact Bool.false_ne_true

/-- So do unpairings of a session that is the device's own. -/
theorem follows_unpair (y : Yyjson) (h : c.device deviceId = some ref)
    (hid : (c.heap ref).info.id = deviceId) (m : Moment ε) :
    Follows y c (unpair m deviceId c) ref .unpair := by
  unfold unpair
  rw [h]
  dsimp only
  cases hdown : (c.heap ref).disconnected with
  | true =>
    rw [if_pos rfl]
    refine follows_of_modify (SameCores.refl c) markUnpaired becomeUnpaired (fun _ => rfl) .remove
      none (if_pos hdown) ?_
    rw [← hid]
    exact SameCores.refl _
  | false =>
    have hopen : ¬ (c.heap ref).core.disconnected = true := by
      change ¬ (c.heap ref).disconnected = true
      rw [hdown]
      exact Bool.false_ne_true
    rw [if_neg Bool.false_ne_true]
    cases hpaired : (c.heap ref).paired with
    | false =>
      exact follows_of_same (SameCores.refl c) ((if_neg hopen).trans (if_pos hpaired))
    | true =>
      have hlinked : ¬ (c.heap ref).core.paired = false := by
        change ¬ (c.heap ref).paired = false
        rw [hpaired]
        simp
      exact follows_unpairPacket y h m hdown ((if_neg hopen).trans (if_neg hlinked))

end Refinement

end KdeConnectNx.Pairing
