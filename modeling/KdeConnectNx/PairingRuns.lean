import KdeConnectNx.Pairing
import KdeConnectNx.Runs

/-!
# Runs of the pairing of one session

Pair packets and local operations in any order. The two fields that tell
whether a session is paired agree in exactly the runs in which no pair request
in time reaches a paired session, and a pairing is mutual in every run that
accepts only what the peer has asked for.
-/

namespace KdeConnectNx.PairingRuns

open PacketBody PacketFormat PairedFiles Sessions Pairing Runs

/-- What happens to a session and when. -/
inductive Event (ε : Type) where
  | received (m : Moment ε) (body : JsonBody)
  | request (m : Moment ε)
  | accept (m : Moment ε)
  | reject (m : Moment ε)
  | unpair (m : Moment ε)
  /-- The io thread ends. -/
  | lost

/-- The automaton's act of an event. -/
def Event.act {ε : Type} : Event ε → Act
  | .received m body =>
    .heard (body.valueBool "pair" false) (timely m.seconds (body.valueI64 "timestamp" 0))
      (body.valueI64 "timestamp" 0)
  | .request m => .request m.seconds
  | .accept _ => .accept
  | .reject _ => .reject
  | .unpair _ => .unpair
  | .lost => .lost

section Client

variable {φ π ε : Type} [FileSystem φ] [PluginHost π ε]

/-- One event at a session and the device it belongs to. -/
def step (y : Yyjson) (deviceId : String) (ref : Nat) (c : KdeConnectClient φ π) :
    Event ε → KdeConnectClient φ π
  | .received m body => handlePairPacket y m ref body c
  | .request m => requestPair m deviceId c
  | .accept m => acceptPair y m deviceId c
  | .reject m => rejectPair m deviceId c
  | .unpair m => unpair m deviceId c
  | .lost => c.modify ref DeviceSession.markDisconnected

/-- The session is the device's current one. -/
structure Serves (deviceId : String) (ref : Nat) (c : KdeConnectClient φ π) : Prop where
  device : c.device deviceId = some ref
  id : (c.heap ref).info.id = deviceId

/-- Every event makes the automaton's step. -/
theorem step_follows (y : Yyjson) {deviceId : String} {ref : Nat} {c : KdeConnectClient φ π}
    (h : Serves deviceId ref c) (e : Event ε) :
    Follows y c (step y deviceId ref c e) ref e.act := by
  cases e with
  | received m body => exact follows_handlePairPacketTimed y _ m ref body c
  | request m => exact follows_requestPair y h.device m
  | accept m => exact follows_acceptPair y h.device m
  | reject m => exact follows_rejectPair y h.device m
  | unpair m => exact follows_unpair y h.device h.id m
  | lost =>
    exact follows_of_modify (SameCores.refl c) DeviceSession.markDisconnected
      (fun k => { k with disconnected := true }) (fun _ => rfl) .keep none rfl (SameCores.refl _)

omit [PluginHost π ε] in
/-- A step of the automaton keeps the session the device's current one. -/
theorem serves_of_follows {y : Yyjson} {deviceId : String} {ref : Nat}
    {c c' : KdeConnectClient φ π} {a : Act} (h : Serves deviceId ref c)
    (hf : Follows y c c' ref a) : Serves deviceId ref c' := by
  refine ⟨?_, ?_⟩
  · unfold KdeConnectClient.device
    rw [hf.sessions]
    exact h.device
  · have hinfo := congrArg Core.info hf.core
    rw [(move_info _ _).1] at hinfo
    exact (congrArg DeviceInfo.id hinfo).trans h.id

omit [PluginHost π ε] in
/-- It keeps the certificate, and the connection unless that is what ends. -/
theorem link_of_follows {y : Yyjson} {ref : Nat} {c c' : KdeConnectClient φ π} {a : Act}
    (hf : Follows y c c' ref a) (ha : a ≠ .lost) :
    (c'.heap ref).disconnected = (c.heap ref).disconnected ∧
      (c'.heap ref).certPem = (c.heap ref).certPem := by
  have hcert := (move_info (c.heap ref).core a).2
  have hdown := move_disconnected (c.heap ref).core ha
  rw [← hf.core] at hcert hdown
  exact ⟨hdown, hcert⟩

/-- The session stays the device's current one. -/
theorem step_serves (y : Yyjson) {deviceId : String} {ref : Nat} {c : KdeConnectClient φ π}
    (h : Serves deviceId ref c) (e : Event ε) : Serves deviceId ref (step y deviceId ref c e) :=
  serves_of_follows h (step_follows y h e)

/-- The pairing part of a session object. -/
def coreAt {φ π : Type} (ref : Nat) (c : KdeConnectClient φ π) : Core := (c.heap ref).core

/-- The pairing part after an event. -/
theorem coreAt_step (y : Yyjson) {deviceId : String} {ref : Nat} {c : KdeConnectClient φ π}
    (h : Serves deviceId ref c) (e : Event ε) :
    coreAt ref (step y deviceId ref c e) = move (coreAt ref c) e.act :=
  (step_follows y h e).core

/-- State and step properties of the automaton's run are those of the client's
run, seen through the session's pairing part. -/
theorem always_coreAt (y : Yyjson) {deviceId : String} {ref : Nat} {c : KdeConnectClient φ π}
    (h : Serves deviceId ref c) (Q : Core → Prop) (events : List (Event ε)) :
    Always move Q (coreAt ref c) (events.map Event.act) ↔
      Always (step y deviceId ref) (fun c => Q (coreAt ref c)) c events :=
  always_map (fun _ e hs => step_serves y hs e) (fun _ e hs => coreAt_step y hs e) h Q events

theorem everyStep_coreAt (y : Yyjson) {deviceId : String} {ref : Nat} {c : KdeConnectClient φ π}
    (h : Serves deviceId ref c) (Q : Core → Act → Prop) (events : List (Event ε)) :
    EveryStep move Q (coreAt ref c) (events.map Event.act) ↔
      EveryStep (step y deviceId ref) (fun c e => Q (coreAt ref c) e.act) c events :=
  everyStep_map (fun _ e hs => step_serves y hs e) (fun _ e hs => coreAt_step y hs e) h Q events

end Client

/-! ## The two fields that tell a pairing -/

/-- The flag and the pair state tell the same. -/
def Consistent (k : Core) : Prop := k.paired = true ↔ k.pairState = .paired

/-- As a new session is set up. -/
def Fresh (k : Core) : Prop := k.pairState = if k.paired then .paired else .notPaired

theorem consistent_of_fresh {k : Core} (h : Fresh k) : Consistent k := by
  unfold Fresh at h
  unfold Consistent
  cases hp : k.paired with
  | true =>
    rw [hp, if_pos rfl] at h
    exact iff_of_true rfl h
  | false =>
    rw [hp, if_neg Bool.false_ne_true] at h
    rw [h]
    exact iff_of_false (by simp) (by simp)

/-- The act is not a pair request in time for a paired session. -/
def NoRepeat (k : Core) (a : Act) : Prop :=
  ∀ timestamp, a = .heard true true timestamp → k.paired = false

theorem consistent_becomePaired (k : Core) : Consistent (becomePaired k) := iff_of_true rfl rfl

theorem consistent_becomeUnpaired (k : Core) : Consistent (becomeUnpaired k) :=
  iff_of_false (by simp) (by simp)

/-- From a consistent session exactly a pair request in time for a paired
session leads to an inconsistent one. -/
theorem consistent_move {k : Core} (h : Consistent k) (a : Act) :
    Consistent (move k a) ↔ NoRepeat k a := by
  cases a with
  | heard wants inTime timestamp =>
    cases wants with
    | false =>
      have hnone : NoRepeat k (.heard false inTime timestamp) := by
        intro t ht
        cases ht
      exact iff_of_true (consistent_becomeUnpaired k) hnone
    | true =>
      cases inTime with
      | false =>
        have hnone : NoRepeat k (.heard true false timestamp) := by
          intro t ht
          cases ht
        exact iff_of_true h hnone
      | true =>
        have hiff : NoRepeat k (.heard true true timestamp) ↔ k.paired = false := by
          constructor
          · intro hn
            exact hn timestamp rfl
          · intro hp t _
            exact hp
        rw [hiff]
        by_cases hstate : k.pairState = .requested
        · have hunpaired : k.paired = false := by
            rw [← Bool.not_eq_true]
            intro hp
            have hpaired := h.mp hp
            rw [hstate] at hpaired
            cases hpaired
          refine iff_of_true ?_ hunpaired
          simp only [move, react, Bool.true_eq_false, if_false, if_pos hstate]
          split
          · exact h
          · exact consistent_becomePaired k
        · simp only [move, react, Bool.true_eq_false, if_false, if_neg hstate, Consistent]
          constructor
          · intro hc
            rw [← Bool.not_eq_true]
            intro hp
            cases hc.mp hp
          · intro hp
            rw [hp]
            exact iff_of_false (by simp) (by simp)
  | request now =>
    refine iff_of_true ?_ (fun t ht => by cases ht)
    simp only [move, react]
    split
    · exact h
    · rename_i hblocked
      obtain ⟨hpaired, -⟩ := not_or.mp hblocked
      exact iff_of_false hpaired (by simp)
  | accept =>
    refine iff_of_true ?_ (fun t ht => by cases ht)
    simp only [move, react]
    split
    · exact h
    · exact consistent_becomePaired k
  | reject =>
    refine iff_of_true ?_ (fun t ht => by cases ht)
    simp only [move, react]
    split
    · exact h
    · exact consistent_becomeUnpaired k
  | unpair =>
    refine iff_of_true ?_ (fun t ht => by cases ht)
    simp only [move, react]
    split
    · exact consistent_becomeUnpaired k
    · split
      · exact h
      · exact consistent_becomeUnpaired k
  | lost => exact iff_of_true h (fun t ht => by cases ht)

section Client

variable {φ π ε : Type} [FileSystem φ] [PluginHost π ε]

/-- A pair request that reaches a paired session leaves the session and the
store as they are. -/
def RepeatIgnored (y : Yyjson) (deviceId : String) (ref : Nat) (c : KdeConnectClient φ π)
    (e : Event ε) : Prop :=
  ∀ m body, e = .received m body → body.valueBool "pair" false = true →
    (c.heap ref).paired = true →
    ((step y deviceId ref c e).heap ref).core = (c.heap ref).core ∧
      (step y deviceId ref c e).storage = c.storage

/-- The flag and the pair state agree all along a run, and repeated pair
requests change nothing, exactly when no pair request passes the clock-skew
test while the session is paired. -/
theorem consistent_run_iff (y : Yyjson) {deviceId : String} {ref : Nat}
    {c : KdeConnectClient φ π} (h : Serves deviceId ref c) (hfresh : Fresh (coreAt ref c))
    (events : List (Event ε)) :
    (Always (step y deviceId ref) (fun c => Consistent (coreAt ref c)) c events ∧
      EveryStep (step y deviceId ref) (RepeatIgnored y deviceId ref) c events) ↔
    EveryStep (step y deviceId ref) (fun c e => NoRepeat (coreAt ref c) e.act) c events := by
  have hstep : ∀ k a, Consistent k → (Consistent (move k a) ↔ NoRepeat k a) :=
    fun _ a hk => consistent_move hk a
  have hexact : Always move Consistent (coreAt ref c) (events.map Event.act) ↔
      EveryStep move NoRepeat (coreAt ref c) (events.map Event.act) :=
    always_iff_everyStep hstep (consistent_of_fresh hfresh) _
  rw [always_coreAt y h, everyStep_coreAt y h] at hexact
  rw [hexact]
  constructor
  · exact And.left
  · intro hok
    have hserves : ∀ (c : KdeConnectClient φ π) (e : Event ε), Serves deviceId ref c →
        NoRepeat (coreAt ref c) e.act → Serves deviceId ref (step y deviceId ref c e) :=
      fun _ e hs _ => step_serves y hs e
    refine ⟨hok, everyStep_of_inv hserves ?_ h hok⟩
    rintro c e hs hno m body rfl hwants hpaired
    have hlate : timely m.seconds (body.valueI64 "timestamp" 0) = false := by
      rw [← Bool.not_eq_true]
      intro htime
      have hunpaired := hno (body.valueI64 "timestamp" 0) (by rw [Event.act, hwants, htime])
      have hflag : (coreAt ref c).paired = (c.heap ref).paired := rfl
      rw [hflag, hpaired] at hunpaired
      cases hunpaired
    have hf := step_follows y hs (.received m body)
    have hstay : react (c.heap ref).core (Event.received m body).act =
        { core := (c.heap ref).core } := by
      rw [Event.act, hwants, hlate]
      rfl
    have hcore := hf.core
    have hstorage := hf.storage
    unfold move at hcore
    rw [hstay] at hcore hstorage
    exact ⟨hcore, hstorage⟩

end Client

/-! ## Consent -/

/-- Requests that wait for an answer: the own one, and the peer's. -/
structure Outstanding where
  own : Bool := false
  peer : Bool := false
  deriving DecidableEq

/-- The requests after an act. A request in time that completes the pairing
uses both up; a denial, a rejection and an end of the pairing cancel both. -/
def Outstanding.after (k : Core) (o : Outstanding) : Act → Outstanding
  | .heard true inTime timestamp =>
    if inTime = false then o
    else if k.paired = false ∧ (move k (.heard true inTime timestamp)).paired = true then {}
    else { o with peer := true }
  | .heard false _ _ => {}
  | .request now => if (react k (.request now)).sent.isSome then { o with own := true } else o
  | .accept => if (react k .accept).sent.isSome then {} else o
  | .reject => if (react k .reject).sent.isSome then {} else o
  | .unpair => if (react k .unpair).store = .remove then {} else o
  | .lost => o

/-- The act answers a request: the peer's answer to the own one, or the own
answer to the peer's. -/
def Answers (o : Outstanding) (a : Act) : Prop :=
  ((∃ inTime timestamp, a = .heard true inTime timestamp) ∧ o.own = true) ∨
    (a = .accept ∧ o.peer = true)

/-- The act pairs an unpaired session only as an answer, and accepts nothing
into the store that the peer does not ask for. -/
def Mutual (k : Core) (o : Outstanding) (a : Act) : Prop :=
  k.paired = false →
    ((move k a).paired = true → Answers o a) ∧
      (a = .accept → o.peer = false → (react k a).store = .keep)

/-- An acceptance that gets through finds the peer's request shown. -/
def AcceptsShown (k : Core) (a : Act) : Prop :=
  a = .accept → k.paired = false → k.disconnected = false → k.certPem.isEmpty = false →
    k.pairState = .requestedByPeer

/-- A pair state that shows a request has the request behind it. -/
structure Backed (k : Core) (o : Outstanding) : Prop where
  own : k.pairState = .requested → o.own = true
  peer : k.pairState = .requestedByPeer → o.peer = true

/-- The pair states that show no request. -/
theorem backed_of_quiet {k : Core} (o : Outstanding) (hown : k.pairState ≠ .requested)
    (hpeer : k.pairState ≠ .requestedByPeer) : Backed k o :=
  ⟨fun h => absurd h hown, fun h => absurd h hpeer⟩

theorem backed_becomePaired (k : Core) (o : Outstanding) : Backed (becomePaired k) o :=
  backed_of_quiet o (by simp) (by simp)

theorem backed_becomeUnpaired (k : Core) (o : Outstanding) : Backed (becomeUnpaired k) o :=
  backed_of_quiet o (by simp) (by simp)

/-- Every act keeps shown requests backed. -/
theorem backed_move {k : Core} {o : Outstanding} (h : Backed k o) (a : Act) :
    Backed (move k a) (o.after k a) := by
  cases a with
  | heard wants inTime timestamp =>
    cases wants with
    | false => exact backed_becomeUnpaired k {}
    | true =>
      cases inTime with
      | false => exact h
      | true =>
        by_cases hstate : k.pairState = .requested
        · by_cases hcert : k.certPem.isEmpty = true
          · have hmove : move k (.heard true true timestamp) = k := by
              simp only [move, react, Bool.true_eq_false, if_false, if_pos hstate, if_pos hcert]
            have hafter : o.after k (.heard true true timestamp) = { o with peer := true } := by
              simp only [Outstanding.after, hmove, Bool.true_eq_false, if_false]
              refine if_neg ?_
              rintro ⟨hunpaired, hpaired⟩
              rw [hunpaired] at hpaired
              cases hpaired
            rw [hmove, hafter]
            exact ⟨h.own, fun _ => rfl⟩
          · have hmove : move k (.heard true true timestamp) = becomePaired k := by
              simp only [move, react, Bool.true_eq_false, if_false, if_pos hstate, if_neg hcert]
            rw [hmove]
            exact backed_becomePaired k _
        · have hmove : move k (.heard true true timestamp) =
              { k with pairState := .requestedByPeer, pairingTimestamp := timestamp } := by
            simp only [move, react, Bool.true_eq_false, if_false, if_neg hstate]
          have hafter : o.after k (.heard true true timestamp) = { o with peer := true } := by
            simp only [Outstanding.after, hmove, Bool.true_eq_false, if_false]
            refine if_neg ?_
            rintro ⟨hunpaired, hpaired⟩
            rw [hunpaired] at hpaired
            cases hpaired
          rw [hmove, hafter]
          exact ⟨by simp, fun _ => rfl⟩
  | request now =>
    simp only [move, Outstanding.after, react]
    split
    · exact h
    · exact ⟨fun _ => rfl, by simp⟩
  | accept =>
    simp only [move, Outstanding.after, react]
    split
    · exact h
    · exact backed_becomePaired k _
  | reject =>
    simp only [move, Outstanding.after, react]
    split
    · exact h
    · exact backed_becomeUnpaired k _
  | unpair =>
    simp only [move, Outstanding.after, react]
    split
    · exact backed_becomeUnpaired k _
    · split
      · exact h
      · exact backed_becomeUnpaired k _
  | lost => exact ⟨h.own, h.peer⟩

/-- With shown requests backed, an act that accepts only what is shown pairs
only as an answer. -/
theorem mutual_of_backed {k : Core} {o : Outstanding} {a : Act} (h : Backed k o)
    (ha : AcceptsShown k a) : Mutual k o a := by
  intro hunpaired
  have hstays : ∀ k' : Core, k'.paired = k.paired → k'.paired = true → Answers o a := by
    intro k' hsame hpaired
    rw [hsame, hunpaired] at hpaired
    cases hpaired
  cases a with
  | heard wants inTime timestamp =>
    refine ⟨?_, by simp⟩
    cases wants with
    | false =>
      intro hpaired
      cases hpaired
    | true =>
      simp only [move, react]
      split
      · exact hstays k rfl
      · split
        · rename_i hstate
          intro _
          exact .inl ⟨⟨inTime, timestamp, rfl⟩, h.own hstate⟩
        · exact hstays _ rfl
  | request now =>
    refine ⟨?_, by simp⟩
    simp only [move, react]
    split <;> exact hstays _ rfl
  | accept =>
    by_cases hblocked : k.certPem.isEmpty = true ∨ k.disconnected = true
    · have hreact : react k .accept = { core := k } := if_pos hblocked
      refine ⟨?_, fun _ _ => by rw [hreact]⟩
      rw [move, hreact]
      exact hstays k rfl
    · obtain ⟨hcert, hdown⟩ := not_or.mp hblocked
      rw [Bool.not_eq_true] at hcert hdown
      have hpeer := h.peer (ha rfl hunpaired hdown hcert)
      refine ⟨fun _ => .inr ⟨rfl, hpeer⟩, ?_⟩
      intro _ hnone
      rw [hpeer] at hnone
      cases hnone
  | reject =>
    refine ⟨?_, by simp⟩
    simp only [move, react]
    split
    · exact hstays _ rfl
    · simp
  | unpair =>
    refine ⟨?_, by simp⟩
    simp only [move, react]
    split
    · simp
    · exact hstays _ rfl
  | lost =>
    refine ⟨?_, by simp⟩
    exact hstays _ rfl

section Client

variable {φ π ε : Type} [FileSystem φ] [PluginHost π ε]

/-- A session watched together with the requests outstanding at it. -/
def watch (y : Yyjson) (deviceId : String) (ref : Nat)
    (w : KdeConnectClient φ π × Outstanding) (e : Event ε) : KdeConnectClient φ π × Outstanding :=
  (step y deviceId ref w.1 e, w.2.after (coreAt ref w.1) e.act)

/-- At the client: an event pairs an unpaired session only as an answer to a
request, and an acceptance that answers none leaves the store as it is. -/
def Consented (y : Yyjson) (deviceId : String) (ref : Nat)
    (w : KdeConnectClient φ π × Outstanding) (e : Event ε) : Prop :=
  (w.1.heap ref).paired = false →
    (((step y deviceId ref w.1 e).heap ref).paired = true → Answers w.2 e.act) ∧
      (e.act = .accept → w.2.peer = false → (step y deviceId ref w.1 e).storage = w.1.storage)

/-- Pairing needs mutual consent in every run whose acceptances come while the
peer's request is shown. -/
theorem consented_of_acceptsShown (y : Yyjson) {deviceId : String} {ref : Nat}
    {c : KdeConnectClient φ π} (h : Serves deviceId ref c) (hfresh : Fresh (coreAt ref c))
    (events : List (Event ε))
    (hok : EveryStep (step y deviceId ref) (fun c e => AcceptsShown (coreAt ref c) e.act) c
      events) :
    EveryStep (watch y deviceId ref) (Consented y deviceId ref) (c, {}) events := by
  have hstart : Backed (coreAt ref c) {} := by
    unfold Fresh at hfresh
    refine backed_of_quiet {} ?_ ?_ <;> rw [hfresh] <;> split <;> simp
  have hall : ∀ (events : List (Event ε)) (c : KdeConnectClient φ π) (o : Outstanding),
      Serves deviceId ref c → Backed (coreAt ref c) o →
      EveryStep (step y deviceId ref) (fun c e => AcceptsShown (coreAt ref c) e.act) c events →
      EveryStep (watch y deviceId ref) (Consented y deviceId ref) (c, o) events := by
    intro events
    induction events with
    | nil => intros; trivial
    | cons e events ih =>
      intro c o hs hb hok
      have hcore := coreAt_step y hs e
      have hmutual := mutual_of_backed hb hok.1
      refine ⟨?_, ?_⟩
      · intro hunpaired
        obtain ⟨hpair, hstore⟩ := hmutual hunpaired
        refine ⟨?_, ?_⟩
        · intro hpaired
          refine hpair ?_
          rw [← hcore]
          exact hpaired
        · intro haccept hnone
          have hstorage := (step_follows y hs e).storage
          have hkeep := hstore haccept hnone
          unfold coreAt at hkeep
          rw [hkeep] at hstorage
          exact hstorage
      · have hb' := backed_move hb e.act
        rw [← hcore] at hb'
        exact ih _ _ (step_serves y hs e) hb' hok.2
  exact hall events c {} h hstart hok

end Client

/-- A client with one connected session and no plugins. -/
def oneSession (s : DeviceSession Empty) : KdeConnectClient MemoryFiles Empty where
  storage := ⟨"/config/kdeconnect", {}⟩
  localDevice := { id := "0a" }
  heap := fun _ => s
  sessions := [(s.info.id, 0)]

theorem oneSession_serves (s : DeviceSession Empty) : Serves s.info.id 0 (oneSession s) := by
  refine ⟨?_, rfl⟩
  unfold oneSession KdeConnectClient.device
  dsimp only
  rw [List.lookup_cons, beq_self_eq_true]

/-- A session with the phone, set up as paired or unpaired. -/
def phoneSession (paired : Bool) : DeviceSession Empty where
  info := { id := "5f0c", name := "Phone" }
  paired := paired
  pairState := if paired then .paired else .notPaired
  certPem := "phone certificate"

theorem phoneSession_fresh (paired : Bool) : Fresh (coreAt 0 (oneSession (phoneSession paired))) :=
  rfl

/-- The clock at some second. -/
def atSecond (s : Int64) : Moment Unit := ⟨s * 1000000000, ()⟩

/-- A pair request without a time stamp. -/
def plainRequest : JsonBody := ({} : JsonBody).setBool "pair" true

/-- A paired peer repeats its pair request: the session is then shown as
having a request of the peer pending, and is still paired. -/
theorem inconsistent_repeat :
    ¬ ∀ events : List (Event Unit),
      Always (step Yyjson.reference "5f0c" 0) (fun c => Consistent (coreAt 0 c))
        (oneSession (phoneSession true)) events := by
  intro h
  have hlast := (h [.received (atSecond 5000) plainRequest]).last
  have hcore : coreAt 0 (run (step Yyjson.reference "5f0c" 0) (oneSession (phoneSession true))
      [.received (atSecond 5000) plainRequest]) =
      { (phoneSession true).core with pairState := .requestedByPeer } := rfl
  rw [hcore] at hlast
  cases hlast.mp rfl

/-- A pairing completed by the peer's acceptance and ended by the user. -/
theorem consistent_run_phone :
    Always (step Yyjson.reference "5f0c" 0) (fun c => Consistent (coreAt 0 c))
      (oneSession (phoneSession false))
      [.request (atSecond 5000), .received (atSecond 5000) plainRequest,
        .unpair (atSecond 5000)] ∧
      EveryStep (step Yyjson.reference "5f0c" 0) (RepeatIgnored Yyjson.reference "5f0c" 0)
      (oneSession (phoneSession false))
      [.request (atSecond 5000), .received (atSecond 5000) plainRequest,
        .unpair (atSecond 5000)] := by
  have hserves := oneSession_serves (phoneSession false)
  refine (consistent_run_iff Yyjson.reference hserves (phoneSession_fresh false) _).mpr ?_
  refine ⟨?_, ?_, ?_, trivial⟩
  · intro t ht
    cases ht
  · intro t _
    rfl
  · intro t ht
    cases ht

/-- The peer asks, withdraws, and the user accepts what is gone. -/
def lateAccept : List (Event Unit) :=
  [.received (atSecond 5000) plainRequest,
    .received (atSecond 5001) (({} : JsonBody).setBool "pair" false), .accept (atSecond 5002)]

/-- The withdrawn request is accepted: the session is paired without an answer
to any request. -/
theorem notConsented_lateAccept :
    ¬ ∀ events : List (Event Unit),
      EveryStep (watch Yyjson.reference "5f0c" 0) (Consented Yyjson.reference "5f0c" 0)
        (oneSession (phoneSession false), {}) events := by
  intro h
  obtain ⟨-, -, hlast, -⟩ := h lateAccept
  obtain ⟨hanswers, -⟩ := hlast rfl
  rcases hanswers rfl with ⟨⟨inTime, timestamp, hact⟩, -⟩ | ⟨-, hpeer⟩
  · cases hact
  · cases hpeer

/-- A request of the peer, accepted while it is shown. -/
theorem consented_phone :
    EveryStep (watch Yyjson.reference "5f0c" 0) (Consented Yyjson.reference "5f0c" 0)
      (oneSession (phoneSession false), {})
      [.received (atSecond 5000) plainRequest, .accept (atSecond 5002)] := by
  have hserves := oneSession_serves (phoneSession false)
  refine consented_of_acceptsShown Yyjson.reference hserves (phoneSession_fresh false) _ ?_
  refine ⟨?_, ?_, trivial⟩
  · intro hact
    cases hact
  · intro _ _ _ _
    rfl

end KdeConnectNx.PairingRuns
