import KdeConnectNx.PairingExchange

/-!
# Agreement of the two ends of a pairing

Two ends joined by one queue of pair packets each way. What one end has said
last, or shows once that has arrived, answers for its pairing unless a denial
is still on its way to it. The invariant is stated over the pairing automata
and carried to two clients of the code through their pairing parts.
-/

namespace KdeConnectNx.PairingAgreement

open PacketBody PacketFormat LineReader PairedFiles Sessions Pairing PairingRuns PairingExchange
  Runs

/-- The two ends. -/
inductive Side where
  | left
  | right
  deriving DecidableEq, Repr

/-- The opposite end. -/
def Side.other : Side → Side
  | .left => .right
  | .right => .left

/-- The other side of the other side. -/
@[simp] theorem Side.other_other (s : Side) : s.other.other = s := by cases s <;> rfl

/-- The two sides are different. -/
theorem Side.other_ne (s : Side) : s.other ≠ s := by cases s <;> decide

/-- The same the other way. -/
theorem Side.ne_other (s : Side) : s ≠ s.other := by cases s <;> decide

/-- One of two ends is the given one or the opposite one. -/
theorem Side.eq_or_other (s t : Side) : t = s ∨ t = s.other := by
  cases s <;> cases t <;> simp [Side.other]

/-! ## Two automata and the packets between them -/

/-- The pairing parts of both ends, and what each has said and the other not
yet heard: the `pair` member and the time stamp of each packet. -/
structure Ends where
  core : Side → Core
  wire : Side → List (Bool × Int64)

/-- An end acts on its own, or hears the next packet. -/
inductive Turn where
  | act (s : Side) (a : Act) (stamp : Int64)
  | hear (s : Side)

/-- One turn; every pair request heard counts as in time. -/
def Ends.step (l : Ends) : Turn → Ends
  | .act s a stamp =>
    { core := Function.update l.core s (move (l.core s) a)
      wire := Function.update l.wire s
        (l.wire s ++ ((react (l.core s) a).sent.map (·, stamp)).toList) }
  | .hear s =>
    match l.wire s.other with
    | [] => l
    | (wants, stamp) :: rest =>
      { core := Function.update l.core s (move (l.core s) (.heard wants true stamp))
        wire := Function.update l.wire s.other rest }

/-- The end is paired or waits for an answer to its request. -/
def Up (k : Core) : Prop := k.paired = true ∨ k.pairState = .requested

/-- The end shows a pairing or a request. -/
def Shows (k : Core) : Prop := k.paired = true ∨ k.pairState ≠ .notPaired

/-- Where a talk has led: its last packet, or what the hearer shows when all
has arrived. -/
def Upheld (wire : List (Bool × Int64)) (hearer : Core) : Prop :=
  match wire.getLast? with
  | some packet => packet.1 = true
  | none => Shows hearer

/-- A denial is on its way. -/
def DenialComing (wire : List (Bool × Int64)) : Prop := ∃ packet ∈ wire, packet.1 = false

/-- An end that is up is upheld at the other one, or about to be denied. -/
def Backed (l : Ends) (s : Side) : Prop :=
  Up (l.core s) → DenialComing (l.wire s.other) ∨ Upheld (l.wire s) (l.core s.other)

/-- Both ends know the other's certificate. -/
def Known (l : Ends) : Prop := ∀ s, (l.core s).certPem.isEmpty = false

/-- The acts an end makes on its own while it is connected. -/
def Local (k : Core) : Act → Prop
  | .request _ | .accept | .reject | .unpair => k.disconnected = false
  | _ => False

/-- Whether a pairing is upheld is decided by the last packet. -/
theorem upheld_concat (wire : List (Bool × Int64)) (packet : Bool × Int64) (hearer : Core) :
    Upheld (wire ++ [packet]) hearer ↔ packet.1 = true := by
  unfold Upheld
  rw [List.getLast?_concat]

/-- The rest of a talk leads where the whole led; at its end the hearer has to
show it. -/
theorem upheld_tail {packet : Bool × Int64} {rest : List (Bool × Int64)} {hearer hearer' : Core}
    (h : Upheld (packet :: rest) hearer) (hshow : packet.1 = true → Shows hearer') :
    Upheld rest hearer' := by
  unfold Upheld at h ⊢
  cases rest with
  | nil => exact hshow h
  | cons next rest => exact h

/-- A denial that is coming still comes with more behind it. -/
theorem denialComing_append {wire more : List (Bool × Int64)} (h : DenialComing wire) :
    DenialComing (wire ++ more) := by
  obtain ⟨packet, hm, hp⟩ := h
  exact ⟨packet, List.mem_append_left more hm, hp⟩

/-- It still comes when a packet before it was heard. -/
theorem denialComing_tail {packet : Bool × Int64} {rest : List (Bool × Int64)}
    (h : DenialComing (packet :: rest)) (hp : packet.1 = true) : DenialComing rest := by
  obtain ⟨denial, hm, hd⟩ := h
  rcases List.mem_cons.mp hm with rfl | hm
  · rw [hp] at hd
    cases hd
  · exact ⟨denial, hm, hd⟩

/-- What an end does on its own: nothing, or it asks or accepts and is up, or
it denies and is down. -/
theorem local_cases {k : Core} {a : Act} (ha : Local k a) (hknown : k.certPem.isEmpty = false) :
    (react k a = { core := k }) ∨
    ((react k a).sent = some true ∧ Shows (move k a)) ∨
    ((react k a).sent = some false ∧ ¬ Up (move k a)) := by
  have hdenied : ¬ Up (becomeUnpaired k) := by
    rintro (h | h) <;> cases h
  cases a with
  | heard wants inTime timestamp => exact absurd ha not_false
  | lost => exact absurd ha not_false
  | request now =>
    have hopen : k.disconnected = false := ha
    by_cases hpaired : k.paired = true
    · exact .inl (if_pos (.inl hpaired))
    · right; left
      have hreact : react k (.request now) =
          { core := { k with pairState := .requested, pairingTimestamp := now }
            sent := some true } := by
        refine if_neg ?_
        rw [hopen]
        exact not_or.mpr ⟨hpaired, Bool.false_ne_true⟩
      rw [move, hreact]
      exact ⟨rfl, .inr (by simp)⟩
  | accept =>
    have hopen : k.disconnected = false := ha
    right; left
    have hreact : react k .accept =
        { core := becomePaired k, store := .save, sent := some true } := by
      refine if_neg ?_
      rw [hknown, hopen]
      exact not_or.mpr ⟨Bool.false_ne_true, Bool.false_ne_true⟩
    rw [move, hreact]
    exact ⟨rfl, .inl rfl⟩
  | reject =>
    have hopen : k.disconnected = false := ha
    right; right
    have hreact : react k .reject =
        { core := becomeUnpaired k, store := .remove, sent := some false } := by
      refine if_neg ?_
      rw [hopen]
      exact Bool.false_ne_true
    rw [move, hreact]
    exact ⟨rfl, hdenied⟩
  | unpair =>
    have hopen : ¬ k.disconnected = true := by
      have h : k.disconnected = false := ha
      rw [h]
      exact Bool.false_ne_true
    by_cases hpaired : k.paired = false
    · exact .inl ((if_neg hopen).trans (if_pos hpaired))
    · right; right
      have hreact : react k .unpair =
          { core := becomeUnpaired k, store := .remove, sent := some false } :=
        (if_neg hopen).trans (if_neg hpaired)
      rw [move, hreact]
      exact ⟨rfl, hdenied⟩

/-- Hearing a request in time: an end that was up stays up, no other becomes
so, and the request shows. -/
theorem heard_true (k : Core) (stamp : Int64) (hknown : k.certPem.isEmpty = false) :
    (Up (move k (.heard true true stamp)) → Up k) ∧ Shows (move k (.heard true true stamp)) := by
  by_cases hstate : k.pairState = .requested
  · have hmove : move k (.heard true true stamp) = becomePaired k := by
      simp only [move, react, Bool.true_eq_false, if_false, if_pos hstate, hknown,
        Bool.false_eq_true]
    rw [hmove]
    exact ⟨fun _ => .inr hstate, .inl rfl⟩
  · have hmove : move k (.heard true true stamp) =
        { k with pairState := .requestedByPeer, pairingTimestamp := stamp } := by
      simp only [move, react, Bool.true_eq_false, if_false, if_neg hstate]
    rw [hmove]
    refine ⟨?_, .inr (by simp)⟩
    rintro (h | h)
    · exact .inl h
    · cases h

section Turns

variable {l : Ends} (s : Side)

/-- The side that acts moves. -/
theorem act_core (a : Act) (stamp : Int64) :
    (l.step (.act s a stamp)).core s = move (l.core s) a := Function.update_self ..

/-- The other one stays. -/
theorem act_core_other (a : Act) (stamp : Int64) :
    (l.step (.act s a stamp)).core s.other = l.core s.other :=
  Function.update_of_ne s.other_ne ..

/-- What it sends goes behind what is on its wire. -/
theorem act_wire (a : Act) (stamp : Int64) :
    (l.step (.act s a stamp)).wire s =
      l.wire s ++ ((react (l.core s) a).sent.map (·, stamp)).toList := Function.update_self ..

/-- The other wire stays. -/
theorem act_wire_other (a : Act) (stamp : Int64) :
    (l.step (.act s a stamp)).wire s.other = l.wire s.other :=
  Function.update_of_ne s.other_ne ..

/-- On an empty wire nothing is heard. -/
theorem hear_nothing (hwire : l.wire s.other = []) : l.step (.hear s) = l := by
  simp only [Ends.step, hwire]

variable {s} {wants : Bool} {stamp : Int64} {rest : List (Bool × Int64)}

/-- The first packet is heard, and off the wire. -/
theorem hear_packet (hwire : l.wire s.other = (wants, stamp) :: rest) :
    l.step (.hear s) =
      { core := Function.update l.core s (move (l.core s) (.heard wants true stamp))
        wire := Function.update l.wire s.other rest } := by
  simp only [Ends.step, hwire]

/-- The side that hears moves. -/
theorem hear_core (hwire : l.wire s.other = (wants, stamp) :: rest) :
    (l.step (.hear s)).core s = move (l.core s) (.heard wants true stamp) := by
  rw [hear_packet hwire]
  exact Function.update_self ..

/-- The other one stays. -/
theorem hear_core_other (hwire : l.wire s.other = (wants, stamp) :: rest) :
    (l.step (.hear s)).core s.other = l.core s.other := by
  rw [hear_packet hwire]
  exact Function.update_of_ne s.other_ne ..

/-- Nothing is sent on hearing. -/
theorem hear_wire (hwire : l.wire s.other = (wants, stamp) :: rest) :
    (l.step (.hear s)).wire s = l.wire s := by
  rw [hear_packet hwire]
  exact Function.update_of_ne s.ne_other ..

/-- The rest stays on the wire. -/
theorem hear_wire_other (hwire : l.wire s.other = (wants, stamp) :: rest) :
    (l.step (.hear s)).wire s.other = rest := by
  rw [hear_packet hwire]
  exact Function.update_self ..

/-- An end that acts on its own is backed: what it has asked is under way. -/
theorem backed_act_self (h : Backed l s) (hknown : Known l) {a : Act} (ha : Local (l.core s) a)
    (stamp : Int64) : Backed (l.step (.act s a stamp)) s := by
  unfold Backed
  rw [act_core, act_core_other, act_wire, act_wire_other]
  rcases local_cases ha (hknown s) with hstay | ⟨hsent, -⟩ | ⟨-, hdown⟩
  · rw [move, hstay, Option.map_none, Option.toList_none, List.append_nil]
    exact h
  · intro _
    rw [hsent]
    exact .inr ((upheld_concat _ _ _).mpr rfl)
  · intro hup
    exact absurd hup hdown

/-- The opposite end is backed too: the acting end still shows what was asked,
or its denial is under way. -/
theorem backed_act_other (h : Backed l s.other) (hknown : Known l) {a : Act}
    (ha : Local (l.core s) a) (stamp : Int64) :
    Backed (l.step (.act s a stamp)) s.other := by
  unfold Backed
  rw [Side.other_other, act_core, act_core_other, act_wire, act_wire_other]
  intro hup
  have hbefore := h hup
  rw [Side.other_other] at hbefore
  rcases local_cases ha (hknown s) with hstay | ⟨-, hshows⟩ | ⟨hsent, -⟩
  · rw [move, hstay, Option.map_none, Option.toList_none, List.append_nil]
    exact hbefore
  · refine hbefore.imp denialComing_append ?_
    intro hupheld
    unfold Upheld at hupheld ⊢
    cases hlast : (l.wire s.other).getLast? with
    | none => exact hshows
    | some packet =>
      rw [hlast] at hupheld
      exact hupheld
  · rw [hsent]
    exact .inl ⟨(false, stamp), List.mem_append_right _ List.mem_cons_self, rfl⟩

/-- An end that hears a packet is backed: after a denial it is down, and a
request does not bring it up. -/
theorem backed_hear_self (h : Backed l s) (hknown : Known l)
    (hwire : l.wire s.other = (wants, stamp) :: rest) : Backed (l.step (.hear s)) s := by
  unfold Backed
  rw [hear_core hwire, hear_core_other hwire, hear_wire hwire, hear_wire_other hwire]
  intro hup
  cases wants with
  | false => rcases hup with hup | hup <;> cases hup
  | true =>
    have hbefore := h ((heard_true (l.core s) stamp (hknown s)).1 hup)
    rw [hwire] at hbefore
    exact hbefore.imp_left fun hd => denialComing_tail hd rfl

/-- The end that has been heard is backed by the rest of its talk. -/
theorem backed_hear_other (h : Backed l s.other) (hknown : Known l)
    (hwire : l.wire s.other = (wants, stamp) :: rest) : Backed (l.step (.hear s)) s.other := by
  unfold Backed
  rw [Side.other_other, hear_core hwire, hear_core_other hwire, hear_wire hwire,
    hear_wire_other hwire]
  intro hup
  have hbefore := h hup
  rw [Side.other_other, hwire] at hbefore
  refine hbefore.imp_right fun hu => upheld_tail hu ?_
  intro hwants
  dsimp only at hwants
  subst hwants
  exact (heard_true (l.core s) stamp (hknown s)).2

end Turns

/-- Every turn keeps both ends backed. -/
theorem backed_step {l : Ends} (h : ∀ s, Backed l s) (hknown : Known l) (t : Turn)
    (ht : ∀ s a stamp, t = .act s a stamp → Local (l.core s) a) :
    ∀ s, Backed (l.step t) s := by
  intro side
  cases t with
  | act s a stamp =>
    have ha := ht s a stamp rfl
    rcases Side.eq_or_other s side with rfl | rfl
    · exact backed_act_self (h _) hknown ha stamp
    · exact backed_act_other (h _) hknown ha stamp
  | hear s =>
    cases hwire : l.wire s.other with
    | nil =>
      rw [hear_nothing s hwire]
      exact h side
    | cons packet rest =>
      obtain ⟨wants, stamp⟩ := packet
      rcases Side.eq_or_other s side with rfl | rfl
      · exact backed_hear_self (h _) hknown hwire
      · exact backed_hear_other (h _) hknown hwire

/-- Nothing is under way and no request is pending. -/
def Quiet (l : Ends) : Prop :=
  ∀ s, l.wire s = [] ∧ ((l.core s).paired = true ∨ (l.core s).pairState = .notPaired)

/-- Backed ends that are quiet agree. -/
theorem agree_of_backed {l : Ends} (h : ∀ s, Backed l s) (hquiet : Quiet l) :
    (l.core .left).paired = (l.core .right).paired := by
  have hcarries : ∀ s, (l.core s).paired = true → (l.core s.other).paired = true := by
    intro s hpaired
    obtain ⟨hwire, -⟩ := hquiet s
    obtain ⟨hback, hstate⟩ := hquiet s.other
    have hbacked := h s (.inl hpaired)
    rw [hwire, hback] at hbacked
    rcases hbacked with ⟨packet, hm, -⟩ | hshows
    · cases hm
    · rcases hstate with hp | hnot
      · exact hp
      · exact hshows.resolve_right fun hne => hne hnot
  rw [Bool.eq_iff_iff]
  exact ⟨hcarries .left, hcarries .right⟩

/-! ## Two clients of the code -/

/-- Which device is at which end, and where its client holds the session with
the other. -/
structure Places where
  ids : Side → String
  refs : Side → Nat

/-- The clients of both ends, and the pair packets each has sent and the other
not yet read. -/
structure Link (φ π : Type) where
  client : Side → KdeConnectClient φ π
  wire : Side → List Outgoing

/-- The local pairing operations. -/
inductive Op where
  | request
  | accept
  | reject
  | unpair
  deriving DecidableEq, Repr

def Op.event {ε : Type} (m : Moment ε) : Op → Event ε
  | .request => .request m
  | .accept => .accept m
  | .reject => .reject m
  | .unpair => .unpair m

/-- An operation at an end, or the arrival of the next packet there. -/
inductive Move (ε : Type) where
  | act (s : Side) (op : Op) (m : Moment ε)
  | arrive (s : Side) (m : Moment ε)

section Link

variable {φ π ε : Type} [FileSystem φ] [PluginHost π ε]

/-- A pair packet is read, its clock-skew test taken as passed. -/
def heard (y : Yyjson) (m : Moment ε) (ref : Nat) (o : Outgoing) (c : KdeConnectClient φ π) :
    KdeConnectClient φ π :=
  match NetworkPacket.parse y (o.text y).dropLast with
  | none => c
  | some pkt => handlePairPacketTimed y true m ref pkt.body c

/-- One move of the two clients. -/
def Link.step (y : Yyjson) (p : Places) (l : Link φ π) : Move ε → Link φ π
  | .act s op m =>
    let after := PairingRuns.step y (p.ids s.other) (p.refs s) (l.client s) (op.event m)
    { client := Function.update l.client s after
      wire := Function.update l.wire s
        (l.wire s ++ (newPair ((l.client s).heap (p.refs s)) (after.heap (p.refs s))).toList) }
  | .arrive s m =>
    match l.wire s.other with
    | [] => l
    | o :: rest =>
      { client := Function.update l.client s (heard y m (p.refs s) o (l.client s))
        wire := Function.update l.wire s.other rest }

/-- An end holds a connected session to the other, whose certificate it knows,
and its packets under way are texts the other can read. -/
structure Joined (p : Places) (l : Link φ π) (s : Side) : Prop where
  serves : Serves (p.ids s.other) (p.refs s) (l.client s)
  connected : ((l.client s).heap (p.refs s)).disconnected = false
  cert : ((l.client s).heap (p.refs s)).certPem.isEmpty = false
  readable : ∀ o ∈ l.wire s, NulFree o.packet.type ∧ o.packet.body.realFree = true

/-- What a pair packet says. -/
def mark (o : Outgoing) : Bool × Int64 :=
  (o.packet.body.valueBool "pair" false, o.packet.body.valueI64 "timestamp" 0)

/-- The automata behind two clients. -/
def Link.ends (p : Places) (l : Link φ π) : Ends where
  core := fun s => coreAt (p.refs s) (l.client s)
  wire := fun s => (l.wire s).map mark

/-- The time stamp an operation sends. -/
def Op.stamp (m : Moment ε) : Op → Int64
  | .request => m.seconds
  | .accept => m.millis
  | .reject => 0
  | .unpair => 0

/-- The automata's turn of a move. -/
def Move.turn : Move ε → Turn
  | .act s op m => .act s (op.event m).act (op.stamp m)
  | .arrive s _ => .hear s

/-- What a pair packet says. -/
theorem mark_pairPacket (millis timestamp : Int64) :
    mark ⟨millis, pairPacket timestamp⟩ = (true, timestamp) := by
  obtain ⟨hpair, hstamp⟩ := pairPacket_body timestamp
  unfold NetworkPacket.received at hpair hstamp
  rw [JsonBody.valueBool_canon] at hpair
  rw [JsonBody.valueI64_canon] at hstamp
  exact Prod.ext hpair hstamp

/-- What a denial says. -/
theorem mark_unpairPacket (millis : Int64) : mark ⟨millis, unpairPacket⟩ = (false, 0) := by
  have hpair : unpairPacket.body.field "pair" = some (.bool false) :=
    JsonBody.field_setVal_self _ _ _
  have hstamp : unpairPacket.body.field "timestamp" = none := by
    unfold unpairPacket JsonBody.setBool
    dsimp only
    rw [JsonBody.field_setVal_ne (by decide), JsonBody.field_empty]
  unfold mark JsonBody.valueBool JsonBody.valueI64
  dsimp only
  rw [hpair, hstamp]
  rfl

/-- The packet an operation is to send. -/
def packetOf (wants : Bool) (stamp : Int64) : NetworkPacket :=
  if wants then pairPacket stamp else unpairPacket

/-- What is sent says what the pairing part was to send. -/
theorem mark_packetOf (millis : Int64) (op : Op) (m : Moment ε) (k : Core) (wants : Bool)
    (h : (react k (op.event m).act).sent = some wants) :
    mark ⟨millis, packetOf wants (op.stamp m)⟩ = (wants, op.stamp m) := by
  cases wants with
  | true => exact mark_pairPacket millis _
  | false =>
    have hstamp : op.stamp m = 0 := by
      cases op with
      | request =>
        simp only [Op.event, Event.act, react] at h
        split at h <;> cases h
      | accept =>
        simp only [Op.event, Event.act, react] at h
        split at h <;> cases h
      | reject => rfl
      | unpair => rfl
    rw [hstamp]
    exact mark_unpairPacket millis

omit [FileSystem φ] [PluginHost π ε] in
/-- Nothing is sent where the session stays the same. -/
theorem newPair_self (s : DeviceSession π) : newPair s s = none := by
  unfold newPair
  rw [List.drop_length]
  rfl

omit [FileSystem φ] [PluginHost π ε] in
/-- Ending the pairing puts the packet that says so on the queue. -/
theorem newPair_unpairPacket {deviceId : String} {ref : Nat} {c : KdeConnectClient φ π}
    (h : c.device deviceId = some ref) (hopen : (c.heap ref).disconnected = false)
    (m : Moment ε) (storage : Storage φ) :
    newPair (c.heap ref) (((KdeConnectClient.modify
      (KdeConnectClient.sendPacket m deviceId unpairPacket c).2 ref
        DeviceSession.markUnpaired).setStorage storage).heap ref) =
      some ⟨m.millis, unpairPacket⟩ := by
  have hqueue := KdeConnectClient.sendPacket_queue h hopen m unpairPacket
  refine newPair_of_prefix rfl ?_
  change _ <+: ((KdeConnectClient.modify _ ref _).heap ref).sendQueue
  rw [KdeConnectClient.modify_heap_self, ← hqueue]
  exact List.prefix_rfl

/-- The pair packet an operation puts on the queue is the automaton's. -/
theorem newPair_step (y : Yyjson) {deviceId : String} {ref : Nat} {c : KdeConnectClient φ π}
    (h : Serves deviceId ref c) (hopen : (c.heap ref).disconnected = false)
    (hcert : (c.heap ref).certPem.isEmpty = false) (op : Op) (m : Moment ε) :
    newPair (c.heap ref) ((PairingRuns.step y deviceId ref c (op.event m)).heap ref) =
      (react (coreAt ref c) (op.event m).act).sent.map fun wants =>
        ⟨m.millis, packetOf wants (op.stamp m)⟩ := by
  have hdown : (coreAt ref c).disconnected = false := hopen
  cases op with
  | request =>
    cases hpaired : (c.heap ref).paired with
    | true =>
      have hreact : react (coreAt ref c) (.request m.seconds) = { core := coreAt ref c } :=
        if_pos (.inl hpaired)
      simp only [Op.event, Event.act, PairingRuns.step, requestPair, h.device, hpaired, if_true,
        hreact, newPair_self, Option.map_none]
    | false =>
      have hfree : (coreAt ref c).paired = false := hpaired
      have hsent : (react (coreAt ref c) (.request m.seconds)).sent = some true := by
        simp only [react, hfree, hdown, Bool.false_eq_true, or_self, if_false]
      simp only [Op.event, Event.act, PairingRuns.step, hsent,
        newPair_requestPair h.device hopen hpaired m, Option.map_some]
      rfl
  | accept =>
    have hknown : (coreAt ref c).certPem.isEmpty = false := hcert
    have hsent : (react (coreAt ref c) .accept).sent = some true := by
      simp only [react, hknown, hdown, Bool.false_eq_true, or_self, if_false]
    simp only [Op.event, Event.act, PairingRuns.step, hsent,
      newPair_acceptPair y h.device hopen hcert m, Option.map_some]
    rfl
  | reject =>
    have hsent : (react (coreAt ref c) .reject).sent = some false := by
      simp only [react, hdown, Bool.false_eq_true, if_false]
    have hfst := KdeConnectClient.sendPacket_fst h.device m unpairPacket
    rw [hopen, Bool.not_false] at hfst
    simp only [Op.event, Event.act, PairingRuns.step, hsent, rejectPair, h.device, hfst, if_true,
      newPair_unpairPacket h.device hopen m, Option.map_some]
    rfl
  | unpair =>
    cases hpaired : (c.heap ref).paired with
    | false =>
      have hfree : (coreAt ref c).paired = false := hpaired
      have hreact : (react (coreAt ref c) .unpair).sent = none := by
        simp only [react, hdown, hfree, Bool.false_eq_true, if_false, if_true]
      simp only [Op.event, Event.act, PairingRuns.step, unpair, h.device, hopen, hpaired,
        Bool.false_eq_true, if_false, Bool.not_false, if_true, hreact, newPair_self,
        Option.map_none]
    | true =>
      have hlinked : (coreAt ref c).paired = true := hpaired
      have hsent : (react (coreAt ref c) .unpair).sent = some false := by
        simp only [react, hdown, hlinked, Bool.false_eq_true, if_false, Bool.true_eq_false]
      have hfst := KdeConnectClient.sendPacket_fst h.device m unpairPacket
      rw [hopen, Bool.not_false] at hfst
      simp only [Op.event, Event.act, PairingRuns.step, unpair, h.device, hopen, hpaired,
        Bool.false_eq_true, if_false, Bool.not_true, if_true, hfst, hsent,
        newPair_unpairPacket h.device hopen m, Option.map_some]
      rfl

omit [FileSystem φ] [PluginHost π ε] in
/-- The automata behind two clients of which one and one wire are replaced. -/
theorem ends_update (p : Places) (l : Link φ π) (s t : Side) (c : KdeConnectClient φ π)
    (wire : List Outgoing) :
    Link.ends p ⟨Function.update l.client s c, Function.update l.wire t wire⟩ =
      { core := Function.update (l.ends p).core s (coreAt (p.refs s) c)
        wire := Function.update (l.ends p).wire t (wire.map mark) } := by
  have hcore : (fun u => coreAt (p.refs u) (Function.update l.client s c u)) =
      Function.update (fun u => coreAt (p.refs u) (l.client u)) s (coreAt (p.refs s) c) :=
    funext fun u => Function.apply_update (fun u c => coreAt (p.refs u) c) l.client s c u
  have hwire : (fun u => (Function.update l.wire t wire u).map mark) =
      Function.update (fun u => (l.wire u).map mark) t (wire.map mark) :=
    funext fun u => Function.apply_update (fun _ w => List.map mark w) l.wire t wire u
  unfold Link.ends
  rw [hcore, hwire]

/-- A pair packet that arrives makes the automaton hear it. -/
theorem follows_heard {y : Yyjson} (hy : y.Lawful) (m : Moment ε) (ref : Nat) {o : Outgoing}
    (hnul : NulFree o.packet.type) (hfree : o.packet.body.realFree = true)
    (c : KdeConnectClient φ π) :
    Follows y c (heard y m ref o c) ref (.heard (mark o).1 true (mark o).2) := by
  have hf := follows_handlePairPacketTimed y true m ref o.packet.received.body c
  unfold NetworkPacket.received at hf
  rw [JsonBody.valueBool_canon, JsonBody.valueI64_canon] at hf
  unfold heard
  rw [parse_text hy hnul hfree]
  exact hf

/-- The moves of two joined clients are the turns of their automata. -/
theorem ends_step {y : Yyjson} (hy : y.Lawful) {p : Places} {l : Link φ π}
    (h : ∀ s, Joined p l s) (e : Move ε) :
    (l.step y p e).ends p = (l.ends p).step e.turn := by
  cases e with
  | act s op m =>
    have hj := h s
    have hcore := coreAt_step y hj.serves (op.event m)
    have hnew := newPair_step y hj.serves hj.connected hj.cert op m
    unfold Link.step
    dsimp only
    rw [ends_update, hnew, hcore, List.map_append]
    have hmarks : ((react (coreAt (p.refs s) (l.client s)) (op.event m).act).sent.map fun wants =>
          (⟨m.millis, packetOf wants (op.stamp m)⟩ : Outgoing)).toList.map mark =
        ((react (coreAt (p.refs s) (l.client s)) (op.event m).act).sent.map
          (·, op.stamp m)).toList := by
      cases hsent : (react (coreAt (p.refs s) (l.client s)) (op.event m).act).sent with
      | none => rfl
      | some wants =>
        rw [Option.map_some, Option.map_some, Option.toList_some, Option.toList_some,
          List.map_singleton, mark_packetOf m.millis op m _ wants hsent]
    rw [hmarks]
    rfl
  | arrive s m =>
    cases hwire : l.wire s.other with
    | nil =>
      have hends : (l.ends p).wire s.other = [] := by
        change (l.wire s.other).map mark = []
        rw [hwire]
        rfl
      simp only [Link.step, hwire, Move.turn, Ends.step, hends]
    | cons o rest =>
      have hends : (l.ends p).wire s.other = mark o :: rest.map mark := by
        change (l.wire s.other).map mark = _
        rw [hwire]
        rfl
      have ho := (h s.other).readable o (by rw [hwire]; exact List.mem_cons_self)
      have hf := follows_heard hy m (p.refs s) ho.1 ho.2 (l.client s)
      simp only [Link.step, hwire, Move.turn, Ends.step, hends]
      rw [ends_update]
      have hcore : coreAt (p.refs s) (heard y m (p.refs s) o (l.client s)) =
          move (coreAt (p.refs s) (l.client s)) (.heard (mark o).1 true (mark o).2) := hf.core
      rw [hcore]
      rfl

/-- Pair packets have no NUL and no floating-point number. -/
theorem packetOf_readable (wants : Bool) (stamp : Int64) :
    NulFree (packetOf wants stamp).type ∧ (packetOf wants stamp).body.realFree = true := by
  have hnul : NulFree PacketTypes.pair := by decide
  cases wants with
  | true => exact ⟨hnul, rfl⟩
  | false => exact ⟨hnul, rfl⟩

omit [PluginHost π ε] in
/-- An end that makes a step of the automaton stays joined, its packets under
way readable. -/
theorem joined_of_follows {y : Yyjson} {p : Places} {l l' : Link φ π} {s : Side}
    (h : Joined p l s) {a : Act} (hf : Follows y (l.client s) (l'.client s) (p.refs s) a)
    (ha : a ≠ .lost)
    (hwire : ∀ o ∈ l'.wire s, o ∈ l.wire s ∨ ∃ wants stamp, o.packet = packetOf wants stamp) :
    Joined p l' s := by
  obtain ⟨hdown, hcert⟩ := link_of_follows hf ha
  refine ⟨serves_of_follows h.serves hf, hdown.trans h.connected, ?_, ?_⟩
  · rw [hcert]
    exact h.cert
  · intro o hm
    rcases hwire o hm with hold | ⟨wants, stamp, hnew⟩
    · exact h.readable o hold
    · rw [hnew]
      exact packetOf_readable wants stamp

omit [FileSystem φ] [PluginHost π ε] in
/-- An end that keeps its client stays joined when its packets only get
fewer. -/
theorem joined_of_same {p : Places} {l l' : Link φ π} {s : Side} (h : Joined p l s)
    (hclient : l'.client s = l.client s) (hwire : ∀ o ∈ l'.wire s, o ∈ l.wire s) :
    Joined p l' s := by
  refine ⟨?_, ?_, ?_, fun o hm => h.readable o (hwire o hm)⟩
  · rw [hclient]
    exact h.serves
  · rw [hclient]
    exact h.connected
  · rw [hclient]
    exact h.cert

/-- Every move keeps both ends joined. -/
theorem joined_step {y : Yyjson} (hy : y.Lawful) {p : Places} {l : Link φ π}
    (h : ∀ s, Joined p l s) (e : Move ε) : ∀ s, Joined p (l.step y p e) s := by
  cases e with
  | act s op m =>
    have hj := h s
    have hmine : Joined p (l.step y p (.act s op m)) s := by
      have hclient : (l.step y p (.act s op m)).client s =
          PairingRuns.step y (p.ids s.other) (p.refs s) (l.client s) (op.event m) :=
        Function.update_self ..
      have hact : (op.event m).act ≠ .lost := by cases op <;> simp [Op.event, PairingRuns.Event.act]
      have hf := step_follows y hj.serves (op.event m)
      rw [← hclient] at hf
      refine joined_of_follows hj hf hact ?_
      · have hwire : (l.step y p (.act s op m)).wire s = _ := Function.update_self ..
        rw [hwire, newPair_step y hj.serves hj.connected hj.cert op m]
        intro o hm
        rcases List.mem_append.mp hm with hold | hnew
        · exact .inl hold
        · rw [Option.mem_toList, Option.map_eq_some_iff] at hnew
          obtain ⟨wants, -, rfl⟩ := hnew
          exact .inr ⟨wants, op.stamp m, rfl⟩
    have htheirs : Joined p (l.step y p (.act s op m)) s.other := by
      refine joined_of_same (h s.other) (Function.update_of_ne s.other_ne ..) ?_
      have hwire : (l.step y p (.act s op m)).wire s.other = l.wire s.other :=
        Function.update_of_ne s.other_ne ..
      rw [hwire]
      exact fun _ hm => hm
    intro t
    rcases Side.eq_or_other s t with rfl | rfl
    · exact hmine
    · exact htheirs
  | arrive s m =>
    cases hwire : l.wire s.other with
    | nil =>
      simp only [Link.step, hwire]
      exact h
    | cons o rest =>
      have ho := (h s.other).readable o (by rw [hwire]; exact List.mem_cons_self)
      have hf := follows_heard hy m (p.refs s) ho.1 ho.2 (l.client s)
      simp only [Link.step, hwire]
      intro t
      rcases Side.eq_or_other s t with rfl | rfl
      · have hclient : Function.update l.client t (heard y m (p.refs t) o (l.client t)) t =
            heard y m (p.refs t) o (l.client t) := Function.update_self ..
        rw [← hclient] at hf
        refine joined_of_follows (h t) hf (by simp) ?_
        dsimp only
        rw [Function.update_of_ne t.ne_other]
        exact fun _ hm => .inl hm
      · refine joined_of_same (h s.other) (Function.update_of_ne s.other_ne ..) ?_
        dsimp only
        rw [Function.update_self, hwire]
        exact fun _ hm => List.mem_cons_of_mem _ hm

/-- Just after both ends installed their sessions: an end that is not paired
has its denial on the way. -/
structure Started (p : Places) (l : Link φ π) (s : Side) : Prop where
  joined : Joined p l s
  fresh : Fresh (coreAt (p.refs s) (l.client s))
  wire : if ((l.client s).heap (p.refs s)).paired = true then l.wire s = []
    else ∃ millis, l.wire s = [⟨millis, unpairPacket⟩]

/-- With no packet under way and no request shown as pending, both ends are
paired or neither is. -/
def Agrees (p : Places) (l : Link φ π) : Prop :=
  (∀ s, l.wire s = [] ∧ (((l.client s).heap (p.refs s)).paired = true ∨
    ((l.client s).heap (p.refs s)).pairState = .notPaired)) →
  ((l.client .left).heap (p.refs .left)).paired = ((l.client .right).heap (p.refs .right)).paired

omit [FileSystem φ] [PluginHost π ε] in
/-- Ends that are backed agree. -/
theorem agrees_of_backed {p : Places} {l : Link φ π} (h : ∀ s, Backed (l.ends p) s) :
    Agrees p l := by
  intro hquiet
  refine agree_of_backed h ?_
  intro s
  obtain ⟨hwire, hstate⟩ := hquiet s
  refine ⟨?_, hstate⟩
  change (l.wire s).map mark = []
  rw [hwire]
  rfl

omit [FileSystem φ] [PluginHost π ε] in
/-- Freshly installed ends are backed. -/
theorem backed_of_started {p : Places} {l : Link φ π} (h : ∀ s, Started p l s) (s : Side) :
    Backed (l.ends p) s := by
  intro hup
  have hfresh := (h s).fresh
  have hpaired : (coreAt (p.refs s) (l.client s)).paired = true := by
    rcases hup with hpaired | hasked
    · exact hpaired
    · have hstate : (coreAt (p.refs s) (l.client s)).pairState = .requested := hasked
      unfold Fresh at hfresh
      rw [hstate] at hfresh
      split at hfresh <;> cases hfresh
  have hsilent : (l.ends p).wire s = [] := by
    have hwire := (h s).wire
    have hflag : ((l.client s).heap (p.refs s)).paired = true := hpaired
    rw [if_pos hflag] at hwire
    change (l.wire s).map mark = []
    rw [hwire]
    rfl
  have hwire := (h s.other).wire
  by_cases hother : ((l.client s.other).heap (p.refs s.other)).paired = true
  · right
    rw [hsilent]
    exact .inl hother
  · left
    rw [if_neg hother] at hwire
    obtain ⟨millis, hwire⟩ := hwire
    refine ⟨mark ⟨millis, unpairPacket⟩, ?_, by rw [mark_unpairPacket]⟩
    change _ ∈ (l.wire s.other).map mark
    rw [hwire]
    exact List.mem_cons_self

/-- Pairing agreement: whatever the two users do and however the packets
cross, the ends agree whenever nothing is under way or pending. -/
theorem agrees_always {y : Yyjson} (hy : y.Lawful) {p : Places} {l : Link φ π}
    (h : ∀ s, Started p l s) (moves : List (Move ε)) :
    Always (Link.step y p) (Agrees p) l moves := by
  have hstep : ∀ (l : Link φ π) (e : Move ε),
      (∀ s, Joined p l s ∧ Backed (l.ends p) s) →
      ∀ s, Joined p (l.step y p e) s ∧ Backed ((l.step y p e).ends p) s := by
    intro l e hl s
    have hjoined := fun s => (hl s).1
    refine ⟨joined_step hy hjoined e s, ?_⟩
    rw [ends_step hy hjoined e]
    refine backed_step (fun s => (hl s).2) (fun s => (hl s).1.cert) e.turn ?_ s
    intro t a stamp ht
    cases e with
    | arrive t m => cases ht
    | act t op m =>
      cases ht
      have hopen : (coreAt (p.refs t) (l.client t)).disconnected = false := (hl t).1.connected
      cases op <;> exact hopen
  have hinv := always_of_step hstep (fun s => ⟨(h s).joined, backed_of_started h s⟩) moves
  exact hinv.imp fun l hl => agrees_of_backed fun s => (hl s).2

end Link

/-- The console at the left, the phone at the right. -/
def consoleAndPhone : Places where
  ids := fun
    | .left => "0a"
    | .right => "5f0c"
  refs := fun _ => 0

/-- Both have connected while unpaired, and told each other so. -/
def bothUnpaired : Link MemoryFiles Empty where
  client := fun
    | .left => oneSession (phoneSession false)
    | .right => oneSession consoleSession
  wire := fun _ => [⟨0, unpairPacket⟩]

/-- Two ends that are not paired. -/
theorem bothUnpaired_started (s : Side) : Started consoleAndPhone bothUnpaired s := by
  have hreadable : ∀ o ∈ bothUnpaired.wire s,
      NulFree o.packet.type ∧ o.packet.body.realFree = true := by
    intro o hm
    rw [List.mem_singleton.mp hm]
    exact packetOf_readable false 0
  cases s with
  | left =>
    exact ⟨⟨oneSession_serves (phoneSession false), rfl, by decide +kernel, hreadable⟩, rfl, 0, rfl⟩
  | right =>
    exact ⟨⟨oneSession_serves consoleSession, rfl, by decide +kernel, hreadable⟩, rfl, 0, rfl⟩

/-- A request from the left crosses a request from the right, and the left
side ends the pairing. -/
theorem agrees_crossing :
    Always (Link.step Yyjson.reference consoleAndPhone) (Agrees consoleAndPhone) bothUnpaired
      [.arrive .left (atSecond 5000), .arrive .right (atSecond 5000),
        .act .left .request (atSecond 5001), .act .right .request (atSecond 5001),
        .arrive .left (atSecond 5002), .arrive .right (atSecond 5002),
        .act .left .unpair (atSecond 5003), .arrive .right (atSecond 5004)] :=
  agrees_always Yyjson.reference_lawful bothUnpaired_started _

end KdeConnectNx.PairingAgreement
