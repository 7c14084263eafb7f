import KdeConnectNx.Plugins
import KdeConnectNx.Runs

/-!
# The charge the device knows

The plugin keeps the reading it sent last and whether it has one. Only a reading
on connect makes it have one; until then a poll that finds a change reads the
hardware once more for the packet.
-/

namespace KdeConnectNx.BatteryUpdates

open PacketBody PacketFormat Plugins Plugins.BatteryPlugin Runs

inductive Event where
  /-- `on_connected(true)`. -/
  | connected (env : PluginEnv)
  /-- `process_events`. -/
  | poll (env : PluginEnv)

/-- The plugin, and the packets it sent, the last in front. -/
structure World where
  plugin : BatteryPlugin := {}
  sent : List NetworkPacket := []

def step (w : World) : Event → World
  | .connected env =>
    let r := onConnected env true w.plugin
    ⟨r.1, r.2.reverse ++ w.sent⟩
  | .poll env =>
    let r := processEvents env w.plugin
    ⟨r.1, r.2.reverse ++ w.sent⟩

/-- The packet reports this charge and charging state. -/
def Carries (np : NetworkPacket) (reading : Int32 × Bool) : Prop :=
  np.type = PacketTypes.battery ∧ np.body.getInt "currentCharge" = reading.1 ∧
    np.body.getBool "isCharging" = reading.2

/-- The last packet carries the reading. -/
def Knows (w : World) (reading : Int32 × Bool) : Prop := ∃ np ∈ w.sent.head?, Carries np reading

/-- What a poll reads, if it is time for one and the hardware answers. -/
def reads (env : PluginEnv) (p : BatteryPlugin) : Option (Int32 × Bool) :=
  if p.active && p.due env then env.hardware else none

def cached (p : BatteryPlugin) : Int32 × Bool := (p.cachedCharge, p.cachedCharging)

/-- After a poll that reads the hardware the device knows the reading. -/
def Delivers (w : World) : Event → Prop
  | .connected _ => True
  | .poll env => ∀ reading ∈ reads env w.plugin, Knows (step w (.poll env)) reading

/-- Until a reading on connect, what a poll reads is either a change, and read again
for the packet, or no change from a packet that was sent. -/
def ReadsTwice (w : World) : Event → Prop
  | .connected _ => True
  | .poll env => w.plugin.cacheValid = false → ∀ reading ∈ reads env w.plugin,
      if reading = cached w.plugin then w.sent ≠ [] else env.hardwareAgain = some reading

/-! ## One step -/

section Steps

variable {w : World} {env : PluginEnv} {reading : Int32 × Bool}

/-- A status carries what it was made of, and nothing else. -/
theorem carries_statusPacket (charge : Int32) (charging : Bool) :
    Carries (statusPacket charge charging) reading ↔ reading = (charge, charging) := by
  have hcharge : (statusPacket charge charging).body.getInt "currentCharge" = charge := by
    have hfield : (statusPacket charge charging).body.field "currentCharge" =
        some (.int .sint (charge.toBitVec.signExtend 64)) := rfl
    rw [JsonBody.getInt, JsonBody.valueInt, hfield]
    exact JsonBody.getInt_signExtend charge
  have hcharging : (statusPacket charge charging).body.getBool "isCharging" = charging := rfl
  rw [Carries, hcharge, hcharging, Prod.ext_iff]
  constructor
  · rintro ⟨-, hfst, hsnd⟩
    exact ⟨hfst.symm, hsnd.symm⟩
  · rintro ⟨hfst, hsnd⟩
    exact ⟨rfl, hfst.symm, hsnd.symm⟩

/-- The peer knows the last status it was sent. -/
theorem knows_cons (p : BatteryPlugin) (charge : Int32) (charging : Bool)
    (sent : List NetworkPacket) :
    Knows ⟨p, statusPacket charge charging :: sent⟩ reading ↔ reading = (charge, charging) := by
  rw [← carries_statusPacket]
  constructor
  · rintro ⟨np, hnp, hcarries⟩
    rw [Option.mem_some_iff.mp hnp]
    exact hcarries
  · intro hcarries
    exact ⟨_, rfl, hcarries⟩

/-- It knows one reading. -/
theorem Knows.unique {other : Int32 × Bool} (h : Knows w reading) (h' : Knows w other) :
    reading = other := by
  obtain ⟨np, hnp, -, hcharge, hcharging⟩ := h
  obtain ⟨np', hnp', -, hcharge', hcharging'⟩ := h'
  obtain rfl := Option.mem_unique hnp hnp'
  exact Prod.ext (hcharge.symm.trans hcharge') (hcharging.symm.trans hcharging')

/-- A poll that reads nothing leaves all but its own time. -/
theorem processEvents_of_none {p : BatteryPlugin} (h : reads env p = none) :
    ∃ lastPoll, processEvents env p = ({ p with lastPoll := lastPoll }, []) := by
  unfold processEvents
  split
  · exact ⟨p.lastPoll, rfl⟩
  · rename_i hactive
    split
    · exact ⟨p.lastPoll, rfl⟩
    · rename_i hdue
      have hhardware : env.hardware = none := by
        rw [Bool.not_eq_true', Bool.not_eq_false] at hactive hdue
        rw [reads, hactive, hdue] at h
        exact h
      rw [hhardware]
      exact ⟨env.steady, rfl⟩

/-- One that reads something keeps it, and sends if it is new. -/
theorem processEvents_of_some {p : BatteryPlugin} (h : reads env p = some reading) :
    ∃ p' : BatteryPlugin, cached p' = reading ∧ p'.cacheValid = p.cacheValid ∧
      processEvents env p =
        (p', if reading = cached p then [] else sendStatus env.hardwareAgain p') := by
  obtain ⟨charge, charging⟩ := reading
  unfold reads at h
  split at h
  · rename_i hdue
    rw [Bool.and_eq_true] at hdue
    unfold processEvents
    rw [if_neg (by rw [hdue.1]; exact Bool.false_ne_true),
      if_neg (by rw [hdue.2]; exact Bool.false_ne_true), h]
    by_cases hsame : (charge, charging) = cached p
    · obtain ⟨hcharge, hcharging⟩ := Prod.ext_iff.mp hsame
      have hold : ¬ (charge != p.cachedCharge || charging != p.cachedCharging) = true := by
        rw [Bool.or_eq_true, bne_iff_ne, bne_iff_ne]
        exact not_or.mpr ⟨not_not.mpr hcharge, not_not.mpr hcharging⟩
      refine ⟨{ p with lastPoll := env.steady }, hsame.symm, rfl, ?_⟩
      rw [if_pos hsame]
      exact if_neg hold
    · have hnew : (charge != p.cachedCharge || charging != p.cachedCharging) = true := by
        rw [Bool.or_eq_true, bne_iff_ne, bne_iff_ne]
        exact not_and_or.mp fun heq => hsame (Prod.ext heq.1 heq.2)
      refine ⟨{ p with lastPoll := env.steady, cachedCharge := charge, cachedCharging := charging },
        rfl, rfl, ?_⟩
      rw [if_neg hsame]
      exact if_pos hnew
  · cases h

/-- One packet or none is its own reverse. -/
theorem reverse_sendStatus (again : Option (Int32 × Bool)) (p : BatteryPlugin) :
    (sendStatus again p).reverse = sendStatus again p := by
  unfold sendStatus
  split
  · rfl
  · split <;> rfl

/-- From a valid cache the packet carries what is cached, -/
theorem sendStatus_of_valid (again : Option (Int32 × Bool)) {p : BatteryPlugin}
    (h : p.cacheValid = true) :
    sendStatus again p = [statusPacket p.cachedCharge p.cachedCharging] := if_pos h

/-- and otherwise what is read once more, if anything is. -/
theorem sendStatus_of_stale {p : BatteryPlugin} (h : p.cacheValid = false) :
    sendStatus none p = [] ∧
      ∀ second : Int32 × Bool, sendStatus (some second) p = [statusPacket second.1 second.2] := by
  have hstale : ¬ p.cacheValid = true := by rw [h]; exact Bool.false_ne_true
  exact ⟨if_neg hstale, fun second => if_neg hstale⟩

/-- A poll that reads nothing sends nothing. -/
theorem poll_of_none (h : reads env w.plugin = none) :
    ∃ lastPoll, step w (.poll env) = ⟨{ w.plugin with lastPoll := lastPoll }, w.sent⟩ := by
  obtain ⟨lastPoll, hevents⟩ := processEvents_of_none h
  refine ⟨lastPoll, ?_⟩
  simp only [step, hevents]
  rfl

/-- A poll that reads something sends it if it differs from what is cached. -/
theorem poll_of_some (h : reads env w.plugin = some reading) :
    ∃ p : BatteryPlugin, cached p = reading ∧ p.cacheValid = w.plugin.cacheValid ∧
      step w (.poll env) = ⟨p,
        if reading = cached w.plugin then w.sent
        else sendStatus env.hardwareAgain p ++ w.sent⟩ := by
  obtain ⟨p, hcached, hvalid, hevents⟩ := processEvents_of_some h
  refine ⟨p, hcached, hvalid, ?_⟩
  simp only [step, hevents]
  split
  · rfl
  · rw [reverse_sendStatus]

/-- What is cached after a packet, or after a reading on connect, is what the last
packet carries. -/
def Sound (w : World) : Prop :=
  w.plugin.cacheValid = true ∨ w.sent ≠ [] → Knows w (cached w.plugin)

/-- A connection sends what it caches. -/
theorem sound_connected (h : Sound w) (env : PluginEnv) : Sound (step w (.connected env)) := by
  simp only [step, onConnected, Bool.not_true, Bool.false_eq_true, if_false]
  split
  · rename_i charge charging hhardware
    intro _
    exact (knows_cons _ charge charging w.sent).mpr rfl
  · exact h

/-- A step that delivers keeps the peer at what is cached. -/
theorem sound_step {e : Event} (h : Sound w) (he : Delivers w e) : Sound (step w e) := by
  cases e with
  | connected env => exact sound_connected h env
  | poll env =>
    cases hreads : reads env w.plugin with
    | none =>
      obtain ⟨lastPoll, hstep⟩ := poll_of_none hreads
      rw [hstep]
      exact h
    | some reading =>
      have hknows := he reading hreads
      obtain ⟨p, hcached, -, hstep⟩ := poll_of_some hreads
      intro _
      rw [hstep] at hknows ⊢
      rw [hcached]
      exact hknows

/-- A poll delivers exactly if the battery reads the same twice. -/
theorem delivers_iff {e : Event} (h : Sound w) : Delivers w e ↔ ReadsTwice w e := by
  cases e with
  | connected env => exact Iff.rfl
  | poll env =>
    cases hreads : reads env w.plugin with
    | none =>
      refine iff_of_true (fun reading hr => ?_) (fun _ reading hr => ?_)
      · rw [hreads] at hr
        cases hr
      · rw [hreads] at hr
        cases hr
    | some reading =>
      obtain ⟨p, hcached, hvalid, hstep⟩ := poll_of_some hreads
      have hread : ∀ P : Int32 × Bool → Prop, (∀ r ∈ reads env w.plugin, P r) ↔ P reading := by
        intro P
        rw [hreads]
        exact ⟨fun hall => hall reading rfl, fun hP r hr => Option.mem_some_iff.mp hr ▸ hP⟩
      rw [Delivers, ReadsTwice, hread, hread, hstep]
      by_cases hsame : reading = cached w.plugin
      · -- no packet goes out now, so the last one has to be for this reading
        rw [if_pos hsame, if_pos hsame]
        constructor
        · rintro ⟨np, hnp, -⟩ - hnone
          rw [hnone] at hnp
          cases hnp
        · intro hsent
          rw [hsame]
          refine h ?_
          cases hcache : w.plugin.cacheValid with
          | true => exact .inl rfl
          | false => exact .inr (hsent hcache)
      · rw [if_neg hsame, if_neg hsame]
        cases hcache : w.plugin.cacheValid with
        | true =>
          rw [sendStatus_of_valid env.hardwareAgain (hvalid.trans hcache)]
          exact iff_of_true ((knows_cons p _ _ w.sent).mpr hcached.symm) (absurd · (by decide))
        | false =>
          -- the packet is for the second reading
          obtain ⟨hnothing, hsecond⟩ := sendStatus_of_stale (hvalid.trans hcache)
          rw [forall_prop_of_true rfl]
          cases hagain : env.hardwareAgain with
          | none =>
            rw [hnothing]
            refine iff_of_false (fun hknows => ?_) (absurd · (Option.some_ne_none reading).symm)
            have hsent : w.sent ≠ [] := by
              rintro hnone
              obtain ⟨np, hnp, -⟩ := hknows
              have hhead : np ∈ w.sent.head? := hnp
              rw [hnone] at hhead
              cases hhead
            exact hsame (Knows.unique hknows (h (.inr hsent)))
          | some second =>
            rw [hsecond second]
            exact (knows_cons p second.1 second.2 w.sent).trans (by rw [Option.some.injEq, eq_comm])

end Steps

/-- Over every sequence of connects and polls with any readings: after each poll that
reads the hardware the last packet carries the reading, exactly if every poll before
the first reading on connect reads a change twice and anything else only after a
packet. -/
theorem delivers_iff_readsTwice (events : List Event) :
    EveryStep step Delivers {} events ↔ EveryStep step ReadsTwice {} events := by
  have hstart : Sound {} := by
    rintro (hvalid | hsent)
    · cases hvalid
    · exact absurd rfl hsent
  exact everyStep_iff_everyStep (fun _ _ hsound he => sound_step hsound he)
    (fun _ _ hsound => delivers_iff hsound) hstart events

/-- The hardware does not answer on connect, and says that the battery is full at the
first poll. -/
def fullAfterFailure : List Event :=
  [.connected { json := Yyjson.reference, steady := 0 },
    .poll { json := Yyjson.reference, steady := 10000000000, hardware := some (100, false) }]

/-- Nothing is sent. -/
theorem notDelivers_fullAfterFailure : ¬ ∀ events, EveryStep step Delivers {} events := by
  intro h
  obtain ⟨-, hpoll, -⟩ := h fullAfterFailure
  obtain ⟨np, hnp, -⟩ := hpoll (100, false) rfl
  cases hnp

end KdeConnectNx.BatteryUpdates
