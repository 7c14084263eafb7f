import KdeConnectNx.BinaryRounding
import KdeConnectNx.SinkVolumes

/-!
# The console's own volume

A device sets and mutes the console as a sink. The plugin caches what it was
told, sets the master volume of the console, and answers with the cache; a sink
list is answered with what the console reads. The console counts in floating
point: a percentage is divided and multiplied again, each time with a rounding.
-/

namespace KdeConnectNx.LocalVolume

open BinaryRounding JsonTree PacketBody PacketFormat Plugins Plugins.SystemVolumePlugin Runs
open SinkVolumes

/-- A finite `float`. The quotients here are zero or between 0.01 and 2^25, and a
product outside of the range of a `float` is an integer of no `int` as well, so
the range of the exponent makes no difference. -/
abbrev Binary32 := Binary 23

/-- `volume / 100.0f` -/
def level (volume : Int32) : Binary32 := .ofInt volume.toInt / .ofInt 100

/-- `static_cast<int>(vol_f * 100.0f)`; what fits no `int` becomes the nearest. -/
def percent (master : Binary32) : Int32 := Int32.ofIntClamp (master * .ofInt 100).truncate

/-- Which of the calls to the service succeed while a packet is handled: the one
for its volume, the one for its mute flag, the reading for a sink list. -/
structure Calls where
  setVolume : Bool := true
  setMuted : Bool := true
  get : Bool := true

/-- The plugin and the master volume of the console. -/
structure Console where
  plugin : SystemVolumePlugin := {}
  master : Binary32

def getSystemVolume (ok : Bool) (master : Binary32) : Int32 := if ok then percent master else 50

def setSystemVolume (ok : Bool) (volume : Int32) (master : Binary32) : Binary32 :=
  if ok then level volume else master

/-- The branch of a packet with a number as volume. -/
def takeVolume (ok : Bool) (body : JsonBody) (s : Console) : Console :=
  if body.isNum "volume" then
    let volume := max (body.getInt "volume") 0
    { plugin := { s.plugin with volume := volume }
      master := setSystemVolume ok volume s.master }
  else s

/-- The branch of a packet with a mute flag; muting is lowering to zero. -/
def takeMuted (ok : Bool) (body : JsonBody) (s : Console) : Console :=
  if body.isBool "muted" then
    let muted := body.getBool "muted"
    { plugin := { s.plugin with muted := muted }
      master := setSystemVolume ok (if muted then 0 else s.plugin.volume) s.master }
  else s

/-- `on_packet_received`: the console after the packet, what is sent, and whether
the packet was handled. -/
def onPacketReceived (env : PluginEnv) (calls : Calls) (np : NetworkPacket)
    (s : Console) : Console × List NetworkPacket × Bool :=
  if np.type = PacketTypes.systemVolumeRequest then
    if np.body.valueBool "requestSinks" false then
      (s, [sinkListPacket (getSystemVolume calls.get s.master)], true)
    else if !np.body.has "name" then (s, [], false)
    else
      let s := takeMuted calls.setMuted np.body (takeVolume calls.setVolume np.body s)
      (s, [statePacket s.plugin], true)
  else
    -- advertised sinks of the device touch the list of them only
    let result := s.plugin.onPacketReceived env np
    ({ s with plugin := result.1 }, result.2)

theorem onPacketReceived_request (env : PluginEnv) (calls : Calls)
    {np : NetworkPacket} (s : Console) (h : np.type = PacketTypes.systemVolumeRequest) :
    onPacketReceived env calls np s =
      if np.body.valueBool "requestSinks" false then
        (s, [sinkListPacket (getSystemVolume calls.get s.master)], true)
      else if !np.body.has "name" then (s, [], false)
      else
        let s := takeMuted calls.setMuted np.body (takeVolume calls.setVolume np.body s)
        (s, [statePacket s.plugin], true) := if_pos h

/-- A packet that arrives, with the calls that succeed while it is handled. -/
structure Event where
  np : NetworkPacket
  calls : Calls := {}

def step (env : PluginEnv) (s : Console) (e : Event) : Console :=
  (onPacketReceived env e.calls e.np s).1

/-! ## What is advertised -/

/-- The master volume is silence while muted, and the cached volume otherwise. -/
def Agrees (s : Console) : Prop :=
  s.master = level (if s.plugin.muted then 0 else s.plugin.volume)

/-- The sinks a packet of the plugin tells of: those of its list, or the one it is
an update of. -/
def advertised (np : NetworkPacket) : List JsonBody :=
  if np.body.isArray "sinkList" then np.body.getObjArray "sinkList" else [np.body]

/-- They have that volume and that mute flag. -/
def Reports (p : SystemVolumePlugin) (np : NetworkPacket) : Prop :=
  ∀ sink ∈ advertised np, sink.valueInt "volume" 0 = p.volume ∧ sink.valueBool "muted" false =
    p.muted

/-- A handled request leaves the console as it advertises it. -/
structure Advertises (env : PluginEnv) (s : Console) (e : Event) : Prop where
  named : e.np.type = PacketTypes.systemVolumeRequest → e.np.body.has "name" = true →
    Agrees (step env s e) ∧ InPercent (step env s e).plugin.volume
  replies : e.np.type = PacketTypes.systemVolumeRequest →
    ∀ np ∈ (onPacketReceived env e.calls e.np s).2.1, Reports (step env s e).plugin np

/-- The mute flag a request asks for, or the one there is. -/
def mutedBy (body : JsonBody) (s : Console) : Bool :=
  if body.isBool "muted" then body.getBool "muted" else s.plugin.muted

/-- The volume a request brings, or the one there is, is a percentage; one below
zero counts as zero. -/
def WithinPercent (body : JsonBody) (s : Console) : Prop :=
  if body.isNum "volume" then body.getInt "volume" ≤ 100 else InPercent s.plugin.volume

/-- What the last call that succeeds sets is what the flag asks for; without such
a call the console agrees already. -/
def SetsLevel (calls : Calls) (body : JsonBody) (s : Console) : Prop :=
  if body.isBool "muted" && calls.setMuted then True
  else if body.isNum "volume" && calls.setVolume then
    mutedBy body s = true → body.getInt "volume" ≤ 0
  else s.master = level (if mutedBy body s then 0
    else if body.isNum "volume" then max (body.getInt "volume") 0 else s.plugin.volume)

/-- A hundred times the level, rounded to a `float`, is the volume and less than
one more, away from zero; behind the last `int` it is whatever is more. -/
def ReadsAs (master : Binary32) (volume : Int32) : Prop :=
  let hundredfold := rounded 23 (master.value * 100)
  if 0 ≤ hundredfold then
    volume.toInt ≤ hundredfold ∧ (hundredfold < volume.toInt + 1 ∨ volume = Int32.maxValue)
  else hundredfold ≤ volume.toInt ∧ (volume.toInt - 1 < hundredfold ∨ volume = Int32.minValue)

/-- What a request has to be in the state it comes in. -/
def Consistent (s : Console) (e : Event) : Prop :=
  e.np.type = PacketTypes.systemVolumeRequest →
    if e.np.body.valueBool "requestSinks" false then
      ((if e.calls.get then ReadsAs s.master s.plugin.volume else s.plugin.volume = 50) ∧
        s.plugin.muted = false) ∧
        (e.np.body.has "name" = true → Agrees s ∧ InPercent s.plugin.volume)
    else e.np.body.has "name" = true →
      SetsLevel e.calls e.np.body s ∧ WithinPercent e.np.body s

/-! ### What the console reads -/

/-- A clamped integer is itself, or the end it is beyond. -/
theorem ofIntClamp_eq_iff (n : ℤ) (v : Int32) :
    Int32.ofIntClamp n = v ↔ n = v.toInt ∨ v.toInt ≤ n ∧ v = Int32.maxValue ∨
      n ≤ v.toInt ∧ v = Int32.minValue := by
  have hlow := v.minValue_le_toInt
  have hhigh := v.toInt_le
  have heq : ∀ {w : Int32}, w = v ↔ w.toInt = v.toInt := Int32.toInt_inj.symm
  unfold Int32.ofIntClamp
  split
  · split
    · rw [heq, Int32.toInt_ofIntLE]
      constructor
      · exact .inl
      · rintro (h | ⟨h, rfl⟩ | ⟨h, rfl⟩)
        · exact h
        · omega
        · omega
    · rename_i hbig
      constructor
      · rintro rfl
        exact .inr (.inl ⟨by omega, rfl⟩)
      · rintro (h | ⟨-, h⟩ | ⟨h, rfl⟩)
        · omega
        · exact h.symm
        · omega
  · rename_i hsmall
    constructor
    · rintro rfl
      exact .inr (.inr ⟨by omega, rfl⟩)
    · rintro (h | ⟨h, rfl⟩ | ⟨-, h⟩)
      · omega
      · omega
      · exact h.symm

/-- A hundred is a `float`. -/
theorem ofInt_hundred : (Binary.ofInt 100 : Binary32).value = 100 := by decide +kernel

/-- The reading of a level. -/
theorem percent_eq_iff (master : Binary32) (volume : Int32) :
    percent master = volume ↔ ReadsAs master volume := by
  have hproduct : (master * Binary.ofInt 100).value = rounded 23 (master.value * 100) := by
    rw [Binary.mul_value, ofInt_hundred]
  rw [percent, ofIntClamp_eq_iff, ReadsAs, Binary.truncate, hproduct]
  have hlow := volume.minValue_le_toInt
  have hhigh := volume.toInt_le
  generalize rounded 23 (master.value * 100) = x
  have hmax : Int32.maxValue.toInt = 2147483647 := rfl
  have hmin : Int32.minValue.toInt = -2147483648 := rfl
  split
  · rename_i hpos
    have hfloor : (0 : ℤ) ≤ ⌊x⌋ := Int.floor_nonneg.mpr hpos
    rw [Int.le_floor, Int.floor_eq_iff]
    constructor
    · rintro (⟨h, h'⟩ | ⟨h, rfl⟩ | ⟨h, rfl⟩)
      · exact ⟨h, .inl h'⟩
      · exact ⟨h, .inr rfl⟩
      · omega
    · rintro ⟨h, h' | rfl⟩
      · exact .inl ⟨h, h'⟩
      · exact .inr (.inl ⟨h, rfl⟩)
  · rename_i hneg
    have hceil : ⌈x⌉ ≤ (0 : ℤ) := Int.ceil_le.mpr (by push_cast; exact (not_le.mp hneg).le)
    rw [Int.ceil_le, Int.ceil_eq_iff]
    constructor
    · rintro (⟨h, h'⟩ | ⟨h, rfl⟩ | ⟨h, rfl⟩)
      · exact ⟨h', .inl h⟩
      · omega
      · exact ⟨h, .inr rfl⟩
    · rintro ⟨h, h' | rfl⟩
      · exact .inl ⟨h', h⟩
      · exact .inr (.inr ⟨h, rfl⟩)

theorem getSystemVolume_eq_iff (ok : Bool) (master : Binary32) (volume : Int32) :
    getSystemVolume ok master = volume ↔
      if ok then ReadsAs master volume else volume = 50 := by
  cases ok with
  | true => exact percent_eq_iff master volume
  | false => exact eq_comm

/-- A percentage that is set reads as itself, but for two of them. -/
theorem readsAs_level {volume : Int32} (h : InPercent volume) :
    ReadsAs (level volume) volume ↔ volume ≠ 53 ∧ volume ≠ 59 := by
  have hall : ((List.range 101).all fun k =>
      decide (percent (level (.ofNat k)) = .ofNat k) ==
        (Int32.ofNat k != 53 && Int32.ofNat k != 59)) = true := by decide +kernel
  obtain ⟨hlow, hhigh⟩ := (inPercent_iff volume).mp h
  have hnat : Int32.ofNat volume.toInt.toNat = volume := by
    rw [← Int32.toInt_inj, Int32.toInt_ofNat_of_lt (by omega)]
    omega
  have hone := List.all_eq_true.mp hall volume.toInt.toNat (List.mem_range.mpr (by omega))
  rw [hnat, beq_iff_eq, Bool.eq_iff_iff, decide_eq_true_eq, Bool.and_eq_true, bne_iff_ne,
    bne_iff_ne] at hone
  rw [← percent_eq_iff, hone]

section Steps

variable {env : PluginEnv} {s : Console}

/-- The reply to a change tells the cache. -/
theorem reports_statePacket (p : SystemVolumePlugin) : Reports p (statePacket p) := by
  intro sink hsink
  have honly : advertised (statePacket p) = [(statePacket p).body] := rfl
  rw [honly, List.mem_singleton] at hsink
  have hvolume : (statePacket p).body.field "volume" =
      some (.int .sint (p.volume.toBitVec.signExtend 64)) := rfl
  rw [hsink]
  unfold JsonBody.valueInt
  rw [hvolume]
  exact ⟨JsonBody.getInt_signExtend p.volume, rfl⟩

/-- A sink list tells what was read, and of no mute. -/
theorem reports_sinkListPacket (p : SystemVolumePlugin) (volume : Int32) :
    Reports p (sinkListPacket volume) ↔ volume = p.volume ∧ p.muted = false := by
  have honly : advertised (sinkListPacket volume) =
      [⟨[("name", .str kSinkName), ("description", .str kSinkDescription), ("muted", .bool false),
        ("volume", .int .sint (volume.toBitVec.signExtend 64)),
        ("maxVolume", .int .sint (kMaxVolume.toBitVec.signExtend 64)),
        ("enabled", .bool true)]⟩] := by
    rfl
  unfold Reports
  rw [honly, List.forall_mem_singleton]
  refine and_congr ?_ eq_comm
  have hvolume : Int32.ofBitVec ((volume.toBitVec.signExtend 64).setWidth 32) = volume :=
    JsonBody.getInt_signExtend volume
  exact iff_of_eq (congrArg (· = p.volume) hvolume)

theorem volume_takeVolume (ok : Bool) (body : JsonBody) :
    (takeVolume ok body s).plugin.volume =
      if body.isNum "volume" then max (body.getInt "volume") 0 else s.plugin.volume := by
  unfold takeVolume
  split <;> rfl

theorem muted_takeVolume (ok : Bool) (body : JsonBody) :
    (takeVolume ok body s).plugin.muted = s.plugin.muted := by
  unfold takeVolume
  split <;> rfl

theorem volume_takeMuted (ok : Bool) (body : JsonBody) :
    (takeMuted ok body s).plugin.volume = s.plugin.volume := by
  unfold takeMuted
  split <;> rfl

theorem muted_takeMuted (ok : Bool) (body : JsonBody) :
    (takeMuted ok body s).plugin.muted = mutedBy body s := by
  unfold takeMuted mutedBy
  split <;> rfl

theorem max_zero (v : Int32) : max v 0 = if v ≤ 0 then 0 else v := rfl

/-- What is kept of a number is a percentage as far as the number is not above
one hundred. -/
theorem inPercent_max_zero (v : Int32) : InPercent (max v 0) ↔ v ≤ 100 := by
  have hhundred : v ≤ 100 ↔ v.toInt ≤ 100 := Int32.le_iff_toInt_le
  have hzero : v ≤ 0 ↔ v.toInt ≤ 0 := Int32.le_iff_toInt_le
  rw [inPercent_iff, max_zero, hhundred]
  by_cases h : v ≤ 0
  · have hmax : (if v ≤ 0 then 0 else v).toInt = 0 := by
      rw [if_pos h]
      rfl
    rw [hzero] at h
    omega
  · rw [if_neg h]
    rw [hzero] at h
    omega

theorem max_zero_eq_zero (v : Int32) : max v 0 = 0 ↔ v ≤ 0 := by
  rw [max_zero]
  split
  · rename_i h
    exact iff_of_true rfl h
  · rename_i h
    refine iff_of_false ?_ h
    rintro rfl
    exact h (by decide)

/-- Only zero is the level of silence. -/
theorem level_zero {v : Int32} (h : level v = level 0) : v = 0 := by
  have hvalue : (level v).value = 0 := by
    rw [h, level, Binary.div_value, Binary.ofInt, Binary.ofRat_value]
    simp
  have hhundred : (Binary.ofInt 100 : Binary32).value ≠ 0 :=
    mt rounded_eq_zero_iff.mp (by norm_num)
  rw [level, Binary.div_value, rounded_eq_zero_iff, div_eq_zero_iff] at hvalue
  have hrounded := hvalue.resolve_right hhundred
  rw [Binary.ofInt, Binary.ofRat_value, rounded_eq_zero_iff, Int.cast_eq_zero] at hrounded
  exact Int32.toInt_inj.mp hrounded

/-- A level that is set while muted is silence only if it is zero. -/
theorem level_eq_iff (muted : Bool) (v : Int32) :
    level v = level (if muted then 0 else v) ↔ (muted = true → v = 0) := by
  cases muted with
  | false => simp
  | true =>
    constructor
    · intro h _
      exact level_zero h
    · intro h
      rw [h rfl]
      rfl

/-- Where no mute flag is set on the console, its level stays that of the volume
branch. -/
theorem master_takeMuted {ok : Bool} {body : JsonBody} (h : (body.isBool "muted" && ok) = false) :
    (takeMuted ok body s).master = s.master := by
  unfold takeMuted setSystemVolume
  cases hmuted : body.isBool "muted" with
  | false => rfl
  | true =>
    rw [hmuted, Bool.true_and] at h
    rw [h]
    rfl

theorem master_takeVolume (ok : Bool) (body : JsonBody) :
    (takeVolume ok body s).master =
      if body.isNum "volume" && ok then level (max (body.getInt "volume") 0) else s.master := by
  unfold takeVolume setSystemVolume
  cases body.isNum "volume" <;> cases ok <;> rfl

/-- Both branches together leave the console in agreement exactly if the last
call sets what the flag asks for. -/
theorem agrees_iff (calls : Calls) (body : JsonBody) :
    Agrees (takeMuted calls.setMuted body (takeVolume calls.setVolume body s)) ↔
      SetsLevel calls body s := by
  have hmutedBy : mutedBy body (takeVolume calls.setVolume body s) = mutedBy body s := by
    unfold mutedBy
    rw [muted_takeVolume]
  unfold Agrees
  rw [muted_takeMuted, hmutedBy, volume_takeMuted, volume_takeVolume]
  unfold SetsLevel
  cases hmuted : body.isBool "muted" && calls.setMuted with
  | true =>
    rw [Bool.and_eq_true] at hmuted
    refine iff_of_true ?_ trivial
    unfold takeMuted mutedBy setSystemVolume
    rw [if_pos hmuted.1, if_pos hmuted.1, volume_takeVolume]
    exact if_pos hmuted.2
  | false =>
    rw [master_takeMuted hmuted, master_takeVolume]
    cases hvolume : body.isNum "volume" && calls.setVolume with
    | true =>
      rw [Bool.and_eq_true] at hvolume
      rw [if_pos rfl, if_pos hvolume.1, level_eq_iff, max_zero_eq_zero]
      rfl
    | false => rfl

theorem withinPercent_iff (calls : Calls) (body : JsonBody) :
    InPercent (takeMuted calls.setMuted body (takeVolume calls.setVolume body s)).plugin.volume ↔
      WithinPercent body s := by
  rw [volume_takeMuted, volume_takeVolume]
  unfold WithinPercent
  split
  · exact inPercent_max_zero _
  · exact Iff.rfl

/-- The step lemma: a request leaves the console as it advertises it exactly if it
is consistent with the state it comes in. -/
theorem advertises_iff (env : PluginEnv) (s : Console) (e : Event) :
    Advertises env s e ↔ Consistent s e := by
  by_cases htype : e.np.type = PacketTypes.systemVolumeRequest
  · have hstep := onPacketReceived_request env e.calls s htype
    unfold Consistent
    by_cases hsinks : e.np.body.valueBool "requestSinks" false = true
    · rw [if_pos hsinks] at hstep
      have hstate : step env s e = s := congrArg Prod.fst hstep
      rw [if_pos hsinks, ← getSystemVolume_eq_iff, ← reports_sinkListPacket]
      constructor
      · intro h _
        have hreport := h.replies htype _ (by rw [hstep]; exact List.mem_singleton_self _)
        rw [hstate] at hreport
        refine ⟨hreport, fun hname => ?_⟩
        have hnamed := h.named htype hname
        rwa [hstate] at hnamed
      · intro h
        obtain ⟨hreport, hnamed⟩ := h htype
        refine ⟨fun _ hname => ?_, fun _ np hnp => ?_⟩
        · rw [hstate]
          exact hnamed hname
        · rw [hstep] at hnp
          rw [List.mem_singleton.mp hnp, hstate]
          exact hreport
    · rw [if_neg hsinks] at hstep
      rw [if_neg hsinks]
      by_cases hname : e.np.body.has "name" = true
      · rw [hname] at hstep
        have hstate : step env s e = takeMuted e.calls.setMuted e.np.body
            (takeVolume e.calls.setVolume e.np.body s) := congrArg Prod.fst hstep
        rw [← agrees_iff, ← withinPercent_iff e.calls, ← hstate]
        constructor
        · intro h _ _
          exact h.named htype hname
        · intro h
          refine ⟨fun _ _ => h htype hname, fun _ np hnp => ?_⟩
          rw [hstep] at hnp
          rw [List.mem_singleton.mp hnp, hstate]
          exact reports_statePacket _
      · rw [Bool.not_eq_true] at hname
        rw [hname] at hstep
        refine iff_of_true ⟨fun _ h => ?_, fun _ np hnp => ?_⟩ fun _ h => ?_
        · rw [hname] at h
          cases h
        · rw [hstep] at hnp
          cases hnp
        · rw [hname] at h
          cases h
  · exact iff_of_true ⟨fun h => absurd h htype, fun h => absurd h htype⟩ fun h => absurd h htype

end Steps

/-! ## Unmuting -/

/-- A request that unmutes and brings no volume, with the call to the console
successful. -/
structure Unmutes (e : Event) : Prop where
  type : e.np.type = PacketTypes.systemVolumeRequest
  change : e.np.body.valueBool "requestSinks" false = false
  name : e.np.body.has "name" = true
  volume : e.np.body.isNum "volume" = false
  flag : e.np.body.isBool "muted" = true
  muted : e.np.body.getBool "muted" = false
  ok : e.calls.setMuted = true

section Unmuting

variable {env : PluginEnv} {s : Console}

/-- Only a number changes the cached volume. -/
theorem volume_step {e : Event} (h : e.np.body.isNum "volume" = false) :
    (step env s e).plugin.volume = s.plugin.volume := by
  unfold step onPacketReceived
  split
  · split
    · rfl
    · split
      · rfl
      · rw [volume_takeMuted, volume_takeVolume, h]
        rfl
  · unfold SystemVolumePlugin.onPacketReceived
    rename_i htype
    rw [if_neg htype]
    split
    · split
      · rfl
      · split <;> rfl
    · rfl

theorem volume_run {events : List Event} (h : ∀ e ∈ events, e.np.body.isNum "volume" = false) :
    (run (step env) s events).plugin.volume = s.plugin.volume := by
  induction events generalizing s with
  | nil => rfl
  | cons e events ih =>
    rw [run_cons, ih fun e' he' => h e' (List.mem_cons_of_mem _ he')]
    exact volume_step (h e List.mem_cons_self)

/-- Unmuting sets the console to the cached volume. -/
theorem master_unmute {e : Event} (h : Unmutes e) :
    (step env s e).master = level s.plugin.volume := by
  unfold step onPacketReceived
  rw [if_pos h.type, h.change, h.name]
  unfold takeMuted takeVolume setSystemVolume
  simp [h.volume, h.flag, h.muted, h.ok]

end Unmuting

/-- From every volume of the console: the runs in which what is advertised is
what the console has are exactly those of consistent requests; a percentage that
was set reads as itself unless it is 53 or 59; and unmuting brings back the
volume from before, whatever came between without a volume. -/
theorem advertises_run_iff (env : PluginEnv) (master : Binary32) (events : List Event) :
    (EveryStep (step env) (Advertises env) { master := master } events ↔
      EveryStep (step env) Consistent { master := master } events) ∧
    (∀ volume, InPercent volume →
      (ReadsAs (level volume) volume ↔ volume ≠ 53 ∧ volume ≠ 59)) ∧
    ∀ between unmute, (∀ e ∈ between, e.np.body.isNum "volume" = false) → Unmutes unmute →
      (run (step env) { master := master } (events ++ between ++ [unmute])).master =
        level (run (step env) { master := master } events).plugin.volume := by
  refine ⟨?_, fun volume h => readsAs_level h, ?_⟩
  · have hstart : Always (step env) (fun _ => True) { master := master } events :=
      always_of_step (fun _ _ _ => trivial) trivial events
    exact everyStep_congr (fun s e _ => advertises_iff env s e) hstart
  · intro between unmute hbetween hunmute
    rw [run_append, run_append, run_cons, run_nil, master_unmute hunmute, volume_run hbetween]

/-- The device enables the sink, and says nothing of its volume. -/
def enablePacket : NetworkPacket where
  type := PacketTypes.systemVolumeRequest
  body := (({} : JsonBody).setStr "name" kSinkName).setBool "enabled" true

/-- The console plays at 30 and advertises 50. -/
theorem notAdvertises_enable :
    ¬ ∀ (env : PluginEnv) (master : Binary32) (events : List Event),
      EveryStep (step env) (Advertises env) { master := master } events := by
  intro h
  have hstep := (h { json := Yyjson.reference, steady := 0 } (level 30) [{ np := enablePacket }]).1
  have hagrees : level 30 = level 50 := (hstep.named rfl rfl).1
  exact absurd hagrees (by decide +kernel)

end KdeConnectNx.LocalVolume
