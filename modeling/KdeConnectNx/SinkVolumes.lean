import KdeConnectNx.Identifiers
import KdeConnectNx.Runs
import KdeConnectNx.Scales

/-!
# The volumes of remote sinks

A device reports the volume of a sink as a raw number out of a maximum of its
own. The plugin keeps percents, and scales back what the overlay sets. Both
conversions are one `int` product and one quotient; raw volumes and maxima are
whatever the peer writes.
-/

namespace KdeConnectNx.SinkVolumes

open JsonTree PacketBody PacketFormat Plugins Plugins.SystemVolumePlugin Identifiers Runs Scales

/-- What an `int` holds. -/
def InInt (x : ℤ) : Prop := -2 ^ 31 ≤ x ∧ x < 2 ^ 31

instance (x : ℤ) : Decidable (InInt x) := inferInstanceAs (Decidable (_ ∧ _))

section Arithmetic

variable {a b m n : Int32}

/-- A product that an `int` holds is computed. -/
theorem toInt_mul_of_inInt (h : InInt (a.toInt * b.toInt)) :
    (a * b).toInt = a.toInt * b.toInt := by
  obtain ⟨hlow, hhigh⟩ := h
  rw [Int32.toInt_mul]
  exact Int.bmod_eq_of_le (by omega) (by omega)

/-- A positive divisor leaves every quotient in an `int`. -/
theorem toInt_div_of_pos (hb : 0 < b.toInt) : (a / b).toInt = a.toInt.tdiv b.toInt := by
  refine Int32.toInt_div_of_ne_right a b ?_
  rintro rfl
  exact absurd hb (by decide)

/-- Both conversions move their volume from one scale to another. -/
theorem toInt_mul_div (h : InInt (a.toInt * n.toInt)) (hm : 0 < m.toInt) :
    (a * n / m).toInt = rescale m.toInt n.toInt a.toInt := by
  rw [toInt_div_of_pos hm, toInt_mul_of_inInt h, rescale]

end Arithmetic

/-- What happens to the remote sinks of a device. -/
inductive Event where
  | packet (np : NetworkPacket)
  /-- A `SetVolumeSink` request of the overlay. -/
  | setVolumeSink (name : String) (volume : Int32) (muted isDefaultOutput : Bool)

/-- A request reads the sinks and leaves them as they are. -/
def step (env : PluginEnv) (p : SystemVolumePlugin) : Event → SystemVolumePlugin
  | .packet np => (p.onPacketReceived env np).1
  | .setVolumeSink _ _ _ _ => p

/-- The raw volumes a packet brings, each with the maximum it counts against:
its own in a sink list, the stored one of the first sink of that name in an
update. -/
def readings (np : NetworkPacket) (p : SystemVolumePlugin) : List (Int32 × Int32) :=
  if np.type ≠ PacketTypes.systemVolume then []
  else if np.body.isArray "sinkList" then
    (np.body.getObjArray "sinkList").map fun s =>
      (s.valueInt "volume" 0, s.valueInt "maxVolume" 100)
  else if np.body.has "name" && np.body.isNum "volume" then
    ((p.remoteSinks.find? fun s => s.name = np.body.getStr "name").map fun s =>
      (np.body.getInt "volume", s.maxVolume)).toList
  else []

/-- The factors of every `int` product of an event. A raw volume is not
multiplied where its maximum is not positive. -/
def factors (p : SystemVolumePlugin) : Event → List (Int32 × Int32)
  | .packet np => ((readings np p).filter fun r => 0 < r.2).map fun r => (r.1, 100)
  | .setVolumeSink name volume _ _ => [(volume, maxVolumeOf p.remoteSinks name)]

/-- `normalized 0–100`, as the declaration says. -/
def InPercent (volume : Int32) : Prop := 0 ≤ volume ∧ volume ≤ 100

instance (volume : Int32) : Decidable (InPercent volume) := inferInstanceAs (Decidable (_ ∧ _))

/-- No product of the event leaves the range of an `int`. -/
def NoOverflow (p : SystemVolumePlugin) (e : Event) : Prop :=
  ∀ f ∈ factors p e, InInt (f.1.toInt * f.2.toInt)

def SinksNormalized (p : SystemVolumePlugin) : Prop := ∀ s ∈ p.remoteSinks, InPercent s.volume

/-- In a run from the plugin as it is made no product overflows and every volume
that is kept is a percentage. -/
def StaysNormalized (env : PluginEnv) (events : List Event) : Prop :=
  EveryStep (step env) NoOverflow {} events ∧ Always (step env) SinksNormalized {} events

/-- A raw volume that is a percentage of its maximum. -/
def Percentage (raw maxVolume : Int32) : Prop :=
  0 < maxVolume → InInt (raw.toInt * 100) ∧
    -maxVolume.toInt < raw.toInt * 100 ∧ raw.toInt * 100 < 101 * maxVolume.toInt

/-- What an event has to bring. -/
def Harmless (p : SystemVolumePlugin) : Event → Prop
  | .packet np => ∀ r ∈ readings np p, Percentage r.1 r.2
  | .setVolumeSink name volume _ _ =>
    InInt (volume.toInt * (maxVolumeOf p.remoteSinks name).toInt)

section Steps

variable {env : PluginEnv} {p : SystemVolumePlugin} {np : NetworkPacket}

/-- The normalised volume of a reading whose product is computed. -/
theorem toInt_normalized {raw maxVolume : Int32} (hmax : 0 < maxVolume)
    (h : InInt (raw.toInt * 100)) :
    (normalized raw maxVolume).toInt = rescale maxVolume.toInt 100 raw.toInt := by
  unfold normalized
  rw [if_pos hmax]
  exact toInt_mul_div h (Int32.lt_iff_toInt_lt.mp hmax)

theorem inPercent_iff (volume : Int32) :
    InPercent volume ↔ 0 ≤ volume.toInt ∧ volume.toInt ≤ 100 :=
  and_congr Int32.le_iff_toInt_le Int32.le_iff_toInt_le

/-- A reading is a percentage exactly if its product is computed and what is
kept of it is one. -/
theorem percentage_iff (raw maxVolume : Int32) :
    ((0 < maxVolume → InInt (raw.toInt * 100)) ∧ InPercent (normalized raw maxVolume)) ↔
      Percentage raw maxVolume := by
  by_cases hmax : 0 < maxVolume
  · have hpos : 0 < maxVolume.toInt := Int32.lt_iff_toInt_lt.mp hmax
    have hrange := rescale_mem_iff (x := raw.toInt) hpos (by omega : (0 : ℤ) ≤ 100)
    constructor
    · rintro ⟨hint, hvolume⟩ -
      rw [inPercent_iff, toInt_normalized hmax (hint hmax)] at hvolume
      exact ⟨hint hmax, hrange.mp hvolume⟩
    · intro h
      obtain ⟨hint, hbounds⟩ := h hmax
      refine ⟨fun _ => hint, ?_⟩
      rw [inPercent_iff, toInt_normalized hmax hint]
      exact hrange.mpr hbounds
  · have hzero : normalized raw maxVolume = 0 := if_neg hmax
    rw [hzero]
    exact iff_of_true ⟨fun h => absurd h hmax, by decide⟩ fun h => absurd h hmax

/-- An update changes the first sink of its name where it stands, or nothing. -/
theorem updateSink_split (name : String) (body : JsonBody) (sinks : List SinkState) :
    (sinks.find? (fun s => s.name = name) = none ∧ updateSink name body sinks = sinks) ∨
      ∃ before s after, sinks = before ++ s :: after ∧ s.name = name ∧
        before.find? (fun s => s.name = name) = none ∧
        updateSink name body sinks = before ++ SinkState.update body s :: after := by
  induction sinks with
  | nil => exact .inl ⟨rfl, rfl⟩
  | cons head tail ih =>
    by_cases hname : head.name = name
    · exact .inr ⟨[], head, tail, rfl, hname, rfl, if_pos hname⟩
    · have hskip : ∀ sinks : List SinkState, (head :: sinks).find? (fun s => s.name = name) =
          sinks.find? (fun s => s.name = name) :=
        fun sinks => List.find?_cons_of_neg (by simpa using hname)
      have hupdate : updateSink name body (head :: tail) = head :: updateSink name body tail :=
        if_neg hname
      rw [hskip, hupdate]
      rcases ih with ⟨hnone, hsame⟩ | ⟨before, s, after, rfl, hs, hbefore, hupdated⟩
      · exact .inl ⟨hnone, by rw [hsame]⟩
      · exact .inr ⟨head :: before, s, after, rfl, hs, (hskip before).trans hbefore, by
          rw [hupdated, List.cons_append]⟩

/-- The sink of a name that stands behind no other of it is the one found. -/
theorem find_split {name : String} {before : List SinkState} {s : SinkState}
    (hs : s.name = name) (hbefore : before.find? (fun s => s.name = name) = none)
    (after : List SinkState) :
    (before ++ s :: after).find? (fun s => s.name = name) = some s := by
  rw [List.find?_append, hbefore, Option.none_or]
  exact List.find?_cons_of_pos (decide_eq_true hs)

/-- An update leaves all volumes percentages exactly if the one it brings is. -/
theorem normalized_updateSink {sinks : List SinkState} (h : ∀ s ∈ sinks, InPercent s.volume)
    (name : String) (body : JsonBody) :
    (∀ s ∈ updateSink name body sinks, InPercent s.volume) ↔
      ∀ s, sinks.find? (fun s => s.name = name) = some s → body.isNum "volume" = true →
        InPercent (normalized (body.getInt "volume") s.maxVolume) := by
  rcases updateSink_split name body sinks with
    ⟨hnone, hsame⟩ | ⟨before, s, after, rfl, hs, hbefore, hupdated⟩
  · rw [hnone, hsame]
    exact iff_of_true h fun s hs => by cases hs
  · rw [find_split hs hbefore, hupdated]
    constructor
    · intro hall s' hs' hnum
      cases hs'
      have hvolume := hall _ (List.mem_append_right before List.mem_cons_self)
      unfold SinkState.update at hvolume
      rwa [if_pos hnum] at hvolume
    · intro hall t ht
      rcases List.mem_append.mp ht with hbefore' | hrest
      · exact h t (List.mem_append_left _ hbefore')
      · rcases List.mem_cons.mp hrest with rfl | hafter
        · unfold SinkState.update
          dsimp only
          split
          · exact hall s rfl ‹_›
          · exact h s (List.mem_append_right before List.mem_cons_self)
        · exact h t (List.mem_append_right before (List.mem_cons_of_mem s hafter))

/-- A packet leaves all volumes percentages exactly if all it brings are. -/
theorem normalized_packet (h : SinksNormalized p) :
    SinksNormalized (p.onPacketReceived env np).1 ↔
      ∀ r ∈ readings np p, InPercent (normalized r.1 r.2) := by
  unfold onPacketReceived readings
  by_cases hrequest : np.type = PacketTypes.systemVolumeRequest
  · have htype : np.type ≠ PacketTypes.systemVolume := by
      rw [hrequest]
      decide
    have hkept : SinksNormalized p ↔ ∀ r ∈ ([] : List (Int32 × Int32)),
        InPercent (normalized r.1 r.2) := iff_of_true h (by simp)
    rw [if_pos hrequest, if_pos htype]
    split
    · exact hkept
    · split <;> exact hkept
  · rw [if_neg hrequest]
    by_cases htype : np.type = PacketTypes.systemVolume
    · rw [if_pos htype, if_neg (not_not_intro htype)]
      by_cases hlist : np.body.isArray "sinkList" = true
      · rw [if_pos hlist, if_pos hlist]
        simp [SinksNormalized, sinkOf]
      · rw [if_neg hlist, if_neg hlist]
        by_cases hname : np.body.has "name" = true
        · have hupdated := normalized_updateSink h (np.body.getStr "name") np.body
          rw [if_pos hname, hname, Bool.true_and]
          refine hupdated.trans ?_
          by_cases hnum : np.body.isNum "volume" = true
          · rw [if_pos hnum]
            cases p.remoteSinks.find? fun s => s.name = np.body.getStr "name" <;> simp [hnum]
          · simp [hnum]
        · simp [hname, h]
    · rw [if_neg htype, if_pos htype]
      simpa using h

/-- The step lemma: an event has no overflow and keeps all volumes percentages
exactly if it is harmless. -/
theorem sinksNormalized_step_iff (env : PluginEnv) (h : SinksNormalized p) (e : Event) :
    (NoOverflow p e ∧ SinksNormalized (step env p e)) ↔ Harmless p e := by
  cases e with
  | packet np =>
    have hproducts : NoOverflow p (.packet np) ↔
        ∀ r ∈ readings np p, 0 < r.2 → InInt (r.1.toInt * 100) := by
      unfold NoOverflow factors
      rw [List.forall_mem_map]
      simp only [List.mem_filter, decide_eq_true_eq, and_imp]
      exact Iff.rfl
    change (NoOverflow p (.packet np) ∧ SinksNormalized (p.onPacketReceived env np).1) ↔ _
    rw [hproducts, normalized_packet h, ← forall₂_and]
    exact forall₂_congr fun r _ => percentage_iff r.1 r.2
  | setVolumeSink name volume muted isDefaultOutput =>
    simp [NoOverflow, factors, step, Harmless, h]

end Steps

/-- The volumes of remote sinks stay percentages, and no product overflows,
exactly in the runs of harmless events. -/
theorem staysNormalized_iff (env : PluginEnv) (events : List Event) :
    StaysNormalized env events ↔ EveryStep (step env) Harmless {} events := by
  refine everyStep_and_always_iff (fun p e hp => sinksNormalized_step_iff env hp e) ?_ events
  intro s hs
  cases hs

/-- A sink that is turned up beyond its maximum. -/
def amplifiedList : NetworkPacket where
  type := PacketTypes.systemVolume
  body := ({} : JsonBody).setArrayWithObject "sinkList" fun obj =>
    ((obj.setStr "name" "hdmi").setInt "volume" 98304).setInt "maxVolume" 65536

/-- It is kept at 150 percent. -/
theorem notNormalized_amplified :
    ¬ ∀ (env : PluginEnv) (events : List Event), StaysNormalized env events := by
  intro h
  let env : PluginEnv := { json := Yyjson.reference, steady := 0 }
  have hkept : SinksNormalized (step env {} (.packet amplifiedList)) :=
    (h env [.packet amplifiedList]).2.2
  have hvolumes : (step env {} (.packet amplifiedList)).remoteSinks.map SinkState.volume =
      [150] := by
    decide
  have hmem : (150 : Int32) ∈
      (step env {} (.packet amplifiedList)).remoteSinks.map SinkState.volume := by
    rw [hvolumes]
    exact List.mem_cons_self
  obtain ⟨s, hs, hvolume⟩ := List.mem_map.mp hmem
  exact absurd (hkept s hs) (by rw [hvolume]; decide)

end KdeConnectNx.SinkVolumes
