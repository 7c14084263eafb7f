import KdeConnectNx.SinkVolumes

/-!
# Volumes that are sent and reported back

The overlay sends percents; the plugin scales them to the sink's raw range, the
device reports what it has then, and the plugin scales that back. The slider of
the overlay re-sends what it shows when the sink is muted, unmuted or made the
default.
-/

namespace KdeConnectNx.VolumeEchoes

open JsonTree PacketBody PacketFormat Plugins Plugins.SystemVolumePlugin Identifiers Runs Scales
  SinkVolumes

/-! ## The slider -/

/-- A track bar of the drawing library that can be muted. -/
structure MuteTrackBar where
  /-- `m_value`, the progress the library draws. -/
  value : UInt16 := 0
  muted : Bool := false
  realVolume : UInt16 := 0

namespace MuteTrackBar

def setProgress (value : UInt16) (b : MuteTrackBar) : MuteTrackBar := { b with value := value }

def setMuted (muted : Bool) (b : MuteTrackBar) : MuteTrackBar :=
  if muted then { muted := true, realVolume := b.value, value := 0 } else { b with muted := false }

def getRealVolume (b : MuteTrackBar) : UInt16 := if b.muted then b.realVolume else b.value

/-- The Y button in `handleInput`. -/
def pressY (b : MuteTrackBar) : MuteTrackBar :=
  if !b.muted then { muted := true, realVolume := b.value, value := 0 }
  else { b with muted := false, value := b.realVolume }

/-- The slider `createUI` makes for a sink. -/
def ofSink (s : SinkState) : MuteTrackBar :=
  let b := setProgress s.volume.toUInt32.toUInt16 {}
  if s.isMuted then b.setMuted true else b

/-- Y changes what is drawn and not the volume behind it. -/
@[simp] theorem getRealVolume_pressY (b : MuteTrackBar) :
    b.pressY.getRealVolume = b.getRealVolume := by
  unfold pressY getRealVolume
  cases b.muted <;> rfl

/-- What the listener is given is that volume. -/
theorem realVolume_pressY {b : MuteTrackBar} :
    b.pressY.realVolume = b.getRealVolume := by
  unfold pressY getRealVolume
  cases b.muted <;> rfl

@[simp] theorem getRealVolume_ofSink (s : SinkState) :
    (ofSink s).getRealVolume = s.volume.toUInt32.toUInt16 := by
  unfold ofSink setProgress setMuted getRealVolume
  cases s.isMuted <;> rfl

end MuteTrackBar

/-- A `u16` of the overlay as the `int32_t` of a request. -/
def ofProgress (value : UInt16) : Int32 := Int32.ofNat value.toNat

/-- Percents pass through the slider unaltered. -/
theorem ofProgress_percent {volume : Int32} (h : InPercent volume) :
    ofProgress volume.toUInt32.toUInt16 = volume := by
  have hnat : (volume.toNatClampNeg : ℤ) = volume.toInt := Int32.cast_toNatClampNeg volume h.1
  have hle := ((inPercent_iff volume).mp h).2
  have hcast : volume.toUInt32.toUInt16.toNat = volume.toNatClampNeg := by
    rw [UInt32.toNat_toUInt16, Int32.toNat_toUInt32_of_le h.1]
    omega
  rw [ofProgress, hcast]
  exact Int32.ofNat_toNatClampNeg volume h.1

/-! ## The device -/

/-- The sink on the device, which does what requests say. -/
structure DeviceSink where
  raw : Int32
  muted : Bool := false
  enabled : Bool := false

namespace DeviceSink

def onRequest (body : JsonBody) (d : DeviceSink) : DeviceSink where
  raw := if body.isNum "volume" then body.getInt "volume" else d.raw
  muted := if body.isBool "muted" then body.getBool "muted" else d.muted
  enabled := body.valueBool "enabled" false || d.enabled

/-- The update it sends of itself. -/
def report (name : String) (d : DeviceSink) : NetworkPacket where
  type := PacketTypes.systemVolume
  body := (((({} : JsonBody).setStr "name" name).setInt "volume" d.raw).setBool "muted"
    d.muted).setBool "enabled" d.enabled

end DeviceSink

section Packets

theorem isNum_sinkRequest (name : String) (maxVolume volume : Int32)
    (muted isDefaultOutput : Bool) :
    (sinkRequest name maxVolume volume muted isDefaultOutput).body.isNum "volume" = true := by
  cases isDefaultOutput <;> rfl

/-- The raw volume of a request, whatever else it asks for. -/
theorem getInt_sinkRequest (name : String) (maxVolume volume : Int32)
    (muted isDefaultOutput : Bool) :
    (sinkRequest name maxVolume volume muted isDefaultOutput).body.getInt "volume" =
      volume * maxVolume / 100 := by
  cases isDefaultOutput with
  | false => exact volume_sinkRequest name maxVolume volume muted
  | true =>
    have hother : (sinkRequest name maxVolume volume muted true).body.field "volume" =
        (sinkRequest name maxVolume volume muted false).body.field "volume" :=
      JsonBody.field_setVal_ne (by decide) _ _
    have hsame := volume_sinkRequest name maxVolume volume muted
    unfold JsonBody.getInt JsonBody.valueInt
    rw [hother]
    exact hsame

variable (name : String) (d : DeviceSink)

theorem field_report_name : (d.report name).body.field "name" = some (.str (cstr name)) := rfl

theorem field_report_volume :
    (d.report name).body.field "volume" = some (.int .sint (d.raw.toBitVec.signExtend 64)) := rfl

theorem getInt_report : (d.report name).body.getInt "volume" = d.raw := by
  unfold JsonBody.getInt JsonBody.valueInt
  rw [field_report_volume]
  exact JsonBody.getInt_signExtend d.raw

/-- A report is an update of the first sink of its name. -/
theorem onPacketReceived_report {name : String} (h : NulFree name) (env : PluginEnv)
    (p : SystemVolumePlugin) :
    (p.onPacketReceived env (d.report name)).1.remoteSinks =
      updateSink name (d.report name).body p.remoteSinks := by
  have hname : (d.report name).body.getStr "name" = name := by
    unfold JsonBody.getStr JsonBody.valueStr
    rw [field_report_name]
    exact (cstr_of_nulFree (cstr_nulFree name)).trans (cstr_of_nulFree h)
  have hnotList : (d.report name).body.isArray "sinkList" = false := rfl
  have hhas : (d.report name).body.has "name" = true := rfl
  have hrequest : (d.report name).type ≠ PacketTypes.systemVolumeRequest :=
    (by decide : PacketTypes.systemVolume ≠ PacketTypes.systemVolumeRequest)
  have htype : (d.report name).type = PacketTypes.systemVolume := rfl
  unfold onPacketReceived
  rw [if_neg hrequest, if_pos htype, hnotList, hhas, hname]
  rfl

/-- An update keeps the first sink of its name first. -/
theorem find_updateSink {name : String} {sinks : List SinkState} {s : SinkState}
    (h : sinks.find? (fun s => s.name = name) = some s) (body : JsonBody) :
    (updateSink name body sinks).find? (fun s => s.name = name) =
      some (SinkState.update body s) := by
  rcases updateSink_split name body sinks with
    ⟨hnone, -⟩ | ⟨before, first, after, rfl, hfirst, hbefore, hupdated⟩
  · rw [hnone] at h
    cases h
  · rw [find_split hfirst hbefore] at h
    obtain rfl : first = s := Option.some.inj h
    have hname : (SinkState.update body first).name = name := hfirst
    rw [hupdated]
    exact find_split hname hbefore after

end Packets

/-! ## One sink -/

/-- A sink that requests by its name reach: the first of that name in the list,
with a maximum that scales percents without overflow. Names come out of C
strings. -/
structure KnownSink where
  sinks : List SinkState
  sink : SinkState
  found : sinks.find? (fun s => s.name = sink.name) = some sink
  nulFree : NulFree sink.name
  large : 100 ≤ sink.maxVolume
  products : InInt (100 * sink.maxVolume.toInt)

namespace KnownSink

variable (k : KnownSink)

def plugin : SystemVolumePlugin := { remoteSinks := k.sinks }

/-- The percentage is what the plugin keeps once the device has reported what it
was sent for it. -/
def Returns (percentage : Int32) : Prop :=
  ∀ env muted isDefaultOutput, ∀ d : DeviceSink,
    let request := setRemoteSink k.plugin k.sink.name percentage muted isDefaultOutput
    ((k.plugin.onPacketReceived env
      ((d.onRequest request.body).report k.sink.name)).1.remoteSinks.find?
      fun s => s.name = k.sink.name).map SinkState.volume = some percentage

/-- The device has the sink at that raw volume, and the plugin keeps it as it was
reported. -/
def Shows (raw : Int32) : Prop :=
  0 ≤ raw ∧ raw ≤ k.sink.maxVolume ∧ k.sink.volume = normalized raw k.sink.maxVolume

end KnownSink

/-- The plugin, the slider of the sink while the list is on the screen, the
device, and the packets on their way in both directions. -/
structure World where
  plugin : SystemVolumePlugin
  slider : Option MuteTrackBar := none
  device : DeviceSink
  requests : List NetworkPacket := []
  reports : List NetworkPacket := []

inductive Event where
  /-- `createUI` draws the sinks the plugin has. -/
  | openList
  /-- The Y button on the slider. -/
  | toggleMute
  /-- The button below it. -/
  | setAsDefault
  /-- The device takes the next request and reports. -/
  | answer
  /-- The next report arrives. -/
  | echo

def step (env : PluginEnv) (name : String) (w : World) : Event → World
  | .openList =>
    { w with slider := (w.plugin.remoteSinks.find? fun s => s.name = name).map MuteTrackBar.ofSink }
  | .toggleMute =>
    match w.slider with
    | none => w
    | some b =>
      { w with
        slider := some b.pressY
        requests := w.requests ++
          [setRemoteSink w.plugin name (ofProgress b.pressY.realVolume) b.pressY.muted false] }
  | .setAsDefault =>
    match w.slider with
    | none => w
    | some b =>
      { w with requests := w.requests ++
          [setRemoteSink w.plugin name (ofProgress b.getRealVolume) b.muted true] }
  | .answer =>
    match w.requests with
    | [] => w
    | request :: rest =>
      let device := w.device.onRequest request.body
      { w with device := device, requests := rest, reports := w.reports ++ [device.report name] }
  | .echo =>
    match w.reports with
    | [] => w
    | np :: rest => { w with plugin := (w.plugin.onPacketReceived env np).1, reports := rest }

namespace KnownSink

variable (k : KnownSink)

/-- The plugin, the slider and the device have the sink where it was. -/
structure Unchanged (raw : Int32) (w : World) : Prop where
  displayed : (w.plugin.remoteSinks.find? fun s => s.name = k.sink.name).map SinkState.volume =
    some k.sink.volume
  slider : ∀ b ∈ w.slider, ofProgress b.getRealVolume = k.sink.volume
  device : w.device.raw = raw

/-- However often the sink is muted, unmuted or made the default, and whenever
the reports arrive and the list is opened again, the volume stays. -/
def Steady (raw : Int32) : Prop :=
  ∀ env muted enabled events, Always (step env k.sink.name) (k.Unchanged raw)
    { plugin := k.plugin, device := { raw := raw, muted := muted, enabled := enabled } } events

/-- What everything on the way agrees on while the volume stays. -/
structure Settled (raw : Int32) (w : World) : Prop where
  plugin : ∃ s, (w.plugin.remoteSinks.find? fun s => s.name = k.sink.name) = some s ∧
    s.volume = k.sink.volume ∧ s.maxVolume = k.sink.maxVolume
  slider : ∀ b ∈ w.slider, ofProgress b.getRealVolume = k.sink.volume
  device : w.device.raw = raw
  requests : ∀ np ∈ w.requests, np.body.isNum "volume" = true ∧ np.body.getInt "volume" = raw
  reports : ∀ np ∈ w.reports, ∃ d : DeviceSink, d.raw = raw ∧ np = d.report k.sink.name

section Conversions

variable {k} {raw percentage : Int32}

theorem maxVolume_bounds (k : KnownSink) :
    100 ≤ k.sink.maxVolume.toInt ∧ 100 * k.sink.maxVolume.toInt < 2 ^ 31 :=
  ⟨Int32.le_iff_toInt_le.mp k.large, k.products.2⟩

/-- What is sent for a percentage is moved to the scale of the sink. -/
theorem toInt_sent (k : KnownSink) (h : InPercent percentage) :
    (percentage * k.sink.maxVolume / 100).toInt =
      rescale 100 k.sink.maxVolume.toInt percentage.toInt := by
  obtain ⟨hlow, hhigh⟩ := (inPercent_iff percentage).mp h
  obtain ⟨hlarge, hproducts⟩ := k.maxVolume_bounds
  have hnonneg : 0 ≤ percentage.toInt * k.sink.maxVolume.toInt :=
    mul_nonneg hlow (by omega)
  have hle : percentage.toInt * k.sink.maxVolume.toInt ≤ 100 * k.sink.maxVolume.toInt :=
    mul_le_mul_of_nonneg_right hhigh (by omega)
  exact toInt_mul_div ⟨by omega, by omega⟩ (by decide)

/-- It is a raw volume the sink can have. -/
theorem sent_bounds (k : KnownSink) (h : InPercent percentage) :
    0 ≤ (percentage * k.sink.maxVolume / 100).toInt ∧
      (percentage * k.sink.maxVolume / 100).toInt ≤ k.sink.maxVolume.toInt := by
  obtain ⟨hlow, hhigh⟩ := (inPercent_iff percentage).mp h
  have hlarge := k.maxVolume_bounds.1
  rw [k.toInt_sent h]
  exact ⟨rescale_nonneg hlow (by omega) (by omega), rescale_le (by omega) (by omega) hhigh⟩

/-- What is kept of a raw volume is moved to percents. -/
theorem toInt_kept (k : KnownSink) (hlow : 0 ≤ raw.toInt)
    (hhigh : raw.toInt ≤ k.sink.maxVolume.toInt) :
    (normalized raw k.sink.maxVolume).toInt = rescale k.sink.maxVolume.toInt 100 raw.toInt := by
  obtain ⟨hlarge, hproducts⟩ := k.maxVolume_bounds
  have hpos : 0 < k.sink.maxVolume := Int32.lt_iff_toInt_lt.mpr (by
    change (0 : ℤ) < _
    omega)
  exact toInt_normalized hpos ⟨by omega, by omega⟩

theorem inPercent_of_shows (h : k.Shows raw) : InPercent k.sink.volume := by
  obtain ⟨hlow, hhigh, hvolume⟩ := h
  have hlow' : 0 ≤ raw.toInt := Int32.le_iff_toInt_le.mp hlow
  have hhigh' := Int32.le_iff_toInt_le.mp hhigh
  have hlarge := k.maxVolume_bounds.1
  rw [inPercent_iff, hvolume, k.toInt_kept hlow' hhigh']
  exact ⟨rescale_nonneg hlow' (by omega) (by omega), rescale_le (by omega) (by omega) hhigh'⟩

/-- A percentage survives both conversions if its product with the maximum is a
whole number of hundreds. -/
theorem kept_sent_iff (k : KnownSink) (h : InPercent percentage) :
    normalized (percentage * k.sink.maxVolume / 100) k.sink.maxVolume = percentage ↔
      100 ∣ percentage.toInt * k.sink.maxVolume.toInt := by
  have hlow := ((inPercent_iff percentage).mp h).1
  have hlarge := k.maxVolume_bounds.1
  obtain ⟨hsent, hsent'⟩ := k.sent_bounds h
  rw [← Int32.toInt_inj, k.toInt_kept hsent hsent', k.toInt_sent h]
  exact rescale_rescale_eq_iff (by omega) (by omega) hlow

/-- A raw volume survives them if what it is in percents is not rounded. -/
theorem sent_kept_iff (h : k.Shows raw) :
    k.sink.volume * k.sink.maxVolume / 100 = raw ↔ k.sink.maxVolume.toInt ∣ raw.toInt * 100 := by
  have hpercent := inPercent_of_shows h
  obtain ⟨hlow, hhigh, hvolume⟩ := h
  have hlow' : 0 ≤ raw.toInt := Int32.le_iff_toInt_le.mp hlow
  have hlarge := k.maxVolume_bounds.1
  rw [← Int32.toInt_inj, k.toInt_sent hpercent, hvolume,
    k.toInt_kept hlow' (Int32.le_iff_toInt_le.mp hhigh)]
  exact rescale_rescale_eq_iff (by omega) (by omega) hlow'

end Conversions

section Echoes

variable {k} {raw : Int32} {w : World}

/-- A request by the name of the sink is scaled by its maximum. -/
theorem setRemoteSink_found {p : SystemVolumePlugin} {s : SinkState}
    (h : p.remoteSinks.find? (fun s => s.name = k.sink.name) = some s) (volume : Int32)
    (muted isDefaultOutput : Bool) :
    setRemoteSink p k.sink.name volume muted isDefaultOutput =
      sinkRequest k.sink.name s.maxVolume volume muted isDefaultOutput := by
  unfold setRemoteSink maxVolumeOf
  rw [h]
  rfl

/-- A report is kept in percents of the stored maximum. -/
theorem find_after_report (k : KnownSink) (env : PluginEnv) {p : SystemVolumePlugin} {s : SinkState}
    (h : p.remoteSinks.find? (fun s => s.name = k.sink.name) = some s) (d : DeviceSink) :
    ∃ s', ((p.onPacketReceived env (d.report k.sink.name)).1.remoteSinks.find?
        fun s => s.name = k.sink.name) = some s' ∧
      s'.volume = normalized d.raw s.maxVolume ∧ s'.maxVolume = s.maxVolume := by
  refine ⟨SinkState.update (d.report k.sink.name).body s, ?_, ?_, rfl⟩
  · rw [onPacketReceived_report d k.nulFree]
    exact find_updateSink h _
  · have hnum : (d.report k.sink.name).body.isNum "volume" = true := rfl
    unfold SinkState.update
    rw [if_pos hnum, getInt_report]

theorem returns_iff (k : KnownSink) {percentage : Int32} (h : InPercent percentage) :
    k.Returns percentage ↔ 100 ∣ percentage.toInt * k.sink.maxVolume.toInt := by
  rw [← k.kept_sent_iff h]
  have hreported : ∀ env muted isDefaultOutput, ∀ d : DeviceSink,
      ((k.plugin.onPacketReceived env ((d.onRequest (setRemoteSink k.plugin k.sink.name percentage
        muted isDefaultOutput).body).report k.sink.name)).1.remoteSinks.find?
        fun s => s.name = k.sink.name).map SinkState.volume =
      some (normalized (percentage * k.sink.maxVolume / 100) k.sink.maxVolume) := by
    intro env muted isDefaultOutput d
    have hfound : k.plugin.remoteSinks.find? (fun s => s.name = k.sink.name) = some k.sink :=
      k.found
    obtain ⟨s', hs', hvolume, -⟩ := k.find_after_report env hfound
      (d.onRequest (setRemoteSink k.plugin k.sink.name percentage muted isDefaultOutput).body)
    have hraw : (d.onRequest (setRemoteSink k.plugin k.sink.name percentage muted
        isDefaultOutput).body).raw = percentage * k.sink.maxVolume / 100 := by
      unfold DeviceSink.onRequest
      rw [setRemoteSink_found hfound, isNum_sinkRequest, getInt_sinkRequest]
      rfl
    rw [hs', Option.map_some, hvolume, hraw]
  constructor
  · intro hreturns
    have hback := hreturns { json := Yyjson.reference, steady := 0 } false false { raw := 0 }
    dsimp only at hback
    rw [hreported] at hback
    exact Option.some.inj hback
  · intro hkept env muted isDefaultOutput d
    dsimp only
    rw [hreported, hkept]

/-- What is settled is unchanged. -/
theorem Settled.unchanged (h : k.Settled raw w) : k.Unchanged raw w where
  displayed := by
    obtain ⟨s, hs, hvolume, -⟩ := h.plugin
    rw [hs, Option.map_some, hvolume]
  slider := h.slider
  device := h.device

/-- What the slider re-sends asks for the raw volume the device has. -/
theorem Settled.request (h : k.Settled raw w)
    (hsent : k.sink.volume * k.sink.maxVolume / 100 = raw) (muted isDefaultOutput : Bool) :
    ∀ np ∈ w.requests ++ [setRemoteSink w.plugin k.sink.name k.sink.volume muted isDefaultOutput],
      np.body.isNum "volume" = true ∧ np.body.getInt "volume" = raw := by
  obtain ⟨s, hs, -, hmax⟩ := h.plugin
  intro np hnp
  rcases List.mem_append.mp hnp with hold | hnew
  · exact h.requests np hold
  · rw [List.mem_singleton.mp hnew, setRemoteSink_found hs, isNum_sinkRequest, getInt_sinkRequest,
      hmax]
    exact ⟨rfl, hsent⟩

/-- The device takes a request and reports what it was asked for. -/
theorem Settled.answer (env : PluginEnv) (h : k.Settled raw w) :
    k.Settled raw (VolumeEchoes.step env k.sink.name w .answer) := by
  unfold VolumeEchoes.step
  cases hrequests : w.requests with
  | nil => exact h
  | cons request rest =>
    have hfirst := h.requests request (by rw [hrequests]; exact List.mem_cons_self)
    have hraw : (w.device.onRequest request.body).raw = raw := by
      unfold DeviceSink.onRequest
      rw [hfirst.1, hfirst.2]
      rfl
    refine { h with device := hraw, requests := ?_, reports := ?_ }
    · intro np hnp
      exact h.requests np (by rw [hrequests]; exact List.mem_cons_of_mem _ hnp)
    · intro np hnp
      rcases List.mem_append.mp hnp with hold | hnew
      · exact h.reports np hold
      · exact ⟨_, hraw, List.mem_singleton.mp hnew⟩

/-- A report is kept in the percents there were. -/
theorem Settled.echo (env : PluginEnv) (hkept : normalized raw k.sink.maxVolume = k.sink.volume)
    (h : k.Settled raw w) : k.Settled raw (VolumeEchoes.step env k.sink.name w .echo) := by
  unfold VolumeEchoes.step
  cases hreports : w.reports with
  | nil => exact h
  | cons np rest =>
    obtain ⟨d, hd, rfl⟩ := h.reports np (by rw [hreports]; exact List.mem_cons_self)
    obtain ⟨s, hs, -, hmax⟩ := h.plugin
    obtain ⟨s', hs', hvolume', hmax'⟩ := k.find_after_report env hs d
    refine { h with plugin := ⟨s', hs', ?_, hmax'.trans hmax⟩, reports := ?_ }
    · rw [hvolume', hd, hmax, hkept]
    · intro np hnp
      exact h.reports np (by rw [hreports]; exact List.mem_cons_of_mem _ hnp)

/-- The step lemma: nothing that happens unsettles a volume that both sides
convert into each other. -/
theorem Settled.step (env : PluginEnv) (hpercent : InPercent k.sink.volume)
    (hsent : k.sink.volume * k.sink.maxVolume / 100 = raw)
    (hkept : normalized raw k.sink.maxVolume = k.sink.volume) (h : k.Settled raw w) (e : Event) :
    k.Settled raw (VolumeEchoes.step env k.sink.name w e) := by
  cases e with
  | openList =>
    obtain ⟨s, hs, hvolume, -⟩ := h.plugin
    refine { h with slider := ?_ }
    intro b hb
    change b ∈ (w.plugin.remoteSinks.find? fun s => s.name = k.sink.name).map MuteTrackBar.ofSink
      at hb
    rw [hs, Option.map_some, Option.mem_some_iff] at hb
    rw [← hb, MuteTrackBar.getRealVolume_ofSink, hvolume]
    exact ofProgress_percent hpercent
  | toggleMute =>
    unfold VolumeEchoes.step
    cases hslider : w.slider with
    | none => exact h
    | some b =>
      have hb : ofProgress b.getRealVolume = k.sink.volume := h.slider b hslider
      dsimp only
      rw [MuteTrackBar.realVolume_pressY, hb]
      refine { h with slider := ?_, requests := h.request hsent _ _ }
      intro b' hb'
      rw [Option.mem_some_iff] at hb'
      rw [← hb', MuteTrackBar.getRealVolume_pressY, hb]
  | setAsDefault =>
    unfold VolumeEchoes.step
    cases hslider : w.slider with
    | none => exact h
    | some b =>
      have hb : ofProgress b.getRealVolume = k.sink.volume := h.slider b hslider
      dsimp only
      rw [hb]
      have hkeeps : ∀ b' ∈ w.slider, ofProgress b'.getRealVolume = k.sink.volume := h.slider
      rw [hslider] at hkeeps
      exact { h with slider := hkeeps, requests := h.request hsent _ _ }
  | answer => exact h.answer env
  | echo => exact h.echo env hkept

/-- A sink stays where it is exactly if its raw volume is a whole percentage. -/
theorem steady_iff (h : k.Shows raw) :
    k.Steady raw ↔ k.sink.maxVolume.toInt ∣ raw.toInt * 100 := by
  have hpercent := inPercent_of_shows h
  rw [← sent_kept_iff h]
  constructor
  · intro hsteady
    -- the list is opened, the sink made the default, and the device answers
    let env : PluginEnv := { json := Yyjson.reference, steady := 0 }
    have hlast := (hsteady env false false [.openList, .setAsDefault, .answer]).last
    have hfound : k.plugin.remoteSinks.find? (fun s => s.name = k.sink.name) = some k.sink :=
      k.found
    have hdevice := hlast.device
    simp only [run_cons, run_nil, VolumeEchoes.step, hfound, Option.map_some, List.nil_append,
      MuteTrackBar.getRealVolume_ofSink, ofProgress_percent hpercent, DeviceSink.onRequest,
      setRemoteSink_found hfound, isNum_sinkRequest, getInt_sinkRequest, if_true] at hdevice
    exact hdevice
  · intro hsent env muted enabled events
    have hstart : k.Settled raw
        { plugin := k.plugin, device := { raw := raw, muted := muted, enabled := enabled } } :=
      { plugin := ⟨k.sink, k.found, rfl, rfl⟩
        slider := fun b hb => by cases hb
        device := rfl
        requests := fun np hnp => by cases hnp
        reports := fun np hnp => by cases hnp }
    have hstep : ∀ w e, k.Settled raw w → k.Settled raw (VolumeEchoes.step env k.sink.name w e) :=
      fun w e hw => hw.step env hpercent hsent h.2.2.symm e
    exact (always_of_step hstep hstart events).imp fun _ hw => hw.unchanged

end Echoes

/-- For a sink with a maximum from 100 on: a percentage comes back as it was set
exactly if the conversion to the raw scale cuts nothing, and toggles and choices
of the default leave the volume alone exactly if the conversion to percents cut
nothing. -/
theorem noDrift_iff (k : KnownSink) :
    (∀ percentage, InPercent percentage →
      (k.Returns percentage ↔ 100 ∣ percentage.toInt * k.sink.maxVolume.toInt)) ∧
    (∀ raw, k.Shows raw → (k.Steady raw ↔ k.sink.maxVolume.toInt ∣ raw.toInt * 100)) :=
  ⟨fun _ h => k.returns_iff h, fun _ h => steady_iff h⟩

/-- A sink as sound servers have it, at its full volume. -/
def pulseSink : KnownSink where
  sinks := [{ name := "hdmi", volume := 100, maxVolume := 65536 }]
  sink := { name := "hdmi", volume := 100, maxVolume := 65536 }
  found := rfl
  nulFree := by decide
  large := by decide
  products := by decide

/-- One percent of it is sent as 655 and comes back as nothing. -/
theorem notReturns_onePercent :
    ¬ ∀ (k : KnownSink) (percentage : Int32), InPercent percentage → k.Returns percentage := by
  intro h
  have hreturns := h pulseSink 1 (by decide)
  exact absurd ((pulseSink.returns_iff (by decide)).mp hreturns) (by decide)

end KnownSink

end KdeConnectNx.VolumeEchoes
