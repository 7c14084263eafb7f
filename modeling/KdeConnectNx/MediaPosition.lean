import KdeConnectNx.SelectedPlayer
import Mathlib.Algebra.Order.Group.Unbundled.Int

/-!
# The position that is shown

The plugin keeps a position and when it came, and adds the time since while the
player plays. A position comes with a status packet or from a local seek; what the
sum is capped at comes with packets of its own.
-/

namespace KdeConnectNx.MediaPosition

open PacketBody PacketFormat Plugins Plugins.MprisPlugin Runs SelectedPlayer

inductive Event where
  /-- A packet, with the readings that test the seek lock and date a position. -/
  | packet (np : NetworkPacket) (test stamp : Int64)
  /-- `set_position`, with the readings that date it and set the lock. -/
  | setPosition (positionMs stamp lockFrom : Int64)
  /-- `seek`, which only tells the device. -/
  | seek (offsetMs : Int64)
  /-- `player_state`, with its reading of the clock. -/
  | read (now : Int64)

/-- The plugin, and the last reading of the clock. -/
structure World where
  plugin : MprisPlugin := {}
  now : Int64

def step (w : World) : Event → World
  | .packet np test stamp => ⟨onPacketReceived test stamp np w.plugin, stamp⟩
  | .setPosition positionMs stamp lockFrom =>
    ⟨setPosition positionMs stamp lockFrom w.plugin, lockFrom⟩
  | .seek _ => w
  | .read now => { w with now := now }

/-- The clock never goes back. -/
def Ticks (w : World) : Event → Prop
  | .packet _ test stamp => w.now ≤ test ∧ test ≤ stamp
  | .setPosition _ stamp lockFrom => w.now ≤ stamp ∧ stamp ≤ lockFrom
  | .seek _ => True
  | .read now => w.now ≤ now

/-- The position goes on by itself. -/
def goesOn (s : PlayerState) : Bool := s.isPlaying && decide (0 < s.lastPositionTimeMs)

/-- The position with the time since it came. -/
def advanced (s : PlayerState) (now : Int64) : ℤ :=
  s.position.toInt + (now.toInt - s.lastPositionTimeMs.toInt)

/-- What is shown now: no negative number, no position behind the end, and the sum
that is computed for it is the sum. -/
structure Displayable (w : World) : Prop where
  position : 0 ≤ (playerState w.now w.plugin).position
  length : 0 ≤ (playerState w.now w.plugin).length
  within : 0 < (playerState w.now w.plugin).length →
    (playerState w.now w.plugin).position ≤ (playerState w.now w.plugin).length
  exact : goesOn w.plugin.state = true →
    (w.plugin.state.position + (w.now - w.plugin.state.lastPositionTimeMs)).toInt =
      advanced w.plugin.state w.now

/-- The position is inside of a track of this length, zero for an unknown one. -/
def InTrack (position length : Int64) : Prop := 0 ≤ position ∧ (0 < length → position ≤ length)

/-- The time since a position came is no longer than what it leaves of 64 bits. -/
def Lasts (position last now : Int64) : Prop :=
  now.toInt - last.toInt ≤ Int64.maxValue.toInt - position.toInt

/-- While the position goes on, it has not been for longer than that. -/
def Reaches (s : PlayerState) (now : Int64) : Prop :=
  goesOn s = true → Lasts s.position s.lastPositionTimeMs now

/-- The flag that a status brings, or the one there is. -/
def playsWith (body : JsonBody) (s : PlayerState) : Bool :=
  if body.has "isPlaying" then body.getBool "isPlaying" else s.isPlaying

/-- The length that a status brings, unless it is negative, or the one there is. -/
def lengthWith (body : JsonBody) (s : PlayerState) : Int64 :=
  if body.isNum "length" && decide (0 ≤ body.getI64 "length") then body.getI64 "length"
  else s.length

/-- Of the packet and the state it comes in: a position that is taken is within the
length that is then known, unless the player then plays; without one the stored
position is within that length, or if the player then plays, it came recently
enough. -/
def StatusFits (test stamp : Int64) (np : NetworkPacket) (p : MprisPlugin) : Prop :=
  if takesPosition test p.seekLockUntilMs np.body then
    (playsWith np.body p.state = true ∧ 0 < stamp) ∨ lengthWith np.body p.state ≤ 0 ∨
      np.body.getI64 "pos" ≤ lengthWith np.body p.state
  else if playsWith np.body p.state && decide (0 < p.state.lastPositionTimeMs) then
    Lasts p.state.position p.state.lastPositionTimeMs stamp
  else InTrack p.state.position (lengthWith np.body p.state)

/-- A local seek is within the length, or if the player plays, it is not before the
start by more than the time that passes while it is set, and lasts so long. -/
def SeekFits (positionMs stamp lockFrom : Int64) (s : PlayerState) : Prop :=
  if s.isPlaying && decide (0 < stamp) then
    stamp.toInt - lockFrom.toInt ≤ positionMs.toInt ∧ Lasts positionMs stamp lockFrom
  else InTrack positionMs s.length

/-- A list that selects another player is always fine. -/
def Fits (w : World) : Event → Prop
  | .packet np test stamp =>
    if selects w.plugin np then True
    else if follows w.plugin np then StatusFits test stamp np w.plugin
    else Reaches w.plugin.state stamp
  | .setPosition positionMs stamp lockFrom => SeekFits positionMs stamp lockFrom w.plugin.state
  | .seek _ => True
  | .read now => Reaches w.plugin.state now

/-! ## One reading -/

section Readings

variable {s : PlayerState} {p : MprisPlugin} {now : Int64}

/-- No length is negative, and a position came before the last reading. -/
structure Dated (w : World) : Prop where
  length : 0 ≤ w.plugin.state.length
  past : 0 < w.plugin.state.lastPositionTimeMs → w.plugin.state.lastPositionTimeMs ≤ w.now

/-- What is shown, in numbers. -/
def Shown (s : PlayerState) (now : Int64) : Prop :=
  if goesOn s then 0 ≤ advanced s now ∧ advanced s now < 2 ^ 63 else InTrack s.position s.length

/-- Where the sum stays within 64 bits it is the exact one. -/
theorem toInt_advanced (hlast : 0 < s.lastPositionTimeMs) (hpast : s.lastPositionTimeMs ≤ now)
    (hlow : -2 ^ 63 ≤ advanced s now) (hhigh : advanced s now < 2 ^ 63) :
    (s.position + (now - s.lastPositionTimeMs)).toInt = advanced s now := by
  unfold advanced at hlow hhigh ⊢
  rw [Int64.toInt_add, Int64.toInt_sub_of_le now _ (Int64.le_of_lt hlast) hpast]
  exact Int.bmod_eq_of_le (by omega) (by omega)

/-- A position that goes on is advanced by the time since it came, and cut at the length. -/
theorem playerState_of_goesOn (now : Int64) (h : goesOn p.state = true) :
    playerState now p = { p.state with
      position := if 0 < p.state.length then
          min (p.state.position + (now - p.state.lastPositionTimeMs)) p.state.length
        else p.state.position + (now - p.state.lastPositionTimeMs) } := if_pos h

/-- A position that rests is read as it is. -/
theorem playerState_of_rests (now : Int64) (h : goesOn p.state = false) :
    playerState now p = p.state :=
  if_neg (by rw [goesOn] at h; rw [h]; exact Bool.false_ne_true)

/-- The position is capped at a length that is known. -/
theorem capped_iff (position : Int64) {length : Int64} (hlength : 0 ≤ length) :
    (0 ≤ (if 0 < length then min position length else position) ∧
      (0 < length → (if 0 < length then min position length else position) ≤ length)) ↔
    0 ≤ position := by
  have hmin : min position length = if position ≤ length then position else length := rfl
  rw [hmin]
  simp only [Int64.le_iff_toInt_le, Int64.lt_iff_toInt_lt] at hlength ⊢
  split
  · split
    · omega
    · omega
  · omega

/-- On positions that came in the past the reading is displayable exactly if the state is
shown. -/
theorem displayable_iff {w : World} (h : Dated w) : Displayable w ↔ Shown w.plugin.state w.now := by
  cases hgoes : goesOn w.plugin.state with
  | true =>
    have hlast : 0 < w.plugin.state.lastPositionTimeMs :=
      of_decide_eq_true (Bool.and_eq_true_iff.mp hgoes).2
    have hstate := playerState_of_goesOn w.now hgoes
    have hcapped :=
      capped_iff (w.plugin.state.position + (w.now - w.plugin.state.lastPositionTimeMs)) h.length
    rw [Shown, if_pos hgoes]
    constructor
    · rintro ⟨hposition, -, hwithin, hexact⟩
      rw [hstate] at hposition hwithin
      have hnonneg := Int64.le_iff_toInt_le.mp (hcapped.mp ⟨hposition, hwithin⟩)
      rw [← hexact hgoes]
      exact ⟨hnonneg, Int64.toInt_lt _⟩
    · rintro ⟨hlow, hhigh⟩
      have hsum := toInt_advanced hlast (h.past hlast) (by omega) hhigh
      obtain ⟨hposition, hwithin⟩ :=
        hcapped.mpr (Int64.le_iff_toInt_le.mpr (hsum ▸ hlow))
      refine ⟨?_, ?_, ?_, fun _ => hsum⟩
      · rw [hstate]
        exact hposition
      · rw [hstate]
        exact h.length
      · rw [hstate]
        exact hwithin
  | false =>
    have hstate := playerState_of_rests w.now hgoes
    rw [Shown, hgoes, if_neg Bool.false_ne_true]
    constructor
    · rintro ⟨hposition, -, hwithin, -⟩
      rw [hstate] at hposition hwithin
      exact ⟨hposition, hwithin⟩
    · rintro ⟨hposition, hwithin⟩
      refine ⟨?_, ?_, ?_, fun hruns => ?_⟩
      · rw [hstate]
        exact hposition
      · rw [hstate]
        exact h.length
      · rw [hstate]
        exact hwithin
      · rw [hgoes] at hruns
        cases hruns

end Readings

/-! ## One step -/

section Steps

variable {w : World} {e : Event}

/-- A player that nothing is known of is shown. -/
theorem shown_start (now : Int64) : Shown {} now := ⟨by decide, fun h => absurd h (by decide)⟩

/-- A negative position is not taken. -/
theorem nonneg_of_takesPosition {now seekLock : Int64} {body : JsonBody}
    (h : takesPosition now seekLock body = true) : 0 ≤ body.getI64 "pos" := by
  rw [takesPosition, Bool.and_eq_true, Bool.and_eq_true] at h
  exact of_decide_eq_true h.1.2

/-- The flag after a status. -/
theorem isPlaying_takeStatus (test stamp seekLock : Int64) (body : JsonBody) (s : PlayerState) :
    (takeStatus test stamp seekLock body s).isPlaying = playsWith body s := rfl

/-- The length after it. -/
theorem length_takeStatus (test stamp seekLock : Int64) (body : JsonBody) (s : PlayerState) :
    (takeStatus test stamp seekLock body s).length = lengthWith body s := rfl

/-- No status leaves a negative length. -/
theorem lengthWith_nonneg {s : PlayerState} (h : 0 ≤ s.length) (body : JsonBody) :
    0 ≤ lengthWith body s := by
  unfold lengthWith
  split
  · rename_i hlength
    exact of_decide_eq_true (Bool.and_eq_true_iff.mp hlength).2
  · exact h

/-- The time of the position after it. -/
theorem last_takeStatus (test stamp seekLock : Int64) (body : JsonBody) (s : PlayerState) :
    (takeStatus test stamp seekLock body s).lastPositionTimeMs =
      if takesPosition test seekLock body then stamp else s.lastPositionTimeMs := rfl

/-- The position after it. -/
theorem position_takeStatus (test stamp seekLock : Int64) (body : JsonBody) (s : PlayerState) :
    (takeStatus test stamp seekLock body s).position =
      if takesPosition test seekLock body then body.getI64 "pos" else s.position := rfl

/-- Positions come at the clock, which only advances. -/
theorem dated_step (h : Dated w) (ht : Ticks w e) : Dated (step w e) := by
  cases e with
  | packet np test stamp =>
    have hle : w.now ≤ stamp := Int64.le_trans ht.1 ht.2
    have hpast : 0 < w.plugin.state.lastPositionTimeMs →
        w.plugin.state.lastPositionTimeMs ≤ stamp := fun hlast => Int64.le_trans (h.past hlast) hle
    have hstep : step w (.packet np test stamp) =
        ⟨onPacketReceived test stamp np w.plugin, stamp⟩ := rfl
    rw [hstep]
    cases hselects : selects w.plugin np with
    | true =>
      refine ⟨?_, ?_⟩
      · rw [state_of_selects hselects]
        exact Int64.le_refl _
      · rw [state_of_selects hselects]
        exact fun hlast => absurd hlast Int64.lt_irrefl
    | false =>
      cases hfollows : follows w.plugin np with
      | true =>
        rw [onPacketReceived_of_follows hfollows]
        refine ⟨lengthWith_nonneg h.length _, ?_⟩
        dsimp only
        rw [last_takeStatus]
        split
        · exact fun _ => Int64.le_refl _
        · exact hpast
      | false =>
        refine ⟨?_, ?_⟩
        · rw [state_of_other hselects hfollows]
          exact h.length
        · rw [state_of_other hselects hfollows]
          exact hpast
  | setPosition positionMs stamp lockFrom => exact ⟨h.length, fun _ => ht.2⟩
  | seek offsetMs => exact h
  | read now => exact ⟨h.length, fun hlast => Int64.le_trans (h.past hlast) ht⟩

/-- What the condition says is that the sum stays below `2 ^ 63`. -/
theorem lasts_iff (s : PlayerState) (now : Int64) :
    Lasts s.position s.lastPositionTimeMs now ↔ advanced s now < 2 ^ 63 := by
  have hmax : Int64.maxValue.toInt = 2 ^ 63 - 1 := rfl
  unfold Lasts advanced
  omega

/-- Time alone cannot make the position negative. -/
theorem shown_later {s : PlayerState} {now later : Int64} (hle : now ≤ later) (h : Shown s now) :
    Shown s later ↔ Reaches s later := by
  unfold Shown at h ⊢
  unfold Reaches
  split
  · rename_i hgoes
    rw [if_pos hgoes] at h
    have hnow := Int64.le_iff_toInt_le.mp hle
    have hnonneg : 0 ≤ advanced s later := by
      have hbefore := h.1
      unfold advanced at hbefore ⊢
      omega
    exact ⟨fun hafter _ => (lasts_iff s later).mpr hafter.2,
      fun hreaches => ⟨hnonneg, (lasts_iff s later).mp (hreaches hgoes)⟩⟩
  · rename_i hrests
    rw [if_neg hrests] at h
    exact iff_of_true h fun hgoes => absurd hgoes hrests

/-- A position that is shown goes on being no less than zero. -/
theorem advanced_nonneg {s : PlayerState} {now later : Int64} (hle : now ≤ later)
    (hpast : 0 < s.lastPositionTimeMs → s.lastPositionTimeMs ≤ now) (h : Shown s now)
    (hlast : 0 < s.lastPositionTimeMs) : 0 ≤ advanced s later := by
  have hlast' := Int64.le_iff_toInt_le.mp (hpast hlast)
  have hlater := Int64.le_iff_toInt_le.mp hle
  unfold Shown advanced at h
  unfold advanced
  split at h
  · omega
  · have hnonneg := Int64.le_iff_toInt_le.mp h.1
    have hzero : (0 : Int64).toInt = 0 := rfl
    omega

/-- A position that came just now, and is not negative. -/
theorem shown_taken {s : PlayerState} {stamp : Int64} (hlast : s.lastPositionTimeMs = stamp)
    (hnonneg : 0 ≤ s.position) :
    Shown s stamp ↔
      (s.isPlaying = true ∧ 0 < stamp) ∨ s.length ≤ 0 ∨ s.position ≤ s.length := by
  have hadvanced : advanced s stamp = s.position.toInt := by
    unfold advanced
    rw [hlast]
    omega
  have hlow := Int64.le_iff_toInt_le.mp hnonneg
  have hzero : (0 : Int64).toInt = 0 := rfl
  have hhigh := s.position.toInt_lt
  unfold Shown goesOn
  rw [hlast, hadvanced]
  by_cases hgoes : s.isPlaying = true ∧ 0 < stamp
  · rw [if_pos (by simpa using hgoes)]
    exact iff_of_true ⟨by omega, hhigh⟩ (.inl hgoes)
  · rw [if_neg (by simpa using hgoes)]
    constructor
    · rintro ⟨-, hwithin⟩
      by_cases hlength : 0 < s.length
      · exact .inr (.inr (hwithin hlength))
      · exact .inr (.inl (Int64.not_lt.mp hlength))
    · rintro (h | h | h)
      · exact absurd h hgoes
      · exact ⟨hnonneg, fun hlength => absurd h (Int64.not_le.mpr hlength)⟩
      · exact ⟨hnonneg, fun _ => h⟩

/-- After a status the position is shown exactly if the status fits. -/
theorem shown_status {p : MprisPlugin} {np : NetworkPacket} {now test stamp : Int64}
    (hle : now ≤ stamp)
    (hpast : 0 < p.state.lastPositionTimeMs → p.state.lastPositionTimeMs ≤ now)
    (h : Shown p.state now) :
    Shown (takeStatus test stamp p.seekLockUntilMs np.body p.state) stamp ↔
      StatusFits test stamp np p := by
  have hlast := last_takeStatus test stamp p.seekLockUntilMs np.body p.state
  have hposition := position_takeStatus test stamp p.seekLockUntilMs np.body p.state
  unfold StatusFits
  rw [← isPlaying_takeStatus test stamp p.seekLockUntilMs,
    ← length_takeStatus test stamp p.seekLockUntilMs]
  generalize takeStatus test stamp p.seekLockUntilMs np.body p.state = s at hlast hposition ⊢
  cases htakes : takesPosition test p.seekLockUntilMs np.body with
  | true =>
    rw [htakes, if_pos rfl] at hlast hposition
    have hnonneg := nonneg_of_takesPosition htakes
    rw [if_pos rfl, ← hposition]
    exact shown_taken hlast (hposition ▸ hnonneg)
  | false =>
    rw [htakes, if_neg Bool.false_ne_true] at hlast hposition
    have hadvanced : advanced s stamp = advanced p.state stamp := by
      unfold advanced
      rw [hlast, hposition]
    rw [if_neg Bool.false_ne_true]
    unfold Shown goesOn
    rw [hadvanced, hlast, hposition, lasts_iff]
    split
    · rename_i hgoes
      have hdated := of_decide_eq_true (Bool.and_eq_true_iff.mp hgoes).2
      exact and_iff_right (advanced_nonneg hle hpast h hdated)
    · exact Iff.rfl

/-- A local seek is shown exactly if it fits. -/
theorem shown_seek (positionMs stamp lockFrom : Int64) (p : MprisPlugin) :
    Shown (setPosition positionMs stamp lockFrom p).state lockFrom ↔
      SeekFits positionMs stamp lockFrom p.state := by
  have hmax : Int64.maxValue.toInt = 2 ^ 63 - 1 := rfl
  unfold Shown SeekFits goesOn setPosition advanced Lasts
  dsimp only
  split
  · omega
  · exact Iff.rfl

/-- The step lemma: what can be shown can be shown after the step exactly if the
step fits. -/
theorem shown_step (h : Dated w) (ht : Ticks w e) (hshown : Shown w.plugin.state w.now) :
    Shown (step w e).plugin.state (step w e).now ↔ Fits w e := by
  cases e with
  | packet np test stamp =>
    have hle : w.now ≤ stamp := Int64.le_trans ht.1 ht.2
    unfold step Fits
    dsimp only
    cases hselects : selects w.plugin np with
    | true =>
      rw [state_of_selects hselects, if_pos rfl]
      exact iff_of_true (shown_start stamp) trivial
    | false =>
      rw [if_neg Bool.false_ne_true]
      cases hfollows : follows w.plugin np with
      | true =>
        rw [onPacketReceived_of_follows hfollows, if_pos rfl]
        exact shown_status hle h.past hshown
      | false =>
        rw [state_of_other hselects hfollows, if_neg Bool.false_ne_true]
        exact shown_later hle hshown
  | setPosition positionMs stamp lockFrom => exact shown_seek positionMs stamp lockFrom w.plugin
  | seek offsetMs => exact iff_of_true hshown trivial
  | read now => exact shown_later ht hshown

end Steps

/-- Over every sequence of packets, local seeks and readings, from every time on:
what is shown can always be displayed exactly if every step fits. -/
theorem displayable_iff_fits (start : Int64) (events : List Event)
    (h : EveryStep step Ticks ⟨{}, start⟩ events) :
    Always step Displayable ⟨{}, start⟩ events ↔ EveryStep step Fits ⟨{}, start⟩ events := by
  have hdated : Dated ⟨{}, start⟩ :=
    ⟨Int64.le_refl _, fun hlast => absurd hlast Int64.lt_irrefl⟩
  have hshown : Displayable ⟨{}, start⟩ := (displayable_iff hdated).mpr (shown_start start)
  refine always_iff_everyStep_of_valid (I := Dated) (fun _ _ hw ht => dated_step hw ht) ?_ hdated
    hshown h
  intro w e hw ht hbefore
  rw [displayable_iff (dated_step hw ht)]
  exact shown_step hw ht ((displayable_iff hw).mp hbefore)

/-- A position behind the end of the track, and nothing plays. -/
def behindEnd : NetworkPacket where
  type := PacketTypes.mpris
  body := ((({} : JsonBody).setStr "player" "vlc").setInt "pos" 200).setInt "length" 100

/-- One packet, at the clock. -/
theorem ticks_behindEnd : EveryStep step Ticks ⟨{}, 5⟩ [.packet behindEnd 5 5] :=
  ⟨⟨by decide, by decide⟩, trivial⟩

/-- The position that is shown is not within the length. -/
theorem notDisplayable_behindEnd :
    ¬ ∀ (start : Int64) (events : List Event), EveryStep step Ticks ⟨{}, start⟩ events →
      Always step Displayable ⟨{}, start⟩ events := by
  intro h
  have hwithin := (h 5 [.packet behindEnd 5 5] ticks_behindEnd).last.within
  exact absurd (hwithin (by decide)) (by decide)

/-- The packet of the counterexample. -/
theorem displayable_iff_behindEnd :
    Always step Displayable ⟨{}, 5⟩ [.packet behindEnd 5 5] ↔
      EveryStep step Fits ⟨{}, 5⟩ [.packet behindEnd 5 5] :=
  displayable_iff_fits 5 [.packet behindEnd 5 5] ticks_behindEnd

end KdeConnectNx.MediaPosition
