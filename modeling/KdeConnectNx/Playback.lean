import KdeConnectNx.MediaPosition

/-!
# Paused time

The plugin dates a position when it comes, and knows nothing of the times at which
the player was paused since. Beside it the time is kept that was played and the
time that was not since the last position that was taken.
-/

namespace KdeConnectNx.Playback

open PacketBody PacketFormat Plugins Plugins.MprisPlugin Runs
open SelectedPlayer hiding Event step
open MediaPosition hiding World step

/-- The last position that was taken, with its reading of the clock, and the time
since: while the player played, and while it did not. -/
structure Track where
  base : Int64 := 0
  since : Option Int64 := none
  played : Int64 := 0
  paused : Int64 := 0

namespace Track

/-- Time passes. -/
def pass (playing : Bool) (ms : Int64) (t : Track) : Track :=
  if playing then { t with played := t.played + ms } else { t with paused := t.paused + ms }

/-- Time does not move the base. -/
@[simp] theorem base_pass (playing : Bool) (ms : Int64) (t : Track) :
    (t.pass playing ms).base = t.base := by
  unfold pass
  split <;> rfl

/-- Nor when it was set. -/
@[simp] theorem since_pass (playing : Bool) (ms : Int64) (t : Track) :
    (t.pass playing ms).since = t.since := by
  unfold pass
  split <;> rfl

/-- Played or not, it adds to the time since. -/
@[simp] theorem sum_pass (playing : Bool) (ms : Int64) (t : Track) :
    (t.pass playing ms).played + (t.pass playing ms).paused = t.played + t.paused + ms := by
  unfold pass
  split
  · rw [Int64.add_assoc, Int64.add_comm ms, ← Int64.add_assoc]
  · rw [Int64.add_assoc]

end Track

structure World where
  media : MediaPosition.World
  track : Track := {}

namespace World

def state (w : World) : PlayerState := w.media.plugin.state

/-- What `player_state` reports now. -/
def reported (w : World) : Int64 := (playerState w.media.now w.media.plugin).position

end World

/-- A packet that does not bring a position lets time pass: until the packet as
before, and from then on as the packet says. -/
def step (w : World) (e : Event) : World where
  media := MediaPosition.step w.media e
  track :=
    match e with
    | .packet np test stamp =>
      if selects w.media.plugin np then {}
      else if follows w.media.plugin np &&
          takesPosition test w.media.plugin.seekLockUntilMs np.body then
        { base := np.body.getI64 "pos", since := some stamp }
      else
        (w.track.pass w.state.isPlaying (test - w.media.now)).pass
          (MediaPosition.step w.media e).plugin.state.isPlaying (stamp - test)
    | .setPosition positionMs stamp lockFrom =>
      ({ base := positionMs, since := some stamp } : Track).pass w.state.isPlaying
        (lockFrom - stamp)
    | .seek _ => w.track
    | .read now => w.track.pass w.state.isPlaying (now - w.media.now)

/-- A position ends where the track ends, if its length is known. -/
def capped (length position : Int64) : Int64 := if 0 < length then min position length else position

/-- The position by the time that was played. -/
def byPlayback (w : World) : Int64 := capped w.state.length (w.track.base + w.track.played)

/-- A position was taken, at a time after zero. -/
def dated (w : World) : Bool := w.track.since.any fun t => decide (0 < t)

/-- The position by all the time since, or by none of it while the player does not
play. -/
def byClock (w : World) : Int64 :=
  if w.state.isPlaying && dated w then
    capped w.state.length (w.track.base + (w.track.played + w.track.paused))
  else w.track.base

/-- What is reported goes by the clock; and by the time that was played only where
that is all the time since, or none and the player does not play. -/
structure GoesByClock (w : World) : Prop where
  clock : w.reported = byClock w
  allPlayed : w.state.isPlaying = true → dated w = true → w.track.paused = 0 →
    w.reported = byPlayback w
  nonePlayed : w.state.isPlaying = false → (0 < w.state.length → w.track.base ≤ w.state.length) →
    w.track.played = 0 → w.reported = byPlayback w

/-- The plugin has the last position that was taken, and the time since is the time
since its date. -/
structure Anchored (w : World) : Prop where
  base : w.track.base = w.state.position
  last : w.state.lastPositionTimeMs = w.track.since.getD 0
  sum : ∀ t ∈ w.track.since, w.track.played + w.track.paused = w.media.now - t

section Steps

variable {w : World} {e : Event}

/-- What was played and what was paused is all the time that passed. -/
theorem base_anchor (position t ms : Int64) (playing : Bool) :
    (({ base := position, since := some t } : Track).pass playing ms).played +
      (({ base := position, since := some t } : Track).pass playing ms).paused = ms := by
  rw [Track.sum_pass]
  grind

/-- The time that passes with a packet. -/
theorem anchored_pass {media : MediaPosition.World} {before after : Bool} {test : Int64}
    (h : Anchored w) (hposition : media.plugin.state.position = w.state.position)
    (hlast : media.plugin.state.lastPositionTimeMs = w.state.lastPositionTimeMs) :
    Anchored ⟨media, (w.track.pass before (test - w.media.now)).pass after (media.now - test)⟩ := by
  refine ⟨?_, ?_, ?_⟩
  · dsimp only
    rw [Track.base_pass, Track.base_pass, h.base]
    exact hposition.symm
  · dsimp only
    rw [Track.since_pass, Track.since_pass, ← h.last]
    exact hlast
  · intro t ht
    dsimp only at ht ⊢
    rw [Track.since_pass, Track.since_pass] at ht
    rw [Track.sum_pass, Track.sum_pass, h.sum t ht]
    grind

/-- A packet keeps the anchor, or sets a new one. -/
theorem anchored_packet (h : Anchored w) (np : NetworkPacket) (test stamp : Int64) :
    Anchored (step w (.packet np test stamp)) := by
  unfold step
  dsimp only [MediaPosition.step]
  cases hselects : selects w.media.plugin np with
  | true =>
    have hstate := state_of_selects hselects test stamp
    rw [if_pos rfl]
    refine ⟨?_, ?_, fun t ht => ?_⟩
    · rw [World.state, hstate]
    · rw [World.state, hstate]
      rfl
    · cases ht
  | false =>
    rw [if_neg Bool.false_ne_true]
    cases hfollows : follows w.media.plugin np with
    | true =>
      have hposition := position_takeStatus test stamp w.media.plugin.seekLockUntilMs np.body
        w.media.plugin.state
      have hlast := last_takeStatus test stamp w.media.plugin.seekLockUntilMs np.body
        w.media.plugin.state
      rw [onPacketReceived_of_follows hfollows, Bool.true_and]
      cases htakes : takesPosition test w.media.plugin.seekLockUntilMs np.body with
      | true =>
        rw [htakes, if_pos rfl] at hposition hlast
        rw [if_pos rfl]
        refine ⟨hposition.symm, hlast, fun t ht => ?_⟩
        obtain rfl := Option.some.inj ht
        dsimp only
        grind
      | false =>
        rw [htakes, if_neg Bool.false_ne_true] at hposition hlast
        rw [if_neg Bool.false_ne_true]
        exact anchored_pass h hposition hlast
    | false =>
      have hstate := state_of_other hselects hfollows test stamp
      rw [Bool.false_and, if_neg Bool.false_ne_true]
      refine anchored_pass h ?_ ?_
      · rw [hstate]
        rfl
      · rw [hstate]
        rfl

/-- The step lemma. -/
theorem anchored_step (h : Anchored w) (e : Event) : Anchored (step w e) := by
  cases e with
  | packet np test stamp => exact anchored_packet h np test stamp
  | setPosition positionMs stamp lockFrom =>
    refine ⟨Track.base_pass _ _ _, ?_, fun t ht => ?_⟩
    · unfold step
      dsimp only
      rw [Track.since_pass]
      rfl
    · unfold step at ht ⊢
      dsimp only at ht ⊢
      rw [Track.since_pass] at ht
      obtain rfl := Option.some.inj ht
      exact base_anchor _ _ _ _
  | seek offsetMs => exact h
  | read now =>
    refine ⟨?_, ?_, fun t ht => ?_⟩
    · unfold step
      dsimp only
      rw [Track.base_pass]
      exact h.base
    · unfold step
      dsimp only
      rw [Track.since_pass]
      exact h.last
    · unfold step at ht ⊢
      dsimp only at ht ⊢
      rw [Track.since_pass] at ht
      rw [Track.sum_pass, h.sum t ht]
      change _ = now - t
      grind

/-- A position has an anchor exactly if it has a time. -/
theorem dated_iff (h : Anchored w) : dated w = decide (0 < w.state.lastPositionTimeMs) := by
  rw [dated, h.last]
  cases w.track.since with
  | none => decide
  | some t => rfl

/-- What is reported is what the clock gives. -/
theorem reported_eq (h : Anchored w) : w.reported = byClock w := by
  unfold World.reported byClock
  rw [dated_iff h, h.base]
  cases hgoes : goesOn w.state with
  | true =>
    have hflag : (w.state.isPlaying && decide (0 < w.state.lastPositionTimeMs)) = true := hgoes
    have hlast : 0 < w.track.since.getD 0 := by
      rw [← h.last]
      exact of_decide_eq_true (Bool.and_eq_true_iff.mp hflag).2
    obtain ⟨t, ht⟩ : ∃ t, w.track.since = some t := by
      cases hsince : w.track.since with
      | none =>
        rw [hsince] at hlast
        exact absurd hlast (by decide)
      | some t => exact ⟨t, rfl⟩
    have hdate : w.state.lastPositionTimeMs = t := by rw [h.last, ht]; rfl
    rw [hflag, if_pos rfl, playerState_of_goesOn w.media.now hgoes, h.sum t ht, ← hdate]
    rfl
  | false =>
    have hflag : (w.state.isPlaying && decide (0 < w.state.lastPositionTimeMs)) = false := hgoes
    rw [hflag, if_neg Bool.false_ne_true, playerState_of_rests w.media.now hgoes]
    rfl

/-- So playback goes by the clock. -/
theorem goesByClock_of_anchored (h : Anchored w) : GoesByClock w where
  clock := reported_eq h
  allPlayed := by
    intro hplaying hdated hnone
    rw [reported_eq h, byClock, hplaying, hdated, Bool.true_and, if_pos rfl, hnone, Int64.add_zero]
    rfl
  nonePlayed := by
    intro hplaying hwithin hnone
    have hmin : min w.track.base w.state.length =
        if w.track.base ≤ w.state.length then w.track.base else w.state.length := rfl
    rw [reported_eq h, byClock, hplaying, Bool.false_and, if_neg Bool.false_ne_true, byPlayback,
      hnone, Int64.add_zero, capped, hmin]
    split
    · rename_i hknown
      rw [if_pos (hwithin hknown)]
    · rfl

end Steps

/-- Over every sequence of packets, local seeks and readings: what is reported is
the last position that was taken and all the time since, capped at the length, while
the player plays, and that position alone while it does not. -/
theorem goesByClock (start : Int64) (events : List Event) :
    Always step GoesByClock ⟨⟨{}, start⟩, {}⟩ events := by
  have hanchored : Anchored ⟨⟨{}, start⟩, {}⟩ := ⟨rfl, rfl, fun t ht => by cases ht⟩
  exact (always_of_step (P := Anchored) (fun _ e hw => anchored_step hw e) hanchored events).imp
    fun _ hw => goesByClock_of_anchored hw

/-- A player plays from the start. -/
def playing : NetworkPacket where
  type := PacketTypes.mpris
  body := ((({} : JsonBody).setStr "player" "vlc").setBool "isPlaying" true).setInt "pos" 0

/-- It is paused. -/
def paused : NetworkPacket where
  type := PacketTypes.mpris
  body := (({} : JsonBody).setStr "player" "vlc").setBool "isPlaying" false

/-- After ten milliseconds the position falls back to the start. -/
theorem notByPlayback_paused :
    ¬ ∀ (start : Int64) (events : List Event),
      EveryStep step (fun w e => Ticks w.media e) ⟨⟨{}, start⟩, {}⟩ events →
        Always step (fun w => w.reported = byPlayback w) ⟨⟨{}, start⟩, {}⟩ events := by
  intro h
  have hlast := (h 1 [.packet playing 1 1, .packet paused 11 11]
    ⟨⟨by decide, by decide⟩, ⟨by decide, by decide⟩, trivial⟩).last
  exact absurd hlast (by decide)

end KdeConnectNx.Playback
