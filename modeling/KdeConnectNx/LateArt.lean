import KdeConnectNx.FailedDownloads
import KdeConnectNx.SelectedPlayer
import Mathlib.Algebra.Order.Group.Unbundled.Int

/-!
# Album art that comes late

The plugin asks for the art of a track, and the answer is a packet of its own with
the URL and a payload, which may come when another track plays already. Both kinds
of packets go through the same code. Beside the plugin and the card the packets
that were sent are kept, and the URL of the last status that had one.
-/

namespace KdeConnectNx.LateArt

open FailedDownloads hiding Event step
open PacketBody PacketFormat Plugins Runs
open Plugins.MprisPlugin hiding onPacketReceived
open SelectedPlayer hiding Event step

/-- The packet is an answer: it has the payload that was asked for. -/
def answers (np : NetworkPacket) : Bool :=
  np.body.valueBool "transferringAlbumArt" false && np.hasPayload

/-- A packet, with the download of its payload if it comes to one. -/
structure Event where
  env : PluginEnv
  np : NetworkPacket
  arrival : Arrival
  sized : np.hasPayload = true → arrival.size = np.payloadSize
  removes : String → Bool := fun _ => true

namespace Event

def url (e : Event) : String := e.np.body.getStr "albumArtUrl"

def hasUrl (e : Event) : Bool := e.np.body.isStr "albumArtUrl"

end Event

structure World where
  plugin : MprisPlugin := {}
  cache : Cache := {}
  sent : List NetworkPacket := []
  statusUrl : String := ""

/-- The hash of a URL, none of an empty one. -/
def artHash (url : String) : String := if url.isEmpty then "" else urlHash url

/-- The plugin looks for files on the card. -/
def handled (w : World) (e : Event) : MprisPlugin × List NetworkPacket × Bool :=
  w.plugin.onPacketReceived
    { e.env with artStored := fun hash => (w.cache.files (imgPath hash)).isSome } e.np

/-- What a status does to the card. -/
def art (w : World) (e : Event) : FailedDownloads.Event :=
  .art (handled w e).1.state.albumArtHash (if answers e.np then some e.arrival else none) e.removes

def step (w : World) (e : Event) : World where
  plugin := (handled w e).1
  cache := if follows w.plugin e.np then FailedDownloads.step w.cache (art w e) else w.cache
  sent := w.sent ++ (handled w e).2.1
  statusUrl :=
    if selects w.plugin e.np then ""
    else if follows w.plugin e.np && !answers e.np && e.hasUrl then e.url
    else w.statusUrl

/-- Answers have the URL of a request that was sent. -/
def Requested (w : World) (e : Event) : Prop :=
  follows w.plugin e.np = true → answers e.np = true →
    e.hasUrl = true ∧ ∃ player, requestAlbumArt player e.url ∈ w.sent

/-- The art is that of the last status that had one. -/
structure Current (w : World) : Prop where
  url : w.plugin.state.albumArtUrl = w.statusUrl
  hash : w.plugin.state.albumArtHash = artHash w.statusUrl

/-- An answer is for the art of the last status. -/
def InTime (w : World) (e : Event) : Prop :=
  follows w.plugin e.np = true → answers e.np = true → e.url = w.statusUrl

/-- A file that was not there before is the payload of an answer, under the hash of
the URL it is for. -/
def StoresOwn (w : World) (e : Event) : Prop :=
  ∀ path stored, (step w e).cache.files path = some stored →
    w.cache.files path = some stored ∨
      (answers e.np = true ∧ stored.arrival = e.arrival ∧ e.url ≠ "" ∧
        path = imgPath (urlHash e.url))

/-! ## What is on the card -/

section Cards

variable {c : Cache} {removes : String → Bool} {path : String} {stored : Stored}

/-- A download makes a file at its own path only. -/
theorem files_fetch {target : String} {a : Arrival}
    (h : (c.fetch target a).files path = some stored) :
    c.files path = some stored ∨ (stored.arrival = a ∧ path = target) := by
  by_cases hpath : path = target
  · rw [hpath, fetch_self] at h
    obtain ⟨bytes, -, h⟩ := Option.bind_eq_some_iff.mp h
    split at h
    · rw [← Option.some.inj h]
      exact .inr ⟨rfl, hpath⟩
    · rw [hpath]
      exact .inl h
  · rw [fetch_other a hpath] at h
    exact .inl h

theorem files_downloadRaw {hash : String} {a : Arrival}
    (h : (c.downloadRaw removes a hash).files path = some stored) :
    c.files path = some stored ∨ (stored.arrival = a ∧ path = imgPath hash) := by
  unfold Cache.downloadRaw at h
  dsimp only at h
  split at h
  · exact files_fetch h
  · generalize isImage _ = valid at h
    cases valid with
    | true => exact files_fetch (files_lruTouch h)
    | false => exact files_fetch (files_remove h)

end Cards

/-! ## One packet -/

section Steps

variable {w : World} {e : Event}

/-- The URL a packet leaves, and its hash. -/
theorem art_takeStatus (test stamp seekLock : Int64) (body : JsonBody) (s : PlayerState) :
    (takeStatus test stamp seekLock body s).albumArtUrl =
        (if body.isStr "albumArtUrl" then body.getStr "albumArtUrl" else s.albumArtUrl) ∧
      (takeStatus test stamp seekLock body s).albumArtHash =
        if body.isStr "albumArtUrl" then artHash (body.getStr "albumArtUrl") else s.albumArtHash :=
  ⟨rfl, rfl⟩

theorem plugin_step (w : World) (e : Event) :
    (step w e).plugin = onPacketReceived e.env.nowMs e.env.nowMs e.np w.plugin :=
  (onPacketReceived_nowMs _ _ _).symm

/-- A status leaves its URL with its hash, or the old ones. -/
theorem art_of_follows (h : follows w.plugin e.np = true) :
    (step w e).plugin.state.albumArtUrl =
        (if e.hasUrl then e.url else w.plugin.state.albumArtUrl) ∧
      (step w e).plugin.state.albumArtHash =
        if e.hasUrl then artHash e.url else w.plugin.state.albumArtHash := by
  rw [plugin_step, onPacketReceived_of_follows h]
  exact art_takeStatus _ _ _ _ _

/-- The step lemma: the art stays that of the last status exactly if an answer comes
in time. -/
theorem current_step (hcurrent : Current w) (hrequested : Requested w e) :
    Current (step w e) ↔ InTime w e := by
  have hstatus : (step w e).statusUrl = if selects w.plugin e.np then ""
      else if follows w.plugin e.np && !answers e.np && e.hasUrl then e.url else w.statusUrl := rfl
  cases hfollows : follows w.plugin e.np with
  | false =>
    have htime : InTime w e := by
      intro h
      rw [hfollows] at h
      cases h
    refine iff_of_true ?_ htime
    rw [hfollows, Bool.false_and, Bool.false_and, if_neg Bool.false_ne_true] at hstatus
    cases hselects : selects w.plugin e.np with
    | true =>
      have hstate := state_of_selects hselects e.env.nowMs e.env.nowMs
      rw [hselects, if_pos rfl] at hstatus
      refine ⟨?_, ?_⟩
      · rw [plugin_step, hstate, hstatus]
      · rw [plugin_step, hstate, hstatus]
        rfl
    | false =>
      have hstate := state_of_other hselects hfollows e.env.nowMs e.env.nowMs
      rw [hselects, if_neg Bool.false_ne_true] at hstatus
      refine ⟨?_, ?_⟩
      · rw [plugin_step, hstate, hstatus]
        exact hcurrent.url
      · rw [plugin_step, hstate, hstatus]
        exact hcurrent.hash
  | true =>
    obtain ⟨hurl, hhash⟩ := art_of_follows hfollows
    rw [selects_of_follows hfollows, hfollows, if_neg Bool.false_ne_true, Bool.true_and] at hstatus
    cases hanswers : answers e.np with
    | false =>
      rw [hanswers, Bool.not_false, Bool.true_and] at hstatus
      refine iff_of_true ?_ fun _ h => by rw [hanswers] at h; cases h
      cases hhas : e.hasUrl with
      | true =>
        rw [hhas, if_pos rfl] at hurl hhash hstatus
        exact ⟨hurl.trans hstatus.symm, hhash.trans (congrArg artHash hstatus.symm)⟩
      | false =>
        rw [hhas, if_neg Bool.false_ne_true] at hurl hhash hstatus
        exact ⟨(hurl.trans hcurrent.url).trans hstatus.symm,
          (hhash.trans hcurrent.hash).trans (congrArg artHash hstatus.symm)⟩
    | true =>
      have hhas := (hrequested hfollows hanswers).1
      rw [hanswers, Bool.not_true, Bool.false_and, if_neg Bool.false_ne_true] at hstatus
      rw [hhas, if_pos rfl] at hurl hhash
      constructor
      · intro hnext _ _
        rw [← hurl, hnext.url, hstatus]
      · intro htime
        have hsame := htime hfollows hanswers
        exact ⟨(hurl.trans hsame).trans hstatus.symm,
          hhash.trans (congrArg artHash (hsame.trans hstatus.symm))⟩

/-- Whatever comes when, a payload goes where its own URL says. -/
theorem storesOwn (hrequested : Requested w e) : StoresOwn w e := by
  intro path stored hstored
  have hcache : (step w e).cache =
      if follows w.plugin e.np then FailedDownloads.step w.cache (art w e) else w.cache := rfl
  rw [hcache] at hstored
  cases hfollows : follows w.plugin e.np with
  | false =>
    rw [hfollows, if_neg Bool.false_ne_true] at hstored
    exact .inl hstored
  | true =>
    obtain ⟨-, hhash⟩ := art_of_follows hfollows
    rw [hfollows, if_pos rfl] at hstored
    unfold art FailedDownloads.step at hstored
    dsimp only at hstored
    split at hstored
    · exact .inl hstored
    · rename_i hfull
      split at hstored
      · exact .inl (files_lruTouch hstored)
      · cases hanswers : answers e.np with
        | false =>
          rw [hanswers, if_neg Bool.false_ne_true] at hstored
          exact .inl hstored
        | true =>
          have hhas := (hrequested hfollows hanswers).1
          rw [hanswers, if_pos rfl] at hstored
          rcases files_downloadRaw hstored with hold | ⟨harrival, hpath⟩
          · exact .inl hold
          · right
            rw [hhas, if_pos rfl] at hhash
            change (handled w e).1.state.albumArtHash = _ at hhash
            rw [hhash] at hfull hpath
            have hurl : e.url ≠ "" := by
              intro hempty
              rw [hempty] at hfull
              exact hfull rfl
            refine ⟨rfl, harrival, hurl, ?_⟩
            rw [hpath, artHash, if_neg (by rw [String.isEmpty_iff]; exact hurl)]

end Steps

/-- Over every sequence of packets in which answers are for requests that were sent,
from every card: the art is always that of the last status that had one exactly if
all answers come in time, and no payload is stored but under the hash of its URL. -/
theorem current_iff_inTime (cache : Cache) (events : List Event)
    (h : EveryStep step Requested { cache := cache } events) :
    (Always step Current { cache := cache } events ↔
        EveryStep step InTime { cache := cache } events) ∧
      EveryStep step StoresOwn { cache := cache } events := by
  constructor
  · exact always_iff_everyStep_of_valid (I := fun _ => True) (fun _ _ _ _ => trivial)
      (fun _ _ _ hrequested hcurrent => current_step hcurrent hrequested) trivial ⟨rfl, rfl⟩ h
  · exact h.imp fun _ _ hrequested => storesOwn hrequested

/-- A status with the art of a track. -/
def status (url : String) : NetworkPacket where
  type := PacketTypes.mpris
  body := (({} : JsonBody).setStr "player" "vlc").setStr "albumArtUrl" url

/-- The answer to a request for it. -/
def answer (url : String) : NetworkPacket where
  type := PacketTypes.mpris
  body := (status url).body.setBool "transferringAlbumArt" true
  payloadSize := 4
  payloadPort := 1739

/-- A payload of four bytes that does not come. -/
def noArrival : Arrival where
  io := { connect := false }
  size := 4
  size_pos := by decide
  stream := []
  events := []
  returns := fun _ => ⟨false, rfl⟩

def Event.of (np : NetworkPacket) (h : np.hasPayload = true → noArrival.size = np.payloadSize) :
    Event where
  env := { json := Yyjson.reference, steady := 0 }
  np := np
  arrival := noArrival
  sized := h

/-- The track changes, and the art of the first comes. -/
def answerAfterChange : List Event :=
  [.of (status "a") (by decide), .of (status "b") (by decide), .of (answer "a") (by decide)]

theorem requested_answerAfterChange :
    EveryStep step Requested { cache := {} } answerAfterChange := by
  refine ⟨fun _ h => ?_, fun _ h => ?_, fun _ _ => ⟨by decide, "vlc", ?_⟩, trivial⟩
  · exact absurd h (by decide)
  · exact absurd h (by decide)
  · have hsent : (handled { cache := {} } (.of (status "a") (by decide))).2.1 =
        [requestAlbumArt "vlc" "a"] := rfl
    refine List.mem_append_left _ ?_
    change requestAlbumArt "vlc" "a" ∈ [] ++
      (handled { cache := {} } (.of (status "a") (by decide))).2.1
    rw [hsent]
    exact List.mem_cons_self

/-- The first track's art stays. -/
theorem notCurrent_answerAfterChange :
    ¬ ∀ (cache : Cache) (events : List Event),
      EveryStep step Requested { cache := cache } events →
        Always step Current { cache := cache } events := by
  intro h
  have hurl := (h {} answerAfterChange requested_answerAfterChange).last.url
  exact absurd hurl (by decide)

/-- The packets of the counterexample. -/
theorem current_iff_answerAfterChange :
    (Always step Current { cache := {} } answerAfterChange ↔
        EveryStep step InTime { cache := {} } answerAfterChange) ∧
      EveryStep step StoresOwn { cache := {} } answerAfterChange :=
  current_iff_inTime {} answerAfterChange requested_answerAfterChange

end KdeConnectNx.LateArt
