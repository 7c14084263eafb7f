import KdeConnectNx.PayloadTransfer
import Mathlib.Logic.Function.Basic

/-!
# Downloads that fail

`download_payload` makes the file in its full size before the first byte comes,
so a failure after that has to remove it. The plugins take a file that is there
for a payload that came whole.
-/

namespace KdeConnectNx.FailedDownloads

open PayloadTransfer Runs

/-! ## One call -/

/-- The call comes to `fsFsCreateFile` and makes the file. -/
def creates (io : DownloadIo) (old : Option (List UInt8)) : Bool :=
  io.socket && io.address && io.connect && io.session && io.handshake && io.mounted && io.create &&
    (io.deleteOld || old.isNone)

section Calls

variable (io : DownloadIo) (size : Int64) (stream : List UInt8) (old : Option (List UInt8))
  (events : List DownloadEvent)

/-- Once the call has returned false, no file that it made is there. -/
def LeavesNothing : Prop :=
  creates io old = true →
    Always Download.step (fun d => d.phase = .returned false → d.file = none)
      (.start io size stream old) events

/-- The file that was made can be opened, and removed where the call removes it. -/
def Undone : Prop :=
  creates io old = true → io.openFile = true ∧
    EveryStep Download.step (fun d e => d.phase = .deleting → e ≠ .delete false)
      (.start io size stream old) events

end Calls

section Steps

variable {d : Download}

/-- A call that has returned does nothing any more. -/
theorem step_returned {ok : Bool} (h : d.phase = .returned ok) (e : DownloadEvent) :
    (d.step e).phase = .returned ok ∧ (d.step e).file = d.file := by
  cases e with
  | disconnect => exact ⟨h, rfl⟩
  | turn => simp [Download.step, Download.turn, h]
  | read r => simp [Download.step, h]
  | write ok' => simp [Download.step, h]
  | delete ok' => simp [Download.step, h]

theorem run_returned {ok : Bool} (h : d.phase = .returned ok) (events : List DownloadEvent) :
    (run Download.step d events).phase = .returned ok ∧
      (run Download.step d events).file = d.file := by
  induction events generalizing d with
  | nil => exact ⟨h, rfl⟩
  | cons e events ih =>
    obtain ⟨hphase, hfile⟩ := step_returned h e
    obtain ⟨hphase', hfile'⟩ := ih hphase
    exact ⟨hphase', hfile'.trans hfile⟩

/-- It returns false in its loop only behind the removal. -/
theorem phase_step {e : DownloadEvent} (h : (d.step e).phase = .returned false) :
    d.phase = .returned false ∨ d.phase = .deleting ∧ ∃ ok, e = .delete ok := by
  cases e with
  | disconnect => exact .inl h
  | turn =>
    left
    simp only [Download.step, Download.turn] at h
    split at h
    · dsimp only at h
      split at h <;> cases h
    · rename_i hleaving
      split at h
      · rw [hleaving] at h
        cases h
      · cases h
    · dsimp only at h
      split at h <;> cases h
    · exact h
  | read r =>
    left
    simp only [Download.step] at h
    split at h
    · cases r with
      | got n =>
        simp only [Download.read] at h
        split at h
        · cases h
        · dsimp only at h
          split at h <;> cases h
      | wantRead => cases h
      | ended => cases h
    · exact h
  | write ok =>
    left
    simp only [Download.step] at h
    split at h
    · dsimp only at h
      split at h <;> cases h
    · rename_i hleaving
      split at h
      · rw [hleaving] at h
        cases h
      · cases h
    · exact h
  | delete ok =>
    simp only [Download.step] at h
    split at h
    · rename_i hdeleting
      exact .inr ⟨hdeleting, ok, rfl⟩
    · exact .inl h

/-- Until the call has failed its file is there. -/
def Held (d : Download) : Prop := d.phase = .returned false ∨ d.file.isSome = true

theorem held_step (h : Held d) (e : DownloadEvent) : Held (d.step e) := by
  rcases h with hreturned | hfile
  · exact .inl (step_returned hreturned e).1
  · cases e with
    | disconnect => exact .inr hfile
    | turn =>
      right
      simp only [Download.step, Download.turn]
      split
      · exact hfile
      · split <;> exact hfile
      · exact hfile
      · exact hfile
    | read r =>
      right
      simp only [Download.step]
      split
      · cases r with
        | got n =>
          simp only [Download.read]
          split <;> exact hfile
        | wantRead => exact hfile
        | ended => exact hfile
      · exact hfile
    | write ok =>
      have hflush : (d.flush ok).file.isSome = true := by
        cases ok with
        | true => simpa [Download.flush] using hfile
        | false => exact hfile
      right
      simp only [Download.step]
      split
      · exact hflush
      · split
        · exact hfile
        · exact hflush
      · exact hfile
    | delete ok =>
      simp only [Download.step]
      split
      · exact .inl rfl
      · exact .inr hfile

/-- While the file is there as long as it should, only a removal that fails leaves
it behind. -/
theorem leaves_step (hheld : Held d) (h : d.phase = .returned false → d.file = none)
    (e : DownloadEvent) :
    ((d.step e).phase = .returned false → (d.step e).file = none) ↔
      (d.phase = .deleting → e ≠ .delete false) := by
  by_cases hdelete : d.phase = .deleting ∧ ∃ ok, e = .delete ok
  · obtain ⟨hdeleting, ok, rfl⟩ := hdelete
    have hfile : d.file.isSome = true := by
      rcases hheld with hreturned | hfile
      · rw [hdeleting] at hreturned
        cases hreturned
      · exact hfile
    cases ok with
    | true => simp [Download.step, hdeleting]
    | false =>
      have hnone : d.file ≠ none := Option.isSome_iff_ne_none.mp hfile
      simpa [Download.step, hdeleting] using hnone
  · refine iff_of_true ?_ ?_
    · intro hphase
      have hreturned : d.phase = .returned false := (phase_step hphase).resolve_right hdelete
      rw [(step_returned hreturned e).2]
      exact h hreturned
    · rintro hdeleting rfl
      exact hdelete ⟨hdeleting, false, rfl⟩

/-- What the call starts its loop with, or does not. -/
theorem start_of_creates {io : DownloadIo} {old : Option (List UInt8)} (h : creates io old = true)
    (size : Int64) (stream : List UInt8) :
    (Download.start io size stream old).file.isSome = true ∧
      (Download.start io size stream old).phase =
        if io.openFile then .head else .returned false := by
  simp only [creates, Bool.and_eq_true, Bool.or_eq_true] at h
  obtain ⟨⟨hbefore, hcreate⟩, hold⟩ := h
  have hkept : (if io.deleteOld then none else old) = none := by
    rcases hold with hdelete | hnone
    · rw [if_pos hdelete]
    · rw [Option.isNone_iff_eq_none.mp hnone, ite_self]
  obtain ⟨⟨⟨⟨⟨hsocket, haddress⟩, hconnect⟩, hsession⟩, hhandshake⟩, hmounted⟩ := hbefore
  simp [Download.start, hkept, hsocket, haddress, hconnect, hsession, hhandshake, hmounted, hcreate]

/-- A call leaves nothing behind exactly if what it made can be undone. -/
theorem leavesNothing_iff (io : DownloadIo) (size : Int64) (stream : List UInt8)
    (old : Option (List UInt8)) (events : List DownloadEvent) :
    LeavesNothing io size stream old events ↔ Undone io size stream old events := by
  refine imp_congr_right fun hcreates => ?_
  obtain ⟨hfile, hphase⟩ := start_of_creates hcreates size stream
  cases hopen : io.openFile with
  | true =>
    rw [hopen, if_pos rfl] at hphase
    have hstart : (Download.start io size stream old).phase = .returned false →
        (Download.start io size stream old).file = none := by
      intro hreturned
      rw [hphase] at hreturned
      cases hreturned
    have hiff := always_iff_everyStep_of_inv (I := Held) (fun _ e h => held_step h e)
      (fun _ e hheld h => leaves_step hheld h e) (.inr hfile) hstart events
    exact hiff.trans (and_iff_right rfl).symm
  | false =>
    rw [hopen] at hphase
    refine iff_of_false ?_ ?_
    · intro halways
      have hnone := (always_iff _ _ _ _).mp halways [] List.nil_prefix hphase
      rw [run_nil] at hnone
      rw [hnone] at hfile
      cases hfile
    · rintro ⟨hopened, -⟩
      cases hopened

end Steps

/-! ## The caches -/

/-- A payload that is asked for, with the results of the calls until the download
returns. -/
structure Arrival where
  io : DownloadIo := {}
  /-- Only payloads of a positive size are asked for. -/
  size : Int64
  size_pos : 0 < size.toInt
  stream : List UInt8
  events : List DownloadEvent
  returns : ∀ old, ∃ ok, (run Download.step (.start io size stream old) events).phase = .returned ok
  /-- The file can be opened again to look at its first bytes. -/
  readBack : Bool := true

namespace Arrival

/-- The download when it returns, over what is at its path. -/
def download (a : Arrival) (old : Option (List UInt8)) : Download :=
  run Download.step (.start a.io a.size a.stream old) a.events

/-- `download_payload` returns true. -/
def ok (a : Arrival) (old : Option (List UInt8)) : Bool :=
  decide ((a.download old).phase = .returned true)

end Arrival

/-- A file that a download made, with the download and what it returned. -/
structure Stored where
  bytes : List UInt8
  arrival : Arrival
  ok : Bool

/-- A payload that came whole. -/
structure Stored.Complete (s : Stored) : Prop where
  ok : s.ok = true
  length : s.bytes.length = s.arrival.size.toInt.toNat
  bytes : s.bytes <+: s.arrival.stream

/-- The files on the card, and the hashes of album art with the last used first. -/
structure Cache where
  files : String → Option Stored := fun _ => none
  lru : List String := []

def kLruMax : Nat := 10

/-- `AlbumArt::img_path`. -/
def imgPath (hash : String) : String := "/config/kdeconnect/album_art/" ++ hash

def iconPathPng (hash : String) : String :=
  "/config/ultrahand/assets/notifications/.kdeconnect_" ++ hash ++ ".png"

/-- The first twelve bytes, filled up with zeros. -/
def magic (bytes : List UInt8) : List UInt8 := (List.range 12).map fun i => bytes.getD i 0

/-- The start of a JPEG, PNG or WebP file. -/
def isImage (magic : List UInt8) : Bool :=
  magic.take 3 == [0xFF, 0xD8, 0xFF] || magic.take 3 == [0x89, 0x50, 0x4E] ||
    magic.take 4 == [0x52, 0x49, 0x46, 0x46] && magic.drop 8 == [0x57, 0x45, 0x42, 0x50]

namespace Cache

def bytesAt (c : Cache) (path : String) : Option (List UInt8) := (c.files path).map Stored.bytes

/-- `remove(path)`, where it succeeds. -/
def remove (removes : String → Bool) (c : Cache) (path : String) : Cache :=
  if removes path then { c with files := Function.update c.files path none } else c

/-- `AlbumArt::lru_touch`: the eldest beyond the limit go. -/
def lruTouch (removes : String → Bool) (hash : String) (c : Cache) : Cache :=
  if hash.isEmpty then c
  else if c.lru.head? = some hash then c
  else
    let lru := hash :: c.lru.erase hash
    (lru.drop kLruMax).reverse.foldl (fun c old => c.remove removes (imgPath old))
      { c with lru := lru.take kLruMax }

/-- The files after a download to the path. -/
def fetch (path : String) (a : Arrival) (c : Cache) : Cache :=
  let old := c.bytesAt path
  let stored := (a.download old).file.bind fun bytes =>
    if creates a.io old then some ⟨bytes, a, a.ok old⟩ else c.files path
  { c with files := Function.update c.files path stored }

/-- `AlbumArt::download_raw`: what is no image is removed again. -/
def downloadRaw (removes : String → Bool) (a : Arrival) (hash : String) (c : Cache) : Cache :=
  let path := imgPath hash
  let fetched := c.fetch path a
  if !a.ok (c.bytesAt path) then fetched
  else if isImage (magic (if a.readBack then (fetched.bytesAt path).getD [] else [])) then
    fetched.lruTouch removes hash
  else fetched.remove removes path

end Cache

inductive Event where
  /-- A player state with the hash of its art, and the payload if the packet
  transfers the art. -/
  | art (hash : String) (payload : Option Arrival) (removes : String → Bool)
  /-- A notification with an icon, which may be on the card already. -/
  | icon (hash : String) (present : Bool) (a : Arrival) (removes : String → Bool)

/-- The test for a file stands before every download; of an icon only the file in
another format is kept, and the payload removed. -/
def step (c : Cache) : Event → Cache
  | .art hash payload removes =>
    if hash.isEmpty then c
    else if (c.files (imgPath hash)).isSome then c.lruTouch removes hash
    else
      match payload with
      | none => c
      | some a => c.downloadRaw removes a hash
  | .icon hash present a removes =>
    if present then c
    else
      let path := iconPathPng hash
      let fetched := c.fetch path a
      if a.ok (c.bytesAt path) then fetched.remove removes path else fetched

/-- The download an event leads to, with its path. -/
def asked (c : Cache) : Event → Option (String × Arrival)
  | .art hash payload _ =>
    if hash.isEmpty || (c.files (imgPath hash)).isSome then none
    else payload.map fun a => (imgPath hash, a)
  | .icon hash present a _ => if present then none else some (iconPathPng hash, a)

/-- Every file that is there came whole. -/
def Whole (c : Cache) : Prop := ∀ path stored, c.files path = some stored → stored.Complete

/-- What the event downloads can be undone. -/
def UndoneBy (c : Cache) (e : Event) : Prop :=
  ∀ path a, asked c e = some (path, a) → Undone a.io a.size a.stream (c.bytesAt path) a.events

section Caches

variable {c : Cache} {a : Arrival} {removes : String → Bool}

/-- Of a call that has returned only the end has to be looked at. -/
theorem leavesNothing_finished (a : Arrival) (old : Option (List UInt8)) :
    LeavesNothing a.io a.size a.stream old a.events ↔
      (creates a.io old = true → a.ok old = false → (a.download old).file = none) := by
  refine imp_congr_right fun _ => ?_
  obtain ⟨ok, hok⟩ := a.returns old
  constructor
  · intro halways hfailed
    have hlast : ok = false := by
      cases ok with
      | false => rfl
      | true =>
        have htrue : a.ok old = true := decide_eq_true hok
        rw [htrue] at hfailed
        cases hfailed
    rw [hlast] at hok
    exact halways.last hok
  · intro hend
    rw [always_iff]
    rintro before ⟨after, hafter⟩ hreturned
    obtain ⟨hphase, hfile⟩ := run_returned hreturned after
    rw [← run_append, hafter] at hphase hfile
    have hfailed : a.ok old = false := decide_eq_false (by
      unfold Arrival.download
      rw [hphase]
      exact fun h => by cases h)
    rw [← hfile]
    exact hend hfailed

/-- A download that returns true has the payload at its path. -/
theorem complete_of_ok {old : Option (List UInt8)} (h : a.ok old = true) {bytes : List UInt8}
    (hfile : (a.download old).file = some bytes) : Stored.Complete ⟨bytes, a, a.ok old⟩ := by
  have hphase : (a.download old).phase = .returned true := of_decide_eq_true h
  have hsound : (a.download old).Sound a.size.toInt.toNat a.stream :=
    (always_of_step (P := Download.Sound a.size.toInt.toNat a.stream)
      (fun _ e h => Download.sound_step h e)
      (Download.sound_start a.io a.size_pos a.stream old) a.events).last
  obtain ⟨file, hsome, hlength, hprefix⟩ := hsound.content hphase
  rw [hfile] at hsome
  cases hsome
  exact ⟨h, hlength, hprefix⟩

theorem files_remove {old path : String} {stored : Stored}
    (h : (c.remove removes old).files path = some stored) : c.files path = some stored := by
  unfold Cache.remove at h
  split at h
  · dsimp only at h
    by_cases hpath : path = old
    · rw [hpath, Function.update_self] at h
      cases h
    · rw [Function.update_of_ne hpath] at h
      exact h
  · exact h

theorem files_lruTouch {hash path : String} {stored : Stored}
    (h : (c.lruTouch removes hash).files path = some stored) : c.files path = some stored := by
  have hremoved : ∀ (paths : List String) (c : Cache),
      (paths.foldl (fun c old => c.remove removes (imgPath old)) c).files path = some stored →
        c.files path = some stored := by
    intro paths
    induction paths with
    | nil => exact fun _ h => h
    | cons old paths ih => exact fun c h => files_remove (ih _ h)
  unfold Cache.lruTouch at h
  split at h
  · exact h
  · split at h
    · exact h
    · exact hremoved _ { c with lru := (hash :: c.lru.erase hash).take kLruMax } h

/-- What a download leaves at its own path, and at others. -/
theorem fetch_self (c : Cache) (path : String) (a : Arrival) :
    (c.fetch path a).files path = (a.download (c.bytesAt path)).file.bind fun bytes =>
      if creates a.io (c.bytesAt path) then some ⟨bytes, a, a.ok (c.bytesAt path)⟩
      else c.files path := Function.update_self path _ _

theorem fetch_other (a : Arrival) {path other : String} (h : other ≠ path) :
    (c.fetch path a).files other = c.files other := Function.update_of_ne h _ _

theorem whole_remove (h : Whole c) (path : String) : Whole (c.remove removes path) :=
  fun other stored hstored => h other stored (files_remove hstored)

theorem whole_lruTouch (h : Whole c) (hash : String) : Whole (c.lruTouch removes hash) :=
  fun path stored hstored => h path stored (files_lruTouch hstored)

/-- Every file stays a whole payload exactly if the download can be undone. -/
theorem whole_fetch (h : Whole c) (path : String) (a : Arrival) :
    Whole (c.fetch path a) ↔ Undone a.io a.size a.stream (c.bytesAt path) a.events := by
  rw [← leavesNothing_iff, leavesNothing_finished]
  have hself := fetch_self c path a
  constructor
  · intro hwhole hcreates hfailed
    by_contra hfile
    obtain ⟨bytes, hbytes⟩ := Option.ne_none_iff_exists'.mp hfile
    rw [hbytes, Option.bind_some, if_pos hcreates] at hself
    have hok := (hwhole path _ hself).ok
    rw [hfailed] at hok
    cases hok
  · intro hend other stored hstored
    by_cases hpath : other = path
    · rw [hpath, hself] at hstored
      obtain ⟨bytes, hbytes, hstored⟩ := Option.bind_eq_some_iff.mp hstored
      split at hstored
      · rename_i hcreates
        cases hstored
        cases hok : a.ok (c.bytesAt path) with
        | true =>
          rw [← hok]
          exact complete_of_ok hok hbytes
        | false =>
          rw [hend hcreates hok] at hbytes
          cases hbytes
      · exact h path stored hstored
    · rw [fetch_other a hpath] at hstored
      exact h other stored hstored

/-- A download that returned true needs nothing undone. -/
theorem undone_of_ok {old : Option (List UInt8)} (h : a.ok old = true) :
    Undone a.io a.size a.stream old a.events := by
  rw [← leavesNothing_iff, leavesNothing_finished]
  intro _ hfailed
  rw [h] at hfailed
  cases hfailed

/-- What follows on a download that returned true keeps whole payloads. -/
theorem whole_downloadRaw (h : Whole c) (a : Arrival) (hash : String) :
    Whole (c.downloadRaw removes a hash) ↔
      Undone a.io a.size a.stream (c.bytesAt (imgPath hash)) a.events := by
  rw [← whole_fetch h]
  unfold Cache.downloadRaw
  dsimp only
  cases hok : a.ok (c.bytesAt (imgPath hash)) with
  | false => rfl
  | true =>
    have hfetched := (whole_fetch h (imgPath hash) a).mpr (undone_of_ok hok)
    refine iff_of_true ?_ hfetched
    rw [Bool.not_true, if_neg Bool.false_ne_true]
    generalize isImage _ = valid
    cases valid with
    | true => exact whole_lruTouch hfetched hash
    | false => exact whole_remove hfetched _

/-- The step lemma: an event leaves only whole payloads exactly if what it
downloads can be undone. -/
theorem whole_step (h : Whole c) (e : Event) : Whole (step c e) ↔ UndoneBy c e := by
  have hnothing : ∀ {asked : Option (String × Arrival)}, asked = none → ∀ path a,
      asked = some (path, a) → Undone a.io a.size a.stream (c.bytesAt path) a.events := by
    intro asked hnone path a hsome
    rw [hnone] at hsome
    cases hsome
  cases e with
  | art hash payload removes =>
    unfold step UndoneBy asked
    dsimp only
    by_cases hempty : hash.isEmpty = true
    · rw [if_pos hempty]
      exact iff_of_true h (hnothing (if_pos (by rw [hempty, Bool.true_or])))
    · by_cases hpresent : (c.files (imgPath hash)).isSome = true
      · rw [if_neg hempty, if_pos hpresent]
        exact iff_of_true (whole_lruTouch h hash)
          (hnothing (if_pos (by rw [hpresent, Bool.or_true])))
      · rw [if_neg hempty, if_neg hpresent, eq_false_of_ne_true hempty,
          eq_false_of_ne_true hpresent]
        cases payload with
        | none => exact iff_of_true h (hnothing rfl)
        | some a =>
          refine (whole_downloadRaw h a hash).trans ?_
          simp
  | icon hash present a removes =>
    unfold step UndoneBy asked
    dsimp only
    cases present with
    | true => exact iff_of_true h (hnothing rfl)
    | false =>
      have hasked : (∀ path b, some (iconPathPng hash, a) = some (path, b) →
          Undone b.io b.size b.stream (c.bytesAt path) b.events) ↔
            Undone a.io a.size a.stream (c.bytesAt (iconPathPng hash)) a.events := by simp
      rw [if_neg Bool.false_ne_true, if_neg Bool.false_ne_true, hasked, ← whole_fetch h]
      cases hok : a.ok (c.bytesAt (iconPathPng hash)) with
      | false => rfl
      | true =>
        have hfetched := (whole_fetch h (iconPathPng hash) a).mpr (undone_of_ok hok)
        exact iff_of_true (whole_remove hfetched _) hfetched

end Caches

/-- A download that returns false leaves no file that it made exactly if the file
could be opened and, where it is removed, removed; and files that are there are
payloads that came whole exactly as long as every download is such a one. -/
theorem leavesNoFile_iff (io : DownloadIo) (size : Int64) (stream : List UInt8)
    (old : Option (List UInt8)) (calls : List DownloadEvent) (events : List Event) :
    (LeavesNothing io size stream old calls ↔ Undone io size stream old calls) ∧
    (Always step Whole {} events ↔ EveryStep step UndoneBy {} events) := by
  refine ⟨leavesNothing_iff io size stream old calls, ?_⟩
  refine always_iff_everyStep (P := Whole) (fun _ e h => whole_step h e) ?_ events
  intro path stored hstored
  cases hstored

/-- The file is made and cannot be opened. -/
theorem notLeavesNothing_unopened :
    ¬ ∀ io size stream old events, LeavesNothing io size stream old events := by
  intro h
  have hleft := h { openFile := false } 3 [] none [] rfl
  have hnone : (Download.start { openFile := false } 3 [] none).file = none := hleft rfl
  exact absurd hnone (by decide)

end KdeConnectNx.FailedDownloads
