import KdeConnectNx.PostedTable
import KdeConnectNx.ReceivedFiles
import Mathlib.Logic.Function.Basic

/-!
# Icons that are remembered

Every session remembers which icon an app had last, and the icons are files in one
folder for all sessions. The folder is cleared whenever a plugin is made. Downloads
and decodes succeed here.
-/

namespace KdeConnectNx.SharedIcons

open PacketBody PacketFormat PathNames Plugins Plugins.NotificationPlugin Runs
open PostedTable hiding Event World step
open ReceivedFiles (bytes iconPath Place)

/-- The file of an icon. -/
def iconFile (hash : String) : Folder := normalize (iconPath (bytes hash))

/-- `clear_our_icons` removes this file. -/
def clears (file : Folder) : Bool :=
  file.dropLast == normalize Place.assets.dir &&
    file.getLast?.any fun name => "kdeconnect".toList.isPrefixOf name && ".rgba".toList.isSuffixOf
      name

/-- A plugin of a session, and the icons that were written in this session. -/
structure Live where
  plugin : NotificationPlugin := {}
  wrote : List String := []

/-- The sessions that are live, the icons on the card, and the files of icons that
were written since a plugin was made. -/
structure World where
  live : ℕ → Option Live := fun _ => none
  card : Folder → Bool
  since : List Folder := []

inductive Event where
  /-- A plugin is made, for a session or to ask it for its packet types. -/
  | create (session : ℕ)
  | destroy (session : ℕ)
  | packet (session : ℕ) (e : PostedTable.Event)

/-- `write_app_icon` comes to write the file. -/
def writes (card : Folder → Bool) (p : NotificationPlugin) (e : PostedTable.Event) : Bool :=
  e.notifies && e.np.hasPayload && !(iconHash p e).isEmpty && !card (iconFile (iconHash p e))

def receiveLive (w : World) (session : ℕ) (e : PostedTable.Event) (l : Live) : World :=
  let hash := iconHash l.plugin e
  let written := writes w.card l.plugin e
  { live := Function.update w.live session
      (some ⟨receive l.plugin e, if written then hash :: l.wrote else l.wrote⟩)
    card := if written then Function.update w.card (iconFile hash) true else w.card
    since := if written then iconFile hash :: w.since else w.since }

def step (w : World) : Event → World
  | .create session =>
    { live := Function.update w.live session (some {})
      card := fun file => w.card file && !clears file
      since := [] }
  | .destroy session => { w with live := Function.update w.live session none }
  | .packet session e => (w.live session).elim w (receiveLive w session e)

/-- The packet is posted with the icon that its app is remembered to have, and that
this session has written. -/
def remembered (p : NotificationPlugin) (wrote : List String) (e : PostedTable.Event) : Bool :=
  posts p e && e.payloadHash.isEmpty && !(iconHash p e).isEmpty && wrote.contains (iconHash p e)

/-- An icon a notification is posted with is there. -/
def HasIcon (w : World) : Event → Prop
  | .packet session e => ∀ l, w.live session = some l → remembered l.plugin l.wrote e = true →
    (step w (.packet session e)).card (iconFile (iconHash l.plugin e)) = true
  | .create _ => True
  | .destroy _ => True

/-- It was written since a plugin was made, or it is none that is cleared, or comes
with the packet. -/
def Unwiped (w : World) : Event → Prop
  | .packet session e => ∀ l, w.live session = some l → remembered l.plugin l.wrote e = true →
    iconFile (iconHash l.plugin e) ∈ w.since ∨ clears (iconFile (iconHash l.plugin e)) = false ∨
      e.np.hasPayload = true
  | .create _ => True
  | .destroy _ => True

/-- The session refers to this icon. -/
def Refers (l : Live) (hash : String) : Prop := ∃ app, (app, hash) ∈ l.plugin.appIconHash

/-- A new session leaves the icons that others refer to. -/
def LeavesIcons (w : World) : Event → Prop
  | .create session => ∀ other l, other ≠ session → w.live other = some l →
    ∀ hash, Refers l hash → w.card (iconFile hash) = true →
      (step w (.create session)).card (iconFile hash) = true
  | .destroy _ => True
  | .packet _ _ => True

/-- None of the icons that others refer to is on the card, but such as are not
cleared. -/
def NoneAtStake (w : World) : Event → Prop
  | .create session => ∀ other l, other ≠ session → w.live other = some l →
    ∀ hash, Refers l hash → w.card (iconFile hash) = true → clears (iconFile hash) = false
  | .destroy _ => True
  | .packet _ _ => True

section Steps

variable {w : World} {e : Event}

/-- The icons a session has written are on the card exactly if no plugin was made
since, or if they are not cleared. -/
def Accounted (w : World) : Prop :=
  ∀ session l, w.live session = some l → ∀ hash ∈ l.wrote,
    (w.card (iconFile hash) = true ↔ iconFile hash ∈ w.since ∨ clears (iconFile hash) = false)

/-- Who is live after a session has changed. -/
theorem live_cases {live : ℕ → Option Live} {session other : ℕ} {new : Option Live} {l : Live}
    (h : Function.update live session new other = some l) : new = some l ∨ live other = some l := by
  by_cases hother : other = session
  · rw [hother, Function.update_self] at h
    exact .inl h
  · rw [Function.update_of_ne hother] at h
    exact .inr h

theorem accounted_create (h : Accounted w) (session : ℕ) :
    Accounted (step w (.create session)) := by
  intro other l hlive hash hwrote
  have hcard : (step w (.create session)).card (iconFile hash) =
      (w.card (iconFile hash) && !clears (iconFile hash)) := rfl
  have hsince : (step w (.create session)).since = [] := rfl
  rcases live_cases hlive with hnew | hlive
  · obtain rfl := Option.some.inj hnew
    cases hwrote
  · rw [hcard, hsince, Bool.and_eq_true, Bool.not_eq_true', h other l hlive hash hwrote]
    constructor
    · rintro ⟨-, hkept⟩
      exact .inr hkept
    · rintro (hm | hkept)
      · cases hm
      · exact ⟨.inr hkept, hkept⟩

theorem accounted_receive (h : Accounted w) {session : ℕ} {l : Live}
    (hlive : w.live session = some l) (e : PostedTable.Event) :
    Accounted (receiveLive w session e l) := by
  have hothers : ∀ other l', (receiveLive w session e l).live other = some l' → ∀ hash ∈ l'.wrote,
      (∃ session l, w.live session = some l ∧ hash ∈ l.wrote) ∨
        (writes w.card l.plugin e = true ∧ hash = iconHash l.plugin e) := by
    intro other l' hlive' hash hwrote
    rcases live_cases hlive' with hnew | hold
    · obtain rfl := Option.some.inj hnew
      dsimp only at hwrote
      split at hwrote
      · rename_i hwrites
        rcases List.mem_cons.mp hwrote with hnew | hold
        · exact .inr ⟨hwrites, hnew⟩
        · exact .inl ⟨session, l, hlive, hold⟩
      · exact .inl ⟨session, l, hlive, hwrote⟩
    · exact .inl ⟨other, l', hold, hwrote⟩
  intro other l' hlive' hash hwrote
  have hcard : (receiveLive w session e l).card = if writes w.card l.plugin e then
      Function.update w.card (iconFile (iconHash l.plugin e)) true else w.card := rfl
  have hsince : (receiveLive w session e l).since = if writes w.card l.plugin e then
      iconFile (iconHash l.plugin e) :: w.since else w.since := rfl
  rw [hcard, hsince]
  cases hwrites : writes w.card l.plugin e with
  | false =>
    rcases hothers other l' hlive' hash hwrote with ⟨s, k, hk, hold⟩ | ⟨htrue, -⟩
    · rw [if_neg Bool.false_ne_true, if_neg Bool.false_ne_true]
      exact h s k hk hash hold
    · rw [hwrites] at htrue
      cases htrue
  | true =>
    rw [if_pos rfl, if_pos rfl]
    by_cases hfile : iconFile hash = iconFile (iconHash l.plugin e)
    · rw [hfile, Function.update_self]
      exact iff_of_true rfl (.inl List.mem_cons_self)
    · rw [Function.update_of_ne hfile, List.mem_cons, or_iff_right hfile]
      rcases hothers other l' hlive' hash hwrote with ⟨s, k, hk, hold⟩ | ⟨-, hnew⟩
      · exact h s k hk hash hold
      · exact absurd (congrArg iconFile hnew) hfile

theorem step_packet (w : World) (session : ℕ) (e : PostedTable.Event) :
    step w (.packet session e) = (w.live session).elim w (receiveLive w session e) := rfl

theorem accounted_step (h : Accounted w) (e : Event) : Accounted (step w e) := by
  cases e with
  | create session => exact accounted_create h session
  | destroy session =>
    intro other l hlive hash hwrote
    rcases live_cases hlive with hnone | hlive
    · cases hnone
    · exact h other l hlive hash hwrote
  | packet session e =>
    rw [step_packet]
    cases hlive : w.live session with
    | none => exact h
    | some l => exact accounted_receive h hlive e

/-- What is posted is a notification. -/
theorem notifies_of_posts {p : NotificationPlugin} {e : PostedTable.Event} (h : posts p e = true) :
    e.notifies = true := by
  have houtcome := receive_outcome p e
  generalize (receive p e).postedIds = table at houtcome
  generalize hposted : posts p e = posted at houtcome
  rw [h] at hposted
  cases houtcome with
  | recorded hrecords => exact notifies_of_records hrecords
  | upgraded entry hnotifies => exact hnotifies
  | unnamed hnotifies => exact hnotifies
  | cancelled | suppressed | foreign => cases hposted

/-- The step lemma: a remembered icon is there exactly if it was not wiped. -/
theorem hasIcon_iff (h : Accounted w) (e : Event) : HasIcon w e ↔ Unwiped w e := by
  cases e with
  | create session => exact Iff.rfl
  | destroy session => exact Iff.rfl
  | packet session e =>
    refine forall_congr' fun l => imp_congr_right fun hlive => imp_congr_right fun hremembered => ?_
    rw [remembered, Bool.and_eq_true, Bool.and_eq_true, Bool.and_eq_true, List.contains_iff_mem]
      at hremembered
    obtain ⟨⟨⟨hposts, -⟩, hnamed⟩, hwrote⟩ := hremembered
    have hcard : (step w (.packet session e)).card = if writes w.card l.plugin e then
        Function.update w.card (iconFile (iconHash l.plugin e)) true else w.card := by
      rw [step_packet, hlive]
      rfl
    have hwrites : writes w.card l.plugin e =
        (e.np.hasPayload && !w.card (iconFile (iconHash l.plugin e))) := by
      rw [writes, notifies_of_posts hposts, hnamed, Bool.true_and, Bool.and_true]
    have hiff := h session l hlive _ hwrote
    rw [hcard, ← or_assoc, ← hiff, hwrites]
    cases e.np.hasPayload with
    | true =>
      refine iff_of_true ?_ (.inr rfl)
      cases hpresent : w.card (iconFile (iconHash l.plugin e)) with
      | true => exact hpresent
      | false =>
        rw [Bool.not_false, Bool.true_and, if_pos rfl]
        exact Function.update_self _ _ _
    | false =>
      rw [Bool.false_and, if_neg Bool.false_ne_true]
      exact ⟨.inl, fun h => h.resolve_right Bool.false_ne_true⟩

theorem leavesIcons_iff (w : World) (e : Event) : LeavesIcons w e ↔ NoneAtStake w e := by
  cases e with
  | create session =>
    refine forall_congr' fun other => forall_congr' fun l => imp_congr_right fun _ =>
      imp_congr_right fun _ => forall_congr' fun hash => imp_congr_right fun _ =>
        imp_congr_right fun hpresent => ?_
    have hcard : (step w (.create session)).card (iconFile hash) =
        (w.card (iconFile hash) && !clears (iconFile hash)) := rfl
    rw [hcard, hpresent, Bool.true_and, Bool.not_eq_true']
  | destroy session => exact Iff.rfl
  | packet session e => exact Iff.rfl

end Steps

/-- Over every sequence of sessions and packets, from every card: remembered icons
that were written in the session are there exactly if no plugin was made since, and
a new session leaves the icons of the others exactly if none of them is on the
card. -/
theorem sharedIcons_iff (card : Folder → Bool) (events : List Event) :
    (EveryStep step HasIcon { card := card } events ↔
        EveryStep step Unwiped { card := card } events) ∧
      (EveryStep step LeavesIcons { card := card } events ↔
        EveryStep step NoneAtStake { card := card } events) := by
  constructor
  · have haccounted : Accounted { card := card } := fun _ _ hlive => by cases hlive
    exact everyStep_congr (fun _ e h => hasIcon_iff h e)
      (always_of_step (P := Accounted) (fun _ e h => accounted_step h e) haccounted events)
  · exact everyStep_congr (P := fun _ => True) (fun w e _ => leavesIcons_iff w e)
      (always_of_step (P := fun _ => True) (fun _ _ _ => trivial) trivial events)

/-- A notification of one app, with its icon or without. -/
def notice (id payloadHash : String) : PostedTable.Event where
  env := { json := Yyjson.reference, steady := 0 }
  np :=
    { type := PacketTypes.notification
      body := (({} : JsonBody).setStr "id" id).setStr "payloadHash" payloadHash
      payloadSize := 1
      payloadPort := if payloadHash.isEmpty then 0 else 1739 }

/-- An icon is written and remembered, and then another device connects. -/
def otherConnects : List Event :=
  [.create 0, .packet 0 (notice "a" "5d"), .create 1, .packet 0 (notice "b" "")]

/-- The second notification is posted with an icon that is gone. -/
theorem notSharedIcons_otherConnects :
    ¬ ∀ (card : Folder → Bool) (events : List Event),
      EveryStep step HasIcon { card := card } events ∧
        EveryStep step LeavesIcons { card := card } events := by
  intro h
  obtain ⟨-, -, -, hlast, -⟩ := (h (fun _ => false) otherConnects).1
  exact absurd (hlast _ rfl (by decide)) (by decide)

end KdeConnectNx.SharedIcons
