import KdeConnectNx.PostedTable
import KdeConnectNx.Runs
import Mathlib.Data.Finset.Card

/-!
# Which notifications are passed over

A notification that comes again within two seconds is not posted again, unless it
has an icon now and had none before. Beside the plugin a log of all that was posted
is kept. When a notification is passed over is a matter of the packets before it:
which of them wrote the entry it repeats, and which one brought the icon.
-/

namespace KdeConnectNx.Debouncing

open PacketBody PacketFormat Plugins Plugins.NotificationPlugin PostedTable Runs

/-- A notification that was posted. -/
structure Posting where
  id : String
  time : String
  hasIcon : Bool
  when : Int64
  deriving DecidableEq

/-- The plugin, the last reading of the clock, and all postings, the last in front. -/
structure World where
  plugin : NotificationPlugin := {}
  clock : Option Int64 := none
  log : List Posting := []

/-- The entry this packet repeats: of its id and time, less than two seconds old. -/
def repeated (p : NotificationPlugin) (e : Event) : Option PostedEntry :=
  (p.postedIds.lookup e.id).filter fun entry =>
    decide (entry.time = e.time ∧ e.env.steady - entry.when < 2000000000)

/-- The packet is passed over. -/
def suppresses (p : NotificationPlugin) (e : Event) : Bool :=
  e.notifies && !e.id.isEmpty &&
    (repeated p e).any fun entry => entry.hasIcon || (iconHash p e).isEmpty

/-- The packet brings the icon to an entry without one. -/
def upgrades (p : NotificationPlugin) (e : Event) : Bool :=
  e.notifies && !e.id.isEmpty &&
    (repeated p e).any fun entry => !entry.hasIcon && !(iconHash p e).isEmpty

def posting (p : NotificationPlugin) (e : Event) : Posting where
  id := e.id
  time := e.time
  hasIcon := !(iconHash p e).isEmpty
  when := e.env.steady

/-- The log after a packet. -/
def logged (w : World) (e : Event) (posted : Bool) : List Posting :=
  if posted then posting w.plugin e :: w.log else w.log

def step (w : World) (e : Event) : World where
  plugin := receive w.plugin e
  clock := some e.env.steady
  log := logged w e (posts w.plugin e)

/-- The clock never goes back, and it starts at zero. -/
structure Goes (w : World) (e : Event) : Prop where
  nonneg : 0 ≤ e.env.steady
  forward : ∀ t ∈ w.clock, t ≤ e.env.steady

/-- A notification that is to be seen is posted, or one of the same id and time was
less than two seconds ago, with an icon or as little of one. -/
def JustSilent (w : World) (e : Event) : Prop :=
  e.notifies = true → e.visible = true → e.id ≠ "" →
    posts w.plugin e = true ∨
      ∃ s ∈ w.log, s.id = e.id ∧ s.time = e.time ∧
        e.env.steady.toInt - s.when.toInt < 2000000000 ∧
          (s.hasIcon = true ∨ iconHash w.plugin e = "")

/-! ## The packets an entry comes from -/

/-- The entry of this id is written. -/
def Writes (id : String) (w : World) (e : Event) : Prop :=
  e.id = id ∧ records w.plugin e = true

/-- It is written on a packet that is not to be seen. -/
def WritesUnseen (id : String) (w : World) (e : Event) : Prop :=
  Writes id w e ∧ e.visible = false

/-- A packet that is not to be seen brings the icon, to a new entry or to the one
that is there. -/
def BringsIconUnseen (id : String) (w : World) (e : Event) : Prop :=
  e.id = id ∧ e.visible = false ∧
    (records w.plugin e = true ∧ iconHash w.plugin e ≠ "" ∨ upgrades w.plugin e = true)

/-- The entry is written again, or a packet that is to be seen brings its icon. -/
def Shown (id : String) (w : World) (e : Event) : Prop :=
  e.id = id ∧ (records w.plugin e = true ∨ upgrades w.plugin e = true ∧ e.visible = true)

/-- The packet that wrote the entry of this id last was not to be seen. -/
def FirstUnseen (id : String) (before : List Event) : Prop :=
  Since step (WritesUnseen id) (Writes id) {} before

/-- Nor did one that was to be seen bring its icon since. -/
def Unseen (id : String) (before : List Event) : Prop :=
  Since step (WritesUnseen id) (Shown id) {} before

/-- The packet that brought its icon was not to be seen. -/
def IconUnseen (id : String) (before : List Event) : Prop :=
  Since step (BringsIconUnseen id) (Writes id) {} before

/-- A notification that is to be seen and repeats an entry does not meet one that no
visible packet made; nor, with an icon of its own, one whose icon came unseen. -/
def MeetsSeen (before : List Event) (e : Event) : Prop :=
  e.notifies = true → e.visible = true → repeats (run step {} before).plugin e = true →
    (iconHash (run step {} before).plugin e = "" → ¬ Unseen e.id before) ∧
      (iconHash (run step {} before).plugin e ≠ "" → ¬ IconUnseen e.id before)

/-- Every packet of the run and those before it are as the condition says. -/
def Throughout (Q : List Event → Event → Prop) (events : List Event) : Prop :=
  ∀ before e after, events = before ++ e :: after → Q before e

/-- How often a notification was posted. -/
def timesPosted (id time : String) (log : List Posting) : ℕ :=
  log.countP fun s => s.id == id && s.time == time

/-- Other ids than this one that arrive. -/
def arrivals (id : String) (events : List Event) : List String :=
  (events.filter fun e => e.notifies && !e.id.isEmpty && e.id != id).map Event.id

/-- What comes within two seconds of a notification and neither takes it back nor
gives it another time. -/
structure Meanwhile (first e : Event) : Prop where
  recent : e.env.steady.toInt - first.env.steady.toInt < 2000000000
  stays : e.cancels = true → e.id ≠ first.id
  same : e.notifies = true → e.id = first.id → e.time = first.time

/-- From its first posting on a notification is posted once more at most, while
fewer than ten others arrive. -/
def AtMostTwice (events : List Event) : Prop :=
  ∀ before first mid after, events = before ++ first :: (mid ++ after) → first.id ≠ "" →
    timesPosted first.id first.time (run step {} before).log = 0 →
    posts (run step {} before).plugin first = true →
    (∀ e ∈ mid, Meanwhile first e) → (arrivals first.id mid).toFinset.card < 10 →
    timesPosted first.id first.time (run step {} (before ++ first :: mid)).log ≤ 2

/-- A full table loses its oldest entry to a new id, or to the next notification of
the same id. -/
def LosesOldest (w : World) (e : Event) : Prop :=
  records w.plugin e = true → kMaxPostedIds ≤ w.plugin.postedIds.length →
    ∀ entry, oldest w.plugin.postedIds = some entry → e.id = entry.1 ∨
      (e.id ∉ ids w.plugin ∧
        ∀ other ∈ w.plugin.postedIds, other.1 ≠ entry.1 → entry.2.when < other.2.when)

/-- No packet that is to be seen brings the icon to an entry that another one wrote
unseen, and no entry goes before its time. -/
structure Kept (before : List Event) (e : Event) : Prop where
  upgrades : upgrades (run step {} before).plugin e = true → e.visible = true →
    ¬ FirstUnseen e.id before
  room : LosesOldest (run step {} before) e

/-! ## One packet -/

section Steps

variable {p : NotificationPlugin} {w : World} {e : Event} {posted : List (String × PostedEntry)}

/-- What a packet does to the table and the log. -/
inductive Change (w : World) (e : Event) :
    List (String × PostedEntry) → List Posting → Prop where
  | cancelled (h : e.cancels = true) :
    Change w e (w.plugin.postedIds.filter fun entry => entry.1 != e.id) w.log
  | recorded (h : records w.plugin e = true) :
    Change w e ((e.id, ⟨!(iconHash w.plugin e).isEmpty, e.time, e.env.steady⟩) ::
        (evict w.plugin.postedIds).filter fun entry => entry.1 != e.id)
      (logged w e e.visible)
  | suppressed (h : suppresses w.plugin e = true) : Change w e w.plugin.postedIds w.log
  | upgraded (entry : PostedEntry) (h : upgrades w.plugin e = true)
    (hlookup : w.plugin.postedIds.lookup e.id = some entry) (htime : entry.time = e.time)
    (hold : entry.hasIcon = false) (hicon : iconHash w.plugin e ≠ "") :
    Change w e (upgrade e.id w.plugin.postedIds) (logged w e e.visible)
  | unnamed (hid : e.id = "") : Change w e w.plugin.postedIds (logged w e e.visible)
  | foreign (h : e.notifies = false) : Change w e w.plugin.postedIds w.log

/-- A packet repeats if there is an entry it repeats. -/
theorem repeats_eq (p : NotificationPlugin) (e : Event) : repeats p e = (repeated p e).isSome := by
  unfold repeats repeated
  cases p.postedIds.lookup e.id with
  | none => rfl
  | some entry => rw [Option.any_some, Option.isSome_filter, Option.any_some]

/-- An entry of the same id and time, less than two seconds old. -/
theorem repeated_of_lookup {entry : PostedEntry} (hlookup : p.postedIds.lookup e.id = some entry)
    (hsame : entry.time = e.time ∧ e.env.steady - entry.when < 2000000000) :
    repeated p e = some entry := by
  rw [repeated, hlookup, Option.filter_some, if_pos (decide_eq_true hsame)]

/-- What repeats an entry is not recorded. -/
theorem records_of_repeated {entry : PostedEntry} (h : repeated p e = some entry) :
    records p e = false := by
  rw [records, repeats_eq, h, Option.isSome_some, Bool.not_true, Bool.and_false]

/-- And suppresses it if there is no icon to add. -/
theorem suppresses_of_lookup {entry : PostedEntry} (hnotifies : e.notifies = true) (hid : e.id ≠ "")
    (hlookup : p.postedIds.lookup e.id = some entry)
    (hsame : entry.time = e.time ∧ e.env.steady - entry.when < 2000000000)
    (hicon : entry.hasIcon = true ∨ iconHash p e = "") : suppresses p e = true := by
  have hflag : (entry.hasIcon || (iconHash p e).isEmpty) = true := by
    rw [Bool.or_eq_true, String.isEmpty_iff]
    exact hicon
  rw [suppresses, repeated_of_lookup hlookup hsame, hnotifies, String.isEmpty_eq_false_iff.mpr hid,
    Option.any_some, hflag]
  rfl

/-- A packet that cancels notifies of nothing. -/
theorem notifies_of_cancels (h : e.cancels = true) : e.notifies = false := by
  unfold Event.cancels at h
  unfold Event.notifies
  rw [Bool.and_eq_true] at h
  rw [h.2, Bool.not_true, Bool.and_false]

/-- What is not passed over is posted if it is to be seen. -/
theorem posts_of_not_suppresses (hnotifies : e.notifies = true) (hvisible : e.visible = true)
    (h : suppresses p e = false) : posts p e = true := by
  have houtcome := receive_outcome p e
  generalize (receive p e).postedIds = table at houtcome
  generalize posts p e = shown at houtcome ⊢
  cases houtcome with
  | cancelled hc =>
    rw [notifies_of_cancels hc] at hnotifies
    cases hnotifies
  | recorded | upgraded | unnamed => exact hvisible
  | suppressed entry hn hid hlookup hsame hicon =>
    rw [suppresses_of_lookup hn hid hlookup hsame hicon] at h
    cases h
  | foreign hc hn =>
    rw [hn] at hnotifies
    cases hnotifies

/-- An upgrade is of an entry without an icon. -/
theorem upgrades_of_lookup {entry : PostedEntry} (hnotifies : e.notifies = true) (hid : e.id ≠ "")
    (hlookup : p.postedIds.lookup e.id = some entry)
    (hsame : entry.time = e.time ∧ e.env.steady - entry.when < 2000000000)
    (hold : entry.hasIcon = false) (hicon : iconHash p e ≠ "") : upgrades p e = true := by
  rw [upgrades, repeated_of_lookup hlookup hsame, hnotifies, String.isEmpty_eq_false_iff.mpr hid,
    Option.any_some, hold, String.isEmpty_eq_false_iff.mpr hicon]
  rfl

/-- It repeats that entry, so nothing is recorded. -/
theorem records_of_upgrades (h : upgrades p e = true) : records p e = false := by
  rw [upgrades, Bool.and_eq_true] at h
  obtain ⟨entry, hrep, -⟩ := (Option.any_eq_true _ _).mp h.2
  exact records_of_repeated hrep

/-- What is passed over, has no id or is no notification leaves every entry. -/
theorem quiet_of_suppresses (h : suppresses p e = true) :
    records p e = false ∧ upgrades p e = false := by
  rw [suppresses, Bool.and_eq_true] at h
  obtain ⟨entry, hrep, hicon⟩ := (Option.any_eq_true _ _).mp h.2
  have hno : (!entry.hasIcon && !(iconHash p e).isEmpty) = false := by
    rw [← Bool.not_or, hicon]
    rfl
  rw [upgrades, hrep, Option.any_some, hno, Bool.and_false]
  exact ⟨records_of_repeated hrep, rfl⟩

/-- A packet without an id leaves the table alone. -/
theorem quiet_of_unnamed (h : e.id = "") : records p e = false ∧ upgrades p e = false := by
  have hempty : e.id.isEmpty = true := String.isEmpty_iff.mpr h
  rw [records, upgrades, hempty, Bool.not_true, Bool.and_false]
  exact ⟨rfl, rfl⟩

/-- So does one that notifies of nothing. -/
theorem quiet_of_not_notifies (h : e.notifies = false) :
    records p e = false ∧ upgrades p e = false := by
  rw [records, upgrades, h]
  exact ⟨rfl, rfl⟩

/-- Every packet makes one of these changes. -/
theorem step_change (w : World) (e : Event) :
    Change w e (step w e).plugin.postedIds (step w e).log := by
  have hstep : step w e =
      ⟨receive w.plugin e, some e.env.steady, logged w e (posts w.plugin e)⟩ := rfl
  rw [hstep]
  dsimp only
  have houtcome := receive_outcome w.plugin e
  generalize (receive w.plugin e).postedIds = table at houtcome ⊢
  generalize posts w.plugin e = shown at houtcome ⊢
  cases houtcome with
  | cancelled h => exact .cancelled h
  | recorded h => exact .recorded h
  | suppressed entry hn hid hlookup hsame hicon =>
    exact .suppressed (suppresses_of_lookup hn hid hlookup hsame hicon)
  | upgraded entry hn hid hlookup hsame hold hicon =>
    exact .upgraded entry (upgrades_of_lookup hn hid hlookup hsame hold hicon) hlookup hsame.1 hold
      hicon
  | unnamed hn hid => exact .unnamed hid
  | foreign hc hn => exact .foreign hn

/-- The age of an entry is the difference of the two times. -/
theorem age_iff {t when : Int64} (hwhen : 0 ≤ when) (hle : when ≤ t) :
    t - when < 2000000000 ↔ t.toInt - when.toInt < 2000000000 := by
  have htwo : (2000000000 : Int64).toInt = 2000000000 := by decide
  rw [Int64.lt_iff_toInt_lt, Int64.toInt_sub_of_le t when hwhen hle, htwo]

/-- Without repeated ids every entry is found. -/
theorem lookup_of_mem {key : String} {entry : PostedEntry} (hkeys : (posted.map Prod.fst).Nodup)
    (h : (key, entry) ∈ posted) : posted.lookup key = some entry := by
  induction posted with
  | nil => cases h
  | cons head tail ih =>
    obtain ⟨hhead, htail⟩ := List.nodup_cons.mp hkeys
    rcases List.mem_cons.mp h with rfl | htable
    · exact List.lookup_cons_self
    · have hne : key ≠ head.1 := by
        rintro rfl
        exact hhead (List.mem_map.mpr ⟨_, htable, rfl⟩)
      obtain ⟨name, other⟩ := head
      have hmiss : (key == name) = false := beq_eq_false_iff_ne.mpr hne
      rw [List.lookup_cons, hmiss]
      exact ih htail htable

/-- The entry that gets its icon. -/
theorem lookup_upgrade_self {id : String} {entry : PostedEntry}
    (h : posted.lookup id = some entry) :
    (upgrade id posted).lookup id = some { entry with hasIcon := true } := by
  induction posted with
  | nil => cases h
  | cons head tail ih =>
    obtain ⟨name, other⟩ := head
    rw [upgrade, List.map_cons]
    by_cases hname : name = id
    · rw [if_pos hname, hname, List.lookup_cons_self]
      rw [hname, List.lookup_cons_self] at h
      rw [Option.some.inj h]
    · have hmiss : (id == name) = false := beq_eq_false_iff_ne.mpr (Ne.symm hname)
      rw [if_neg hname, List.lookup_cons, hmiss]
      rw [List.lookup_cons, hmiss] at h
      exact ih h

/-- The others stay. -/
theorem lookup_upgrade_of_ne {id other : String} (h : other ≠ id)
    (posted : List (String × PostedEntry)) :
    (upgrade id posted).lookup other = posted.lookup other := by
  induction posted with
  | nil => rfl
  | cons head tail ih =>
    obtain ⟨name, entry⟩ := head
    rw [upgrade, List.map_cons]
    by_cases hname : name = id
    · have hmiss : (other == name) = false := beq_eq_false_iff_ne.mpr (hname ▸ h)
      rw [if_pos hname, List.lookup_cons, List.lookup_cons, hmiss]
      exact ih
    · rw [if_neg hname, List.lookup_cons, List.lookup_cons]
      cases other == name with
      | true => rfl
      | false => exact ih

/-- Its keys stay as they are. -/
theorem nodup_upgrade {id : String} (h : (posted.map Prod.fst).Nodup) :
    ((upgrade id posted).map Prod.fst).Nodup := by
  rw [ids_upgrade]
  exact h

/-- A posting of this entry, not older than it. -/
def Shows (log : List Posting) (entry : String × PostedEntry) (s : Posting) : Prop :=
  s ∈ log ∧ s.id = entry.1 ∧ s.time = entry.2.time ∧ entry.2.when ≤ s.when

/-- The entry was posted unless it comes from packets that were not to be seen. -/
structure Traced (before : List Event) (log : List Posting) (entry : String × PostedEntry) :
    Prop where
  posted : ¬ Unseen entry.1 before → ∃ s, Shows log entry s
  withIcon : entry.2.hasIcon = true → ¬ IconUnseen entry.1 before →
    ∃ s, Shows log entry s ∧ s.hasIcon = true

/-- The entries of the table: each id once, ten at most, and recorded by now. -/
structure Sound (w : World) : Prop where
  keys : (ids w.plugin).Nodup
  limit : w.plugin.postedIds.length ≤ kMaxPostedIds
  past : ∀ entry ∈ w.plugin.postedIds, 0 ≤ entry.2.when ∧ ∃ t ∈ w.clock, entry.2.when ≤ t

/-- What was posted stays posted. -/
theorem mem_logged {s : Posting} (h : s ∈ w.log) (shown : Bool) : s ∈ logged w e shown := by
  unfold logged
  split
  · exact List.mem_cons_of_mem _ h
  · exact h

/-- A visible packet is in the log. -/
theorem shows_posting {entry : PostedEntry} (hvisible : e.visible = true)
    (htime : e.time = entry.time) (hwhen : entry.when ≤ e.env.steady) :
    Shows (logged w e e.visible) (e.id, entry) (posting w.plugin e) := by
  refine ⟨?_, rfl, htime, hwhen⟩
  rw [logged, if_pos hvisible]
  exact List.mem_cons_self

/-- The entries were written before the packet. -/
theorem Sound.before (h : Sound w) (hgo : Goes w e) {entry : String × PostedEntry}
    (hm : entry ∈ w.plugin.postedIds) : 0 ≤ entry.2.when ∧ entry.2.when ≤ e.env.steady := by
  obtain ⟨hnonneg, t, hclock, hle⟩ := h.past entry hm
  exact ⟨hnonneg, Int64.le_trans hle (hgo.forward t hclock)⟩

variable {log : List Posting}

/-- A packet in its time keeps the table sound. -/
theorem sound_step (h : Sound w) (hgo : Goes w e) : Sound (step w e) where
  keys := nodup_receive h.keys e
  limit := length_receive h.limit e
  past := by
    intro entry hm
    rcases when_receive hm with hnew | ⟨old, hold, hwhen⟩
    · rw [hnew]
      exact ⟨hgo.nonneg, e.env.steady, rfl, Int64.le_refl _⟩
    · obtain ⟨hnonneg, hle⟩ := h.before hgo hold
      rw [← hwhen]
      exact ⟨hnonneg, e.env.steady, rfl, hle⟩

/-- The empty table is. -/
theorem sound_start : Sound ({} : World) :=
  ⟨List.nodup_nil, Nat.zero_le _, fun _ hm => absurd hm List.not_mem_nil⟩

/-- So it is in every run. -/
theorem sound_run {events : List Event} (h : EveryStep step Goes {} events) :
    Sound (run step {} events) :=
  (always_of_everyStep (P := Sound) (fun _ _ hw hgo => sound_step hw hgo) sound_start h).last

section Traces

variable {before : List Event} {id : String} {entry : PostedEntry}

/-- A packet that neither records the entry nor brings its icon leaves it as seen as
it was. -/
theorem Traced.keep (h : Traced before w.log (id, entry)) (hw : w = run step {} before)
    (hquiet : e.id = id → records w.plugin e = false ∧ upgrades w.plugin e = false)
    (hlog : ∀ s ∈ w.log, s ∈ log) : Traced (before ++ [e]) log (id, entry) where
  posted := by
    intro hseen
    have hold : ¬ Unseen id before := by
      intro hunseen
      refine hseen ((since_concat before e).mpr (.inr ⟨hunseen, ?_⟩))
      rintro ⟨hid, hshown⟩
      rw [← hw, (hquiet hid).1, (hquiet hid).2] at hshown
      rcases hshown with hno | ⟨hno, -⟩ <;> cases hno
    obtain ⟨s, hm, hs⟩ := h.posted hold
    exact ⟨s, hlog s hm, hs⟩
  withIcon := by
    intro hicon hseen
    have hold : ¬ IconUnseen id before := by
      intro hunseen
      refine hseen ((since_concat before e).mpr (.inr ⟨hunseen, ?_⟩))
      rintro ⟨hid, hwrites⟩
      rw [← hw, (hquiet hid).1] at hwrites
      cases hwrites
    obtain ⟨s, ⟨hm, hs⟩, hhas⟩ := h.withIcon hicon hold
    exact ⟨s, ⟨hlog s hm, hs⟩, hhas⟩

/-- An entry that was recorded just now. -/
theorem traced_recorded (hw : w = run step {} before) (hr : records w.plugin e = true) :
    Traced (before ++ [e]) (logged w e e.visible)
      (e.id, ⟨!(iconHash w.plugin e).isEmpty, e.time, e.env.steady⟩) where
  posted := by
    intro hseen
    have hvisible : e.visible = true := by
      by_contra hhidden
      exact hseen ((since_concat before e).mpr
        (.inl ⟨⟨rfl, hw ▸ hr⟩, eq_false_of_ne_true hhidden⟩))
    exact ⟨posting w.plugin e, shows_posting hvisible rfl (Int64.le_refl _)⟩
  withIcon := by
    intro hicon hseen
    have hsome : iconHash w.plugin e ≠ "" := by
      rintro hnone
      rw [hnone] at hicon
      cases hicon
    have hvisible : e.visible = true := by
      by_contra hhidden
      exact hseen ((since_concat before e).mpr
        (.inl ⟨rfl, eq_false_of_ne_true hhidden, .inl ⟨hw ▸ hr, hw ▸ hsome⟩⟩))
    exact ⟨posting w.plugin e, shows_posting hvisible rfl (Int64.le_refl _), hicon⟩

/-- An entry that got its icon just now. -/
theorem traced_upgraded (h : Traced before w.log (e.id, entry)) (hw : w = run step {} before)
    (hu : upgrades w.plugin e = true) (htime : e.time = entry.time)
    (hwhen : entry.when ≤ e.env.steady) (hicon : iconHash w.plugin e ≠ "") :
    Traced (before ++ [e]) (logged w e e.visible) (e.id, { entry with hasIcon := true }) where
  posted := by
    intro hseen
    cases hvisible : e.visible with
    | true =>
      exact ⟨posting w.plugin e, hvisible ▸ shows_posting hvisible htime hwhen⟩
    | false =>
      have hold : ¬ Unseen e.id before := by
        intro hunseen
        refine hseen ((since_concat before e).mpr (.inr ⟨hunseen, ?_⟩))
        rintro ⟨-, hrecords | ⟨-, hshown⟩⟩
        · rw [← hw, records_of_upgrades hu] at hrecords
          cases hrecords
        · rw [hvisible] at hshown
          cases hshown
      obtain ⟨s, hm, hs⟩ := h.posted hold
      exact ⟨s, mem_logged hm false, hs⟩
  withIcon := by
    intro _ hseen
    have hvisible : e.visible = true := by
      by_contra hhidden
      exact hseen ((since_concat before e).mpr
        (.inl ⟨rfl, eq_false_of_ne_true hhidden, .inr (hw ▸ hu)⟩))
    refine ⟨posting w.plugin e, shows_posting hvisible htime hwhen, ?_⟩
    rw [posting, String.isEmpty_eq_false_iff.mpr hicon]
    rfl

/-- The step lemma: what an entry was posted of is what its packets say. -/
theorem traced_change (h : Sound w) (hgo : Goes w e) (hw : w = run step {} before)
    (htraced : ∀ entry ∈ w.plugin.postedIds, Traced before w.log entry)
    (hchange : Change w e posted log) (hm : (id, entry) ∈ posted) :
    Traced (before ++ [e]) log (id, entry) := by
  cases hchange with
  | cancelled hc =>
    have hne : id ≠ e.id := bne_iff_ne.mp (List.mem_filter.mp hm).2
    exact (htraced _ (List.mem_of_mem_filter hm)).keep hw (fun hid => absurd hid.symm hne)
      fun _ hs => hs
  | recorded hr =>
    rcases List.mem_cons.mp hm with hnew | hm
    · obtain ⟨rfl, rfl⟩ := Prod.mk.inj hnew
      exact traced_recorded hw hr
    · have hne : id ≠ e.id := bne_iff_ne.mp (List.mem_filter.mp hm).2
      have hold := (room_sublist w.plugin.postedIds e.id).subset hm
      exact (htraced _ hold).keep hw (fun hid => absurd hid.symm hne)
        fun _ hs => mem_logged hs e.visible
  | upgraded old hu hlookup htime hold hicon =>
    by_cases hid : id = e.id
    · subst hid
      have hentry := lookup_of_mem (nodup_upgrade h.keys) hm
      rw [lookup_upgrade_self hlookup] at hentry
      have hthere := mem_of_lookup hlookup
      rw [← Option.some.inj hentry]
      exact traced_upgraded (htraced _ hthere) hw hu htime.symm (h.before hgo hthere).2 hicon
    · have hthere := lookup_of_mem (nodup_upgrade h.keys) hm
      rw [lookup_upgrade_of_ne hid] at hthere
      exact (htraced _ (mem_of_lookup hthere)).keep hw (fun hsame => absurd hsame.symm hid)
        fun _ hs => mem_logged hs e.visible
  | suppressed hs =>
    exact (htraced _ hm).keep hw (fun _ => quiet_of_suppresses hs) fun _ hs => hs
  | unnamed hid =>
    exact (htraced _ hm).keep hw (fun _ => quiet_of_unnamed hid) fun _ hs => mem_logged hs e.visible
  | foreign hn => exact (htraced _ hm).keep hw (fun _ => quiet_of_not_notifies hn) fun _ hs => hs

/-- The run lemma. -/
theorem traced_run (h : EveryStep step Goes {} before) :
    ∀ entry ∈ (run step {} before).plugin.postedIds,
      Traced before (run step {} before).log entry := by
  induction before using List.reverseRecOn with
  | nil => exact fun _ hm => absurd hm List.not_mem_nil
  | append_singleton before e ih =>
    rw [everyStep_append] at h
    obtain ⟨hbefore, hgo, -⟩ := h
    rintro ⟨id, entry⟩ hm
    rw [run_append, run_cons, run_nil] at hm ⊢
    exact traced_change (sound_run hbefore) hgo rfl (ih hbefore) (step_change _ e) hm

end Traces

/-- The entry a packet repeats is less than two seconds older, and so is what was
posted of it. -/
theorem recent_of_repeated (h : Sound w) (hgo : Goes w e) {entry : PostedEntry}
    (hrep : repeated w.plugin e = some entry) :
    (e.id, entry) ∈ w.plugin.postedIds ∧ entry.time = e.time ∧
      e.env.steady.toInt - entry.when.toInt < 2000000000 := by
  obtain ⟨hlookup, hsame⟩ := Option.filter_eq_some_iff.mp hrep
  obtain ⟨htime, hage⟩ := of_decide_eq_true hsame
  have hm := mem_of_lookup hlookup
  obtain ⟨hnonneg, hle⟩ := h.before hgo hm
  exact ⟨hm, htime, (age_iff hnonneg hle).mp hage⟩

/-- A notification is only passed over for one that was posted, if the entry it meets
was to be seen. -/
theorem justSilent_of_meetsSeen {before : List Event} (hw : w = run step {} before) (h : Sound w)
    (hgo : Goes w e) (htraced : ∀ entry ∈ w.plugin.postedIds, Traced before w.log entry)
    (hmeets : MeetsSeen before e) : JustSilent w e := by
  intro hnotifies hvisible hid
  cases hsuppresses : suppresses w.plugin e with
  | false => exact .inl (posts_of_not_suppresses hnotifies hvisible hsuppresses)
  | true =>
    right
    rw [suppresses, Bool.and_eq_true] at hsuppresses
    obtain ⟨entry, hrep, hflag⟩ := (Option.any_eq_true _ _).mp hsuppresses.2
    obtain ⟨hm, htime, hrecent⟩ := recent_of_repeated h hgo hrep
    have hage : ∀ s, Shows w.log (e.id, entry) s →
        e.env.steady.toInt - s.when.toInt < 2000000000 := by
      intro s hs
      have hle := Int64.le_iff_toInt_le.mp hs.2.2.2
      dsimp only at hle
      omega
    have hrepeats : repeats w.plugin e = true := by
      rw [repeats_eq, hrep]
      rfl
    obtain ⟨hseen, hiconSeen⟩ := hmeets hnotifies hvisible (hw ▸ hrepeats)
    rw [← hw] at hseen hiconSeen
    by_cases hnone : iconHash w.plugin e = ""
    · obtain ⟨s, hs⟩ := (htraced _ hm).posted (hseen hnone)
      exact ⟨s, hs.1, hs.2.1, hs.2.2.1.trans htime, hage s hs, .inr hnone⟩
    · have hicon : entry.hasIcon = true := by
        rw [String.isEmpty_eq_false_iff.mpr hnone, Bool.or_false] at hflag
        exact hflag
      obtain ⟨s, hs, hhas⟩ := (htraced _ hm).withIcon hicon (hiconSeen hnone)
      exact ⟨s, hs.1, hs.2.1, hs.2.2.1.trans htime, hage s hs, .inl hhas⟩

/-! ## After the first posting -/

/-- Two seconds long the table has the notification that was posted first: its entry
has no icon until it is posted again, and what was recorded later is among those
that arrived. -/
structure Holding (first : Event) (seen : List String) (posted : List (String × PostedEntry))
    (log : List Posting) : Prop where
  entry : ∃ entry, posted.lookup first.id = some entry ∧ entry.time = first.time ∧
    entry.when = first.env.steady ∧
      (entry.hasIcon = false → timesPosted first.id first.time log ≤ 1)
  newer : ∀ other ∈ posted, first.env.steady < other.2.when → other.1 ∈ seen
  twice : timesPosted first.id first.time log ≤ 2

/-- Another id counts for nothing. -/
theorem timesPosted_logged_of_ne {id time : String} (h : e.id ≠ id) (shown : Bool) :
    timesPosted id time (logged w e shown) = timesPosted id time w.log := by
  have hmiss : ((posting w.plugin e).id == id && (posting w.plugin e).time == time) = false := by
    have hid : (posting w.plugin e).id = e.id := rfl
    rw [hid, beq_eq_false_iff_ne.mpr h, Bool.false_and]
  unfold logged
  split
  · exact List.countP_cons_of_neg (by rw [hmiss]; exact Bool.false_ne_true)
  · rfl

/-- A packet posts at most once. -/
theorem timesPosted_logged_le (id time : String) (shown : Bool) :
    timesPosted id time (logged w e shown) ≤ timesPosted id time w.log + 1 := by
  unfold logged
  split
  · unfold timesPosted
    rw [List.countP_cons]
    split <;> omega
  · exact Nat.le_succ _

/-- What is shown was posted. -/
theorem timesPosted_pos {entry : PostedEntry} {s : Posting} {log : List Posting} {id : String}
    (h : Shows log (id, entry) s) : 0 < timesPosted id entry.time log := by
  refine List.countP_pos_iff.mpr ⟨s, h.1, ?_⟩
  rw [beq_iff_eq.mpr h.2.1, beq_iff_eq.mpr h.2.2.1]
  rfl

/-- The first packet and the rest. -/
theorem arrivals_cons (id : String) (e : Event) (events : List Event) :
    arrivals id (e :: events) = arrivals id [e] ++ arrivals id events := by
  unfold arrivals
  rw [← List.map_append, ← List.filter_append]
  rfl

/-- A new id that is recorded arrives. -/
theorem mem_arrivals {id : String} (h : records w.plugin e = true) (hne : e.id ≠ id) :
    e.id ∈ arrivals id [e] := by
  rw [records, Bool.and_eq_true] at h
  refine List.mem_map.mpr ⟨e, List.mem_filter.mpr ⟨List.mem_singleton_self e, ?_⟩, rfl⟩
  rw [h.1, bne_iff_ne.mpr hne]
  rfl

/-- Eviction takes the oldest entry only. -/
theorem lookup_evict_of_ne {id : String} (posted : List (String × PostedEntry))
    (h : ∀ entry, kMaxPostedIds ≤ posted.length → oldest posted = some entry → id ≠ entry.1) :
    (evict posted).lookup id = posted.lookup id := by
  unfold evict
  split
  · rename_i hfull
    cases hold : oldest posted with
    | none => rfl
    | some entry => exact lookup_filter_ne (h entry hfull hold) posted
  · rfl

/-- Ten others have come if the first one is the oldest of a full table. -/
theorem ten_of_oldest {id : String} {seen : List String} (hkeys : (posted.map Prod.fst).Nodup)
    (hfull : kMaxPostedIds ≤ posted.length) (hid : id ∈ posted.map Prod.fst) {new : String}
    (hnew : new ∉ posted.map Prod.fst) (hseen : new ∈ seen)
    (hothers : ∀ other ∈ posted, other.1 ≠ id → other.1 ∈ seen) : 10 ≤ seen.toFinset.card := by
  have hsub : new :: (posted.map Prod.fst).erase id ⊆ seen := by
    intro name hm
    rcases List.mem_cons.mp hm with rfl | hm
    · exact hseen
    · obtain ⟨hne, hm⟩ := hkeys.mem_erase_iff.mp hm
      obtain ⟨other, hother, rfl⟩ := List.mem_map.mp hm
      exact hothers other hother hne
  have hnodup : (new :: (posted.map Prod.fst).erase id).Nodup :=
    List.nodup_cons.mpr ⟨fun hm => hnew (List.mem_of_mem_erase hm), hkeys.erase id⟩
  have hten : kMaxPostedIds = 10 := rfl
  have hlength : 10 ≤ (new :: (posted.map Prod.fst).erase id).length := by
    rw [List.length_cons, List.length_erase_of_mem hid, List.length_map]
    omega
  calc 10 ≤ (new :: (posted.map Prod.fst).erase id).length := hlength
    _ = (new :: (posted.map Prod.fst).erase id).toFinset.card :=
      (List.toFinset_card_of_nodup hnodup).symm
    _ ≤ seen.toFinset.card := Finset.card_le_card fun name hm =>
      List.mem_toFinset.mpr (hsub (List.mem_toFinset.mp hm))

variable {first : Event} {seen : List String}

/-- The same notification repeats the entry. -/
theorem repeated_of_holding (h : Sound w) (hgo : Goes w e) (hmeanwhile : Meanwhile first e)
    (hold : Holding first seen w.plugin.postedIds w.log) (hnotifies : e.notifies = true)
    (hid : e.id = first.id) : (repeated w.plugin e).isSome = true := by
  obtain ⟨entry, hlookup, htime, hwhen, -⟩ := hold.entry
  obtain ⟨hnonneg, hle⟩ := h.before hgo (mem_of_lookup hlookup)
  dsimp only at hnonneg hle
  have hage : e.env.steady - entry.when < 2000000000 := by
    rw [age_iff hnonneg hle, hwhen]
    exact hmeanwhile.recent
  rw [repeated_of_lookup (hid ▸ hlookup) ⟨htime.trans (hmeanwhile.same hnotifies hid).symm, hage⟩]
  rfl

/-- Its entry stays when another id is recorded. -/
theorem lookup_room (h : Sound w) (hroom : LosesOldest w e)
    (hold : Holding first seen w.plugin.postedIds w.log) (hr : records w.plugin e = true)
    (hid : e.id ≠ first.id) (hfew : (seen ++ arrivals first.id [e]).toFinset.card < 10) :
    ((evict w.plugin.postedIds).filter fun entry => entry.1 != e.id).lookup first.id =
      w.plugin.postedIds.lookup first.id := by
  obtain ⟨entry, hlookup, -, hwhen, -⟩ := hold.entry
  rw [lookup_filter_ne (Ne.symm hid)]
  refine lookup_evict_of_ne _ ?_
  rintro ⟨id, last⟩ hfull holdest rfl
  rcases hroom hr hfull _ holdest with hsame | ⟨hnew, hothers⟩
  · exact hid hsame
  · have hlast : last = entry :=
      Option.some.inj ((lookup_of_mem h.keys (oldest_mem holdest)).symm.trans hlookup)
    have hten : 10 ≤ (seen ++ arrivals first.id [e]).toFinset.card := by
      refine ten_of_oldest h.keys hfull (List.mem_map.mpr ⟨_, oldest_mem holdest, rfl⟩) hnew
        (List.mem_append_right _ (mem_arrivals hr hid)) ?_
      intro other hother hne
      refine List.mem_append_left _ (hold.newer other hother ?_)
      rw [← hwhen, ← hlast]
      exact hothers other hother hne
    omega

/-- Only another id is recorded. -/
theorem holding_recorded (h : Sound w) (hgo : Goes w e) (hroom : LosesOldest w e)
    (hmeanwhile : Meanwhile first e) (hfew : (seen ++ arrivals first.id [e]).toFinset.card < 10)
    (hold : Holding first seen w.plugin.postedIds w.log) (hr : records w.plugin e = true) :
    Holding first (seen ++ arrivals first.id [e])
      ((e.id, ⟨!(iconHash w.plugin e).isEmpty, e.time, e.env.steady⟩) ::
        (evict w.plugin.postedIds).filter fun entry => entry.1 != e.id)
      (logged w e e.visible) := by
  obtain ⟨entry, hlookup, htime, hwhen, honce⟩ := hold.entry
  have hid : e.id ≠ first.id := by
    intro hid
    obtain ⟨old, hrep⟩ := Option.isSome_iff_exists.mp
      (repeated_of_holding h hgo hmeanwhile hold (notifies_of_records hr) hid)
    rw [records_of_repeated hrep] at hr
    cases hr
  have hmiss : (first.id == e.id) = false := beq_eq_false_iff_ne.mpr (Ne.symm hid)
  refine ⟨⟨entry, ?_, htime, hwhen, ?_⟩, ?_, ?_⟩
  · rw [List.lookup_cons, hmiss]
    exact (lookup_room h hroom hold hr hid hfew).trans hlookup
  · rw [timesPosted_logged_of_ne hid]
    exact honce
  · intro other hm hlater
    rcases List.mem_cons.mp hm with rfl | hm
    · exact List.mem_append_right _ (mem_arrivals hr hid)
    · exact List.mem_append_left _ (hold.newer other ((room_sublist _ _).subset hm) hlater)
  · rw [timesPosted_logged_of_ne hid]
    exact hold.twice

/-- Its own icon comes once at most. -/
theorem holding_upgraded {entry : PostedEntry}
    (hold : Holding first seen w.plugin.postedIds w.log)
    (hlookup : w.plugin.postedIds.lookup e.id = some entry) (hnone : entry.hasIcon = false) :
    Holding first (seen ++ arrivals first.id [e]) (upgrade e.id w.plugin.postedIds)
      (logged w e e.visible) := by
  obtain ⟨old, hlookup', htime, hwhen, honce⟩ := hold.entry
  have hnewer : ∀ other ∈ upgrade e.id w.plugin.postedIds, first.env.steady < other.2.when →
      other.1 ∈ seen ++ arrivals first.id [e] := by
    intro other hm hlater
    obtain ⟨before, hm, -, hsame⟩ := mem_upgrade hm
    rw [← hsame] at hlater
    exact List.mem_append_left _ (hold.newer (other.1, before) hm hlater)
  by_cases hid : e.id = first.id
  · rw [hid, hlookup'] at hlookup
    obtain rfl := Option.some.inj hlookup
    have hless := honce hnone
    have hmore := timesPosted_logged_le (w := w) (e := e) first.id first.time e.visible
    refine ⟨⟨{ old with hasIcon := true }, ?_, htime, hwhen, ?_⟩, hnewer, by omega⟩
    · rw [hid]
      exact lookup_upgrade_self hlookup'
    · intro hno
      cases hno
  · refine ⟨⟨old, ?_, htime, hwhen, ?_⟩, hnewer, ?_⟩
    · rw [lookup_upgrade_of_ne (Ne.symm hid), hlookup']
    · rw [timesPosted_logged_of_ne hid]
      exact honce
    · rw [timesPosted_logged_of_ne hid]
      exact hold.twice

/-- The step lemma: the first notification stays in the table, and is posted again
only with its icon. -/
theorem holding_change (h : Sound w) (hgo : Goes w e) (hroom : LosesOldest w e)
    (hmeanwhile : Meanwhile first e) (hfirst : first.id ≠ "")
    (hfew : (seen ++ arrivals first.id [e]).toFinset.card < 10)
    (hold : Holding first seen w.plugin.postedIds w.log)
    (hchange : Change w e posted log) :
    Holding first (seen ++ arrivals first.id [e]) posted log := by
  have hnewer : ∀ other ∈ w.plugin.postedIds, first.env.steady < other.2.when →
      other.1 ∈ seen ++ arrivals first.id [e] :=
    fun other hm hlater => List.mem_append_left _ (hold.newer other hm hlater)
  cases hchange with
  | cancelled hc =>
    obtain ⟨entry, hlookup, hentry⟩ := hold.entry
    refine ⟨⟨entry, ?_, hentry⟩, ?_, hold.twice⟩
    · rw [lookup_filter_ne (Ne.symm (hmeanwhile.stays hc)), hlookup]
    · exact fun other hm => hnewer other (List.mem_of_mem_filter hm)
  | recorded hr => exact holding_recorded h hgo hroom hmeanwhile hfew hold hr
  | upgraded entry hu hlookup htime hnone hicon => exact holding_upgraded hold hlookup hnone
  | unnamed hid =>
    have hne : e.id ≠ first.id := by
      rw [hid]
      exact Ne.symm hfirst
    obtain ⟨entry, hlookup, htime, hwhen, honce⟩ := hold.entry
    refine ⟨⟨entry, hlookup, htime, hwhen, ?_⟩, hnewer, ?_⟩
    · rw [timesPosted_logged_of_ne hne]
      exact honce
    · rw [timesPosted_logged_of_ne hne]
      exact hold.twice
  | suppressed | foreign => exact ⟨hold.entry, hnewer, hold.twice⟩

/-- The first posting of a notification records it. -/
theorem holding_first {before : List Event} (hw : w = run step {} before) (h : Sound w)
    (hgo : Goes w first) (htraced : ∀ entry ∈ w.plugin.postedIds, Traced before w.log entry)
    (hkept : Kept before first) (hfirst : first.id ≠ "")
    (hzero : timesPosted first.id first.time w.log = 0)
    (hlog : posting w.plugin first ∈ log) (hchange : Change w first posted log) :
    Holding first [] posted log := by
  have hshows : Shows log (first.id, ⟨false, first.time, first.env.steady⟩)
      (posting w.plugin first) := ⟨hlog, rfl, rfl, Int64.le_refl _⟩
  have hpositive : 0 < timesPosted first.id first.time log := timesPosted_pos hshows
  have hgrown : log ≠ w.log := by
    rintro rfl
    omega
  cases hchange with
  | cancelled | suppressed | foreign => exact absurd rfl hgrown
  | recorded hr =>
    have hone := timesPosted_logged_le (w := w) (e := first) first.id first.time first.visible
    refine ⟨⟨_, List.lookup_cons_self, rfl, rfl, fun _ => by omega⟩, ?_, by omega⟩
    intro other hm hlater
    rcases List.mem_cons.mp hm with rfl | hm
    · exact absurd hlater Int64.lt_irrefl
    · have hle := (h.before hgo ((room_sublist _ _).subset hm)).2
      exact absurd hlater (Int64.not_lt.mpr hle)
  | upgraded entry hu hlookup htime hold hicon =>
    have hvisible : first.visible = true := by
      by_contra hhidden
      exact hgrown (if_neg hhidden)
    have hseen : ¬ Unseen first.id before := fun hunseen =>
      hkept.upgrades (hw ▸ hu) hvisible
        (hunseen.of_spoils fun _ _ hwrites => ⟨hwrites.1, .inl hwrites.2⟩)
    obtain ⟨s, hs⟩ := (htraced _ (mem_of_lookup hlookup)).posted hseen
    have hbefore := timesPosted_pos hs
    rw [htime] at hbefore
    omega
  | unnamed hid => exact absurd hid hfirst

/-- The run lemma. -/
theorem holding_run {mid : List Event} (h : Sound w) (hgo : EveryStep step Goes w mid)
    (hroom : EveryStep step LosesOldest w mid) (hmeanwhile : ∀ e ∈ mid, Meanwhile first e)
    (hfirst : first.id ≠ "") (hfew : (seen ++ arrivals first.id mid).toFinset.card < 10)
    (hold : Holding first seen w.plugin.postedIds w.log) :
    timesPosted first.id first.time (run step w mid).log ≤ 2 := by
  induction mid generalizing w seen with
  | nil => exact hold.twice
  | cons e mid ih =>
    rw [arrivals_cons, ← List.append_assoc] at hfew
    have hpart : (seen ++ arrivals first.id [e]).toFinset.card < 10 := by
      refine Nat.lt_of_le_of_lt (Finset.card_le_card ?_) hfew
      intro id hm
      rw [List.mem_toFinset] at hm ⊢
      exact List.mem_append_left _ hm
    have hnext := holding_change h hgo.1 hroom.1 (hmeanwhile e List.mem_cons_self) hfirst hpart hold
      (step_change w e)
    exact ih (sound_step h hgo.1) hgo.2 hroom.2
      (fun other hm => hmeanwhile other (List.mem_cons_of_mem _ hm)) hfew hnext

end Steps

/-- Over every sequence of packets at times that never go back: if a notification that
is to be seen meets no entry that comes from unseen packets, it is only passed over
for one that was posted; and if none brings its icon to such an entry, and a full
table loses only its oldest, no notification is posted more than twice. -/
theorem debounces (events : List Event) (h : EveryStep step Goes {} events) :
    (Throughout MeetsSeen events → EveryStep step JustSilent {} events) ∧
      (Throughout Kept events → AtMostTwice events) := by
  constructor
  · intro hmeets
    rw [everyStep_iff]
    rintro before e after rfl
    rw [everyStep_append] at h
    obtain ⟨hbefore, hgo, -⟩ := h
    exact justSilent_of_meetsSeen rfl (sound_run hbefore) hgo (traced_run hbefore)
      (hmeets before e after rfl)
  · rintro hkept before first mid after rfl hfirst hzero hposts hmeanwhile hfew
    have hroom : EveryStep step LosesOldest {} (before ++ first :: (mid ++ after)) :=
      (everyStep_iff ..).mpr fun before e after heq => (hkept before e after heq).room
    rw [everyStep_append] at h hroom
    obtain ⟨hgo, hgofirst, hgorest⟩ := h
    obtain ⟨-, -, hroomrest⟩ := hroom
    rw [everyStep_append] at hgorest hroomrest
    have hsound : Sound (run step {} before) := sound_run hgo
    have hlog : posting (run step {} before).plugin first ∈
        (step (run step {} before) first).log := by
      change _ ∈ logged _ first (posts _ first)
      rw [logged, if_pos hposts]
      exact List.mem_cons_self
    have hold :=
      holding_first rfl hsound hgofirst (traced_run hgo) (hkept before first _ rfl) hfirst
        hzero hlog (step_change _ first)
    rw [run_append, run_cons]
    exact holding_run (sound_step hsound hgofirst) hgorest.1 hroomrest.1 hmeanwhile hfirst hfew hold

/-- A notification with an id that is silent, and the same to be seen. -/
def silentNotice (id time : String) (steady : Int64) : Event where
  env := { json := Yyjson.reference, steady := steady }
  np := { notice id time with body := (notice id time).body.setBool "silent" true }

/-- It is only to be seen the second time. -/
def silentThenVisible : List Event := [silentNotice "a" "t" 1, noticeAt "a" "t" 2]

/-- Its times do not go back. -/
theorem goes_silentThenVisible : EveryStep step Goes {} silentThenVisible := by
  refine ⟨⟨by decide, ?_⟩, ⟨by decide, ?_⟩, trivial⟩
  all_goals
    intro t ht
    cases ht
  decide

/-- Nothing is ever posted. -/
theorem notJustSilent_silentThenVisible :
    ¬ ∀ events : List Event, EveryStep step Goes {} events →
      EveryStep step JustSilent {} events ∧ AtMostTwice events := by
  intro h
  obtain ⟨-, hsecond, -⟩ := (h silentThenVisible goes_silentThenVisible).1
  rcases hsecond (by decide) (by decide) (by decide) with hposts | ⟨s, hs, -⟩
  · exact absurd hposts (by decide)
  · have hempty : (step {} (silentNotice "a" "t" 1)).log = [] := by decide
    rw [hempty] at hs
    cases hs

/-- The same notification with an icon. -/
def noticeWithIcon (id time hash : String) (steady : Int64) : Event where
  env := { json := Yyjson.reference, steady := steady }
  np := { notice id time with body := (notice id time).body.setStr "payloadHash" hash }

/-- A notification comes twice, then with its icon, then once more, and a silent one
of another id in between. -/
def upgradedOnce : List Event :=
  [noticeAt "a" "t" 1, noticeAt "a" "t" 2, silentNotice "b" "t" 3, noticeWithIcon "a" "t" "h" 4,
    noticeAt "a" "t" 5]

/-- Neither do these. -/
theorem goes_upgradedOnce : EveryStep step Goes {} upgradedOnce := by
  refine ⟨⟨by decide, ?_⟩, ⟨by decide, ?_⟩, ⟨by decide, ?_⟩, ⟨by decide, ?_⟩, ⟨by decide, ?_⟩,
    trivial⟩
  all_goals
    intro t ht
    cases ht
  all_goals decide

/-- What is hidden of this run has another id than what is to be seen. -/
theorem visible_upgradedOnce {e first : Event} (he : e ∈ upgradedOnce)
    (hfirst : first ∈ upgradedOnce)
    (hid : first.id = e.id) (hvisible : e.visible = true) : first.visible = true := by
  have hall : upgradedOnce.all (fun e => upgradedOnce.all fun first =>
      !(first.id == e.id && e.visible) || first.visible) = true := by decide
  have hpair := List.all_eq_true.mp (List.all_eq_true.mp hall e he) first hfirst
  rw [beq_iff_eq.mpr hid, hvisible] at hpair
  exact hpair

/-- The notification is posted twice: when it comes first, and with its icon. -/
theorem debounces_upgradedOnce :
    EveryStep step JustSilent {} upgradedOnce ∧ AtMostTwice upgradedOnce ∧
      (run step {} upgradedOnce).log.map Posting.when = [4, 1] := by
  obtain ⟨hjust, htwice⟩ := debounces upgradedOnce goes_upgradedOnce
  have hseen : ∀ {before e after} {first : Event}, upgradedOnce = before ++ e :: after →
      e.visible = true → first ∈ before → first.id = e.id → first.visible = true := by
    intro before e after first heq hvisible hfirst hid
    refine visible_upgradedOnce ?_ ?_ hid hvisible
    · rw [heq]
      exact List.mem_append_right _ List.mem_cons_self
    · rw [heq]
      exact List.mem_append_left _ hfirst
  have hroom : EveryStep step (fun w _ => w.plugin.postedIds.length < kMaxPostedIds) {}
      upgradedOnce := by decide
  refine ⟨hjust ?_, htwice ?_, by decide⟩
  · rintro before e after heq - hvisible -
    constructor
    · rintro - ⟨b, first, a, rfl, ⟨⟨hid, -⟩, hhidden⟩, -⟩
      have hno := hseen heq hvisible (List.mem_append_right _ List.mem_cons_self) hid
      rw [hhidden] at hno
      cases hno
    · rintro - ⟨b, first, a, rfl, ⟨hid, hhidden, -⟩, -⟩
      have hno := hseen heq hvisible (List.mem_append_right _ List.mem_cons_self) hid
      rw [hhidden] at hno
      cases hno
  · intro before e after heq
    refine ⟨?_, ?_⟩
    · rintro - hvisible ⟨b, first, a, rfl, ⟨⟨hid, -⟩, hhidden⟩, -⟩
      have hno := hseen heq hvisible (List.mem_append_right _ List.mem_cons_self) hid
      rw [hhidden] at hno
      cases hno
    · intro _ hfull
      have hless := (everyStep_iff ..).mp hroom before e after heq
      omega

end KdeConnectNx.Debouncing
