import KdeConnectNx.Plugins
import KdeConnectNx.Recency
import KdeConnectNx.Runs

/-!
# The table of recent notifications

The plugin remembers the last ten ids it got, to pass repeats over, and the icons
of a hundred apps. Both tables make room by dropping an entry. Beside the table of
ids the list of all ids is kept that were recorded and not cancelled since.
-/

namespace KdeConnectNx.PostedTable

open PacketBody PacketFormat Plugins Plugins.NotificationPlugin Recency Runs

/-- A packet, with what the plugin looks at outside when it comes. -/
structure Event where
  env : PluginEnv
  np : NetworkPacket

namespace Event

def id (e : Event) : String := e.np.body.valueStr "id" ""

def time (e : Event) : String := e.np.body.valueStr "time" ""

def app (e : Event) : String := e.np.body.valueStr "appName" "Unknown"

def payloadHash (e : Event) : String := e.np.body.valueStr "payloadHash" ""

def cancels (e : Event) : Bool :=
  e.np.type == PacketTypes.notification && e.np.body.valueBool "isCancel" false

/-- A notification that is not taken back. -/
def notifies (e : Event) : Bool :=
  e.np.type == PacketTypes.notification && !e.np.body.valueBool "isCancel" false

end Event

/-- The icon a notification has, the remembered one where it brings none. -/
def iconHash (p : NotificationPlugin) (e : Event) : String :=
  (iconOf e.env.mapBegin e.app e.payloadHash p.appIconHash).1

/-- The table has an entry of this id and time that is less than two seconds
old. -/
def repeats (p : NotificationPlugin) (e : Event) : Bool :=
  (p.postedIds.lookup e.id).any fun entry =>
    decide (entry.time = e.time ∧ e.env.steady - entry.when < 2000000000)

/-- A new entry is written to the table. -/
def records (p : NotificationPlugin) (e : Event) : Bool :=
  e.notifies && !e.id.isEmpty && !repeats p e

def ids (p : NotificationPlugin) : List String := p.postedIds.map Prod.fst

def receive (p : NotificationPlugin) (e : Event) : NotificationPlugin :=
  (p.onPacketReceived e.env e.np).1

/-- A notification is to be seen: it is not silent, and the console shows some. -/
def Event.visible (e : Event) : Bool :=
  !e.np.body.valueBool "silent" false && e.env.showRemoteMessages && e.env.notifyFlag && e.env.awake

/-- A notification is posted on this packet. -/
def posts (p : NotificationPlugin) (e : Event) : Bool :=
  e.np.type == PacketTypes.notification && (NotificationPlugin.receive e.env e.np.body p).2.isSome

/-- The plugin, the last reading of the clock, and the ids that were recorded and
not cancelled since, the last in front. -/
structure World where
  plugin : NotificationPlugin := {}
  clock : Option Int64 := none
  recorded : List String := []

def step (w : World) (e : Event) : World where
  plugin := receive w.plugin e
  clock := some e.env.steady
  recorded :=
    if e.cancels then w.recorded.erase e.id
    else if records w.plugin e then touch e.id w.recorded
    else w.recorded

/-- The clock goes on from event to event. -/
def Ticks (w : World) (e : Event) : Prop := ∀ t ∈ w.clock, t < e.env.steady

/-- The tables stay within their limits. -/
structure Bounded (w : World) : Prop where
  posted : w.plugin.postedIds.length ≤ kMaxPostedIds
  icons : w.plugin.appIconHash.length ≤ kMaxAppIconHashes

/-- An app that is known already gets its new icon at no other app's cost. -/
def KeepsApps (w : World) (e : Event) : Prop :=
  e.notifies = true → (w.plugin.appIconHash.lookup e.app).isSome = true →
    ∀ app, app ≠ e.app →
      (receive w.plugin e).appIconHash.lookup app = w.plugin.appIconHash.lookup app

/-- The table has exactly the ten ids that were recorded last and not cancelled
since, or all if there are fewer. -/
def HasLast (w : World) : Prop := ∀ id, id ∈ ids w.plugin ↔ id ∈ w.recorded.take kMaxPostedIds

/-- An id that is recorded while the table is full is not in it yet, or is its
oldest; and no id of the table is cancelled after another one had to go. -/
structure Spares (w : World) (e : Event) : Prop where
  records : records w.plugin e = true → w.plugin.postedIds.length = kMaxPostedIds →
    e.id ∈ ids w.plugin → (oldest w.plugin.postedIds).map Prod.fst = some e.id
  cancels : e.cancels = true → e.id ∈ ids w.plugin → w.recorded.length ≤ kMaxPostedIds

/-! ## The two tables -/

section Tables

variable {posted : List (String × PostedEntry)} {icons : List (String × String)}

theorem lookup_filter_ne {α : Type*} {key other : String} (h : other ≠ key)
    (entries : List (String × α)) :
    (entries.filter fun entry => entry.1 != key).lookup other = entries.lookup other := by
  induction entries with
  | nil => rfl
  | cons entry entries ih =>
    obtain ⟨name, a⟩ := entry
    by_cases hname : name = key
    · have hdrop : ((name, a).1 != key) = false := by simp [hname]
      have hmiss : (other == name) = false := by simp [hname, h]
      rw [List.filter_cons_of_neg (by rw [hdrop]; exact Bool.false_ne_true), ih, List.lookup_cons,
        hmiss]
    · have hkeep : ((name, a).1 != key) = true := by simp [hname]
      rw [List.filter_cons_of_pos (by rw [hkeep]), List.lookup_cons, List.lookup_cons, ih]

theorem mem_of_lookup {α : Type*} {key : String} {a : α} {entries : List (String × α)}
    (h : entries.lookup key = some a) : (key, a) ∈ entries := by
  induction entries with
  | nil => cases h
  | cons entry entries ih =>
    obtain ⟨name, b⟩ := entry
    rw [List.lookup_cons] at h
    split at h
    · rename_i hname
      rw [beq_iff_eq.mp hname, Option.some.inj h]
      exact List.mem_cons_self
    · exact List.mem_cons_of_mem _ (ih h)

/-- What is dropped of a table by its key. -/
theorem length_filter_lt {α : Type*} {key : String} {a : α} {entries : List (String × α)}
    (h : (key, a) ∈ entries) :
    (entries.filter fun entry => entry.1 != key).length < entries.length :=
  List.length_filter_lt_length_iff_exists.mpr ⟨(key, a), h, by simp⟩

/-- Apps other than the one a hash comes for keep their icons, if that one is
known. -/
theorem lookup_iconOf {mapBegin : Nat} {app other : String}
    (happ : (icons.lookup app).isSome = true) (h : other ≠ app) (payloadHash : String) :
    (iconOf mapBegin app payloadHash icons).2.lookup other = icons.lookup other := by
  unfold iconOf
  split
  · rfl
  · have hknown : (icons.lookup app).isNone = false := by
      rw [Option.isNone_eq_false_iff]
      exact happ
    have hmiss : (other == app) = false := beq_eq_false_iff_ne.mpr h
    dsimp only
    rw [hknown, Bool.and_false, if_neg Bool.false_ne_true, List.lookup_cons, hmiss]
    exact lookup_filter_ne h icons

theorem length_iconOf (mapBegin : Nat) (app payloadHash : String)
    (h : icons.length ≤ kMaxAppIconHashes) :
    (iconOf mapBegin app payloadHash icons).2.length ≤ kMaxAppIconHashes := by
  unfold iconOf
  split
  · exact h
  · have hfilter : ∀ entries : List (String × String),
        (entries.filter fun entry => entry.1 != app).length ≤ entries.length :=
      fun entries => List.length_filter_le _ _
    dsimp only
    rw [List.length_cons]
    cases hlookup : icons.lookup app with
    | some hash =>
      rw [Option.isNone_some, Bool.and_false, if_neg Bool.false_ne_true]
      have hless := length_filter_lt (mem_of_lookup hlookup)
      omega
    | none =>
      rw [Option.isNone_none, Bool.and_true]
      split
      · rename_i hfull
        have hfull' := of_decide_eq_true hfull
        have hindex : mapBegin % icons.length < icons.length :=
          Nat.mod_lt _ (Nat.lt_of_lt_of_le (by decide) hfull')
        have hless := hfilter (icons.eraseIdx (mapBegin % icons.length))
        rw [List.length_eraseIdx_of_lt hindex] at hless
        have hmax : kMaxAppIconHashes = 100 := rfl
        omega
      · rename_i hroom
        have hroom' : ¬ kMaxAppIconHashes ≤ icons.length := fun h => hroom (decide_eq_true h)
        have hless := hfilter icons
        omega

theorem oldest_mem {entry : String × PostedEntry} (h : oldest posted = some entry) :
    entry ∈ posted := by
  induction posted generalizing entry with
  | nil => cases h
  | cons head tail ih =>
    unfold oldest at h
    split at h
    · rw [← Option.some.inj h]
      exact List.mem_cons_self
    · rename_i other hother
      split at h
      · rw [← Option.some.inj h]
        exact List.mem_cons_of_mem _ (ih hother)
      · rw [← Option.some.inj h]
        exact List.mem_cons_self

theorem oldest_isSome (h : posted ≠ []) : (oldest posted).isSome = true := by
  cases posted with
  | nil => exact absurd rfl h
  | cons head tail =>
    unfold oldest
    split
    · rfl
    · split <;> rfl

/-- A table with room stays as it is, a full one loses its oldest. -/
theorem length_evict (h : posted.length ≤ kMaxPostedIds) :
    (evict posted).length < kMaxPostedIds := by
  unfold evict
  split
  · rename_i hfull
    have hne : posted ≠ [] := by
      rintro rfl
      exact absurd hfull (by decide)
    obtain ⟨entry, hentry⟩ := Option.isSome_iff_exists.mp (oldest_isSome hne)
    rw [hentry, Option.elim_some]
    exact Nat.lt_of_lt_of_le (length_filter_lt (oldest_mem hentry)) h
  · omega

theorem evict_sublist (posted : List (String × PostedEntry)) : (evict posted).Sublist posted := by
  unfold evict
  split
  · cases oldest posted with
    | none => exact List.Sublist.refl _
    | some entry => exact List.filter_sublist
  · exact List.Sublist.refl _

/-- What is left of a table when an entry is recorded. -/
theorem room_sublist (posted : List (String × PostedEntry)) (id : String) :
    ((evict posted).filter fun entry => entry.1 != id).Sublist posted :=
  List.filter_sublist.trans (evict_sublist posted)

/-- In a table that is in the order of its times the oldest is the last. -/
theorem oldest_eq_getLast? (h : posted.Pairwise fun newer older => older.2.when < newer.2.when) :
    oldest posted = posted.getLast? := by
  induction posted with
  | nil => rfl
  | cons head tail ih =>
    obtain ⟨hhead, htail⟩ := List.pairwise_cons.mp h
    rw [oldest, ih htail, List.getLast?_cons]
    cases hlast : tail.getLast? with
    | none => rfl
    | some other =>
      have holder := hhead other (List.mem_of_getLast? hlast)
      dsimp only
      rw [if_pos holder]
      rfl

/-- The keys of a table without an entry. -/
theorem map_filter_key {α : Type*} (key : String) {entries : List (String × α)}
    (h : (entries.map Prod.fst).Nodup) :
    (entries.filter fun entry => entry.1 != key).map Prod.fst =
      (entries.map Prod.fst).erase key := by
  rw [h.erase_eq_filter, List.filter_map]
  rfl

/-- The ids that are left when room is made. -/
theorem map_evict (hkeys : (posted.map Prod.fst).Nodup)
    (horder : posted.Pairwise fun newer older => older.2.when < newer.2.when) :
    (evict posted).map Prod.fst =
      if kMaxPostedIds ≤ posted.length then (posted.map Prod.fst).dropLast
      else posted.map Prod.fst := by
  unfold evict
  split
  · rename_i hfull
    obtain ⟨first, last, rfl⟩ : ∃ first last, posted = first ++ [last] := by
      have hne : posted ≠ [] := by
        rintro rfl
        exact absurd hfull (by decide)
      exact ⟨posted.dropLast, posted.getLast hne, (List.dropLast_append_getLast hne).symm⟩
    have hlast : last.1 ∉ first.map Prod.fst := by
      rw [List.map_append] at hkeys
      intro hm
      exact (List.nodup_append.mp hkeys).2.2 _ hm _ List.mem_cons_self rfl
    rw [oldest_eq_getLast? horder, List.getLast?_concat, Option.elim_some, map_filter_key _ hkeys,
      List.map_append, List.map_singleton, List.dropLast_concat, List.erase_append_right _ hlast,
      List.erase_cons_head, List.append_nil]
  · rfl

end Tables

/-! ## One packet -/

section Steps

variable {p : NotificationPlugin} {w : World} {e : Event}

/-- An entry is written over by a notification that has an icon. -/
def upgrade (id : String) (posted : List (String × PostedEntry)) : List (String × PostedEntry) :=
  posted.map fun other => if other.1 = id then (other.1, { other.2 with hasIcon := true })
    else other

/-- What a packet does to the table of ids, and whether it is posted. -/
inductive Outcome (p : NotificationPlugin) (e : Event) :
    List (String × PostedEntry) → Bool → Prop where
  | cancelled (h : e.cancels = true) :
    Outcome p e (p.postedIds.filter fun entry => entry.1 != e.id) false
  | recorded (h : records p e = true) :
    Outcome p e ((e.id, ⟨!(iconHash p e).isEmpty, e.time, e.env.steady⟩) ::
      (evict p.postedIds).filter fun entry => entry.1 != e.id) e.visible
  | suppressed (entry : PostedEntry) (hnotifies : e.notifies = true) (hid : e.id ≠ "")
    (hlookup : p.postedIds.lookup e.id = some entry)
    (hsame : entry.time = e.time ∧ e.env.steady - entry.when < 2000000000)
    (hicon : entry.hasIcon = true ∨ iconHash p e = "") : Outcome p e p.postedIds false
  | upgraded (entry : PostedEntry) (hnotifies : e.notifies = true) (hid : e.id ≠ "")
    (hlookup : p.postedIds.lookup e.id = some entry)
    (hsame : entry.time = e.time ∧ e.env.steady - entry.when < 2000000000)
    (hold : entry.hasIcon = false) (hicon : iconHash p e ≠ "") :
    Outcome p e (upgrade e.id p.postedIds) e.visible
  | unnamed (hnotifies : e.notifies = true) (hid : e.id = "") : Outcome p e p.postedIds e.visible
  | foreign (hcancels : e.cancels = false) (hnotifies : e.notifies = false) :
    Outcome p e p.postedIds false

theorem receive_outcome (p : NotificationPlugin) (e : Event) :
    Outcome p e (receive p e).postedIds (posts p e) := by
  by_cases htype : e.np.type = PacketTypes.notification
  · have htrue : (e.np.type == PacketTypes.notification) = true := beq_iff_eq.mpr htype
    have hreceive : receive p e = (NotificationPlugin.receive e.env e.np.body p).1 := by
      unfold receive NotificationPlugin.onPacketReceived
      rw [if_neg (not_not_intro htype)]
    rw [hreceive, posts, htrue, Bool.true_and]
    unfold NotificationPlugin.receive
    dsimp only
    cases hcancel : e.np.body.valueBool "isCancel" false with
    | true =>
      rw [if_pos rfl]
      refine .cancelled ?_
      rw [Event.cancels, htrue, hcancel, Bool.true_and]
    | false =>
      have hnotifies : e.notifies = true := by rw [Event.notifies, htrue, hcancel]; rfl
      rw [if_neg Bool.false_ne_true]
      have hvisible : ∀ notice : AppNotice,
          (if e.np.body.valueBool "silent" false then none
            else if !e.env.showRemoteMessages then none
            else if !e.env.notifyFlag then none
            else if !e.env.awake then none
            else some notice).isSome = e.visible := by
        intro notice
        unfold Event.visible
        cases e.np.body.valueBool "silent" false <;> cases e.env.showRemoteMessages <;>
          cases e.env.notifyFlag <;> cases e.env.awake <;> rfl
      -- the readings by their names
      have hreadings : debounce e.env.steady (e.np.body.valueStr "id" "")
          (e.np.body.valueStr "time" "") (!(iconOf e.env.mapBegin
            (e.np.body.valueStr "appName" "Unknown") (e.np.body.valueStr "payloadHash" "")
            p.appIconHash).1.isEmpty) p.postedIds =
          debounce e.env.steady e.id e.time (!(iconHash p e).isEmpty) p.postedIds := rfl
      rw [hreadings]
      unfold debounce
      dsimp only
      by_cases hid : e.id = ""
      · rw [if_pos (by rw [hid]; rfl)]
        dsimp only
        rw [hvisible]
        exact .unnamed hnotifies hid
      · have hfull : e.id.isEmpty = false := String.isEmpty_eq_false_iff.mpr hid
        rw [hfull, if_neg Bool.false_ne_true]
        have hrecords : repeats p e = false → records p e = true := by
          intro hrepeats
          rw [records, hnotifies, hfull, hrepeats]
          rfl
        cases hlookup : p.postedIds.lookup e.id with
        | none =>
          dsimp only
          rw [hvisible]
          refine .recorded (hrecords ?_)
          rw [repeats, hlookup]
          rfl
        | some entry =>
          dsimp only
          by_cases hsame : entry.time = e.time ∧ e.env.steady - entry.when < 2000000000
          · rw [if_pos hsame]
            by_cases hicon : (entry.hasIcon || !!(iconHash p e).isEmpty) = true
            · rw [if_pos hicon]
              refine .suppressed entry hnotifies hid hlookup hsame ?_
              rw [Bool.not_not, Bool.or_eq_true, String.isEmpty_iff] at hicon
              exact hicon
            · rw [if_neg hicon]
              dsimp only
              rw [hvisible]
              rw [Bool.not_not, Bool.or_eq_true, String.isEmpty_iff, not_or] at hicon
              exact .upgraded entry hnotifies hid hlookup hsame (eq_false_of_ne_true hicon.1)
                hicon.2
          · rw [if_neg hsame]
            dsimp only
            rw [hvisible]
            refine .recorded (hrecords ?_)
            rw [repeats, hlookup, Option.any_some]
            exact decide_eq_false hsame
  · have hfalse : (e.np.type == PacketTypes.notification) = false := beq_eq_false_iff_ne.mpr htype
    have hsame : receive p e = p := by
      unfold receive NotificationPlugin.onPacketReceived
      rw [if_pos htype]
    rw [hsame, posts, hfalse, Bool.false_and]
    refine .foreign ?_ ?_
    · rw [Event.cancels, hfalse, Bool.false_and]
    · rw [Event.notifies, hfalse, Bool.false_and]

theorem cancels_of_notifies (h : e.notifies = true) : e.cancels = false := by
  unfold Event.notifies at h
  unfold Event.cancels
  rw [Bool.and_eq_true, Bool.not_eq_true'] at h
  rw [h.2, Bool.and_false]

theorem notifies_of_records (h : records p e = true) : e.notifies = true := by
  rw [records, Bool.and_eq_true, Bool.and_eq_true] at h
  exact h.1.1

/-- As far as the table goes: a cancel drops the id, a recorded one comes to the
front once there is room, and of a repeated one at most its icon is noted. -/
theorem receive_cases (p : NotificationPlugin) (e : Event) :
    (e.cancels = true ∧ records p e = false ∧
      (receive p e).postedIds = p.postedIds.filter fun entry => entry.1 != e.id) ∨
    (e.cancels = false ∧ records p e = true ∧
      (receive p e).postedIds =
        (e.id, ⟨!(iconHash p e).isEmpty, e.time, e.env.steady⟩) ::
          (evict p.postedIds).filter fun entry => entry.1 != e.id) ∨
    (e.cancels = false ∧ records p e = false ∧
      ((receive p e).postedIds = p.postedIds ∨
        (receive p e).postedIds = upgrade e.id p.postedIds)) := by
  have hrepeats : ∀ entry, p.postedIds.lookup e.id = some entry →
      entry.time = e.time ∧ e.env.steady - entry.when < 2000000000 → records p e = false := by
    intro entry hlookup hsame
    rw [records, repeats, hlookup, Option.any_some, decide_eq_true hsame, Bool.not_true,
      Bool.and_false]
  generalize htable : (receive p e).postedIds = table
  have houtcome := receive_outcome p e
  rw [htable] at houtcome
  generalize posts p e = posted at houtcome
  cases houtcome with
  | cancelled h =>
    refine .inl ⟨h, ?_, rfl⟩
    by_contra hrecords
    have hno := cancels_of_notifies (notifies_of_records (eq_true_of_ne_false hrecords))
    rw [h] at hno
    cases hno
  | recorded h => exact .inr (.inl ⟨cancels_of_notifies (notifies_of_records h), h, rfl⟩)
  | suppressed entry hn hid hlookup hsame hicon =>
    exact .inr (.inr ⟨cancels_of_notifies hn, hrepeats entry hlookup hsame, .inl rfl⟩)
  | upgraded entry hn hid hlookup hsame hold hicon =>
    exact .inr (.inr ⟨cancels_of_notifies hn, hrepeats entry hlookup hsame, .inr rfl⟩)
  | unnamed hn hid =>
    refine .inr (.inr ⟨cancels_of_notifies hn, ?_, .inl rfl⟩)
    rw [records, hid, hn]
    rfl
  | foreign hcancels hn =>
    refine .inr (.inr ⟨hcancels, ?_, .inl rfl⟩)
    rw [records, hn, Bool.false_and, Bool.false_and]

theorem ids_upgrade (id : String) (posted : List (String × PostedEntry)) :
    (upgrade id posted).map Prod.fst = posted.map Prod.fst := by
  rw [upgrade, List.map_map]
  refine List.map_congr_left ?_
  intro other _
  rw [Function.comp_apply]
  split <;> rfl

/-- What it does to the other table. -/
theorem appIconHash_receive (p : NotificationPlugin) (e : Event) :
    (receive p e).appIconHash = p.appIconHash ∨
      (receive p e).appIconHash = (iconOf e.env.mapBegin e.app e.payloadHash p.appIconHash).2 := by
  unfold receive NotificationPlugin.onPacketReceived
  split
  · exact .inl rfl
  · unfold NotificationPlugin.receive
    dsimp only
    split
    · exact .inl rfl
    · split
      · exact .inr rfl
      · exact .inr rfl

theorem keepsApps (w : World) (e : Event) : KeepsApps w e := by
  intro _ happ app hne
  rcases appIconHash_receive w.plugin e with hsame | hnew
  · rw [hsame]
  · rw [hnew]
    exact lookup_iconOf happ hne _

/-- An icon leaves the id, the time and the age of an entry. -/
theorem mem_upgrade {posted : List (String × PostedEntry)} {id : String}
    {entry : String × PostedEntry} (h : entry ∈ upgrade id posted) :
    ∃ old, (entry.1, old) ∈ posted ∧ old.time = entry.2.time ∧ old.when = entry.2.when := by
  obtain ⟨other, hother, rfl⟩ := List.mem_map.mp h
  split
  · exact ⟨other.2, hother, rfl, rfl⟩
  · exact ⟨other.2, hother, rfl, rfl⟩

theorem length_receive (h : p.postedIds.length ≤ kMaxPostedIds) (e : Event) :
    (receive p e).postedIds.length ≤ kMaxPostedIds := by
  rcases receive_cases p e with ⟨-, -, hnew⟩ | ⟨-, -, hnew⟩ | ⟨-, -, hnew | hnew⟩
  · rw [hnew]
    exact (List.length_filter_le _ _).trans h
  · rw [hnew, List.length_cons]
    exact Nat.lt_of_le_of_lt (List.length_filter_le _ _) (length_evict h)
  · rw [hnew]
    exact h
  · rw [hnew, upgrade, List.length_map]
    exact h

theorem nodup_receive (h : (ids p).Nodup) (e : Event) : (ids (receive p e)).Nodup := by
  unfold ids
  rcases receive_cases p e with ⟨-, -, hnew⟩ | ⟨-, -, hnew⟩ | ⟨-, -, hnew | hnew⟩
  · rw [hnew]
    exact h.sublist (List.filter_sublist.map Prod.fst)
  · rw [hnew]
    refine List.nodup_cons.mpr ⟨?_, h.sublist ((room_sublist p.postedIds e.id).map Prod.fst)⟩
    intro hm
    obtain ⟨entry, hentry, hid⟩ := List.mem_map.mp hm
    exact bne_iff_ne.mp (List.mem_filter.mp hentry).2 hid
  · rw [hnew]
    exact h
  · rw [hnew, ids_upgrade]
    exact h

/-- An entry is as old as it was, or is recorded now. -/
theorem when_receive {entry : String × PostedEntry} (hm : entry ∈ (receive p e).postedIds) :
    entry.2.when = e.env.steady ∨ ∃ old ∈ p.postedIds, old.2.when = entry.2.when := by
  rcases receive_cases p e with ⟨-, -, hnew⟩ | ⟨-, -, hnew⟩ | ⟨-, -, hnew | hnew⟩
  · rw [hnew] at hm
    exact .inr ⟨entry, List.mem_of_mem_filter hm, rfl⟩
  · rw [hnew] at hm
    rcases List.mem_cons.mp hm with rfl | hm
    · exact .inl rfl
    · exact .inr ⟨entry, (room_sublist _ _).subset hm, rfl⟩
  · rw [hnew] at hm
    exact .inr ⟨entry, hm, rfl⟩
  · rw [hnew] at hm
    obtain ⟨old, hold, -, hwhen⟩ := mem_upgrade hm
    exact .inr ⟨(entry.1, old), hold, hwhen⟩

/-- A table in the order of its times stays so when a later packet comes. -/
theorem times_receive
    (htimes : p.postedIds.Pairwise fun newer older => older.2.when < newer.2.when)
    (hbefore : ∀ entry ∈ p.postedIds, entry.2.when < e.env.steady) :
    (receive p e).postedIds.Pairwise fun newer older => older.2.when < newer.2.when := by
  rcases receive_cases p e with ⟨-, -, hnew⟩ | ⟨-, -, hnew⟩ | ⟨-, -, hnew | hnew⟩
  · rw [hnew]
    exact htimes.filter _
  · rw [hnew]
    refine List.pairwise_cons.mpr ⟨?_, htimes.sublist (room_sublist _ _)⟩
    exact fun entry hm => hbefore entry ((room_sublist _ _).subset hm)
  · rw [hnew]
    exact htimes
  · rw [hnew, upgrade, List.pairwise_map]
    refine htimes.imp ?_
    intro newer older hless
    split <;> split <;> exact hless

/-- The limits hold whatever the clock says. -/
theorem bounded_step (h : Bounded w) (e : Event) : Bounded (step w e) where
  posted := length_receive h.posted e
  icons := by
    have hstep : (step w e).plugin = receive w.plugin e := rfl
    rw [hstep]
    rcases appIconHash_receive w.plugin e with hsame | hnew
    · rw [hsame]
      exact h.icons
    · rw [hnew]
      exact length_iconOf _ _ _ h.icons

/-- The entries of the table: each id once, the times in order, none of them after
the last reading; and the ids are among those recorded. -/
structure Ordered (w : World) : Prop where
  keys : (ids w.plugin).Nodup
  times : w.plugin.postedIds.Pairwise fun newer older => older.2.when < newer.2.when
  past : ∀ entry ∈ w.plugin.postedIds, ∃ t ∈ w.clock, entry.2.when ≤ t
  part : (ids w.plugin).Sublist w.recorded
  recorded : w.recorded.Nodup

/-- The ids after a packet. -/
theorem ids_receive (hkeys : (ids p).Nodup)
    (htimes : p.postedIds.Pairwise fun newer older => older.2.when < newer.2.when) (e : Event) :
    ids (receive p e) =
      if e.cancels then (ids p).erase e.id
      else if records p e then
        touch e.id (if kMaxPostedIds ≤ (ids p).length then (ids p).dropLast else ids p)
      else ids p := by
  have hcount : (ids p).length = p.postedIds.length := List.length_map _
  rcases receive_cases p e with ⟨hc, hr, hnew⟩ | ⟨hc, hr, hnew⟩ | ⟨hc, hr, hnew⟩
  · rw [ids, hnew, hc, if_pos rfl]
    exact map_filter_key _ hkeys
  · have hevict := map_evict hkeys htimes
    have hnodup : ((evict p.postedIds).map Prod.fst).Nodup := by
      rw [hevict]
      split
      · exact hkeys.sublist (List.dropLast_sublist _)
      · exact hkeys
    rw [ids, hnew, hc, hr, if_neg Bool.false_ne_true, if_pos rfl, List.map_cons,
      map_filter_key _ hnodup, hevict, hcount]
    rfl
  · rw [hc, hr, if_neg Bool.false_ne_true, if_neg Bool.false_ne_true]
    rcases hnew with hnew | hnew
    · rw [ids, hnew]
      rfl
    · rw [ids, hnew, ids_upgrade]
      rfl

/-- A packet that comes later than all entries keeps the table in order. -/
theorem ordered_step (h : Ordered w) (ht : Ticks w e) : Ordered (step w e) := by
  have hids := ids_receive h.keys h.times e
  have hplugin : (step w e).plugin = receive w.plugin e := rfl
  have hrecorded : (step w e).recorded = if e.cancels then w.recorded.erase e.id
      else if records w.plugin e then touch e.id w.recorded else w.recorded := rfl
  have hroom : (if kMaxPostedIds ≤ (ids w.plugin).length then (ids w.plugin).dropLast
      else ids w.plugin).Sublist (ids w.plugin) := by
    split
    · exact List.dropLast_sublist _
    · exact List.Sublist.refl _
  have hbefore : ∀ entry ∈ w.plugin.postedIds, entry.2.when < e.env.steady := by
    intro entry hm
    obtain ⟨t, hclock, hle⟩ := h.past entry hm
    exact Int64.lt_of_le_of_lt hle (ht t hclock)
  refine ⟨nodup_receive h.keys e, times_receive h.times hbefore, ?_, ?_, ?_⟩
  · intro entry hm
    refine ⟨e.env.steady, rfl, ?_⟩
    rcases when_receive hm with hnew | ⟨old, hold, hwhen⟩
    · rw [hnew]
      exact Int64.le_refl _
    · rw [← hwhen]
      exact Int64.le_of_lt (hbefore old hold)
  · rw [hplugin, hids, hrecorded]
    split
    · exact h.part.erase _
    · split
      · exact ((hroom.trans h.part).erase _).cons_cons _
      · exact h.part
  · rw [hrecorded]
    split
    · exact h.recorded.erase _
    · split
      · exact nodup_touch h.recorded
      · exact h.recorded

/-- The table of an ordered world has the last ids exactly if it is the first
part of all ids. -/
theorem hasLast_iff (h : Ordered w) : HasLast w ↔ ids w.plugin = w.recorded.take kMaxPostedIds := by
  constructor
  · exact eq_of_mem_iff h.part (List.take_sublist _ _) h.recorded
  · intro heq id
    rw [heq]

/-- The step lemma: the last ids stay in the table exactly if the packet spares
them. -/
theorem hasLast_step (h : Ordered w) (ht : Ticks w e) (hlast : HasLast w) :
    HasLast (step w e) ↔ Spares w e := by
  have hlist := (hasLast_iff h).mp hlast
  have hcount : (ids w.plugin).length = w.plugin.postedIds.length := List.length_map _
  have hlimit : (ids w.plugin).length ≤ kMaxPostedIds := by
    rw [hlist, List.length_take]
    exact Nat.min_le_left _ _
  have hids := ids_receive h.keys h.times e
  have hplugin : (step w e).plugin = receive w.plugin e := rfl
  have hrecorded : (step w e).recorded = if e.cancels then w.recorded.erase e.id
      else if records w.plugin e then touch e.id w.recorded else w.recorded := rfl
  rw [hasLast_iff (ordered_step h ht), hplugin, hids, hrecorded]
  rcases receive_cases w.plugin e with ⟨hc, hr, -⟩ | ⟨hc, hr, -⟩ | ⟨hc, hr, -⟩
  · have hiff := erase_take_iff kMaxPostedIds e.id w.recorded
    rw [← hlist] at hiff
    rw [hc, if_pos rfl, if_pos rfl, hiff]
    constructor
    · intro hroom
      refine ⟨fun hrecord => ?_, fun _ => hroom⟩
      rw [hr] at hrecord
      cases hrecord
    · intro hspares
      exact hspares.cancels hc
  · have hold : (oldest w.plugin.postedIds).map Prod.fst = (ids w.plugin).getLast? := by
      rw [oldest_eq_getLast? h.times, ids, List.getLast?_map]
    have htake : (touch e.id w.recorded).take kMaxPostedIds =
        (touch e.id (ids w.plugin)).take kMaxPostedIds := by
      rw [hlist, take_touch]
    rw [hc, hr, if_neg Bool.false_ne_true, if_neg Bool.false_ne_true, if_pos rfl, if_pos rfl, htake]
    by_cases hfull : kMaxPostedIds ≤ (ids w.plugin).length
    · have hten : (ids w.plugin).length = kMaxPostedIds := Nat.le_antisymm hlimit hfull
      rw [if_pos hfull, touch_dropLast_iff h.keys hten (by decide)]
      constructor
      · intro hsafe
        refine ⟨fun _ _ hm => ?_, fun hcancel => ?_⟩
        · rw [hold]
          exact hsafe hm
        · rw [hc] at hcancel
          cases hcancel
      · intro hspares hm
        rw [← hold]
        exact hspares.records hr (hcount.symm.trans hten) hm
    · have hsmall : (touch e.id (ids w.plugin)).length ≤ kMaxPostedIds := by
        by_cases hm : e.id ∈ ids w.plugin
        · rw [length_touch_of_mem hm]
          exact hlimit
        · rw [length_touch_of_notMem hm]
          omega
      rw [if_neg hfull, List.take_of_length_le hsmall]
      refine iff_of_true rfl ⟨fun _ hten => ?_, fun hcancel => ?_⟩
      · rw [← hcount] at hten
        exact absurd (Nat.le_of_eq hten.symm) hfull
      · rw [hc] at hcancel
        cases hcancel
  · rw [hc, hr, if_neg Bool.false_ne_true, if_neg Bool.false_ne_true, if_neg Bool.false_ne_true,
      if_neg Bool.false_ne_true]
    refine iff_of_true hlist ⟨fun hrecord => ?_, fun hcancel => ?_⟩
    · rw [hr] at hrecord
      cases hrecord
    · rw [hc] at hcancel
      cases hcancel

end Steps

/-- Over every sequence of packets at ever later times: both tables stay within
their limits and no app loses its icon to one that is known; and the table of ids
has exactly the last ten that were recorded and not cancelled, exactly if every
packet spares them. -/
theorem forgets_iff (events : List Event) (h : EveryStep step Ticks {} events) :
    Always step Bounded {} events ∧ EveryStep step KeepsApps {} events ∧
      (Always step HasLast {} events ↔ EveryStep step Spares {} events) := by
  have hbounded : Bounded ({} : World) := ⟨Nat.zero_le _, Nat.zero_le _⟩
  have hordered : Ordered ({} : World) :=
    ⟨List.nodup_nil, List.Pairwise.nil, fun entry hm => absurd hm List.not_mem_nil,
      List.Sublist.refl _, List.nodup_nil⟩
  refine ⟨always_of_step (P := Bounded) (fun _ e hw => bounded_step hw e) hbounded events,
    everyStep_of_forall keepsApps {} events, ?_⟩
  exact always_iff_everyStep_of_valid (I := Ordered) (fun _ _ hw ht => ordered_step hw ht)
    (fun _ _ hw ht hlast => hasLast_step hw ht hlast) hordered (fun _ => Iff.rfl) h

/-- A notification with this id and time and nothing else. -/
def notice (id time : String) : NetworkPacket where
  type := PacketTypes.notification
  body := (({} : JsonBody).setStr "id" id).setStr "time" time

/-- It comes at this time. -/
def noticeAt (id time : String) (steady : Int64) : Event where
  env := { json := Yyjson.reference, steady := steady }
  np := notice id time

/-- Ten ids fill the table, and the last of them comes again with another time. -/
def tenAndAgain : List Event :=
  [noticeAt "0" "t" 1, noticeAt "1" "t" 2, noticeAt "2" "t" 3, noticeAt "3" "t" 4,
    noticeAt "4" "t" 5, noticeAt "5" "t" 6, noticeAt "6" "t" 7, noticeAt "7" "t" 8,
    noticeAt "8" "t" 9, noticeAt "9" "t" 10, noticeAt "9" "u" 11]

theorem ticks_tenAndAgain : EveryStep step Ticks {} tenAndAgain := by
  refine ⟨?_, ?_, ?_, ?_, ?_, ?_, ?_, ?_, ?_, ?_, ?_, trivial⟩
  all_goals
    intro t ht
    cases ht
  all_goals decide

/-- The oldest id goes, although no new one came. -/
theorem notForgets_again :
    ¬ ∀ events : List Event, EveryStep step Ticks {} events → Always step HasLast {} events := by
  intro h
  have hlast := (h tenAndAgain ticks_tenAndAgain).last
  have hmem : "0" ∈ ids (run step {} tenAndAgain).plugin :=
    (hlast "0").mpr (by decide)
  exact absurd hmem (by decide)

/-- The packets of the counterexample. -/
theorem forgets_tenAndAgain :
    Always step Bounded {} tenAndAgain ∧ EveryStep step KeepsApps {} tenAndAgain ∧
      (Always step HasLast {} tenAndAgain ↔ EveryStep step Spares {} tenAndAgain) :=
  forgets_iff tenAndAgain ticks_tenAndAgain

end KdeConnectNx.PostedTable
