import KdeConnectNx.Runs
import Mathlib.Algebra.Order.Group.Unbundled.Int
import Mathlib.Data.List.AList
import Mathlib.Data.List.Dedup

/-!
# One probe a second

A device that mDNS finds is sent a probe, but for one that was sent a probe in the
last second. The times of the probes are kept in a hash map of 32 devices at most;
the one probed longest ago makes room. Beside the map all probes are kept.
-/

namespace KdeConnectNx.ProbeCooldown

open Runs

/-- `mdns_probe_cooldown_`. -/
abbrev Cooldown := AList fun _ : String => Int64

abbrev Entry := (_ : String) × Int64

def kMdnsProbeCooldown : Int64 := 1000000000

/-- A device is found, with the order in which the hash map is gone through then. -/
structure PeerFound where
  deviceId : String
  /-- There is a live session with the device. -/
  connected : Bool
  /-- The steady clock in nanoseconds. -/
  now : Int64
  iterate : List Entry → List Entry
  iterate_perm : ∀ entries, (iterate entries).Perm entries

/-- The iterator stays where it is unless the next entry is earlier. -/
def earlier (oldest it : Entry) : Entry := if it.2 < oldest.2 then it else oldest

/-- The entry with the earliest time, the first of several. -/
def oldest : List Entry → Option Entry
  | [] => none
  | first :: rest => some (rest.foldl earlier first)

/-- The callback: the map after it, and whether a probe is sent. Looking a device up
enters it with time zero. -/
def onPeerFound (e : PeerFound) (cooldown : Cooldown) : Cooldown × Bool :=
  if e.connected then (cooldown, false)
  else
    let last := (cooldown.lookup e.deviceId).getD 0
    let cooldown := cooldown.insert e.deviceId last
    if e.now - last < kMdnsProbeCooldown then (cooldown, false)
    else
      let cooldown := cooldown.insert e.deviceId e.now
      if 32 < cooldown.entries.length then
        ((oldest (e.iterate cooldown.entries)).elim cooldown fun entry => cooldown.erase entry.1,
          true)
      else (cooldown, true)

/-- The map, the probes that were sent, the last in front, and the last reading of the
clock, which is behind its first second. -/
structure World where
  cooldown : Cooldown := ∅
  probes : List (String × Int64) := []
  clock : Int64 := 1000000000

def step (w : World) (e : PeerFound) : World :=
  let r := onPeerFound e w.cooldown
  { cooldown := r.1
    probes := if r.2 then (e.deviceId, e.now) :: w.probes else w.probes
    clock := e.now }

/-- The clock never goes back. -/
def Ticks (w : World) (e : PeerFound) : Prop := w.clock ≤ e.now

instance (w : World) (e : PeerFound) : Decidable (Ticks w e) := inferInstanceAs (Decidable (_ ≤ _))

/-- A second in nanoseconds. -/
def second : ℤ := 1000000000

/-- The devices probed from one time to another. -/
def probedIn (first last : ℤ) (probes : List (String × Int64)) : List String :=
  ((probes.filter fun p => decide (first ≤ p.2.toInt ∧ p.2.toInt ≤ last)).map Prod.fst).dedup

/-- In no window shorter than a second more than 32 devices are probed. -/
def FewProbed (probes : List (String × Int64)) : Prop :=
  ∀ first last : ℤ, last - first < second → (probedIn first last probes).length ≤ 32

/-- Between two probes to one device is a second. -/
def Spaced (probes : List (String × Int64)) : Prop :=
  probes.Pairwise fun later earlier =>
    later.1 = earlier.1 → second ≤ later.2.toInt - earlier.2.toInt

/-! ## The oldest entry -/

section Oldest

variable {first entry : Entry} {entries : List Entry}

/-- One of the two. -/
theorem earlier_mem (first next : Entry) :
    earlier first next = first ∨ earlier first next = next := by
  unfold earlier
  split
  · exact .inr rfl
  · exact .inl rfl

/-- And none of the two is older. -/
theorem earlier_le (first next : Entry) :
    (earlier first next).2 ≤ first.2 ∧ (earlier first next).2 ≤ next.2 := by
  unfold earlier
  split
  · rename_i hlt
    exact ⟨Int64.le_of_lt hlt, Int64.le_refl _⟩
  · rename_i hge
    exact ⟨Int64.le_refl _, Int64.not_lt.mp hge⟩

/-- The oldest entry is one of those that were gone through. -/
theorem foldl_earlier_mem (first : Entry) (rest : List Entry) :
    rest.foldl earlier first ∈ first :: rest := by
  induction rest generalizing first with
  | nil => exact List.mem_cons_self
  | cons next rest ih =>
    rw [List.foldl_cons]
    rcases List.mem_cons.mp (ih (earlier first next)) with heq | hrest
    · rw [heq]
      rcases earlier_mem first next with heq | heq
      · rw [heq]
        exact List.mem_cons_self
      · rw [heq]
        exact List.mem_cons_of_mem _ List.mem_cons_self
    · exact List.mem_cons_of_mem _ (List.mem_cons_of_mem _ hrest)

/-- None of them is older. -/
theorem foldl_earlier_le (first : Entry) (rest : List Entry) :
    ∀ entry ∈ first :: rest, (rest.foldl earlier first).2 ≤ entry.2 := by
  induction rest generalizing first with
  | nil =>
    intro entry he
    rw [List.mem_singleton.mp he]
    exact Int64.le_refl _
  | cons next rest ih =>
    intro entry he
    have hle := ih (earlier first next)
    have hhead := hle _ List.mem_cons_self
    obtain ⟨hfirst, hnext⟩ := earlier_le first next
    rw [List.foldl_cons]
    rcases List.mem_cons.mp he with rfl | he
    · exact Int64.le_trans hhead hfirst
    · rcases List.mem_cons.mp he with rfl | he
      · exact Int64.le_trans hhead hnext
      · exact hle entry (List.mem_cons_of_mem _ he)

/-- The oldest entry of the map, in whatever order it is gone through. -/
theorem oldest_spec (h : oldest entries = some entry) :
    entry ∈ entries ∧ ∀ other ∈ entries, entry.2 ≤ other.2 := by
  cases entries with
  | nil => cases h
  | cons first rest =>
    rw [← Option.some.inj h]
    exact ⟨foldl_earlier_mem first rest, foldl_earlier_le first rest⟩

/-- A map that is not empty has one. -/
theorem oldest_isSome (h : entries ≠ []) : (oldest entries).isSome = true := by
  cases entries with
  | nil => exact absurd rfl h
  | cons first rest => rfl

end Oldest

/-! ## One callback -/

section Steps

variable {w : World} {e : PeerFound}

/-- What looking the device up gives. -/
def lastOf (e : PeerFound) (cooldown : Cooldown) : Int64 := (cooldown.lookup e.deviceId).getD 0

/-- A callback sends no probe, or it sends one and takes its time down, at the cost of
the oldest entry where there is no room. -/
inductive Outcome (w : World) (e : PeerFound) : World → Prop where
  | connected : Outcome w e { w with clock := e.now }
  | cooling (h : e.now - lastOf e w.cooldown < kMdnsProbeCooldown) :
      Outcome w e { w with
        cooldown := w.cooldown.insert e.deviceId (lastOf e w.cooldown)
        clock := e.now }
  | probed (h : ¬ e.now - lastOf e w.cooldown < kMdnsProbeCooldown)
      (hroom : (w.cooldown.insert e.deviceId e.now).entries.length ≤ 32) :
      Outcome w e
        ⟨w.cooldown.insert e.deviceId e.now, (e.deviceId, e.now) :: w.probes, e.now⟩
  | evicted (h : ¬ e.now - lastOf e w.cooldown < kMdnsProbeCooldown) (entry : Entry)
      (hfull : 32 < (w.cooldown.insert e.deviceId e.now).entries.length)
      (hmem : entry ∈ (w.cooldown.insert e.deviceId e.now).entries)
      (hle : ∀ other ∈ (w.cooldown.insert e.deviceId e.now).entries, entry.2 ≤ other.2) :
      Outcome w e
        ⟨(w.cooldown.insert e.deviceId e.now).erase entry.1, (e.deviceId, e.now) :: w.probes, e.now⟩

/-- Every callback has one of these outcomes. -/
theorem step_outcome (w : World) (e : PeerFound) : Outcome w e (step w e) := by
  unfold step onPeerFound
  split
  · exact .connected
  · dsimp only
    split
    · rename_i hcooling
      exact .cooling hcooling
    · rename_i hlong
      rw [AList.insert_insert]
      split
      · rename_i hfull
        have hperm := e.iterate_perm (w.cooldown.insert e.deviceId e.now).entries
        have hne : e.iterate (w.cooldown.insert e.deviceId e.now).entries ≠ [] := by
          intro hnil
          rw [← hperm.length_eq, hnil] at hfull
          cases hfull
        obtain ⟨entry, hentry⟩ := Option.isSome_iff_exists.mp (oldest_isSome hne)
        obtain ⟨hmem, hle⟩ := oldest_spec hentry
        rw [hentry]
        exact .evicted hlong entry hfull (hperm.mem_iff.mp hmem)
          fun other hother => hle other (hperm.mem_iff.mpr hother)
      · rename_i hroom
        exact .probed hlong (Nat.not_lt.mp hroom)

/-- The map is within its limit, and every time in it is that of a probe. -/
structure Sound (w : World) : Prop where
  size : w.cooldown.entries.length ≤ 32
  sent : ∀ id t, w.cooldown.lookup id = some t → (id, t) ∈ w.probes
  started : second ≤ w.clock.toInt
  past : ∀ p ∈ w.probes, second ≤ p.2.toInt ∧ p.2.toInt ≤ w.clock.toInt

/-- A map has a key for every entry. -/
theorem length_entries (cooldown : Cooldown) : cooldown.entries.length = cooldown.keys.length :=
  (List.length_map _).symm

/-- A known device takes no further room. -/
theorem length_insert_of_mem {cooldown : Cooldown} {id : String} (h : id ∈ cooldown) (t : Int64) :
    (cooldown.insert id t).entries.length = cooldown.entries.length := by
  have hpos := List.length_pos_of_mem (AList.mem_keys.mp h)
  rw [length_entries, length_entries, AList.keys_insert, List.length_cons,
    List.length_erase_of_mem (AList.mem_keys.mp h)]
  omega

/-- An unknown one takes one entry. -/
theorem length_insert_le (cooldown : Cooldown) (id : String) (t : Int64) :
    (cooldown.insert id t).entries.length ≤ cooldown.entries.length + 1 := by
  have hle := List.length_erase_le (a := id) (l := cooldown.keys)
  rw [length_entries, length_entries, AList.keys_insert, List.length_cons]
  omega

/-- Erasing an entry makes room. -/
theorem length_erase_lt {cooldown : Cooldown} {entry : Entry} (h : entry ∈ cooldown.entries) :
    (cooldown.erase entry.1).entries.length < cooldown.entries.length := by
  have hkey : entry.1 ∈ cooldown.keys := List.mem_map.mpr ⟨entry, h, rfl⟩
  have hpos := List.length_pos_of_mem hkey
  rw [length_entries, length_entries, AList.keys_erase, List.length_erase_of_mem hkey]
  omega

/-- The time a device was probed at last is zero or that of a probe. -/
theorem lastOf_cases (h : Sound w) :
    (w.cooldown.lookup e.deviceId = none ∧ lastOf e w.cooldown = 0) ∨
      (w.cooldown.lookup e.deviceId = some (lastOf e w.cooldown) ∧
        (e.deviceId, lastOf e w.cooldown) ∈ w.probes) := by
  unfold lastOf
  cases hlookup : w.cooldown.lookup e.deviceId with
  | none => exact .inl ⟨rfl, rfl⟩
  | some t => exact .inr ⟨rfl, h.sent _ t hlookup⟩

/-- The difference to it is that of the numbers. -/
theorem cooling_iff (h : Sound w) (ht : Ticks w e) :
    e.now - lastOf e w.cooldown < kMdnsProbeCooldown ↔
      e.now.toInt - (lastOf e w.cooldown).toInt < second := by
  have hclock := Int64.le_iff_toInt_le.mp ht
  have hbounds : 0 ≤ lastOf e w.cooldown ∧ lastOf e w.cooldown ≤ e.now := by
    have hstarted := h.started
    unfold second at hstarted
    rw [Int64.le_iff_toInt_le, Int64.le_iff_toInt_le]
    rcases lastOf_cases (e := e) h with ⟨-, hzero⟩ | ⟨-, hprobe⟩
    · rw [hzero]
      have hnum : (0 : Int64).toInt = 0 := rfl
      omega
    · obtain ⟨hlow, hhigh⟩ := h.past _ hprobe
      unfold second at hlow
      have hnum : (0 : Int64).toInt = 0 := rfl
      dsimp only at hlow hhigh
      omega
  have hnum : kMdnsProbeCooldown.toInt = second := by decide
  rw [Int64.lt_iff_toInt_lt, Int64.toInt_sub_of_le _ _ hbounds.1 hbounds.2, hnum]

/-- A device that is cooling down is in the map. -/
theorem lookup_of_cooling (h : Sound w) (ht : Ticks w e)
    (hcooling : e.now - lastOf e w.cooldown < kMdnsProbeCooldown) :
    w.cooldown.lookup e.deviceId = some (lastOf e w.cooldown) := by
  rcases lastOf_cases (e := e) h with ⟨-, hzero⟩ | ⟨hlookup, -⟩
  · rw [cooling_iff h ht, hzero] at hcooling
    have hclock := Int64.le_iff_toInt_le.mp ht
    have hstarted := h.started
    have hnum : (0 : Int64).toInt = 0 := rfl
    omega
  · exact hlookup

/-- Entering it again changes nothing. -/
theorem lookup_insert_same {cooldown : Cooldown} {id : String} {t : Int64}
    (h : cooldown.lookup id = some t) (other : String) :
    (cooldown.insert id t).lookup other = cooldown.lookup other := by
  by_cases heq : other = id
  · rw [heq, AList.lookup_insert, h]
  · exact AList.lookup_insert_ne heq

/-- An entry of the map after a probe is the new one or an old one. -/
theorem lookup_insert_cases {cooldown : Cooldown} {id other : String} {now t : Int64}
    (h : (cooldown.insert id now).lookup other = some t) :
    (other = id ∧ t = now) ∨ cooldown.lookup other = some t := by
  by_cases heq : other = id
  · rw [heq, AList.lookup_insert] at h
    exact .inl ⟨heq, (Option.some.inj h).symm⟩
  · rw [AList.lookup_insert_ne heq] at h
    exact .inr h

/-- What is found after erasing was there, under another id. -/
theorem lookup_of_lookup_erase {cooldown : Cooldown} {id other : String} {t : Int64}
    (h : (cooldown.erase id).lookup other = some t) :
    other ≠ id ∧ cooldown.lookup other = some t := by
  by_cases heq : other = id
  · rw [heq, AList.lookup_erase] at h
    cases h
  · rw [AList.lookup_erase_ne heq] at h
    exact ⟨heq, h⟩

/-- Every time in the map is still that of a probe, the new one included. -/
theorem sent_insert (h : Sound w) {id : String} {t : Int64}
    (hlookup : (w.cooldown.insert e.deviceId e.now).lookup id = some t) :
    (id, t) ∈ (e.deviceId, e.now) :: w.probes := by
  rcases lookup_insert_cases hlookup with ⟨rfl, rfl⟩ | hold
  · exact List.mem_cons_self
  · exact List.mem_cons_of_mem _ (h.sent id t hold)

/-- The new probe is at the clock, the earlier ones before it. -/
theorem past_cons (h : Sound w) (ht : Ticks w e) :
    ∀ p ∈ (e.deviceId, e.now) :: w.probes, second ≤ p.2.toInt ∧ p.2.toInt ≤ e.now.toInt := by
  have hclock := Int64.le_iff_toInt_le.mp ht
  have hstarted := h.started
  intro p hp
  rcases List.mem_cons.mp hp with rfl | hp
  · exact ⟨hstarted.trans hclock, le_rfl⟩
  · exact ⟨(h.past p hp).1, (h.past p hp).2.trans hclock⟩

/-- Every callback keeps the map sound. -/
theorem sound_step (h : Sound w) (ht : Ticks w e) : Sound (step w e) := by
  have hclock := Int64.le_iff_toInt_le.mp ht
  have hstarted := h.started.trans hclock
  have hpast : ∀ p ∈ w.probes, second ≤ p.2.toInt ∧ p.2.toInt ≤ e.now.toInt :=
    fun p hp => past_cons h ht p (List.mem_cons_of_mem _ hp)
  have houtcome := step_outcome w e
  generalize step w e = w' at houtcome
  cases houtcome with
  | connected => exact ⟨h.size, h.sent, hstarted, hpast⟩
  | cooling hcooling =>
    have hlookup := lookup_of_cooling h ht hcooling
    have hmem : e.deviceId ∈ w.cooldown := AList.lookup_isSome.mp (by rw [hlookup]; rfl)
    refine ⟨?_, fun id t hid => ?_, hstarted, hpast⟩
    · rw [length_insert_of_mem hmem]
      exact h.size
    · rw [lookup_insert_same hlookup] at hid
      exact h.sent id t hid
  | probed _ hroom => exact ⟨hroom, fun _ _ hid => sent_insert h hid, hstarted, past_cons h ht⟩
  | evicted _ entry hfull hmem _ =>
    refine ⟨?_, fun id t hid => ?_, hstarted, past_cons h ht⟩
    · have hless := length_erase_lt hmem
      have hmore := length_insert_le w.cooldown e.deviceId e.now
      have hsize := h.size
      dsimp only
      omega
    · exact sent_insert h (lookup_of_lookup_erase hid).2

/-- The last probe to every device is known, or a second ago. -/
def Covered (w : World) : Prop :=
  ∀ p ∈ w.probes, (∃ t, w.cooldown.lookup p.1 = some t ∧ p.2.toInt ≤ t.toInt) ∨
    second ≤ w.clock.toInt - p.2.toInt

/-- Two lists without repetition, one inside of the other. -/
theorem length_le_of_subset {l l' : List String} (hnodup : l.Nodup) (hsub : l ⊆ l') :
    l.length ≤ l'.length := (List.subperm_of_subset hnodup hsub).length_le

/-- A probe in the window counts its device. -/
theorem mem_probedIn {first last : ℤ} {id : String} {t : Int64} {probes : List (String × Int64)}
    (h : (id, t) ∈ probes) (hfirst : first ≤ t.toInt) (hlast : t.toInt ≤ last) :
    id ∈ probedIn first last probes := by
  rw [probedIn, List.mem_dedup, List.mem_map]
  exact ⟨(id, t), List.mem_filter.mpr ⟨h, decide_eq_true ⟨hfirst, hlast⟩⟩, rfl⟩

/-- Fewer probes are few probes. -/
theorem FewProbed.tail {p : String × Int64} {probes : List (String × Int64)}
    (h : FewProbed (p :: probes)) : FewProbed probes := by
  intro first last hshort
  refine (length_le_of_subset (List.nodup_dedup _) ?_).trans (h first last hshort)
  intro id hid
  rw [List.mem_dedup, List.mem_map] at hid
  obtain ⟨q, hq, rfl⟩ := hid
  obtain ⟨hmem, hin⟩ := List.mem_filter.mp hq
  obtain ⟨hfirst, hlast⟩ := of_decide_eq_true hin
  exact mem_probedIn (List.mem_cons_of_mem _ hmem) hfirst hlast

/-- The oldest of more than 32 entries is a second old: all of them were probed since. -/
theorem expired {now : ℤ} {cooldown : Cooldown} {probes : List (String × Int64)} {entry : Entry}
    (hfew : FewProbed probes) (hfull : 32 < cooldown.entries.length)
    (hsent : ∀ id t, cooldown.lookup id = some t → (id, t) ∈ probes ∧ t.toInt ≤ now)
    (hle : ∀ other ∈ cooldown.entries, entry.2 ≤ other.2) : second ≤ now - entry.2.toInt := by
  by_contra hshort
  have hwindow := hfew entry.2.toInt now (not_le.mp hshort)
  have hkeys : cooldown.keys ⊆ probedIn entry.2.toInt now probes := by
    intro id hid
    obtain ⟨t, hlookup⟩ := Option.isSome_iff_exists.mp
      (AList.lookup_isSome.mpr (AList.mem_keys.mpr hid))
    obtain ⟨hprobe, hpast⟩ := hsent id t hlookup
    have hentry := hle ⟨id, t⟩ (AList.mem_lookup_iff.mp hlookup)
    exact mem_probedIn hprobe (Int64.le_iff_toInt_le.mp hentry) hpast
  have hmany := length_le_of_subset cooldown.keys_nodup hkeys
  rw [length_entries] at hfull
  omega

/-- A device that is not cooling down was probed a second ago, if ever. -/
theorem apart_of_covered (h : Sound w) (ht : Ticks w e) (hcovered : Covered w)
    (hlong : ¬ e.now - lastOf e w.cooldown < kMdnsProbeCooldown) :
    ∀ p ∈ w.probes, e.deviceId = p.1 → second ≤ e.now.toInt - p.2.toInt := by
  have hclock := Int64.le_iff_toInt_le.mp ht
  rw [cooling_iff h ht] at hlong
  rintro ⟨id, t⟩ hp rfl
  rcases hcovered _ hp with ⟨last, hlookup, hle⟩ | hago
  · have hlast : lastOf e w.cooldown = last := by rw [lastOf, hlookup, Option.getD_some]
    rw [hlast] at hlong
    dsimp only at hle ⊢
    omega
  · dsimp only at hago ⊢
    omega

/-- A probe is known in the map with its time. -/
theorem covered_insert (ht : Ticks w e) (hcovered : Covered w)
    (hpast : ∀ p ∈ w.probes, p.2.toInt ≤ e.now.toInt) :
    Covered ⟨w.cooldown.insert e.deviceId e.now, (e.deviceId, e.now) :: w.probes, e.now⟩ := by
  have hclock := Int64.le_iff_toInt_le.mp ht
  intro p hp
  rcases List.mem_cons.mp hp with rfl | hp
  · exact .inl ⟨e.now, AList.lookup_insert _, le_rfl⟩
  · by_cases heq : p.1 = e.deviceId
    · rw [heq]
      exact .inl ⟨e.now, AList.lookup_insert _, hpast p hp⟩
    · rcases hcovered p hp with ⟨t, hlookup, hle⟩ | hago
      · exact .inl ⟨t, (AList.lookup_insert_ne heq).trans hlookup, hle⟩
      · refine .inr ?_
        dsimp only
        omega

/-- It is still covered when an entry goes that is a second old. -/
theorem Covered.erase {cooldown : Cooldown} {probes : List (String × Int64)} {now : Int64}
    (h : Covered ⟨cooldown, probes, now⟩) {entry : Entry} (hmem : entry ∈ cooldown.entries)
    (hold : second ≤ now.toInt - entry.2.toInt) :
    Covered ⟨cooldown.erase entry.1, probes, now⟩ := by
  intro p hp
  rcases h p hp with ⟨t, hlookup, hle⟩ | hago
  · by_cases heq : p.1 = entry.1
    · have hentry : cooldown.lookup entry.1 = some entry.2 := AList.mem_lookup_iff.mpr hmem
      rw [heq, hentry] at hlookup
      rw [← Option.some.inj hlookup] at hle
      refine .inr ?_
      dsimp only
      omega
    · exact .inl ⟨t, (AList.lookup_erase_ne heq).trans hlookup, hle⟩
  · exact .inr hago

/-- While few devices are probed, the entry that makes room is older than a second. -/
theorem covered_step (h : Sound w) (ht : Ticks w e) (hcovered : Covered w)
    (hfew : FewProbed (step w e).probes) : Covered (step w e) := by
  have hclock := Int64.le_iff_toInt_le.mp ht
  have hpast : ∀ p ∈ w.probes, p.2.toInt ≤ e.now.toInt :=
    fun p hp => (h.past p hp).2.trans hclock
  have hlater : ∀ p ∈ w.probes, second ≤ w.clock.toInt - p.2.toInt →
      second ≤ e.now.toInt - p.2.toInt := by
    intro p _ hago
    omega
  have houtcome := step_outcome w e
  generalize step w e = w' at houtcome hfew
  cases houtcome with
  | connected => exact fun p hp => (hcovered p hp).imp_right (hlater p hp)
  | cooling hcooling =>
    intro p hp
    dsimp only
    rw [lookup_insert_same (lookup_of_cooling h ht hcooling)]
    exact (hcovered p hp).imp_right (hlater p hp)
  | probed _ _ => exact covered_insert ht hcovered hpast
  | evicted _ entry hfull hmem hle =>
    refine (covered_insert ht hcovered hpast).erase hmem (expired hfew hfull ?_ hle)
    intro id t hlookup
    have hsent := sent_insert h hlookup
    exact ⟨hsent, (past_cons h ht _ hsent).2⟩

/-- A probe that is sent is a second after the last one to its device. -/
theorem spaced_step (h : Sound w) (ht : Ticks w e) (hcovered : Covered w)
    (hspaced : Spaced w.probes) :
    Spaced (step w e).probes := by
  have houtcome := step_outcome w e
  generalize step w e = w' at houtcome
  cases houtcome with
  | connected => exact hspaced
  | cooling _ => exact hspaced
  | probed hlong _ => exact List.pairwise_cons.mpr ⟨apart_of_covered h ht hcovered hlong, hspaced⟩
  | evicted hlong _ _ _ _ =>
    exact List.pairwise_cons.mpr ⟨apart_of_covered h ht hcovered hlong, hspaced⟩

/-- If few devices are probed after a callback, few were before it. -/
theorem fewProbed_of_step (hfew : FewProbed (step w e).probes) : FewProbed w.probes := by
  have houtcome := step_outcome w e
  generalize step w e = w' at houtcome hfew
  cases houtcome with
  | connected => exact hfew
  | cooling _ => exact hfew
  | probed _ _ => exact hfew.tail
  | evicted _ _ _ _ _ => exact hfew.tail

end Steps

/-- What holds all along a run: of the map always, of the probes as long as they are
few. -/
structure Throttled (w : World) : Prop where
  sound : Sound w
  covered : FewProbed w.probes → Covered w
  spaced : FewProbed w.probes → Spaced w.probes

/-- One callback keeps all of it. -/
theorem throttled_step {w : World} {e : PeerFound} (h : Throttled w) (ht : Ticks w e) :
    Throttled (step w e) where
  sound := sound_step h.sound ht
  covered hfew := covered_step h.sound ht (h.covered (fewProbed_of_step hfew)) hfew
  spaced hfew :=
    spaced_step h.sound ht (h.covered (fewProbed_of_step hfew)) (h.spaced (fewProbed_of_step hfew))

/-- Over every sequence of callbacks, in whatever order the map is gone through: it has
at most 32 entries after each of them, and as long as at most 32 devices are probed in
any window shorter than a second, two probes to one device are a second apart. -/
theorem throttles (events : List PeerFound) (h : EveryStep step Ticks {} events) :
    Always step (fun w => w.cooldown.entries.length ≤ 32 ∧ (FewProbed w.probes → Spaced w.probes))
      {} events := by
  have hstart : Throttled {} :=
    { sound := ⟨Nat.zero_le _, fun _ _ hlookup => (nomatch hlookup), by decide,
        fun _ hp => (nomatch hp)⟩
      covered := fun _ _ hp => nomatch hp
      spaced := fun _ => List.Pairwise.nil }
  have hall := always_of_everyStep (fun _ _ hw he => throttled_step hw he) hstart h
  exact hall.imp fun _ hw => ⟨hw.sound.size, hw.spaced⟩

/-- One device more than the map has room for, forty milliseconds apart, and the first one again. -/
def crowd : List PeerFound :=
  (List.range 33 ++ [0]).zipIdx.map fun d : ℕ × ℕ =>
    ⟨toString d.1, false, Int64.ofNat (1000000000 + 40000000 * d.2), id,
      fun entries => List.Perm.refl entries⟩

/-- The first device made room for the last one. -/
example : (run step {} crowd).cooldown.entries.length = 32 ∧
    (run step {} crowd).probes.length = 34 := by
  decide +kernel

/-- The first device is probed again after its entry made room. -/
theorem throttles_crowd :
    Always step (fun w => w.cooldown.entries.length ≤ 32 ∧ (FewProbed w.probes → Spaced w.probes))
      {} crowd :=
  throttles crowd (by decide +kernel)

end KdeConnectNx.ProbeCooldown
