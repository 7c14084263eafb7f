import KdeConnectNx.Markings
import KdeConnectNx.Runs

/-!
# The reference count of the input service

`hiddbg_retain` and `hiddbg_release` count the users of the service, each call a
few steps long: the atomic addition, the call into the service, and the
subtraction that a failed initialisation makes up for itself. A mousepad plugin
retains in `on_create`; `on_destroy` would release, but nothing calls it. A
capture retains, uses and releases.
-/

namespace KdeConnectNx.HiddbgCounts

open Markings Runs

inductive Owner
  | plugin
  | capture
deriving DecidableEq, Repr

/-- Where a plugin or a capture is. -/
inductive Place
  /-- In `hiddbg_retain`: the count was zero, `hiddbgInitialize` is next. -/
  | initializing (o : Owner)
  /-- In `hiddbg_retain`: the initialisation failed, the subtraction is next. -/
  | undoing (o : Owner)
  /-- `hiddbg_retain` has returned, its addition still there (`counted`) or taken
  back. -/
  | held (o : Owner) (counted : Bool)
  /-- A plugin in `inject_key`, `hiddbg_is_available` passed. -/
  | injecting (counted : Bool)
  /-- In `hiddbg_release`: the count was one, `hiddbgExit` is next. -/
  | exiting
deriving DecidableEq, Repr

instance : Fintype Place where
  elems := {.initializing .plugin, .initializing .capture, .undoing .plugin, .undoing .capture,
    .held .plugin false, .held .plugin true, .held .capture false, .held .capture true,
    .injecting false, .injecting true, .exiting}
  complete := by
    rintro (o | o | ⟨o, counted⟩ | counted | _)
    · cases o <;> decide
    · cases o <;> decide
    · cases o <;> cases counted <;> decide
    · cases counted <;> decide
    · decide

inductive Event
  /-- `hiddbg_retain` up to its addition: `MousepadPlugin::on_create`, or the start of
  `press_capture_button`. -/
  | retain (o : Owner)
  /-- `hiddbgInitialize` returns. -/
  | initialized (o : Owner) (ok : Bool)
  | undo (o : Owner)
  /-- The capture sets or unsets the button's state. -/
  | autoPilot (counted : Bool)
  /-- `inject_key` asks `hiddbg_is_available`. -/
  | available (counted : Bool)
  /-- `inject_key` sets or unsets the keyboard's state. -/
  | inject (counted : Bool)
  | injected (counted : Bool)
  /-- `hiddbg_release` up to its subtraction. -/
  | release (counted : Bool)
  /-- `hiddbgExit`. -/
  | exit
  /-- A session ends with its plugin; `on_destroy` is not called. -/
  | destroy (counted : Bool)
deriving DecidableEq, Repr

structure Hiddbg where
  /-- `s_hiddbg_refcount`. -/
  refcount : ℤ := 0
  /-- How often the service is open; it counts the calls of its own. -/
  sessions : ℕ := 0
  /-- Live plugins and captures in progress, by where they are. -/
  calls : Marking Place := fun _ => 0
  /-- Plugins that were counted and are gone. -/
  abandoned : ℕ := 0
  usedClosed : Bool := false
  exitedClosed : Bool := false

/-- Nothing is retained and the service is closed. -/
def start : Hiddbg := {}

/-- The value of an `int` after an atomic addition or subtraction. -/
def wrap (n : ℤ) : ℤ := Int.bmod n 4294967296

/-- A command is sent over the service's session. -/
def Hiddbg.use (w : Hiddbg) : Hiddbg :=
  { w with usedClosed := w.usedClosed || w.sessions == 0 }

/-- One step of one of them; nothing when there is none at that place. -/
def step (w : Hiddbg) : Event → Hiddbg
  | .retain o =>
    { w with
      refcount := wrap (w.refcount + 1)
      calls := put (if w.refcount = 0 then .initializing o else .held o true) w.calls }
  | .initialized o ok =>
    if w.calls (.initializing o) = 0 then w
    else if ok then
      { w with
        sessions := w.sessions + 1
        calls := put (.held o true) (take (.initializing o) w.calls) }
    else { w with calls := put (.undoing o) (take (.initializing o) w.calls) }
  | .undo o =>
    if w.calls (.undoing o) = 0 then w
    else
      { w with
        refcount := wrap (w.refcount - 1)
        calls := put (.held o false) (take (.undoing o) w.calls) }
  | .autoPilot counted => if w.calls (.held .capture counted) = 0 then w else w.use
  | .available counted =>
    if w.calls (.held .plugin counted) = 0 then w
    else if 0 < w.refcount then
      { w with calls := put (.injecting counted) (take (.held .plugin counted) w.calls) }
    else w
  | .inject counted => if w.calls (.injecting counted) = 0 then w else w.use
  | .injected counted =>
    if w.calls (.injecting counted) = 0 then w
    else { w with calls := put (.held .plugin counted) (take (.injecting counted) w.calls) }
  | .release counted =>
    if w.calls (.held .capture counted) = 0 then w
    else if w.refcount = 1 then
      { w with
        refcount := wrap (w.refcount - 1)
        calls := put .exiting (take (.held .capture counted) w.calls) }
    else
      { w with
        refcount := wrap (w.refcount - 1)
        calls := take (.held .capture counted) w.calls }
  | .exit =>
    if w.calls .exiting = 0 then w
    else
      { w with
        sessions := w.sessions - 1
        exitedClosed := w.exitedClosed || w.sessions == 0
        calls := take .exiting w.calls }
  | .destroy counted =>
    if w.calls (.held .plugin counted) = 0 then w
    else
      { w with
        calls := take (.held .plugin counted) w.calls
        abandoned := w.abandoned + if counted then 1 else 0 }

namespace Place

@[simp] def isInitializing : Place → Bool
  | initializing _ => true
  | _ => false

@[simp] def isUndoing : Place → Bool
  | undoing _ => true
  | _ => false

@[simp] def isExiting : Place → Bool
  | exiting => true
  | _ => false

/-- Past a retain whose addition is there. -/
@[simp] def isCounted : Place → Bool
  | held _ counted => counted
  | injecting counted => counted
  | _ => false

/-- A capture whose initialisation failed. -/
@[simp] def isStray : Place → Bool
  | undoing o => o == .capture
  | held o counted => o == .capture && !counted
  | _ => false

def isAny (_ : Place) : Bool := true

end Place

namespace Hiddbg

def initializing (w : Hiddbg) : ℕ := count Place.isInitializing w.calls

def undoing (w : Hiddbg) : ℕ := count Place.isUndoing w.calls

def exiting (w : Hiddbg) : ℕ := count Place.isExiting w.calls

def counted (w : Hiddbg) : ℕ := count Place.isCounted w.calls

/-- Additions of those that hold the service, or went without giving it back. -/
def holders (w : Hiddbg) : ℕ := w.counted + w.abandoned

def strays (w : Hiddbg) : ℕ := count Place.isStray w.calls

/-- Live plugins and captures in progress. -/
def present (w : Hiddbg) : ℕ := count Place.isAny w.calls

/-- The count is not negative; with no call inside retain or release it is positive
exactly when the service is open; the service was used and closed only while open; and it is
closed when there is neither plugin nor capture. -/
structure Sound (w : Hiddbg) : Prop where
  nonneg : 0 ≤ w.refcount
  opened : w.initializing = 0 → w.undoing = 0 → w.exiting = 0 → (0 < w.refcount ↔ 0 < w.sessions)
  used : w.usedClosed = false
  exited : w.exitedClosed = false
  unowned : (∀ p, w.calls p = 0) → w.sessions = 0

end Hiddbg

/-- The step takes none of the ways that lose the balance: an initialisation fails for
a capture, or for a plugin while someone has been counted behind it, or someone is counted
before its addition is taken back; the service is used while its initialisation is
outstanding, or by a plugin whose own failed when nobody holds it; the last plugin or capture
goes when a counted plugin has gone, or is one; the count would leave the `int`. -/
def Permitted (w : Hiddbg) : Event → Prop
  | .retain _ => w.undoing = 0 ∧ w.refcount < 2147483647
  | .initialized o ok => ok = true ∨ o = .plugin ∧ w.refcount = 1
  | .undo _ => True
  | .autoPilot _ => w.initializing = 0 ∨ 0 < w.exiting
  | .available _ => True
  | .inject counted => 0 < w.exiting ∨ w.initializing = 0 ∧ (counted = true ∨ 0 < w.holders)
  | .injected _ => True
  | .release _ => w.present = 1 → w.abandoned = 0
  | .exit => w.present = 1 → w.abandoned = 0
  | .destroy counted => w.present = 1 → counted = false ∧ w.abandoned = 0

instance (w : Hiddbg) : (e : Event) → Decidable (Permitted w e)
  | .retain _ => inferInstanceAs (Decidable (_ ∧ _))
  | .initialized _ _ => inferInstanceAs (Decidable (_ ∨ _))
  | .undo _ | .available _ | .injected _ => inferInstanceAs (Decidable True)
  | .autoPilot _ | .inject _ => inferInstanceAs (Decidable (_ ∨ _))
  | .release _ | .exit | .destroy _ => inferInstanceAs (Decidable (_ → _))

/-- How far the service is set up: not at all, being initialised, open for its
holders, or about to take back a failed initialisation. Each exit that is due has it open
once more. -/
inductive Mode (w : Hiddbg) : Prop
  | closed (hinitializing : w.initializing = 0) (hundoing : w.undoing = 0)
    (hholders : w.holders = 0)
      (hsessions : w.sessions = w.exiting)
  | opening (hinitializing : w.initializing = 1) (hundoing : w.undoing = 0)
      (hsessions : w.sessions = w.exiting)
  | opened (hinitializing : w.initializing = 0) (hundoing : w.undoing = 0)
    (hholders : 0 < w.holders)
      (hsessions : w.sessions = w.exiting + 1)
  | failed (hinitializing : w.initializing = 0) (hundoing : w.undoing = 1)
    (hholders : w.holders = 0)
      (hsessions : w.sessions = w.exiting)

/-- What the steps keep. -/
structure Balanced (w : Hiddbg) : Prop where
  mode : Mode w
  strays : w.strays = 0
  refcount : w.refcount = w.initializing + w.undoing + w.holders
  bound : w.refcount ≤ 2147483647
  used : w.usedClosed = false
  exited : w.exitedClosed = false
  unowned : w.present = 0 → w.abandoned = 0

/-- Within its range the counter is exact. -/
theorem wrap_eq {n : ℤ} (hlow : 0 ≤ n) (hhigh : n ≤ 2147483647) : wrap n = n := by
  unfold wrap
  apply Int.bmod_eq_of_le <;> omega

/-- At the start nobody holds anything. -/
theorem balanced_start : Balanced start := by
  have hnone : ∀ kind : Place → Bool, count kind start.calls = 0 :=
    fun kind => count_eq_zero kind fun _ _ => rfl
  have hinitializing : start.initializing = 0 := hnone _
  have hundoing : start.undoing = 0 := hnone _
  have hexiting : start.exiting = 0 := hnone _
  have hholders : start.holders = 0 := by
    have hcounted : start.counted = 0 := hnone _
    rw [Hiddbg.holders, hcounted]
    rfl
  refine ⟨.closed hinitializing hundoing hholders hexiting.symm, hnone _, ?_, by decide, rfl, rfl,
    fun _ => rfl⟩
  rw [hinitializing, hundoing, hholders]
  rfl

/-- Balanced counts open and close the service once. -/
theorem sound_of_balanced {w : Hiddbg} (h : Balanced w) : w.Sound := by
  have hrefcount := h.refcount
  refine ⟨by omega, ?_, h.used, h.exited, ?_⟩
  · intro hinitializing hundoing hexiting
    cases h.mode <;> omega
  · intro hnone
    have hall : ∀ kind, count kind w.calls = 0 := fun kind => count_eq_zero kind fun p _ => hnone p
    have habandoned := h.unowned (hall _)
    have hcounted : w.counted = 0 := hall _
    have hholders : w.holders = 0 := by rw [Hiddbg.holders, hcounted, habandoned]
    have hexiting : w.exiting = 0 := hall _
    cases h.mode <;> omega

section Steps

variable {w w' : Hiddbg} {p q : Place}

/-- How the counts change when a call begins, -/
theorem counts_put (hcalls : w'.calls = put q w.calls) :
    w'.initializing = w.initializing + (if q.isInitializing then 1 else 0) ∧
      w'.undoing = w.undoing + (if q.isUndoing then 1 else 0) ∧
      w'.exiting = w.exiting + (if q.isExiting then 1 else 0) ∧
      w'.counted = w.counted + (if q.isCounted then 1 else 0) ∧
      w'.strays = w.strays + (if q.isStray then 1 else 0) ∧ w'.present = w.present + 1 := by
  simp only [Hiddbg.initializing, Hiddbg.undoing, Hiddbg.exiting, Hiddbg.counted, Hiddbg.strays,
    Hiddbg.present, hcalls, count_put, true_and]
  rfl

/-- ends, -/
theorem counts_take (hp : w.calls p ≠ 0) (hcalls : w'.calls = take p w.calls) :
    w'.initializing + (if p.isInitializing then 1 else 0) = w.initializing ∧
      w'.undoing + (if p.isUndoing then 1 else 0) = w.undoing ∧
      w'.exiting + (if p.isExiting then 1 else 0) = w.exiting ∧
      w'.counted + (if p.isCounted then 1 else 0) = w.counted ∧
      w'.strays + (if p.isStray then 1 else 0) = w.strays ∧ w'.present + 1 = w.present := by
  have hcount := fun kind => count_take kind hp
  simp only [Hiddbg.initializing, Hiddbg.undoing, Hiddbg.exiting, Hiddbg.counted, Hiddbg.strays,
    Hiddbg.present, hcalls, hcount, true_and]
  exact hcount Place.isAny

/-- or goes from one place to another. -/
theorem counts_move (hp : w.calls p ≠ 0) (hcalls : w'.calls = put q (take p w.calls)) :
    w'.initializing + (if p.isInitializing then 1 else 0) =
        w.initializing + (if q.isInitializing then 1 else 0) ∧
      w'.undoing + (if p.isUndoing then 1 else 0) =
        w.undoing + (if q.isUndoing then 1 else 0) ∧
      w'.exiting + (if p.isExiting then 1 else 0) =
        w.exiting + (if q.isExiting then 1 else 0) ∧
      w'.counted + (if p.isCounted then 1 else 0) =
        w.counted + (if q.isCounted then 1 else 0) ∧
      w'.strays + (if p.isStray then 1 else 0) = w.strays + (if q.isStray then 1 else 0) ∧
      w'.present = w.present := by
  have hcount := fun kind => count_move kind hp q
  simp only [Hiddbg.initializing, Hiddbg.undoing, Hiddbg.exiting, Hiddbg.counted, Hiddbg.strays,
    Hiddbg.present, hcalls, hcount, true_and]
  exact Nat.succ.inj (hcount Place.isAny)

/-- Using the service while it is open changes nothing. -/
theorem use_eq (hused : w.usedClosed = false) (hopen : 0 < w.sessions) : w.use = w := by
  obtain ⟨refcount, sessions, calls, abandoned, usedClosed, exitedClosed⟩ := w
  dsimp only at hused hopen
  subst hused
  have hne : (sessions == 0) = false := beq_eq_false_iff_ne.mpr (Nat.ne_of_gt hopen)
  simp only [Hiddbg.use, hne, Bool.or_false]

/-- An exit that is due or over changes nothing but what is open. -/
theorem mode_of_same (h : Mode w) (hinitializing : w'.initializing = w.initializing)
    (hundoing : w'.undoing = w.undoing) (hholders : w'.holders = w.holders)
    (hsessions : w'.sessions + w.exiting = w.sessions + w'.exiting) : Mode w' := by
  cases h with
  | closed => exact .closed (by omega) (by omega) (by omega) (by omega)
  | opening => exact .opening (by omega) (by omega) (by omega)
  | opened => exact .opened (by omega) (by omega) (by omega) (by omega)
  | failed => exact .failed (by omega) (by omega) (by omega) (by omega)

/-- Holders are counted or abandoned. -/
theorem holders_eq (w : Hiddbg) : w.holders = w.counted + w.abandoned := rfl

/-- Taking a hold, with the service opened for the first one. -/
theorem balanced_retain (h : Balanced w) (o : Owner) (hok : Permitted w (.retain o)) :
    Balanced (step w (.retain o)) := by
  obtain ⟨hmode, hstray, hrefcount, hbound, hused, hexited, hunowned⟩ := h
  obtain ⟨hnoUndo, hfits⟩ := hok
  have hwrap : wrap (w.refcount + 1) = w.refcount + 1 := wrap_eq (by omega) (by omega)
  have hholders := holders_eq w
  simp only [step, hwrap]
  by_cases hzero : w.refcount = 0
  · rw [if_pos hzero]
    generalize hw : ({ w with
      refcount := w.refcount + 1, calls := put (.initializing o) w.calls } : Hiddbg) = w'
    have hcalls : w'.calls = put (.initializing o) w.calls := hw ▸ rfl
    have hcounts : w'.initializing = w.initializing + 1 ∧ w'.undoing = w.undoing ∧
        w'.exiting = w.exiting ∧ w'.counted = w.counted ∧ w'.strays = w.strays ∧
        w'.present = w.present + 1 := by
      simpa using counts_put hcalls
    have hholders' := holders_eq w'
    obtain ⟨hr, hs, ha, hu, he⟩ : w'.refcount = w.refcount + 1 ∧ w'.sessions = w.sessions ∧
        w'.abandoned = w.abandoned ∧ w'.usedClosed = false ∧ w'.exitedClosed = false :=
      hw ▸ ⟨rfl, rfl, rfl, hused, hexited⟩
    refine ⟨?_, by omega, by omega, by omega, hu, he, by omega⟩
    cases hmode with
    | closed => exact .opening (by omega) (by omega) (by omega)
    | opening => omega
    | opened => omega
    | failed => omega
  · rw [if_neg hzero]
    generalize hw : ({ w with
      refcount := w.refcount + 1, calls := put (.held o true) w.calls } : Hiddbg) = w'
    have hcalls : w'.calls = put (.held o true) w.calls := hw ▸ rfl
    have hcounts : w'.initializing = w.initializing ∧ w'.undoing = w.undoing ∧
        w'.exiting = w.exiting ∧ w'.counted = w.counted + 1 ∧ w'.strays = w.strays ∧
        w'.present = w.present + 1 := by
      simpa using counts_put hcalls
    have hholders' := holders_eq w'
    obtain ⟨hr, hs, ha, hu, he⟩ : w'.refcount = w.refcount + 1 ∧ w'.sessions = w.sessions ∧
        w'.abandoned = w.abandoned ∧ w'.usedClosed = false ∧ w'.exitedClosed = false :=
      hw ▸ ⟨rfl, rfl, rfl, hused, hexited⟩
    refine ⟨?_, by omega, by omega, by omega, hu, he, by omega⟩
    cases hmode with
    | closed => omega
    | opening => exact .opening (by omega) (by omega) (by omega)
    | opened => exact .opened (by omega) (by omega) (by omega) (by omega)
    | failed => omega

/-- The end of `initialize`. -/
theorem balanced_initialized (h : Balanced w) (o : Owner) (ok : Bool)
    (hok : Permitted w (.initialized o ok)) : Balanced (step w (.initialized o ok)) := by
  simp only [step]
  by_cases hplace : w.calls (.initializing o) = 0
  · rw [if_pos hplace]
    exact h
  rw [if_neg hplace]
  obtain ⟨hmode, hstray, hrefcount, hbound, hused, hexited, hunowned⟩ := h
  have hholders := holders_eq w
  have hhere : w.calls (.initializing o) ≤ w.initializing := le_count rfl w.calls
  cases ok with
  | true =>
    rw [if_pos rfl]
    generalize hw : ({ w with
      sessions := w.sessions + 1
      calls := put (.held o true) (take (.initializing o) w.calls) } : Hiddbg) = w'
    have hcalls : w'.calls = put (.held o true) (take (.initializing o) w.calls) := hw ▸ rfl
    have hcounts : w'.initializing + 1 = w.initializing ∧ w'.undoing = w.undoing ∧
        w'.exiting = w.exiting ∧ w'.counted = w.counted + 1 ∧ w'.strays = w.strays ∧
        w'.present = w.present := by
      simpa using counts_move hplace hcalls
    have hholders' := holders_eq w'
    obtain ⟨hr, hs, ha, hu, he⟩ : w'.refcount = w.refcount ∧ w'.sessions = w.sessions + 1 ∧
        w'.abandoned = w.abandoned ∧ w'.usedClosed = false ∧ w'.exitedClosed = false :=
      hw ▸ ⟨rfl, rfl, rfl, hused, hexited⟩
    cases hmode with
    | closed => omega
    | opening =>
      have hopened : Mode w' := .opened (by omega) (by omega) (by omega) (by omega)
      exact ⟨hopened, by omega, by omega, by omega, hu, he, by omega⟩
    | opened => omega
    | failed => omega
  | false =>
    obtain ⟨rfl, hlast⟩ : o = .plugin ∧ w.refcount = 1 := hok.resolve_left Bool.false_ne_true
    rw [if_neg Bool.false_ne_true]
    generalize hw : ({ w with
      calls := put (.undoing .plugin) (take (.initializing .plugin) w.calls) } : Hiddbg) = w'
    have hcalls : w'.calls = put (.undoing .plugin) (take (.initializing .plugin) w.calls) :=
      hw ▸ rfl
    have hcounts : w'.initializing + 1 = w.initializing ∧ w'.undoing = w.undoing + 1 ∧
        w'.exiting = w.exiting ∧ w'.counted = w.counted ∧ w'.strays = w.strays ∧
        w'.present = w.present := by
      simpa using counts_move hplace hcalls
    have hholders' := holders_eq w'
    obtain ⟨hr, hs, ha, hu, he⟩ : w'.refcount = w.refcount ∧ w'.sessions = w.sessions ∧
        w'.abandoned = w.abandoned ∧ w'.usedClosed = false ∧ w'.exitedClosed = false :=
      hw ▸ ⟨rfl, rfl, rfl, hused, hexited⟩
    cases hmode with
    | closed => omega
    | opening =>
      have hfailed : Mode w' := .failed (by omega) (by omega) (by omega) (by omega)
      exact ⟨hfailed, by omega, by omega, by omega, hu, he, by omega⟩
    | opened => omega
    | failed => omega

/-- A hold that is given back after it failed. -/
theorem balanced_undo (h : Balanced w) (o : Owner) : Balanced (step w (.undo o)) := by
  simp only [step]
  by_cases hplace : w.calls (.undoing o) = 0
  · rw [if_pos hplace]
    exact h
  rw [if_neg hplace]
  obtain ⟨hmode, hstray, hrefcount, hbound, hused, hexited, hunowned⟩ := h
  have hholders := holders_eq w
  have hhere : w.calls (.undoing o) ≤ w.undoing := le_count rfl w.calls
  have hplugin : o = .plugin := by
    cases o with
    | plugin => rfl
    | capture =>
      have hcapture : w.calls (.undoing .capture) ≤ w.strays := le_count rfl w.calls
      omega
  subst hplugin
  have hwrap : wrap (w.refcount - 1) = w.refcount - 1 := wrap_eq (by omega) (by omega)
  rw [hwrap]
  generalize hw : ({ w with
    refcount := w.refcount - 1
    calls := put (.held .plugin false) (take (.undoing .plugin) w.calls) } : Hiddbg) = w'
  have hcalls : w'.calls = put (.held .plugin false) (take (.undoing .plugin) w.calls) := hw ▸ rfl
  have hcounts : w'.initializing = w.initializing ∧ w'.undoing + 1 = w.undoing ∧
      w'.exiting = w.exiting ∧ w'.counted = w.counted ∧ w'.strays = w.strays ∧
      w'.present = w.present := by
    simpa using counts_move hplace hcalls
  have hholders' := holders_eq w'
  obtain ⟨hr, hs, ha, hu, he⟩ : w'.refcount = w.refcount - 1 ∧ w'.sessions = w.sessions ∧
      w'.abandoned = w.abandoned ∧ w'.usedClosed = false ∧ w'.exitedClosed = false :=
    hw ▸ ⟨rfl, rfl, rfl, hused, hexited⟩
  cases hmode with
  | closed => omega
  | opening => omega
  | opened => omega
  | failed =>
    have hclosed : Mode w' := .closed (by omega) (by omega) (by omega) (by omega)
    exact ⟨hclosed, by omega, by omega, by omega, hu, he, by omega⟩

/-- Whoever is counted finds the service open, unless it is being initialised. -/
theorem open_of_counted (h : Balanced w) (hcounted : 0 < w.holders)
    (hready : w.initializing = 0 ∨ 0 < w.exiting) : 0 < w.sessions := by
  cases h.mode <;> omega

/-- A session that switches the mouse over. -/
theorem balanced_autoPilot (h : Balanced w) (counted : Bool)
    (hok : Permitted w (.autoPilot counted)) : Balanced (step w (.autoPilot counted)) := by
  simp only [step]
  by_cases hplace : w.calls (.held .capture counted) = 0
  · rw [if_pos hplace]
    exact h
  have hstrays := h.strays
  have hcapture : counted = true := by
    cases counted with
    | true => rfl
    | false =>
      have hhere : w.calls (.held .capture false) ≤ w.strays := le_count rfl w.calls
      omega
  subst hcapture
  have hhere : w.calls (.held .capture true) ≤ w.counted := le_count rfl w.calls
  have hholders := holders_eq w
  rw [if_neg hplace, use_eq h.used (open_of_counted h (by omega) hok)]
  exact h

/-- A session that injects. -/
theorem balanced_inject (h : Balanced w) (counted : Bool) (hok : Permitted w (.inject counted)) :
    Balanced (step w (.inject counted)) := by
  simp only [step]
  by_cases hplace : w.calls (.injecting counted) = 0
  · rw [if_pos hplace]
    exact h
  have hopen : 0 < w.sessions := by
    rcases hok with hexiting | ⟨hready, hheld⟩
    · cases h.mode <;> omega
    · refine open_of_counted h ?_ (.inl hready)
      rcases hheld with rfl | hothers
      · have hhere : w.calls (.injecting true) ≤ w.counted := le_count rfl w.calls
        have hholders := holders_eq w
        omega
      · exact hothers
  rw [if_neg hplace, use_eq h.used hopen]
  exact h

/-- Going to inject a key and back is no change for the service. -/
theorem balanced_injecting (h : Balanced w) (counted : Bool)
    (hcases : (p = .held .plugin counted ∧ q = .injecting counted) ∨
      p = .injecting counted ∧ q = .held .plugin counted) (hplace : w.calls p ≠ 0) :
    Balanced { w with calls := put q (take p w.calls) } := by
  obtain ⟨hmode, hstray, hrefcount, hbound, hused, hexited, hunowned⟩ := h
  have hholders := holders_eq w
  generalize hw : ({ w with calls := put q (take p w.calls) } : Hiddbg) = w'
  have hcalls : w'.calls = put q (take p w.calls) := hw ▸ rfl
  have hsame : w'.initializing = w.initializing ∧ w'.undoing = w.undoing ∧
      w'.exiting = w.exiting ∧ w'.counted = w.counted ∧ w'.strays = w.strays ∧
      w'.present = w.present := by
    have hcounts := counts_move hplace hcalls
    rcases hcases with ⟨rfl, rfl⟩ | ⟨rfl, rfl⟩ <;> cases counted <;> simpa using hcounts
  have hholders' := holders_eq w'
  obtain ⟨hr, hs, ha, hu, he⟩ : w'.refcount = w.refcount ∧ w'.sessions = w.sessions ∧
      w'.abandoned = w.abandoned ∧ w'.usedClosed = false ∧ w'.exitedClosed = false :=
    hw ▸ ⟨rfl, rfl, rfl, hused, hexited⟩
  have hmode' : Mode w' := mode_of_same hmode hsame.1 hsame.2.1 (by omega) (by omega)
  exact ⟨hmode', by omega, by omega, by omega, hu, he, by omega⟩

/-- A session that lets go. -/
theorem balanced_release (h : Balanced w) (counted : Bool) (hok : Permitted w (.release counted)) :
    Balanced (step w (.release counted)) := by
  simp only [step]
  by_cases hplace : w.calls (.held .capture counted) = 0
  · rw [if_pos hplace]
    exact h
  rw [if_neg hplace]
  obtain ⟨hmode, hstray, hrefcount, hbound, hused, hexited, hunowned⟩ := h
  change w.present = 1 → w.abandoned = 0 at hok
  have hholders := holders_eq w
  have hcapture : counted = true := by
    cases counted with
    | true => rfl
    | false =>
      have hhere : w.calls (.held .capture false) ≤ w.strays := le_count rfl w.calls
      omega
  subst hcapture
  have hhere : w.calls (.held .capture true) ≤ w.counted := le_count rfl w.calls
  have hwrap : wrap (w.refcount - 1) = w.refcount - 1 := wrap_eq (by omega) (by omega)
  rw [hwrap]
  by_cases hlast : w.refcount = 1
  · rw [if_pos hlast]
    generalize hw : ({ w with
      refcount := w.refcount - 1
      calls := put .exiting (take (.held .capture true) w.calls) } : Hiddbg) = w'
    have hcalls : w'.calls = put .exiting (take (.held .capture true) w.calls) := hw ▸ rfl
    have hcounts : w'.initializing = w.initializing ∧ w'.undoing = w.undoing ∧
        w'.exiting = w.exiting + 1 ∧ w'.counted + 1 = w.counted ∧ w'.strays = w.strays ∧
        w'.present = w.present := by
      simpa using counts_move hplace hcalls
    have hholders' := holders_eq w'
    obtain ⟨hr, hs, ha, hu, he⟩ : w'.refcount = w.refcount - 1 ∧ w'.sessions = w.sessions ∧
        w'.abandoned = w.abandoned ∧ w'.usedClosed = false ∧ w'.exitedClosed = false :=
      hw ▸ ⟨rfl, rfl, rfl, hused, hexited⟩
    cases hmode with
    | closed => omega
    | opening => omega
    | opened =>
      have hclosed : Mode w' := .closed (by omega) (by omega) (by omega) (by omega)
      exact ⟨hclosed, by omega, by omega, by omega, hu, he, by omega⟩
    | failed => omega
  · rw [if_neg hlast]
    generalize hw : ({ w with
      refcount := w.refcount - 1
      calls := take (.held .capture true) w.calls } : Hiddbg) = w'
    have hcalls : w'.calls = take (.held .capture true) w.calls := hw ▸ rfl
    have hcounts : w'.initializing = w.initializing ∧ w'.undoing = w.undoing ∧
        w'.exiting = w.exiting ∧ w'.counted + 1 = w.counted ∧ w'.strays = w.strays ∧
        w'.present + 1 = w.present := by
      simpa using counts_take hplace hcalls
    have hholders' := holders_eq w'
    obtain ⟨hr, hs, ha, hu, he⟩ : w'.refcount = w.refcount - 1 ∧ w'.sessions = w.sessions ∧
        w'.abandoned = w.abandoned ∧ w'.usedClosed = false ∧ w'.exitedClosed = false :=
      hw ▸ ⟨rfl, rfl, rfl, hused, hexited⟩
    refine ⟨?_, by omega, by omega, by omega, hu, he, by omega⟩
    cases hmode with
    | closed => omega
    | opening => exact .opening (by omega) (by omega) (by omega)
    | opened => exact .opened (by omega) (by omega) (by omega) (by omega)
    | failed => omega

/-- The end of the process. -/
theorem balanced_exit (h : Balanced w) (hok : Permitted w .exit) : Balanced (step w .exit) := by
  simp only [step]
  by_cases hplace : w.calls .exiting = 0
  · rw [if_pos hplace]
    exact h
  rw [if_neg hplace]
  obtain ⟨hmode, hstray, hrefcount, hbound, hused, hexited, hunowned⟩ := h
  change w.present = 1 → w.abandoned = 0 at hok
  have hholders := holders_eq w
  have hhere : w.calls .exiting ≤ w.exiting := le_count rfl w.calls
  have hopen : 0 < w.sessions := by cases hmode <;> omega
  rw [beq_eq_false_iff_ne.mpr (Nat.ne_of_gt hopen), Bool.or_false]
  generalize hw : ({ w with
    sessions := w.sessions - 1, calls := take .exiting w.calls } : Hiddbg) = w'
  have hcalls : w'.calls = take .exiting w.calls := hw ▸ rfl
  have hcounts : w'.initializing = w.initializing ∧ w'.undoing = w.undoing ∧
      w'.exiting + 1 = w.exiting ∧ w'.counted = w.counted ∧ w'.strays = w.strays ∧
      w'.present + 1 = w.present := by
    simpa using counts_take hplace hcalls
  have hholders' := holders_eq w'
  obtain ⟨hr, hs, ha, hu, he⟩ : w'.refcount = w.refcount ∧ w'.sessions = w.sessions - 1 ∧
      w'.abandoned = w.abandoned ∧ w'.usedClosed = false ∧ w'.exitedClosed = false :=
    hw ▸ ⟨rfl, rfl, rfl, hused, hexited⟩
  have hmode' : Mode w' := mode_of_same hmode hcounts.1 hcounts.2.1 (by omega) (by omega)
  exact ⟨hmode', by omega, by omega, by omega, hu, he, by omega⟩

/-- A counted plugin leaves its count behind. -/
theorem balanced_destroy (h : Balanced w) (counted : Bool) (hok : Permitted w (.destroy counted)) :
    Balanced (step w (.destroy counted)) := by
  simp only [step]
  by_cases hplace : w.calls (.held .plugin counted) = 0
  · rw [if_pos hplace]
    exact h
  rw [if_neg hplace]
  obtain ⟨hmode, hstray, hrefcount, hbound, hused, hexited, hunowned⟩ := h
  change w.present = 1 → counted = false ∧ w.abandoned = 0 at hok
  have hholders := holders_eq w
  generalize hw : ({ w with
    calls := take (.held .plugin counted) w.calls
    abandoned := w.abandoned + if counted = true then 1 else 0 } : Hiddbg) = w'
  have hcalls : w'.calls = take (.held .plugin counted) w.calls := hw ▸ rfl
  have hcounts : w'.initializing = w.initializing ∧ w'.undoing = w.undoing ∧
      w'.exiting = w.exiting ∧ w'.counted + (if counted = true then 1 else 0) = w.counted ∧
      w'.strays = w.strays ∧ w'.present + 1 = w.present := by
    cases counted <;> simpa using counts_take hplace hcalls
  have hholders' := holders_eq w'
  obtain ⟨hr, hs, ha, hu, he⟩ : w'.refcount = w.refcount ∧ w'.sessions = w.sessions ∧
      w'.abandoned = w.abandoned + (if counted = true then 1 else 0) ∧ w'.usedClosed = false ∧
      w'.exitedClosed = false :=
    hw ▸ ⟨rfl, rfl, rfl, hused, hexited⟩
  have hsame : w'.holders = w.holders := by omega
  have hleft : w'.present = 0 → w'.abandoned = 0 := by
    intro hnone
    obtain ⟨rfl, hnever⟩ := hok (by omega)
    rw [ha, hnever]
    rfl
  have hmode' : Mode w' := mode_of_same hmode hcounts.1 hcounts.2.1 hsame (by omega)
  exact ⟨hmode', by omega, by omega, by omega, hu, he, hleft⟩

/-- Every permitted step keeps the balance. -/
theorem balanced_step (h : Balanced w) {e : Event} (hok : Permitted w e) :
    Balanced (step w e) := by
  cases e with
  | retain o => exact balanced_retain h o hok
  | initialized o ok => exact balanced_initialized h o ok hok
  | undo o => exact balanced_undo h o
  | autoPilot counted => exact balanced_autoPilot h counted hok
  | available counted =>
    simp only [step]
    by_cases hplace : w.calls (.held .plugin counted) = 0
    · rw [if_pos hplace]
      exact h
    · rw [if_neg hplace]
      split
      · exact balanced_injecting h counted (.inl ⟨rfl, rfl⟩) hplace
      · exact h
  | inject counted => exact balanced_inject h counted hok
  | injected counted =>
    simp only [step]
    by_cases hplace : w.calls (.injecting counted) = 0
    · rw [if_pos hplace]
      exact h
    · rw [if_neg hplace]
      exact balanced_injecting h counted (.inr ⟨rfl, rfl⟩) hplace
  | release counted => exact balanced_release h counted hok
  | exit => exact balanced_exit h hok
  | destroy counted => exact balanced_destroy h counted hok

end Steps

/-- In every run of permitted steps the count is sound throughout. -/
theorem sound_of_permitted (events : List Event) (hok : EveryStep step Permitted start events) :
    Always step Hiddbg.Sound start events :=
  (always_of_everyStep (P := Balanced) (fun _ _ h hok => balanced_step h hok) balanced_start
    hok).imp fun _ h => sound_of_balanced h

/-- A plugin whose initialisation fails, and a capture that the service is open for. -/
def captureWhileFailed : List Event :=
  [.retain .plugin, .initialized .plugin false, .undo .plugin, .retain .capture,
    .initialized .capture true, .autoPilot true, .available false, .inject false, .injected false,
    .autoPilot true, .release true, .exit, .destroy false]

/-- A capture while another one fails. -/
theorem sound_captureWhileFailed : Always step Hiddbg.Sound start captureWhileFailed := by
  apply sound_of_permitted
  decide +kernel

/-- A session comes and goes, and the service stays open. -/
theorem notSound_session : ¬ ∀ events, Always step Hiddbg.Sound start events := by
  intro h
  have hlast := (h [.retain .plugin, .initialized .plugin true, .destroy true]).last
  exact absurd (hlast.unowned (by decide +kernel)) (by decide +kernel)

end KdeConnectNx.HiddbgCounts
