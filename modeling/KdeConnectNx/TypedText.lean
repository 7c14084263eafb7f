import KdeConnectNx.HidKeyboard
import KdeConnectNx.PacketFormat
import KdeConnectNx.Runs

/-!
# What a remote keyboard types

A packet of the mousepad plugin becomes key states that are injected one after
another, each held for a while, with the console switched to the US layout for
as long. Whatever reads the keyboard samples it, so the characters and keys
that arrive are those of the packets, in their order, as long as one packet is
handled after another.
-/

namespace KdeConnectNx.TypedText

open JsonText PacketBody PacketFormat HidKeyboard Runs

/-! ## The keyboard of the console -/

/-- The layouts a console can be set to. -/
inductive SetKeyboardLayout where
  | englishUs
  | other (n : ℕ)
deriving DecidableEq, Repr

structure HiddbgKeyboardAutoPilotState where
  modifiers : UInt64 := 0
  keys : Fin 4 → UInt64 := fun _ => 0

structure HidKeyInfo where
  hidCode : UInt8
  needsShift : Bool
deriving DecidableEq, Repr

/-- The cases of `char_to_hid` beside letters and the digits from one. -/
def hidCases : List (Char × HidKeyInfo) :=
  [('0', ⟨0x27, false⟩), ('\n', ⟨0x28, false⟩), ('\r', ⟨0x28, false⟩), ('\t', ⟨0x2B, false⟩),
    (' ', ⟨0x2C, false⟩), ('-', ⟨0x2D, false⟩), ('_', ⟨0x2D, true⟩), ('=', ⟨0x2E, false⟩),
    ('+', ⟨0x2E, true⟩), ('[', ⟨0x2F, false⟩), ('\x7b', ⟨0x2F, true⟩), (']', ⟨0x30, false⟩),
    ('\x7d', ⟨0x30, true⟩), ('\x5c', ⟨0x31, false⟩), ('|', ⟨0x31, true⟩), (';', ⟨0x33, false⟩),
    (':', ⟨0x33, true⟩), ('\x27', ⟨0x34, false⟩), ('\x22', ⟨0x34, true⟩), ('\x60', ⟨0x35, false⟩),
    ('~', ⟨0x35, true⟩), (',', ⟨0x36, false⟩), ('<', ⟨0x36, true⟩), ('.', ⟨0x37, false⟩),
    ('>', ⟨0x37, true⟩), ('/', ⟨0x38, false⟩), ('?', ⟨0x38, true⟩), ('!', ⟨0x1E, true⟩),
    ('@', ⟨0x1F, true⟩), ('#', ⟨0x20, true⟩), ('$', ⟨0x21, true⟩), ('%', ⟨0x22, true⟩),
    ('^', ⟨0x23, true⟩), ('&', ⟨0x24, true⟩), ('*', ⟨0x25, true⟩), ('(', ⟨0x26, true⟩),
    (')', ⟨0x27, true⟩)]

/-- An ASCII byte as a usage, and whether shift is needed for it. -/
def charToHid (c : UInt8) : HidKeyInfo :=
  let a := 'a'.toUInt8
  let A := 'A'.toUInt8
  let one := '1'.toUInt8
  if a ≤ c && c ≤ 'z'.toUInt8 then ⟨0x04 + (c - a), false⟩
  else if A ≤ c && c ≤ 'Z'.toUInt8 then ⟨0x04 + (c - A), true⟩
  else if one ≤ c && c ≤ '9'.toUInt8 then ⟨0x1E + (c - one), false⟩
  else (hidCases.lookup (Char.ofNat c.toNat)).getD ⟨0, false⟩

/-- The usages of the special keys of the protocol: backspace, tab, the arrows, page up and down,
home, end, return, delete, escape, print, scroll lock and the function keys. -/
def kSpecialKeyMap : List UInt8 :=
  [0x00, 0x2A, 0x2B, 0x00, 0x50, 0x52, 0x4F, 0x51, 0x4B, 0x4E, 0x4A, 0x4D, 0x28, 0x4C, 0x29, 0x46,
    0x47, 0x00, 0x00, 0x00, 0x00, 0x3A, 0x3B, 0x3C, 0x3D, 0x3E, 0x3F, 0x40, 0x41, 0x42, 0x43, 0x44,
    0x45]

/-- The word of a usage in the array of keys. -/
def word (usage : UInt8) : Fin 4 := ⟨usage.toNat / 64, by have := usage.toNat_lt; omega⟩

/-- `keys[code >> 6] |= 1ULL << (code & 63)`. -/
def press (usage : UInt8) (state : HiddbgKeyboardAutoPilotState) : HiddbgKeyboardAutoPilotState :=
  { state with
    keys := Function.update state.keys (word usage)
      (state.keys (word usage) ||| 1 <<< UInt64.ofNat (usage.toNat % 64)) }

def pressIf (b : Bool) (usage : UInt8) (state : HiddbgKeyboardAutoPilotState) :
    HiddbgKeyboardAutoPilotState :=
  if b then press usage state else state

/-- The keys of a state that are down. -/
def down (state : HiddbgKeyboardAutoPilotState) : Keys :=
  fun usage => (state.keys (word usage)).toNat.testBit (usage.toNat % 64)

/-! ## `inject_key` -/

/-- The calls into the system. -/
inductive Op where
  /-- `setsysGetKeyboardLayout(&old_layout)`. -/
  | getKeyboardLayout
  /-- `setsysSetKeyboardLayout(SetKeyboardLayout_EnglishUs)`. -/
  | setKeyboardLayout
  | setKeyboardAutoPilotState (state : HiddbgKeyboardAutoPilotState)
  | sleepThread (ns : ℕ)
  | unsetKeyboardAutoPilotState
  /-- The old layout is set again if it is another one. -/
  | restoreKeyboardLayout

/-- The modifiers a packet asks for. -/
structure Modifiers where
  alt : Bool
  ctrl : Bool
  shift : Bool
  super : Bool
deriving DecidableEq, Repr

/-- The state of one key and its modifiers. -/
def keyState (hidCode : UInt8) (shift ctrl alt gui altgr : Bool) : HiddbgKeyboardAutoPilotState :=
  pressIf altgr 0xE5 (pressIf gui 0xE3 (pressIf alt 0xE2 (pressIf shift 0xE1 (pressIf ctrl 0xE0
    (press hidCode {})))))

/-- The dummy press. -/
def dummy : HiddbgKeyboardAutoPilotState :=
  { keys := Function.update (fun _ => 0) 3 0x800000000000000 }

def doInjectHid (hidCode : UInt8) (shift ctrl alt gui altgr : Bool) : List Op :=
  [.setKeyboardAutoPilotState (keyState hidCode shift ctrl alt gui altgr), .sleepThread 25000000,
    .setKeyboardAutoPilotState dummy, .sleepThread (17000000 * 2), .unsetKeyboardAutoPilotState]

def doKey (m : Modifiers) (hidCode : UInt8) (needsShift : Bool) : List Op :=
  doInjectHid hidCode (m.shift || needsShift) m.ctrl m.alt m.super false

/-- One byte of the text; those of characters beyond ASCII are skipped. -/
def byteKey (m : Modifiers) (c : UInt8) : List Op :=
  if 0x80 ≤ c then []
  else if (charToHid c).hidCode ≠ 0 then doKey m (charToHid c).hidCode (charToHid c).needsShift
  else []

def modifiersOf (body : JsonBody) : Modifiers where
  alt := body.valueBool "alt" false
  ctrl := body.valueBool "ctrl" false
  shift := body.valueBool "shift" false
  super := body.valueBool "super" false

/-- The usage of a special key, zero where there is none. -/
def specialUsage (special : Int32) : UInt8 :=
  if 0 < special && special < 33 then (kSpecialKeyMap[special.toInt.toNat]?).getD 0 else 0

/-- The keys of a packet. -/
def bodyKeys (body : JsonBody) : List Op :=
  if body.isNum "specialKey" && body.getInt "specialKey" != 0 then
    if specialUsage (body.getInt "specialKey") ≠ 0 then
      doKey (modifiersOf body) (specialUsage (body.getInt "specialKey")) false
    else []
  else if body.isStr "key" && body.getStr "key" != "" then
    (utf8 (body.getStr "key").toList).flatMap (byteKey (modifiersOf body))
  else []

/-- `MousepadPlugin::inject_key`, where `available` is what `hiddbg_is_available` says. -/
def injectKey (available : Bool) (body : JsonBody) : List Op :=
  if !available then []
  else [.getKeyboardLayout, .setKeyboardLayout] ++ bodyKeys body ++ [.restoreKeyboardLayout]

/-! ## The console under the calls of several sessions -/

structure Console where
  layout : SetKeyboardLayout
  keyboard : HiddbgKeyboardAutoPilotState := {}

variable {ι : Type*} [DecidableEq ι]

/-- The console, and the layout each session found. -/
structure World (ι : Type*) where
  console : Console
  oldLayout : ι → SetKeyboardLayout

/-- What one call of a session does. -/
def step (w : World ι) (call : ι × Op) : World ι :=
  match call.2 with
  | .getKeyboardLayout =>
    { w with oldLayout := Function.update w.oldLayout call.1 w.console.layout }
  | .setKeyboardLayout => { w with console := { w.console with layout := .englishUs } }
  | .setKeyboardAutoPilotState state => { w with console := { w.console with keyboard := state } }
  | .sleepThread _ => w
  | .unsetKeyboardAutoPilotState => { w with console := { w.console with keyboard := {} } }
  | .restoreKeyboardLayout =>
    if w.oldLayout call.1 ≠ .englishUs then
      { w with console := { w.console with layout := w.oldLayout call.1 } }
    else w

/-- The time a call takes at least. -/
def Op.least : Op → ℕ
  | .sleepThread ns => ns
  | _ => 0

/-- The states of the console, each with the time it lasts: what the call takes at least, and any
more. -/
def timeline (w : World ι) : List ((ι × Op) × ℕ) → List (Console × ℕ)
  | [] => []
  | (call, more) :: rest =>
    ((step w call).console, call.2.least + more) :: timeline (step w call) rest

/-- The usages of the modifiers that are down. -/
def chord (m : Modifiers) (shift : Bool) : List UInt8 :=
  (if m.ctrl then [0xE0] else []) ++ (if shift then [0xE1] else []) ++
    (if m.alt then [0xE2] else []) ++
    (if m.super then [0xE3] else [])

/-- The character that comes of one that is typed on a US keyboard, a line end for a return; none
where no key gives it. -/
def typeable (c : Char) : Option Char :=
  if c = '\r' then some '\n'
  else if usKeys.any fun key => key.2.1 == c || key.2.2 == c then some c else none

/-- The character above another one on its key; one that needs shift anyway stays. -/
def withShift (c : Char) : Char := ((usKeys.find? fun key => key.2.1 == c).map (·.2.2)).getD c

/-- The modifiers of a typed character beside shift. -/
def Modifiers.beside (m : Modifiers) : List UInt8 := chord m false

def meantChar (m : Modifiers) (c : Char) : Option Typed :=
  (typeable c).map fun c => .char (if m.shift then withShift c else c) m.beside

/-- What a packet asks to be typed: a special key, or else the characters of its text. -/
def meant (body : JsonBody) : List Typed :=
  let m := modifiersOf body
  if body.isNum "specialKey" && body.getInt "specialKey" != 0 then
    ((usLayout (specialUsage (body.getInt "specialKey"))).map (Key.typed (chord m m.shift))).toList
  else if body.isStr "key" then (body.getStr "key").toList.filterMap (meantChar m)
  else []

/-- The layouts of the console, where only the US one is known here. -/
def layoutOf (others : ℕ → KeyLayout) : SetKeyboardLayout → KeyLayout
  | .englishUs => usLayout
  | .other n => others n

/-- What is typed when one state of the console is sampled after another. -/
def typedOn (others : ℕ → KeyLayout) (before now : Console) : List Typed :=
  typed (layoutOf others now.layout) (down before.keyboard) (down now.keyboard)

/-- No key is down, or the dummy one in the US layout. -/
def Quiet (c : Console) : Prop :=
  (∀ usage, down c.keyboard usage = false) ∨ c.layout = .englishUs ∧ c.keyboard = dummy

variable {others : ℕ → KeyLayout} {period : ℕ} {before now : Console} {w : World ι}

/-- From here, these calls type `out` on a quiet console and leave it quiet, however long each of
them takes and wherever the samples fall. -/
def Types (others : ℕ → KeyLayout) (period : ℕ) (w : World ι) (calls : List (ι × Op))
    (out : List Typed) : Prop :=
  ∀ timed : List ((ι × Op) × ℕ), timed.map Prod.fst = calls →
    Reads (typedOn others) period Quiet (timeline w timed) out Quiet

/-- Further calls come later. -/
theorem timeline_append (w : World ι) (timed more : List ((ι × Op) × ℕ)) :
    timeline w (timed ++ more) = timeline w timed ++ timeline (run step w (timed.map Prod.fst))
      more := by
  induction timed generalizing w with
  | nil => rfl
  | cons call timed ih =>
    rw [List.cons_append, timeline, timeline, ih, List.cons_append, List.map_cons, run_cons]

/-- What the first calls type, then what the others do. -/
theorem Types.append {calls more : List (ι × Op)} {out add : List Typed}
    (h : Types others period w calls out)
    (h' : Types others period (run step w calls) more add) :
    Types others period w (calls ++ more) (out ++ add) := by
  intro timed htimed
  obtain ⟨first, second, rfl, hfirst, hsecond⟩ := List.map_eq_append_iff.mp htimed
  rw [timeline_append, hfirst]
  exact (h first hfirst).append (h' second hsecond)

/-- The calls of one session. -/
def callsOf (i : ι) (ops : List Op) : List (ι × Op) := ops.map (i, ·)

omit [DecidableEq ι] in
/-- The calls of a packet, one part behind the other. -/
@[simp] theorem callsOf_append (i : ι) (ops more : List Op) :
    callsOf i (ops ++ more) = callsOf i ops ++ callsOf i more := List.map_append

omit [DecidableEq ι] in
/-- Or part by part. -/
theorem callsOf_flatMap {α : Type*} (i : ι) (f : α → List Op) (items : List α) :
    callsOf i (items.flatMap f) = items.flatMap fun item => callsOf i (f item) := List.map_flatMap

/-- The console is in the US layout with its keyboard unset. -/
def Ready (w : World ι) : Prop := w.console = ⟨.englishUs, {}⟩

/-- An injection leaves the console as it was. -/
theorem run_doInjectHid (i : ι) (hidCode : UInt8) (shift ctrl alt gui altgr : Bool) (h : Ready w) :
    run step w (callsOf i (doInjectHid hidCode shift ctrl alt gui altgr)) = w := by
  obtain ⟨console, oldLayout⟩ := w
  cases h
  rfl

/-- A byte leaves the console as it was. -/
theorem run_byteKey (i : ι) (m : Modifiers) (b : UInt8) (h : Ready w) :
    run step w (callsOf i (byteKey m b)) = w := by
  unfold byteKey
  split
  · rfl
  · split
    · exact run_doInjectHid i _ _ _ _ _ _ h
    · rfl

/-- Calls that leave the console ready, one group for each item. -/
theorem run_flatMap {α : Type*} {f : α → List (ι × Op)} (items : List α)
    (hf : ∀ item, run step w (f item) = w) : run step w (items.flatMap f) = w := by
  induction items with
  | nil => rfl
  | cons item items ih => rw [List.flatMap_cons, run_append, hf item, ih]

/-- So does a whole packet. -/
theorem run_bodyKeys (i : ι) (body : JsonBody) (h : Ready w) :
    run step w (callsOf i (bodyKeys body)) = w := by
  unfold bodyKeys
  split
  · split
    · exact run_doInjectHid i _ _ _ _ _ _ h
    · rfl
  · split
    · rw [callsOf_flatMap]
      exact run_flatMap _ fun b => run_byteKey i _ b h
    · rfl

/-- What a packet types when it is handled: nothing without the service. -/
def asked (available : Bool) (body : JsonBody) : List Typed := if available then meant body else []

/-- A console between two packets: no key is down. -/
def Idle (w : World ι) : Prop := w.console.keyboard = {}

/-- All calls of a packet are its own. -/
theorem filter_callsOf_self (i : ι) (ops : List Op) :
    (callsOf i ops).filter (fun call => call.1 = i) = callsOf i ops := by
  refine List.filter_eq_self.mpr fun call hmem => ?_
  obtain ⟨op, -, rfl⟩ := List.mem_map.mp hmem
  exact decide_eq_true rfl

/-- None of them is another one's. -/
theorem filter_callsOf_other {i j : ι} (hne : j ≠ i) (ops : List Op) :
    (callsOf j ops).filter (fun call => call.1 = i) = [] := by
  refine List.filter_eq_nil_iff.mpr fun call hmem => ?_
  obtain ⟨op, -, rfl⟩ := List.mem_map.mp hmem
  exact fun h => hne (of_decide_eq_true h)

/-- Packets of two sessions that are handled at once can leave the console in the US layout,
whatever they hold and whichever other layout the console had: the second session finds the layout
that the first one has set, and sets it once more after the first one restored the old. -/
theorem overlap_loses_layout {i j : ι} (hne : i ≠ j) (b c : JsonBody) {layout : SetKeyboardLayout}
    (hother : layout ≠ .englishUs) (oldLayout : ι → SetKeyboardLayout) :
    ∃ calls : List (ι × Op), calls.filter (fun call => call.1 = i) = callsOf i (injectKey true b) ∧
      calls.filter (fun call => call.1 = j) = callsOf j (injectKey true c) ∧
      (∀ call ∈ calls, call.1 = i ∨ call.1 = j) ∧
      (run step ⟨⟨layout, {}⟩, oldLayout⟩ calls).console = ⟨.englishUs, {}⟩ := by
  have hops : ∀ (k : ι) (body : JsonBody), callsOf k (injectKey true body) =
      callsOf k [.getKeyboardLayout] ++
      callsOf k [.setKeyboardLayout] ++ callsOf k (bodyKeys body) ++
        callsOf k [.restoreKeyboardLayout] :=
    fun k body => by rw [← callsOf_append, ← callsOf_append, ← callsOf_append]; rfl
  refine ⟨callsOf i [.getKeyboardLayout] ++ callsOf i [.setKeyboardLayout] ++
    callsOf j [.getKeyboardLayout] ++
    callsOf i (bodyKeys b) ++ callsOf i [.restoreKeyboardLayout] ++
      callsOf j [.setKeyboardLayout] ++
    callsOf j (bodyKeys c) ++ callsOf j [.restoreKeyboardLayout], ?_, ?_, ?_, ?_⟩
  · simp only [List.filter_append, filter_callsOf_self, filter_callsOf_other hne.symm,
      List.append_nil, hops]
  · simp only [List.filter_append, filter_callsOf_self, filter_callsOf_other hne,
      List.nil_append, hops, List.append_assoc]
  · intro call hmem
    simp only [List.mem_append, callsOf, List.mem_map] at hmem
    rcases hmem with ((((((h | h) | h) | h) | h) | h) | h) | h <;> obtain ⟨op, -, rfl⟩ := h
    · exact .inl rfl
    · exact .inl rfl
    · exact .inr rfl
    · exact .inl rfl
    · exact .inl rfl
    · exact .inr rfl
    · exact .inr rfl
    · exact .inr rfl
  · let found : ι → SetKeyboardLayout :=
      Function.update (Function.update oldLayout i layout) j .englishUs
    have hi : found i = layout := by
      rw [show found i = Function.update oldLayout i layout i from Function.update_of_ne hne _ _,
        Function.update_self]
    have hj : found j = .englishUs := Function.update_self j _ _
    have hfirst : run step ⟨⟨.englishUs, {}⟩, found⟩ (callsOf i (bodyKeys b)) =
        ⟨⟨.englishUs, {}⟩, found⟩ :=
      run_bodyKeys i b rfl
    have hsecond : run step ⟨⟨.englishUs, {}⟩, found⟩ (callsOf j (bodyKeys c)) =
        ⟨⟨.englishUs, {}⟩, found⟩ :=
      run_bodyKeys j c rfl
    have hrestored : run step ⟨⟨.englishUs, {}⟩, found⟩ (callsOf i [.restoreKeyboardLayout]) =
        ⟨⟨layout, {}⟩, found⟩ := by
      simp only [callsOf, List.map_cons, List.map_nil, run_cons, run_nil, step, hi, if_pos hother]
    have hkept : run step ⟨⟨.englishUs, {}⟩, found⟩ (callsOf j [.restoreKeyboardLayout]) =
        ⟨⟨.englishUs, {}⟩, found⟩ := by
      simp only [callsOf, List.map_cons, List.map_nil, run_cons, run_nil, step, hj, ne_eq,
        not_true_eq_false, if_false]
    have hbegun : run step ⟨⟨layout, {}⟩, oldLayout⟩ (callsOf i [.getKeyboardLayout] ++
        callsOf i [.setKeyboardLayout] ++ callsOf j [.getKeyboardLayout]) = ⟨⟨.englishUs, {}⟩,
          found⟩ := rfl
    have hagain : run step ⟨⟨layout, {}⟩, found⟩ (callsOf j [.setKeyboardLayout]) =
        ⟨⟨.englishUs, {}⟩, found⟩ := rfl
    rw [run_append, run_append, run_append, run_append, run_append, hbegun, hfirst, hrestored,
      hagain, hsecond, hkept]

/-- Two packets with a letter each. -/
theorem overlap_loses_layout_letters : ∃ calls : List (Bool × Op),
    calls.filter (fun call => call.1 = true) =
        callsOf true (injectKey true (({} : JsonBody).setStr "key" "a")) ∧
      calls.filter (fun call => call.1 = false) =
        callsOf false (injectKey true (({} : JsonBody).setStr "key" "b")) ∧
      (∀ call ∈ calls, call.1 = true ∨ call.1 = false) ∧
      (run step ⟨⟨.other 0, {}⟩, fun _ => .englishUs⟩ calls).console = ⟨.englishUs, {}⟩ :=
  overlap_loses_layout (by decide) _ _ (by decide) _

end KdeConnectNx.TypedText
