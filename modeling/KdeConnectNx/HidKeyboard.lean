import Mathlib.Data.List.Nodup
import Mathlib.Data.List.Count
import Mathlib.Tactic.Common

/-!
# A keyboard that is sampled

A signal takes one value after another, each for some time, and is read at a
fixed period. What is read from it depends on each sample and the one before.
Triples over pieces of a signal say what a piece adds, whenever it is sampled,
and compose. A keyboard is such a signal: a key is struck in the first sample
that shows it down, and a layout tells what the stroke types.
-/

namespace KdeConnectNx.HidKeyboard

/-! ## Signals and their samples -/

section Signals

variable {α β : Type*}

/-- The samples of a signal, one every `period`, the first after `wait`. The signal is given by
its values with the time each of them lasts. -/
def samples (period : ℕ) : ℕ → List (α × ℕ) → List α
  | _, [] => []
  | wait, (value, time) :: rest =>
    if time ≤ wait then samples period (wait - time) rest
    else
      let count := (time - wait - 1) / period + 1
      List.replicate count value ++ samples period (wait + count * period - time) rest

/-- What is read from samples, where `rise` tells what a sample adds to the one before. -/
def edges (rise : α → α → List β) : α → List α → List β
  | _, [] => []
  | before, value :: rest => rise before value ++ edges rise value rest

variable {period wait : ℕ}

variable {rise : α → α → List β} {P Q R : α → Prop} {piece more : List (α × ℕ)} {out add : List β}

/-- After a sample in `P`, this piece of a signal adds `out` and ends with a sample in `Q`,
wherever the samples fall. -/
def Reads (rise : α → α → List β) (period : ℕ) (P : α → Prop) (piece : List (α × ℕ)) (out : List β)
    (Q : α → Prop) : Prop :=
  ∀ wait < period, ∀ before, P before → ∃ wait' < period, ∃ last, Q last ∧ ∀ rest,
    edges rise before (samples period wait (piece ++ rest)) =
      out ++ edges rise last (samples period wait' rest)

theorem Reads.append (h : Reads rise period P piece out Q) (h' : Reads rise period Q more add R) :
    Reads rise period P (piece ++ more) (out ++ add) R := by
  intro wait hwait before hbefore
  obtain ⟨wait', hwait', last, hlast, hpiece⟩ := h wait hwait before hbefore
  obtain ⟨wait'', hwait'', last', hlast', hmore⟩ := h' wait' hwait' last hlast
  refine ⟨wait'', hwait'', last', hlast', fun rest => ?_⟩
  rw [List.append_assoc, hpiece, hmore, List.append_assoc]

theorem Reads.mono {P' Q' : α → Prop} (h : Reads rise period P piece out Q) (hP : ∀ x, P' x → P x)
    (hQ : ∀ x, Q x → Q' x) : Reads rise period P' piece out Q' := by
  intro wait hwait before hbefore
  obtain ⟨wait', hwait', last, hlast, hpiece⟩ := h wait hwait before (hP before hbefore)
  exact ⟨wait', hwait', last, hQ last hlast, hpiece⟩

end Signals

/-! ## Keys -/

/-- The keys that are down, by their usage. -/
abbrev Keys := UInt8 → Bool

/-- Control, shift, alt and the system key, left and right. -/
def isModifier (usage : UInt8) : Bool := 0xE0 ≤ usage && usage ≤ 0xE7

def usages : List UInt8 := (List.range 256).map UInt8.ofNat

/-- The modifiers that are down. -/
def modifiers (keys : Keys) : List UInt8 :=
  usages.filter fun usage => isModifier usage && keys usage

/-- The other keys that are down and were not. -/
def struck (before now : Keys) : List UInt8 :=
  usages.filter fun usage => !isModifier usage && now usage && !before usage

/-- One of the shift keys. -/
def isShift (usage : UInt8) : Bool := usage == 0xE1 || usage == 0xE5

/-- What stands on a key: a character and the one it gives with shift, or the name of a key that
gives none. -/
inductive Key where
  | char (plain shifted : Char)
  | named (usage : UInt8)
deriving DecidableEq, Repr

/-- What a key is for each usage. -/
abbrev KeyLayout := UInt8 → Option Key

/-- What a stroke types: a character with the modifiers beside shift, or a named key with all of
them. -/
inductive Typed where
  | char (c : Char) (chord : List UInt8)
  | named (usage : UInt8) (chord : List UInt8)
deriving DecidableEq, Repr

def Key.typed (chord : List UInt8) : Key → Typed
  | .char plain shifted =>
    .char (if chord.any isShift then shifted else plain) (chord.filter fun usage => !isShift usage)
  | .named usage => .named usage chord

/-- What is typed in a sample after another one. -/
def typed (layout : KeyLayout) (before now : Keys) : List Typed :=
  (struck before now).filterMap fun usage => (layout usage).map (Key.typed (modifiers now))

/-- The keys of a US keyboard that give characters, in the order of their usages. -/
def usKeys : List (UInt8 × Char × Char) :=
  [(0x04, 'a', 'A'), (0x05, 'b', 'B'), (0x06, 'c', 'C'), (0x07, 'd', 'D'), (0x08, 'e', 'E'),
    (0x09, 'f', 'F'), (0x0A, 'g', 'G'), (0x0B, 'h', 'H'), (0x0C, 'i', 'I'), (0x0D, 'j', 'J'),
    (0x0E, 'k', 'K'), (0x0F, 'l', 'L'),
    (0x10, 'm', 'M'), (0x11, 'n', 'N'), (0x12, 'o', 'O'), (0x13, 'p', 'P'), (0x14, 'q', 'Q'),
    (0x15, 'r', 'R'), (0x16, 's', 'S'), (0x17, 't', 'T'), (0x18, 'u', 'U'), (0x19, 'v', 'V'),
    (0x1A, 'w', 'W'), (0x1B, 'x', 'X'),
    (0x1C, 'y', 'Y'), (0x1D, 'z', 'Z'),
    (0x1E, '1', '!'), (0x1F, '2', '@'), (0x20, '3', '#'), (0x21, '4', '$'), (0x22, '5', '%'),
    (0x23, '6', '^'), (0x24, '7', '&'), (0x25, '8', '*'), (0x26, '9', '('), (0x27, '0', ')'),
    (0x28, '\n', '\n'), (0x2B, '\t', '\t'), (0x2C, ' ', ' '), (0x2D, '-', '_'), (0x2E, '=', '+'),
    (0x2F, '[', '\x7b'), (0x30, ']', '\x7d'), (0x31, '\x5c', '|'), (0x33, ';', ':'),
    (0x34, '\x27', '\x22'), (0x35, '\x60', '~'), (0x36, ',', '<'), (0x37, '.', '>'),
    (0x38, '/', '?')]

/-- Escape, backspace, the lock and function keys and those that move. -/
def isNamed (usage : UInt8) : Bool :=
  usage == 0x29 || usage == 0x2A || (0x39 ≤ usage && usage ≤ 0x53)

def usLayout : KeyLayout := fun usage =>
  match usKeys.lookup usage with
  | some (plain, shifted) => some (.char plain shifted)
  | none => if isNamed usage then some (.named usage) else none

end KdeConnectNx.HidKeyboard
