import Mathlib.Data.List.Basic

/-!
# A queue that marks what it leaves out

Items pass through a queue with room for some of them, in their order. What
comes while the queue is full is left out, and one mark at its end stands for
all that is left out there; an item can also be lost on the way. The relation
tells what became of the items, and is kept up as they come and pass.
-/

namespace KdeConnectNx.Thinning

variable {α : Type*} {mark : α} {room : ℕ} {items passed held lost : List α}

/-- What became of the items: those that passed, those that are held, and those that were lost. -/
inductive Thinned (mark : α) (room : ℕ) : List α → List α → List α → List α → Prop
  | nil : Thinned mark room [] [] [] []
  | held {items passed held lost : List α} (h : Thinned mark room items passed held lost) (item : α)
      (hroom : held.length < room) :
    Thinned mark room (items ++ [item]) passed (held ++ [item]) lost
  /-- The first item that is held goes on. -/
  | passed {items passed held lost : List α} {first : α}
      (h : Thinned mark room items passed (first :: held) lost) :
      Thinned mark room items (passed ++ [first]) held lost
  /-- An item goes right through where none is held. -/
  | through {items passed lost : List α} (h : Thinned mark room items passed [] lost) (item : α) :
      Thinned mark room (items ++ [item]) (passed ++ [item]) [] lost
  | lost {items passed held lost : List α} (h : Thinned mark room items passed held lost)
    (item : α) :
      Thinned mark room (items ++ [item]) passed held (lost ++ [item])
  | marked {items passed held lost : List α} (h : Thinned mark room items passed held lost)
    (item : α)
      (hfull : held.length = room) :
    Thinned mark room (items ++ [item]) passed (held ++ [mark]) lost
  | dropped {items passed held lost : List α}
    (h : Thinned mark room items passed (held ++ [mark]) lost)
      (item : α) (hfull : held.length = room) :
      Thinned mark room (items ++ [item]) passed (held ++ [mark]) lost

/-- The queue holds as many items as it has room for, or these and the mark. -/
theorem Thinned.full (h : Thinned mark room items passed held lost) :
    held.length ≤ room ∨ ∃ items, items.length = room ∧ held = items ++ [mark] := by
  induction h with
  | nil => exact .inl (Nat.zero_le room)
  | @held items passed held lost h item hroom ih =>
    rw [List.length_append, List.length_singleton]
    exact .inl hroom
  | @passed items passed held lost first h ih =>
    left
    rcases ih with hlength | ⟨items, hfull, hheld⟩
    · rw [List.length_cons] at hlength
      omega
    · have hlength := congrArg List.length hheld
      rw [List.length_append, List.length_cons, List.length_singleton] at hlength
      omega
  | through h item ih => exact ih
  | lost h item ih => exact ih
  | @marked items passed held lost h item hfull ih => exact .inr ⟨held, hfull, rfl⟩
  | @dropped items passed held lost h item hfull ih => exact .inr ⟨held, hfull, rfl⟩

end KdeConnectNx.Thinning
