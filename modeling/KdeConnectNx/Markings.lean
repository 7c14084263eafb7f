import Mathlib.Algebra.BigOperators.Group.Finset.Basic
import Mathlib.Algebra.Order.BigOperators.Group.Finset

/-!
# Markings

How many threads are at each place of a program, where which thread it is does not
matter. A step takes one thread from a place and puts it on another; kinds of places are
counted, and the counts change by one.
-/

namespace KdeConnectNx.Markings

open Finset

variable {P : Type*} [DecidableEq P]

/-- The number of threads at each place. -/
abbrev Marking (P : Type*) := P → ℕ

/-- One more at a place. -/
def put (p : P) (m : Marking P) : Marking P := Function.update m p (m p + 1)

/-- One less at it. -/
def take (p : P) (m : Marking P) : Marking P := Function.update m p (m p - 1)

variable [Fintype P]

/-- How many there are at the places of a kind. -/
def count (kind : P → Bool) (m : Marking P) : ℕ := ∑ p, if kind p then m p else 0

/-- The count is that at one place and that at the others. -/
theorem count_eq (kind : P → Bool) (m : Marking P) (p : P) : count kind m =
    (if kind p then m p else 0) + ∑ q ∈ univ.erase p, if kind q then m q else 0 :=
  (add_sum_erase univ _ (mem_univ p)).symm

/-- One place counted apart from the others. -/
theorem count_update (kind : P → Bool) (m : Marking P) (p : P) (n : ℕ) :
    count kind (Function.update m p n) =
      (if kind p then n else 0) + ∑ q ∈ univ.erase p, if kind q then m q else 0 := by
  have hothers : ∑ q ∈ univ.erase p, (if kind q then Function.update m p n q else 0) =
      ∑ q ∈ univ.erase p, if kind q then m q else 0 := by
    apply sum_congr rfl
    intro q hq
    rw [Function.update_of_ne (ne_of_mem_erase hq)]
  rw [count_eq kind _ p, Function.update_self, hothers]

/-- One more. -/
theorem count_put (kind : P → Bool) (m : Marking P) (p : P) :
    count kind (put p m) = count kind m + if kind p then 1 else 0 := by
  rw [put, count_update, count_eq kind m p]
  split <;> omega

/-- One less, where there was one. -/
theorem count_take (kind : P → Bool) {m : Marking P} {p : P} (h : m p ≠ 0) :
    count kind (take p m) + (if kind p then 1 else 0) = count kind m := by
  rw [take, count_update, count_eq kind m p]
  split <;> omega

/-- Going from one place to another changes the counts of their kinds only. -/
theorem count_move (kind : P → Bool) {m : Marking P} {p : P} (h : m p ≠ 0) (q : P) :
    count kind (put q (take p m)) + (if kind p then 1 else 0) =
      count kind m + if kind q then 1 else 0 := by
  have htake := count_take kind h
  rw [count_put]
  omega

/-- Those at one place are counted with their kind. -/
theorem le_count {kind : P → Bool} {p : P} (hp : kind p = true) (m : Marking P) :
    m p ≤ count kind m := by
  rw [count_eq kind m p, if_pos hp]
  omega

omit [DecidableEq P] in
/-- Nobody of the kind, nothing to count. -/
theorem count_eq_zero (kind : P → Bool) {m : Marking P} (h : ∀ p, kind p = true → m p = 0) :
    count kind m = 0 := by
  apply sum_eq_zero
  intro p _
  split
  · rename_i hp
    exact h p hp
  · rfl

end KdeConnectNx.Markings
