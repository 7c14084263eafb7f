import Mathlib.Data.List.Dedup
import Mathlib.Data.List.Infix

/-!
# Entries in the order of their last use

A list without repetition, the entry used last in front. A bounded list keeps the
first of them and knows no more than that. As long as it is only used it is the
first part of the unbounded list; where an entry is taken out of both, the next
one of the unbounded list is not known.
-/

namespace KdeConnectNx.Recency

variable {α : Type*} [DecidableEq α] {l whole : List α} {a b : α}

/-- The entry comes to the front. -/
def touch (a : α) (l : List α) : List α := a :: l.erase a

/-- The distinct entries of a history, the one used last in front. -/
def recent (history : List α) : List α := history.dedup.reverse

@[simp] theorem mem_touch : b ∈ touch a l ↔ b = a ∨ b ∈ l := by
  rw [touch, List.mem_cons]
  by_cases h : b = a
  · simp [h]
  · simp [h, List.mem_erase_of_ne h]

theorem nodup_touch (h : l.Nodup) : (touch a l).Nodup :=
  List.nodup_cons.mpr ⟨h.not_mem_erase, h.erase a⟩

/-- The front entry stays where it is. -/
theorem touch_head : touch a (a :: l) = a :: l := by
  rw [touch, List.erase_cons_head]

theorem length_touch_of_mem (h : a ∈ l) : (touch a l).length = l.length := by
  have hpos := List.length_pos_of_mem h
  rw [touch, List.length_cons, List.length_erase_of_mem h]
  omega

theorem length_touch_of_notMem (h : a ∉ l) : (touch a l).length = l.length + 1 := by
  rw [touch, List.length_cons, List.erase_of_not_mem h]

/-- Using one more entry. -/
theorem dedup_concat (history : List α) (a : α) :
    (history ++ [a]).dedup = history.dedup.erase a ++ [a] := by
  induction history with
  | nil => rfl
  | cons x history ih =>
    rw [List.cons_append]
    by_cases hx : x ∈ history
    · rw [List.dedup_cons_of_mem (List.mem_append_left _ hx), List.dedup_cons_of_mem hx, ih]
    · rw [List.dedup_cons_of_notMem hx]
      by_cases ha : x = a
      · have hlast : x ∈ history ++ [a] := by
          rw [ha]; exact List.mem_append_right _ List.mem_cons_self
        have hnone : a ∉ history.dedup := by rw [List.mem_dedup, ← ha]; exact hx
        rw [List.dedup_cons_of_mem hlast, ih, ha, List.erase_cons_head, List.erase_of_not_mem hnone]
      · have hnone : x ∉ history ++ [a] := by
          rw [List.mem_append, List.mem_singleton, not_or]
          exact ⟨hx, ha⟩
        rw [List.dedup_cons_of_notMem hnone, ih, List.erase_cons_tail (by simpa using ha),
          List.cons_append]

theorem recent_concat (history : List α) (a : α) :
    recent (history ++ [a]) = touch a (recent history) := by
  have hnodup := List.nodup_dedup history
  rw [recent, dedup_concat, List.reverse_append, recent, touch, hnodup.erase_eq_filter,
    (List.nodup_reverse.mpr hnodup).erase_eq_filter, List.filter_reverse]
  rfl

/-- What is behind the first `n` entries has no part in the next first `n`. -/
theorem take_touch (n : ℕ) (a : α) (l : List α) :
    (touch a (l.take n)).take n = (touch a l).take n := by
  by_cases hshort : l.length ≤ n
  · rw [List.take_of_length_le hshort]
  · have hfull : (l.take n).length = n := by
      rw [List.length_take]
      omega
    have hwhole : touch a l = touch a (l.take n ++ l.drop n) := by rw [List.take_append_drop]
    by_cases ha : a ∈ l.take n
    · have hlength : (touch a (l.take n)).length = n := by rw [length_touch_of_mem ha, hfull]
      rw [hwhole, touch, touch, List.erase_append_left _ ha, ← List.cons_append,
        List.take_append_of_le_length]
      exact Nat.le_of_eq hlength.symm
    · rw [hwhole, touch, touch, List.erase_append_right _ ha, List.erase_of_not_mem ha,
        ← List.cons_append, List.take_append_of_le_length]
      rw [List.length_cons]
      omega

/-! ## Lists from which entries are taken out -/

/-- Parts of one list without repetition that have the same entries are the
same. -/
theorem eq_of_mem_iff {first second : List α} (hfirst : first.Sublist whole)
    (hsecond : second.Sublist whole) (hwhole : whole.Nodup) (h : ∀ x, x ∈ first ↔ x ∈ second) :
    first = second := by
  induction whole generalizing first second with
  | nil => rw [List.sublist_nil.mp hfirst, List.sublist_nil.mp hsecond]
  | cons x whole ih =>
    obtain ⟨hx, hrest⟩ := List.nodup_cons.mp hwhole
    cases hfirst with
    | cons _ hfirst =>
      cases hsecond with
      | cons _ hsecond => exact ih hfirst hsecond hrest h
      | cons_cons _ hsecond => exact absurd (hfirst.subset ((h x).mpr List.mem_cons_self)) hx
    | cons_cons _ hfirst =>
      cases hsecond with
      | cons _ hsecond => exact absurd (hsecond.subset ((h x).mp List.mem_cons_self)) hx
      | cons_cons _ hsecond =>
        refine congrArg (x :: ·) (ih hfirst hsecond hrest ?_)
        intro y
        have hy := h y
        rw [List.mem_cons, List.mem_cons] at hy
        by_cases heq : y = x
        · rw [heq]
          exact iff_of_false (fun hm => hx (hfirst.subset hm)) fun hm => hx (hsecond.subset hm)
        · simpa [heq] using hy

/-- An entry that is taken out makes room for one from behind the first ones, but
that one is not known. -/
theorem erase_take_iff (n : ℕ) (a : α) (l : List α) :
    (l.take n).erase a = (l.erase a).take n ↔ (a ∈ l.take n → l.length ≤ n) := by
  by_cases hshort : l.length ≤ n
  · refine iff_of_true ?_ fun _ => hshort
    have herase : (l.erase a).length ≤ n := List.length_erase_le.trans hshort
    rw [List.take_of_length_le hshort, List.take_of_length_le herase]
  · have hfull : (l.take n).length = n := by
      rw [List.length_take]
      omega
    by_cases ha : a ∈ l.take n
    · refine iff_of_false ?_ fun h => hshort (h ha)
      intro heq
      have hlength := congrArg List.length heq
      have hpos := List.length_pos_of_mem ha
      rw [List.length_erase_of_mem ha, List.length_take (l := l.erase a),
        List.length_erase_of_mem (List.mem_of_mem_take ha), hfull] at hlength
      omega
    · refine iff_of_true ?_ fun h => absurd h ha
      have hwhole : l.erase a = l.take n ++ (l.drop n).erase a := by
        conv_lhs => rw [← List.take_append_drop n l]
        exact List.erase_append_right _ ha
      rw [List.erase_of_not_mem ha, hwhole, List.take_append_of_le_length (by omega),
        List.take_take, Nat.min_self]

/-- Room made before it is known whether the entry needs any: this gives the last
ones used only where the entry is new, or is the one that goes. -/
theorem touch_dropLast_iff (hnodup : l.Nodup) {n : ℕ} (hfull : l.length = n) (hpos : 0 < n)
    (a : α) :
    touch a l.dropLast = (touch a l).take n ↔ (a ∈ l → l.getLast? = some a) := by
  obtain ⟨first, last, rfl⟩ : ∃ first last, l = first ++ [last] := by
    have hne : l ≠ [] := by
      rintro rfl
      rw [List.length_nil] at hfull
      omega
    exact ⟨l.dropLast, l.getLast hne, (List.dropLast_append_getLast hne).symm⟩
  have hlength : first.length + 1 = n := by
    rw [← hfull, List.length_append, List.length_singleton]
  have hlast : last ∉ first := by
    intro hm
    exact (List.nodup_append.mp hnodup).2.2 last hm last List.mem_cons_self rfl
  rw [List.dropLast_concat, List.getLast?_concat]
  by_cases ha : a ∈ first ++ [last]
  · have htake : (touch a (first ++ [last])).take n = touch a (first ++ [last]) := by
      refine List.take_of_length_le ?_
      rw [length_touch_of_mem ha, hfull]
    rw [htake]
    by_cases heq : last = a
    · subst heq
      refine iff_of_true ?_ fun _ => rfl
      rw [touch, touch, List.erase_append_right _ hlast, List.erase_of_not_mem hlast,
        List.erase_cons_head, List.append_nil]
    · refine iff_of_false ?_ fun h => heq (Option.some.inj (h ha))
      intro hsame
      have hfirst : a ∈ first := by
        rcases List.mem_append.mp ha with hm | hm
        · exact hm
        · exact absurd (List.mem_singleton.mp hm).symm heq
      have hcount := congrArg List.length hsame
      rw [length_touch_of_mem hfirst, length_touch_of_mem ha, List.length_append,
        List.length_singleton] at hcount
      omega
  · refine iff_of_true ?_ fun h => absurd h ha
    have hfirst : a ∉ first := fun hm => ha (List.mem_append_left _ hm)
    rw [touch, touch, List.erase_of_not_mem hfirst, List.erase_of_not_mem ha, ← List.cons_append,
      List.take_append_of_le_length, List.take_of_length_le]
    · rw [List.length_cons]
      omega
    · rw [List.length_cons]
      omega

end KdeConnectNx.Recency
