import Mathlib.Data.Nat.Notation
import Mathlib.Data.List.Basic

/-!
# Records one behind the other

A reader takes one record from the front of a text, or stops. If it takes every
record that was written and stops at every one that was cut off, all records written
come back, and of a text that ends early those that lie wholly inside.
-/

namespace KdeConnectNx.Framing

/-- Takes one record from the front; what is left is shorter. -/
structure Reader (ρ β : Type) where
  read : List β → Option (ρ × List β)
  shorter : ∀ text record rest, read text = some (record, rest) → rest.length < text.length

variable {α ρ σ β : Type}

/-- Records until the reader stops. -/
def Reader.readAll (r : Reader ρ β) (text : List β) : List ρ :=
  match _hread : r.read text with
  | none => []
  | some (record, rest) => record :: r.readAll rest
termination_by text.length
decreasing_by exact r.shorter _ _ _ _hread

theorem Reader.readAll_none {r : Reader ρ β} {text : List β} (h : r.read text = none) :
    r.readAll text = [] := by
  unfold readAll
  split
  · rfl
  · next hread =>
    rw [h] at hread
    cases hread

theorem Reader.readAll_some {r : Reader ρ β} {text rest : List β} {record : ρ}
    (h : r.read text = some (record, rest)) : r.readAll text = record :: r.readAll rest := by
  rw [readAll]
  split
  · next hread =>
    rw [h] at hread
    cases hread
  · next hread =>
    rw [h] at hread
    cases hread
    rfl

/-- Two readers that take the same from every text, the one in another form. -/
theorem Reader.readAll_map {r : Reader ρ β} {s : Reader σ β} (f : ρ → σ)
    (h : ∀ text, s.read text = (r.read text).map fun p => (f p.1, p.2)) (text : List β) :
    s.readAll text = (r.readAll text).map f := by
  induction text using Reader.readAll.induct r with
  | case1 text hread =>
    have hother : s.read text = none := by rw [h, hread]; rfl
    rw [readAll_none hother, readAll_none hread]
    rfl
  | case2 text record rest hread ih =>
    have hother : s.read text = some (f record, rest) := by rw [h, hread]; rfl
    rw [readAll_some hother, readAll_some hread, List.map_cons, ih]

/-- The reader takes what the writer wrote, and stops where it is cut off. -/
structure Reads (r : Reader ρ β) (write : α → List β) (out : α → ρ) (ok : α → Prop) : Prop where
  read_append : ∀ item, ok item → ∀ rest, r.read (write item ++ rest) = some (out item, rest)
  read_take : ∀ item, ok item → ∀ n, n < (write item).length → r.read ((write item).take n) = none
  read_nil : r.read [] = none

/-- The items with the position behind each. -/
def ends (write : α → List β) : ℕ → List α → List (α × ℕ)
  | _, [] => []
  | start, item :: items =>
    (item, start + (write item).length) :: ends write (start + (write item).length) items

/-- The items that lie wholly before a position. -/
def wholeBefore (write : α → List β) (start n : ℕ) (items : List α) : List α :=
  ((ends write start items).filter fun e => e.2 ≤ n).map Prod.fst

theorem map_fst_ends (write : α → List β) (start : ℕ) (items : List α) :
    (ends write start items).map Prod.fst = items := by
  induction items generalizing start with
  | nil => rfl
  | cons item items ih => rw [ends, List.map_cons, ih]

/-- They are items that were written. -/
theorem mem_of_mem_wholeBefore {write : α → List β} {start n : ℕ} {items : List α} {item : α}
    (h : item ∈ wholeBefore write start n items) : item ∈ items := by
  obtain ⟨e, he, rfl⟩ := List.mem_map.mp h
  rw [← map_fst_ends write start items]
  exact List.mem_map_of_mem (List.mem_of_mem_filter he)

theorem wholeBefore_nil_of_lt {write : α → List β} {start n : ℕ} (h : n < start) (items : List α) :
    wholeBefore write start n items = [] := by
  induction items generalizing start with
  | nil => rfl
  | cons item items ih =>
    have hpast : ¬ start + (write item).length ≤ n := by omega
    have hrest : wholeBefore write (start + (write item).length) n items = [] := ih (by omega)
    unfold wholeBefore at hrest ⊢
    rw [ends, List.filter_cons_of_neg (by simp [hpast]), hrest]

variable {r : Reader ρ β} {write : α → List β} {out : α → ρ} {ok : α → Prop}

/-- Everything that was written is read back. -/
theorem Reads.readAll_flatMap (h : Reads r write out ok) {items : List α}
    (hok : ∀ item ∈ items, ok item) : r.readAll (items.flatMap write) = items.map out := by
  induction items with
  | nil => exact Reader.readAll_none h.read_nil
  | cons item items ih =>
    rw [List.flatMap_cons, Reader.readAll_some (h.read_append item (hok item List.mem_cons_self) _),
      ih fun other hother => hok other (List.mem_cons_of_mem _ hother), List.map_cons]

/-- Of a text that was cut, what lies wholly inside. -/
theorem Reads.readAll_take (h : Reads r write out ok) {items : List α}
    (hok : ∀ item ∈ items, ok item) (start n : ℕ) :
    r.readAll ((items.flatMap write).take n) = (wholeBefore write start (start + n) items).map
      out := by
  induction items generalizing start n with
  | nil =>
    rw [List.flatMap_nil, List.take_nil, Reader.readAll_none h.read_nil]
    rfl
  | cons item items ih =>
    have hitem := hok item List.mem_cons_self
    have hitems := fun other hother => hok other (List.mem_cons_of_mem item hother)
    rw [List.flatMap_cons]
    by_cases hcut : n < (write item).length
    · have hpast : ¬ start + (write item).length ≤ start + n := by omega
      have hbehind : start + n < start + (write item).length := by omega
      have hrest : wholeBefore write (start + (write item).length) (start + n) items = [] :=
        wholeBefore_nil_of_lt hbehind items
      rw [List.take_append_of_le_length (Nat.le_of_lt hcut),
        Reader.readAll_none (h.read_take item hitem n hcut)]
      unfold wholeBefore at hrest ⊢
      rw [ends, List.filter_cons_of_neg (by simp [hpast]), hrest]
      rfl
    · have hinside : start + (write item).length ≤ start + n := by omega
      have hleft := ih hitems (start + (write item).length) (n - (write item).length)
      have hsum : start + (write item).length + (n - (write item).length) = start + n := by omega
      rw [hsum] at hleft
      rw [List.take_append, List.take_of_length_le (by omega),
        Reader.readAll_some (h.read_append item hitem _), hleft]
      unfold wholeBefore
      rw [ends, List.filter_cons_of_pos (by simp [hinside]), List.map_cons, List.map_cons]

end KdeConnectNx.Framing
