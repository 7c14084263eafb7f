import Mathlib.Data.List.Basic
import Mathlib.Logic.Nontrivial.Defs

/-!
# Gathering in place

A buffer is filled from its own cells: step `k` copies cell `ρ k` to cell `k`.
An index outside the buffer ends the loop without a result. A cell that is read
late may have been written already. What it holds then is found by following
`ρ` down, and the result is the one of a second buffer exactly when nothing is
found there but the cell itself.
-/

namespace KdeConnectNx.InPlace

variable {α : Type*}

/-- Cell `r` is copied to cell `w`, both inside the buffer. -/
def move (cells : List α) (r w : Nat) : Option (List α) :=
  cells[r]?.bind fun a => if w < cells.length then some (cells.set w a) else none

/-- The first `n` cells, filled one after the other. -/
def gather (ρ : Nat → Nat) (n : Nat) (cells : List α) : Option (List α) :=
  (List.range n).foldlM (fun cells k => move cells (ρ k) k) cells

/-- The cell a step gets its content from: its own, or the one an earlier step
has put there. -/
def source (ρ : Nat → Nat) (k : Nat) : Nat := if ρ k < k then source ρ (ρ k) else ρ k
termination_by k

theorem source_of_le {ρ : Nat → Nat} {k : Nat} (h : k ≤ ρ k) : source ρ k = ρ k := by
  rw [source, if_neg (Nat.not_lt.mpr h)]

theorem source_of_lt {ρ : Nat → Nat} {k : Nat} (h : ρ k < k) : source ρ k = source ρ (ρ k) := by
  rw [source, if_pos h]

/-- A step cannot be done with an index outside. -/
theorem move_eq_some {cells out : List α} {r w : Nat} (h : move cells r w = some out) :
    w < cells.length ∧ ∃ a, cells[r]? = some a ∧ out = cells.set w a := by
  obtain ⟨a, ha, hout⟩ := Option.bind_eq_some_iff.mp h
  split at hout
  · next hw => exact ⟨hw, a, ha, (Option.some.inj hout).symm⟩
  · cases hout

theorem move_inside {cells : List α} {r w : Nat} (hr : r < cells.length) (hw : w < cells.length) :
    move cells r w = some (cells.set w cells[r]) := by
  rw [move, List.getElem?_eq_getElem hr, Option.bind_some, if_pos hw]

theorem gather_succ (ρ : Nat → Nat) (n : Nat) (cells : List α) :
    gather ρ (n + 1) cells = (gather ρ n cells).bind fun cells => move cells (ρ n) n := by
  rw [gather, List.range_succ, List.foldlM_append, gather]
  simp only [List.foldlM_cons, List.foldlM_nil, bind_pure]
  rfl

/-- What the buffer holds after `n` steps: the first cells are filled, the rest
is as it was. -/
theorem getElem?_gather {ρ : Nat → Nat} {n : Nat} {cells out : List α}
    (h : gather ρ n cells = some out) :
    out.length = cells.length ∧ (∀ k, n ≤ k → out[k]? = cells[k]?) ∧
      ∀ k < n, out[k]? = cells[source ρ k]? := by
  induction n generalizing out with
  | zero =>
    cases Option.some.inj h
    exact ⟨rfl, fun _ _ => rfl, fun k hk => absurd hk (Nat.not_lt_zero k)⟩
  | succ n ih =>
    rw [gather_succ] at h
    obtain ⟨before, hbefore, hmove⟩ := Option.bind_eq_some_iff.mp h
    obtain ⟨hlength, hrest, hfilled⟩ := ih hbefore
    obtain ⟨hn, a, ha, rfl⟩ := move_eq_some hmove
    refine ⟨?_, ?_, ?_⟩
    · rw [List.length_set, hlength]
    · intro k hk
      rw [List.getElem?_set_ne (by omega)]
      exact hrest k (by omega)
    · intro k hk
      by_cases hlast : k = n
      · subst hlast
        rw [List.getElem?_set_self hn, ← ha]
        by_cases hearly : ρ k < k
        · rw [source_of_lt hearly]
          exact hfilled (ρ k) hearly
        · rw [source_of_le (Nat.not_lt.mp hearly)]
          exact hrest (ρ k) (Nat.not_lt.mp hearly)
      · rw [List.getElem?_set_ne (Ne.symm hlast)]
        exact hfilled k (by omega)

/-- The loop ends with a result exactly if all its indices are inside. -/
theorem isSome_gather_iff (ρ : Nat → Nat) (n : Nat) (cells : List α) :
    (gather ρ n cells).isSome = true ↔ n ≤ cells.length ∧ ∀ k < n, ρ k < cells.length := by
  induction n with
  | zero =>
    simp only [gather, List.range_zero, List.foldlM_nil]
    exact iff_of_true rfl ⟨Nat.zero_le _, fun k hk => absurd hk (Nat.not_lt_zero k)⟩
  | succ n ih =>
    rw [gather_succ]
    cases hbefore : gather ρ n cells with
    | none =>
      rw [hbefore] at ih
      refine iff_of_false Bool.false_ne_true ?_
      rintro ⟨hn, hall⟩
      exact Bool.false_ne_true (ih.mpr ⟨by omega, fun k hk => hall k (by omega)⟩)
    | some before =>
      rw [hbefore] at ih
      obtain ⟨hn, hall⟩ := ih.mp rfl
      have hlength := (getElem?_gather hbefore).1
      rw [Option.bind_some]
      constructor
      · intro hsome
        obtain ⟨out, hmove⟩ := Option.isSome_iff_exists.mp hsome
        obtain ⟨hw, a, ha, -⟩ := move_eq_some hmove
        obtain ⟨hr, -⟩ := List.getElem?_eq_some_iff.mp ha
        refine ⟨by omega, ?_⟩
        intro k hk
        by_cases hlast : k = n
        · subst hlast
          omega
        · exact hall k (by omega)
      · rintro ⟨hn', hall'⟩
        have hr := hall' n (Nat.lt_succ_self n)
        rw [move_inside (by omega) (by omega)]
        rfl

/-- Following `ρ` down from every step ends where the step itself reads,
exactly if what was written over is what would have been written. -/
theorem source_eq_iff (ρ : Nat → Nat) (n : Nat) :
    (∀ k < n, source ρ k = ρ k) ↔ ∀ k < n, ρ k < k → ρ (ρ k) = ρ k := by
  constructor
  · intro h k hk hearly
    rw [← h (ρ k) (Nat.lt_trans hearly hk), ← source_of_lt hearly]
    exact h k hk
  · intro h k
    induction k using Nat.strongRecOn with
    | ind k ih =>
      intro hk
      by_cases hearly : ρ k < k
      · rw [source_of_lt hearly, ih (ρ k) hearly (Nat.lt_trans hearly hk)]
        exact h k hk hearly
      · exact source_of_le (Nat.not_lt.mp hearly)

/-- The loop fills the buffer as if it read another one. -/
def Gathers (ρ : Nat → Nat) (n : Nat) (cells : List α) : Prop :=
  ∃ out, gather ρ n cells = some out ∧ ∀ k < n, out[k]? = cells[ρ k]?

/-- It does so for all buffers of a length exactly if its indices are inside
and no cell is read after another cell's content was written to it. -/
theorem gathers_iff [Nontrivial α] (ρ : Nat → Nat) (n size : Nat) :
    (∀ cells : List α, cells.length = size → Gathers ρ n cells) ↔
      n ≤ size ∧ (∀ k < n, ρ k < size) ∧ ∀ k < n, ρ k < k → ρ (ρ k) = ρ k := by
  rw [← source_eq_iff]
  constructor
  · intro h
    obtain ⟨a, b, hab⟩ := exists_pair_ne α
    obtain ⟨out, hout, -⟩ := h (List.replicate size a) List.length_replicate
    have hsome : (gather ρ n (List.replicate size a)).isSome = true := by
      rw [hout]
      rfl
    rw [isSome_gather_iff, List.length_replicate] at hsome
    refine ⟨hsome.1, hsome.2, ?_⟩
    intro k hk
    -- a buffer whose cells are alike but for the one that step `k` is to read
    let cells := (List.replicate size a).set (ρ k) b
    have hlength : cells.length = size := by
      rw [List.length_set, List.length_replicate]
    obtain ⟨out, hout, hread⟩ := h cells hlength
    have hcell : cells[ρ k]? = some b := by
      refine List.getElem?_set_self ?_
      rw [List.length_replicate]
      exact hsome.2 k hk
    have hfound : cells[source ρ k]? = some b := by
      rw [← (getElem?_gather hout).2.2 k hk, hread k hk, hcell]
    by_contra hne
    have hother : cells[source ρ k]? = (List.replicate size a)[source ρ k]? :=
      List.getElem?_set_ne (Ne.symm hne)
    rw [hother, List.getElem?_replicate] at hfound
    split at hfound
    · exact hab (Option.some.inj hfound)
    · cases hfound
  · rintro ⟨hn, hinside, hsource⟩ cells hlength
    have hsome : (gather ρ n cells).isSome = true := by
      rw [isSome_gather_iff, hlength]
      exact ⟨hn, hinside⟩
    obtain ⟨out, hout⟩ := Option.isSome_iff_exists.mp hsome
    refine ⟨out, hout, ?_⟩
    intro k hk
    rw [(getElem?_gather hout).2.2 k hk, hsource k hk]

/-! ## Loop nests -/

theorem foldlM_congr {m : Type _ → Type _} [Monad m] {σ : Type _} {f g : σ → α → m σ} {l : List α}
    (h : ∀ x ∈ l, ∀ s, f s x = g s x) (s : σ) : l.foldlM f s = l.foldlM g s := by
  induction l generalizing s with
  | nil => rfl
  | cons x l ih =>
    rw [List.foldlM_cons, List.foldlM_cons, h x List.mem_cons_self]
    exact congrArg _ (funext fun s => ih (fun y hy => h y (List.mem_cons_of_mem _ hy)) s)

/-- Two loops, one in the other, count through their places row by row. -/
theorem foldlM_range_mul {m : Type _ → Type _} [Monad m] [LawfulMonad m] {σ : Type _}
    (f : σ → Nat → m σ) (rows columns : Nat) (s : σ) :
    (List.range (rows * columns)).foldlM f s =
      (List.range rows).foldlM
        (fun s row => (List.range columns).foldlM (fun s column => f s (row * columns + column)) s)
        s := by
  induction rows generalizing s with
  | zero => simp
  | succ rows ih =>
    rw [Nat.succ_mul, List.range_add, List.foldlM_append, ih, List.range_succ,
      List.foldlM_append]
    refine congrArg _ (funext fun s => ?_)
    rw [List.foldlM_map, List.foldlM_cons]
    simp only [List.foldlM_nil, bind_pure]

end KdeConnectNx.InPlace
