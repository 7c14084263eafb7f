import KdeConnectNx.Runs

/-!
# Threads that wait for input

A thread is polled: it has returned, it goes on by itself, or it needs one more
item of input. While none has come its call times out and is made again, which
changes nothing. Whether such a thread returns once its peer is silent depends
on what was sent alone, not on when it was sent.
-/

namespace KdeConnectNx.Waiting

open Runs

variable {α ι β : Type*}

/-- What a thread in some state does next. -/
inductive Poll (α ι β : Type*) where
  | returned (result : β)
  | moves (state : α)
  /-- It calls for an item and goes on from what the item leads to. -/
  | needs (next : ι → α)

/-- One loop after another: where the first returns, the thread goes on from
what its result leads to. -/
def Poll.andThen {α' β' : Type*} (p : Poll α ι β) (during : α → α') (after : β → α') :
    Poll α' ι β' :=
  match p with
  | .returned result => .moves (after result)
  | .moves state => .moves (during state)
  | .needs next => .needs fun item => during (next item)

/-- A thread and what has come for it. -/
structure Waiter (α ι : Type*) where
  state : α
  arrived : List ι := []
  /-- How many of its calls timed out. -/
  timeouts : Nat := 0

inductive Event (ι : Type*) where
  | arrive (item : ι)
  /-- The thread makes its next call. -/
  | turn

def turn (poll : α → Poll α ι β) (w : Waiter α ι) : Waiter α ι :=
  match poll w.state with
  | .returned _ => w
  | .moves state => { w with state := state }
  | .needs next =>
    match w.arrived with
    | [] => { w with timeouts := w.timeouts + 1 }
    | item :: arrived => { w with state := next item, arrived := arrived }

def step (poll : α → Poll α ι β) (w : Waiter α ι) : Event ι → Waiter α ι
  | .arrive item => { w with arrived := w.arrived ++ [item] }
  | .turn => turn poll w

/-- The items of a list of events. -/
def sent : List (Event ι) → List ι
  | [] => []
  | .arrive item :: events => item :: sent events
  | .turn :: events => sent events

/-- The peer is silent while the thread makes so many calls. -/
def silence (n : Nat) : List (Event ι) := List.replicate n .turn

def Returned (poll : α → Poll α ι β) (w : Waiter α ι) : Prop :=
  ∃ result, poll w.state = .returned result

/-- These items are enough to get the thread from this state to its end. -/
inductive Finishes (poll : α → Poll α ι β) : α → List ι → Prop where
  | returned {state : α} {result : β} {items : List ι} (h : poll state = .returned result) :
    Finishes poll state items
  | moves {state next : α} {items : List ι} (h : poll state = .moves next)
    (hnext : Finishes poll next items) : Finishes poll state items
  | takes {state : α} {next : ι → α} {item : ι} {items : List ι} (h : poll state = .needs next)
    (hnext : Finishes poll (next item) items) : Finishes poll state (item :: items)

/-- The thread gets from this state to a result, and leaves the last items
unused. -/
inductive Yields (poll : α → Poll α ι β) : α → List ι → β → List ι → Prop where
  | returned {state : α} {result : β} {items : List ι} (h : poll state = .returned result) :
    Yields poll state items result items
  | moves {state next : α} {items rest : List ι} {result : β} (h : poll state = .moves next)
    (hnext : Yields poll next items result rest) : Yields poll state items result rest
  | takes {state : α} {next : ι → α} {item : ι} {items rest : List ι} {result : β}
    (h : poll state = .needs next) (hnext : Yields poll (next item) items result rest) :
    Yields poll state (item :: items) result rest

section Polls

variable {poll : α → Poll α ι β} {state : α} {items : List ι}

theorem finishes_of_moves {next : α} (h : poll state = .moves next) :
    Finishes poll state items ↔ Finishes poll next items := by
  constructor
  · intro hfinishes
    cases hfinishes with
    | returned hpoll =>
      rw [h] at hpoll
      cases hpoll
    | moves hpoll hnext =>
      rw [h] at hpoll
      cases hpoll
      exact hnext
    | takes hpoll hnext =>
      rw [h] at hpoll
      cases hpoll
  · exact .moves h

theorem finishes_of_needs {next : ι → α} (h : poll state = .needs next) :
    Finishes poll state items ↔
      ∃ item rest, items = item :: rest ∧ Finishes poll (next item) rest := by
  constructor
  · intro hfinishes
    cases hfinishes with
    | returned hpoll =>
      rw [h] at hpoll
      cases hpoll
    | moves hpoll hnext =>
      rw [h] at hpoll
      cases hpoll
    | takes hpoll hnext =>
      rw [h] at hpoll
      cases hpoll
      exact ⟨_, _, rfl, hnext⟩
  · rintro ⟨item, rest, rfl, hnext⟩
    exact .takes h hnext

/-- A loop that comes first finishes with a result; what follows finishes with
what the loop has left. -/
theorem finishes_andThen {α' β' : Type*} {poll' : α' → Poll α' ι β'} {during : α → α'}
    {after : β → α'} (h : ∀ state, poll' (during state) = (poll state).andThen during after)
    (state : α) (items : List ι) :
    Finishes poll' (during state) items ↔
      ∃ result rest, Yields poll state items result rest ∧ Finishes poll' (after result) rest := by
  constructor
  · intro hfinishes
    generalize hduring : during state = whole at hfinishes
    induction hfinishes generalizing state with
    | returned hpoll =>
      rw [← hduring, h] at hpoll
      cases hstate : poll state with
      | _ =>
        rw [hstate] at hpoll
        cases hpoll
    | moves hpoll hnext ih =>
      rw [← hduring, h] at hpoll
      cases hstate : poll state with
      | returned result =>
        rw [hstate] at hpoll
        cases hpoll
        exact ⟨result, _, .returned hstate, hnext⟩
      | moves next =>
        rw [hstate] at hpoll
        cases hpoll
        obtain ⟨result, rest, hyields, hafter⟩ := ih next rfl
        exact ⟨result, rest, .moves hstate hyields, hafter⟩
      | needs next =>
        rw [hstate] at hpoll
        cases hpoll
    | takes hpoll hnext ih =>
      rw [← hduring, h] at hpoll
      cases hstate : poll state with
      | returned result =>
        rw [hstate] at hpoll
        cases hpoll
      | moves next =>
        rw [hstate] at hpoll
        cases hpoll
      | needs next =>
        rw [hstate] at hpoll
        cases hpoll
        obtain ⟨result, rest, hyields, hafter⟩ := ih _ rfl
        exact ⟨result, rest, .takes hstate hyields, hafter⟩
  · rintro ⟨result, rest, hyields, hafter⟩
    induction hyields with
    | returned hpoll => exact .moves (by rw [h, hpoll]; rfl) hafter
    | moves hpoll hnext ih => exact .moves (by rw [h, hpoll]; rfl) (ih hafter)
    | takes hpoll hnext ih => exact .takes (by rw [h, hpoll]; rfl) (ih hafter)

/-- A loop finishes exactly if it gets to some result. -/
theorem finishes_iff_yields :
    Finishes poll state items ↔ ∃ result rest, Yields poll state items result rest := by
  constructor
  · intro h
    induction h with
    | returned hpoll => exact ⟨_, _, .returned hpoll⟩
    | moves hpoll hnext ih =>
      obtain ⟨result, rest, hyields⟩ := ih
      exact ⟨result, rest, .moves hpoll hyields⟩
    | takes hpoll hnext ih =>
      obtain ⟨result, rest, hyields⟩ := ih
      exact ⟨result, rest, .takes hpoll hyields⟩
  · rintro ⟨result, rest, h⟩
    induction h with
    | returned hpoll => exact .returned hpoll
    | moves hpoll hnext ih => exact .moves hpoll ih
    | takes hpoll hnext ih => exact .takes hpoll ih

/-- A call changes nothing about whether the items lead to the end. -/
theorem finishes_turn (poll : α → Poll α ι β) (w : Waiter α ι) (later : List ι) :
    Finishes poll (turn poll w).state ((turn poll w).arrived ++ later) ↔
      Finishes poll w.state (w.arrived ++ later) := by
  unfold turn
  split
  · exact Iff.rfl
  · rename_i next hpoll
    exact (finishes_of_moves hpoll).symm
  · rename_i next hpoll
    split
    · exact Iff.rfl
    · rename_i item arrived harrived
      rw [harrived, List.cons_append, finishes_of_needs hpoll]
      constructor
      · intro h
        exact ⟨item, arrived ++ later, rfl, h⟩
      · rintro ⟨other, rest, heq, h⟩
        obtain ⟨rfl, rfl⟩ := List.cons.inj heq
        exact h

/-- Neither does any run: what is still to come moves to what has come. -/
theorem finishes_run (poll : α → Poll α ι β) (w : Waiter α ι) (events : List (Event ι)) :
    Finishes poll (run (step poll) w events).state (run (step poll) w events).arrived ↔
      Finishes poll w.state (w.arrived ++ sent events) := by
  induction events generalizing w with
  | nil => rw [run_nil, sent, List.append_nil]
  | cons e events ih =>
    rw [run_cons, ih]
    cases e with
    | arrive item => rw [step, sent, List.append_assoc, List.singleton_append]
    | turn => exact finishes_turn poll w _

theorem silence_succ (n : Nat) : (silence (n + 1) : List (Event ι)) = .turn :: silence n :=
  List.replicate_succ

theorem sent_silence (n : Nat) : sent (silence n : List (Event ι)) = [] := by
  induction n with
  | zero => rfl
  | succ n ih => rw [silence_succ, sent, ih]

/-- A thread returns in silence exactly if what has come leads it to its end. -/
theorem returned_silence_iff (poll : α → Poll α ι β) (w : Waiter α ι) :
    (∃ n, Returned poll (run (step poll) w (silence n))) ↔ Finishes poll w.state w.arrived := by
  constructor
  · rintro ⟨n, result, hpoll⟩
    have hend : Finishes poll (run (step poll) w (silence n)).state
        (run (step poll) w (silence n)).arrived := .returned hpoll
    rw [finishes_run, sent_silence, List.append_nil] at hend
    exact hend
  · intro h
    obtain ⟨state, arrived, timeouts⟩ := w
    dsimp only at h
    induction h with
    | returned hpoll => exact ⟨0, _, hpoll⟩
    | moves hpoll hnext ih =>
      obtain ⟨n, hn⟩ := ih
      refine ⟨n + 1, ?_⟩
      rw [silence_succ, run_cons]
      simpa only [step, turn, hpoll] using hn
    | takes hpoll hnext ih =>
      obtain ⟨n, hn⟩ := ih
      refine ⟨n + 1, ?_⟩
      rw [silence_succ, run_cons]
      simpa only [step, turn, hpoll] using hn

/-- Whenever and in whatever pieces the items came, the thread returns exactly
if all of them together lead it to its end. -/
theorem returned_iff (poll : α → Poll α ι β) (state : α) (events : List (Event ι)) :
    (∃ n, Returned poll (run (step poll) { state := state } (events ++ silence n))) ↔
      Finishes poll state (sent events) := by
  have hsplit : ∀ n, run (step poll) { state := state } (events ++ silence n) =
      run (step poll) (run (step poll) { state := state } events) (silence n) :=
    fun n => run_append _ _ _ _
  simp only [hsplit]
  rw [returned_silence_iff, finishes_run, List.nil_append]

/-- A thread that has returned stays so. -/
theorem Returned.run {w : Waiter α ι} (h : Returned poll w) (events : List (Event ι)) :
    Returned poll (run (step poll) w events) := by
  obtain ⟨result, hpoll⟩ := h
  have hall : Always (step poll) (fun w : Waiter α ι => poll w.state = .returned result) w
      events := by
    refine always_of_step (P := fun w : Waiter α ι => poll w.state = .returned result) ?_
      hpoll events
    intro w e hw
    cases e with
    | arrive item => exact hw
    | turn =>
      simp only [step, turn, hw]
  exact ⟨result, hall.last⟩

end Polls

/-- Somebody who waits for many threads is through exactly if each of them gets
enough to return. -/
theorem all_returned_iff {γ : Type*} (poll : γ → α → Poll α ι β) (start : γ → α)
    (events : γ → List (Event ι)) (threads : List γ) :
    (∃ n, ∀ t ∈ threads,
        Returned (poll t) (run (step (poll t)) { state := start t } (events t ++ silence n))) ↔
      ∀ t ∈ threads, Finishes (poll t) (start t) (sent (events t)) := by
  constructor
  · rintro ⟨n, h⟩ t ht
    exact (returned_iff (poll t) (start t) (events t)).mp ⟨n, h t ht⟩
  · intro h
    induction threads with
    | nil => exact ⟨0, by simp⟩
    | cons t threads ih =>
      obtain ⟨n, hn⟩ := (returned_iff (poll t) (start t) (events t)).mpr (h t List.mem_cons_self)
      obtain ⟨m, hm⟩ := ih fun u hu => h u (List.mem_cons_of_mem t hu)
      have hlater : ∀ (u : γ) (k l : Nat),
          Returned (poll u) (run (step (poll u)) { state := start u } (events u ++ silence k)) →
          Returned (poll u)
            (run (step (poll u)) { state := start u } (events u ++ silence (k + l))) := by
        intro u k l hu
        have hsplit : (silence (k + l) : List (Event ι)) = silence k ++ silence l :=
          List.replicate_add k l _
        rw [hsplit, ← List.append_assoc, run_append]
        exact hu.run _
      refine ⟨n + m, ?_⟩
      intro u hu
      rcases List.mem_cons.mp hu with rfl | hu
      · exact hlater u n m hn
      · rw [Nat.add_comm]
        exact hlater u m n (hm u hu)

end KdeConnectNx.Waiting
