import Mathlib.Logic.Function.Basic
import KdeConnectNx.Runs

/-!
# Retracting what only one of two ends remembers

Ends in pairs, each with a memory of its own and a queue to its partner. An end
takes up its memory as its belief, has its say once, which is a denial where it
does not believe, and stops believing when a denial reaches it. Once both have
had their say and no denial is queued, an end believes exactly what both of
them remembered.
-/

namespace KdeConnectNx.Retraction

open Runs

variable {ι : Type*} [DecidableEq ι]

/-- What each end believes once it has begun, whether it has had its say, and
what is on its way to its partner: true for a denial. -/
structure Ends (ι : Type*) where
  belief : ι → Option Bool := fun _ => none
  spoken : ι → Bool := fun _ => false
  wire : ι → List Bool := fun _ => []

inductive Move (ι : Type*) where
  /-- An end that has not begun takes up its memory. -/
  | remember (s : ι)
  /-- It has its say. -/
  | speak (s : ι)
  /-- It says something else. -/
  | chat (s : ι)
  /-- What its partner said first reaches it. -/
  | hear (s : ι)

def Ends.step (other : ι → ι) (remembers : ι → Bool) (l : Ends ι) : Move ι → Ends ι
  | .remember s =>
    match l.belief s with
    | none => { l with belief := Function.update l.belief s (some (remembers s)) }
    | some _ => l
  | .speak s =>
    match l.belief s with
    | none => l
    | some true => { l with spoken := Function.update l.spoken s true }
    | some false =>
      { l with
        spoken := Function.update l.spoken s true
        wire := Function.update l.wire s (l.wire s ++ [true]) }
  | .chat s => { l with wire := Function.update l.wire s (l.wire s ++ [false]) }
  | .hear s =>
    match l.belief s, l.wire (other s) with
    | some b, denial :: rest =>
      { l with
        belief := Function.update l.belief s (some (b && !denial))
        wire := Function.update l.wire (other s) rest }
    | _, _ => l

/-- Whoever denies does not believe, beliefs are remembered and their loss is
founded, and an end that has had its say without believing has its partner
with it, or a denial on its way there. -/
structure Sound (other : ι → ι) (remembers : ι → Bool) (l : Ends ι) : Prop where
  denial : ∀ s, true ∈ l.wire s → l.belief s = some false
  held : ∀ s, l.belief s = some true → remembers s = true
  given : ∀ s, l.belief s = some false → (remembers s && remembers (other s)) = false
  spoken : ∀ s, l.spoken s = true → l.belief s ≠ none
  carried : ∀ s, l.spoken s = true → l.belief s = some false →
    l.belief (other s) = some false ∨ true ∈ l.wire s

omit [DecidableEq ι] in
theorem sound_start (other : ι → ι) (remembers : ι → Bool) : Sound other remembers {} where
  denial := fun _ h => by cases h
  held := fun _ h => by cases h
  given := fun _ h => by cases h
  spoken := fun _ h => by cases h
  carried := fun _ h => by cases h

namespace Sound

variable {other : ι → ι} {remembers : ι → Bool} {l : Ends ι}

theorem remember (h : Sound other remembers l) {s : ι} (hs : l.belief s = none) :
    Sound other remembers
      { l with belief := Function.update l.belief s (some (remembers s)) } := by
  have hkeeps : ∀ t, l.belief t ≠ none →
      Function.update l.belief s (some (remembers s)) t = l.belief t := by
    intro t ht
    refine Function.update_of_ne ?_ _ _
    rintro rfl
    exact ht hs
  have hcases : ∀ t b, Function.update l.belief s (some (remembers s)) t = some b →
      (t = s ∧ b = remembers s) ∨ l.belief t = some b := by
    intro t b hb
    by_cases ht : t = s
    · rw [ht, Function.update_self] at hb
      exact .inl ⟨ht, (Option.some.inj hb).symm⟩
    · rw [Function.update_of_ne ht] at hb
      exact .inr hb
  refine ⟨?_, ?_, ?_, ?_, ?_⟩
  · intro t hm
    have hb := h.denial t hm
    exact (hkeeps t (by rw [hb]; simp)).trans hb
  · intro t hb
    rcases hcases t true hb with ⟨rfl, hr⟩ | hold
    · exact hr.symm
    · exact h.held t hold
  · intro t hb
    rcases hcases t false hb with ⟨rfl, hr⟩ | hold
    · rw [← hr, Bool.false_and]
    · exact h.given t hold
  · intro t ht
    have hb := h.spoken t ht
    exact fun hnone => hb ((hkeeps t hb).symm.trans hnone)
  · intro t ht hb
    have hbegun := h.spoken t ht
    have hold := (hkeeps t hbegun).symm.trans hb
    refine (h.carried t ht hold).imp_left ?_
    intro hpartner
    exact (hkeeps (other t) (by rw [hpartner]; simp)).trans hpartner

/-- More on its wires harms no end, if every denial there is one's who does
not believe. -/
theorem say (h : Sound other remembers l) (s : ι) (said : Bool)
    (hdenial : said = true → l.belief s = some false) :
    Sound other remembers { l with wire := Function.update l.wire s (l.wire s ++ [said]) } := by
  have hmore : ∀ t, true ∈ l.wire t →
      true ∈ Function.update l.wire s (l.wire s ++ [said]) t := by
    intro t hm
    by_cases ht : t = s
    · rw [ht] at hm ⊢
      rw [Function.update_self]
      exact List.mem_append_left _ hm
    · rw [Function.update_of_ne ht]
      exact hm
  refine ⟨?_, h.held, h.given, h.spoken, fun t ht hb => (h.carried t ht hb).imp_right (hmore t)⟩
  intro t hm
  dsimp only at hm
  by_cases ht : t = s
  · rw [ht, Function.update_self] at hm
    rw [ht]
    rcases List.mem_append.mp hm with hold | hnew
    · exact h.denial s hold
    · exact hdenial (List.mem_singleton.mp hnew).symm
  · rw [Function.update_of_ne ht] at hm
    exact h.denial t hm

/-- An end may have had its say when it believes, or when its denial is on its
way. -/
theorem speak (h : Sound other remembers l) {s : ι}
    (hs : l.belief s = some true ∨ (l.belief s = some false ∧ true ∈ l.wire s)) :
    Sound other remembers { l with spoken := Function.update l.spoken s true } := by
  refine ⟨h.denial, h.held, h.given, ?_, ?_⟩
  · intro t ht
    dsimp only at ht
    by_cases heq : t = s
    · rw [heq]
      rcases hs with hs | ⟨hs, -⟩
      · dsimp only
        rw [hs]
        simp
      · dsimp only
        rw [hs]
        simp
    · rw [Function.update_of_ne heq] at ht
      exact h.spoken t ht
  · intro t ht hb
    dsimp only at ht hb
    by_cases heq : t = s
    · rw [heq] at hb ⊢
      rcases hs with hs | ⟨-, hm⟩
      · rw [hs] at hb
        cases hb
      · exact .inr hm
    · rw [Function.update_of_ne heq] at ht
      exact h.carried t ht hb

/-- Something else that is heard leaves the denials as they were. -/
theorem hear_chat (h : Sound other remembers l) {s : ι} {rest : List Bool}
    (hwire : l.wire s = false :: rest) :
    Sound other remembers { l with wire := Function.update l.wire s rest } := by
  have hiff : ∀ t, true ∈ Function.update l.wire s rest t ↔ true ∈ l.wire t := by
    intro t
    by_cases ht : t = s
    · rw [ht, Function.update_self, hwire]
      simp
    · rw [Function.update_of_ne ht]
  exact ⟨fun t hm => h.denial t ((hiff t).mp hm), h.held, h.given, h.spoken,
    fun t ht hb => (h.carried t ht hb).imp_right (hiff t).mpr⟩

/-- A denial that is heard ends the hearer's belief; its partner does not
believe either. -/
theorem hear_denial (hinv : Function.Involutive other)
    (h : Sound other remembers l) {s : ι} {rest : List Bool}
    (hwire : l.wire (other s) = true :: rest) :
    Sound other remembers
      { l with
        belief := Function.update l.belief s (some false)
        wire := Function.update l.wire (other s) rest } := by
  have hpartner : l.belief (other s) = some false :=
    h.denial (other s) (by rw [hwire]; exact List.mem_cons_self)
  have hself : Function.update l.belief s (some false) s = some false := Function.update_self ..
  have hloses : ∀ t, l.belief t = some false →
      Function.update l.belief s (some false) t = some false := by
    intro t ht
    by_cases heq : t = s
    · rw [heq, hself]
    · rw [Function.update_of_ne heq, ht]
  refine ⟨?_, ?_, ?_, ?_, ?_⟩
  · intro t hm
    refine hloses t (h.denial t ?_)
    dsimp only at hm
    by_cases heq : t = other s
    · rw [heq, Function.update_self] at hm
      rw [heq, hwire]
      exact List.mem_cons_of_mem _ hm
    · rw [Function.update_of_ne heq] at hm
      exact hm
  · intro t hb
    dsimp only at hb
    by_cases heq : t = s
    · rw [heq, hself] at hb
      cases hb
    · rw [Function.update_of_ne heq] at hb
      exact h.held t hb
  · intro t hb
    dsimp only at hb
    by_cases heq : t = s
    · have hgiven := h.given (other s) hpartner
      rw [hinv s, Bool.and_comm] at hgiven
      rw [heq]
      exact hgiven
    · rw [Function.update_of_ne heq] at hb
      exact h.given t hb
  · intro t ht
    dsimp only
    by_cases heq : t = s
    · rw [heq, hself]
      simp
    · rw [Function.update_of_ne heq]
      exact h.spoken t ht
  · intro t ht hb
    dsimp only at ht hb ⊢
    by_cases heq : t = s
    · rw [heq]
      exact .inl (hloses (other s) hpartner)
    · by_cases hpeer : t = other s
      · rw [hpeer, hinv s]
        exact .inl hself
      · rw [Function.update_of_ne heq] at hb
        rw [Function.update_of_ne hpeer]
        exact (h.carried t ht hb).imp_left (hloses (other t))

end Sound

variable {other : ι → ι} {remembers : ι → Bool} {l : Ends ι}

/-- Every move keeps the ends sound. -/
theorem sound_step (hinv : Function.Involutive other)
    (h : Sound other remembers l) (m : Move ι) :
    Sound other remembers (l.step other remembers m) := by
  cases m with
  | remember s =>
    cases hb : l.belief s with
    | none =>
      simp only [Ends.step, hb]
      exact h.remember hb
    | some b =>
      simp only [Ends.step, hb]
      exact h
  | speak s =>
    cases hb : l.belief s with
    | none =>
      simp only [Ends.step, hb]
      exact h
    | some b =>
      cases b with
      | true =>
        simp only [Ends.step, hb]
        exact h.speak (.inl hb)
      | false =>
        simp only [Ends.step, hb]
        refine (h.say s true fun _ => hb).speak (.inr ⟨hb, ?_⟩)
        dsimp only
        rw [Function.update_self]
        exact List.mem_append_right _ List.mem_cons_self
  | chat s => exact h.say s false fun hfalse => by cases hfalse
  | hear s =>
    cases hb : l.belief s with
    | none =>
      simp only [Ends.step, hb]
      exact h
    | some b =>
      cases hwire : l.wire (other s) with
      | nil =>
        simp only [Ends.step, hb, hwire]
        exact h
      | cons denial rest =>
        cases denial with
        | true =>
          simp only [Ends.step, hb, hwire, Bool.not_true, Bool.and_false]
          exact h.hear_denial hinv hwire
        | false =>
          simp only [Ends.step, hb, hwire, Bool.not_false, Bool.and_true]
          rw [← hb, Function.update_eq_self]
          exact h.hear_chat hwire

/-- Ends that have started stay sound along every run. -/
theorem sound_run (hinv : Function.Involutive other)
    (h : Sound other remembers l) (moves : List (Move ι)) :
    Sound other remembers (run (Ends.step other remembers) l moves) :=
  (always_of_step (P := Sound other remembers) (fun _ m h => sound_step hinv h m) h moves).last

/-- Whatever else an end says is on its way. -/
theorem run_chats (other : ι → ι) (remembers : ι → Bool) (l : Ends ι) (s : ι) (n : Nat) :
    run (Ends.step other remembers) l (List.replicate n (.chat s)) =
      { l with wire := Function.update l.wire s (l.wire s ++ List.replicate n false) } := by
  induction n generalizing l with
  | zero => simp
  | succ n ih =>
    rw [List.replicate_succ, run_cons, ih]
    simp only [Ends.step, Function.update_self, Function.update_idem, List.append_assoc,
      List.singleton_append, List.replicate_succ]

omit [DecidableEq ι] in
/-- Two partners that have had their say and have no denial on its way believe
what both of them remembered. -/
theorem Sound.agreed (hinv : Function.Involutive other) (h : Sound other remembers l) {s : ι}
    (hspoken : l.spoken s = true ∧ l.spoken (other s) = true)
    (hquiet : true ∉ l.wire s ∧ true ∉ l.wire (other s)) :
    l.belief s = some (remembers s && remembers (other s)) := by
  have hcarries : ∀ t, l.spoken t = true → true ∉ l.wire t → l.belief t = some false →
      l.belief (other t) = some false := by
    intro t ht hwire hb
    rcases h.carried t ht hb with hpartner | hm
    · exact hpartner
    · exact absurd hm hwire
  cases hb : l.belief s with
  | none => exact absurd hb (h.spoken s hspoken.1)
  | some b =>
    cases b with
    | false => rw [h.given s hb]
    | true =>
      have hpartner : l.belief (other s) = some true := by
        cases hp : l.belief (other s) with
        | none => exact absurd hp (h.spoken (other s) hspoken.2)
        | some b' =>
          cases b' with
          | true => rfl
          | false =>
            have hback := hcarries (other s) hspoken.2 hquiet.2 hp
            rw [hinv s, hb] at hback
            cases hback
      rw [h.held s hb, h.held (other s) hpartner]
      rfl

end KdeConnectNx.Retraction
