import Mathlib.Data.List.Infix

/-!
# Runs of a labelled step function

A run folds a step function over a list of events. State invariants, step
properties and the exact condition under which an invariant survives a run
are proved once here, over arbitrary states and events. Nondeterminism is
carried by the events: what the environment decides is part of the label.
-/

namespace KdeConnectNx.Runs

variable {S E : Type*}

/-- State reached from `s` by the events in order. -/
def run (step : S → E → S) (s : S) (events : List E) : S := events.foldl step s

@[simp] theorem run_nil (step : S → E → S) (s : S) : run step s [] = s := rfl

@[simp] theorem run_cons (step : S → E → S) (s : S) (e : E) (events : List E) :
    run step s (e :: events) = run step (step s e) events := rfl

/-- A run over two event lists is the second run from where the first ends. -/
@[simp] theorem run_append (step : S → E → S) (s : S) (first second : List E) :
    run step s (first ++ second) = run step (run step s first) second :=
  List.foldl_append

/-- `Q` holds of every step of the run: of the state an event is taken in and
of that event. -/
def EveryStep (step : S → E → S) (Q : S → E → Prop) : S → List E → Prop
  | _, [] => True
  | s, e :: events => Q s e ∧ EveryStep step Q (step s e) events

instance EveryStep.decidable (step : S → E → S) (Q : S → E → Prop) [∀ s e, Decidable (Q s e)] :
    (s : S) → (events : List E) → Decidable (EveryStep step Q s events)
  | _, [] => inferInstanceAs (Decidable True)
  | s, e :: events =>
    have := EveryStep.decidable step Q (step s e) events
    inferInstanceAs (Decidable (Q s e ∧ EveryStep step Q (step s e) events))

/-- `P` holds in every state of the run, the first and the last included. -/
def Always (step : S → E → S) (P : S → Prop) : S → List E → Prop
  | s, [] => P s
  | s, e :: events => P s ∧ Always step P (step s e) events

/-- A step property of a run is the property at every position of it. -/
theorem everyStep_iff (step : S → E → S) (Q : S → E → Prop) (s : S) (events : List E) :
    EveryStep step Q s events ↔
      ∀ before e after, events = before ++ e :: after → Q (run step s before) e := by
  induction events generalizing s with
  | nil => simp [EveryStep]
  | cons head tail ih =>
    rw [EveryStep, ih]
    constructor
    · rintro ⟨hhead, htail⟩ before e after he
      cases before with
      | nil =>
        obtain ⟨rfl, -⟩ := List.cons.inj he
        exact hhead
      | cons b before =>
        obtain ⟨rfl, ht⟩ := List.cons.inj he
        exact htail before e after ht
    · intro h
      refine ⟨h [] head tail rfl, ?_⟩
      intro before e after he
      exact h (head :: before) e after (by rw [he]; rfl)

/-- A state property of a run is the property after every prefix of it. -/
theorem always_iff (step : S → E → S) (P : S → Prop) (s : S) (events : List E) :
    Always step P s events ↔ ∀ before, before <+: events → P (run step s before) := by
  induction events generalizing s with
  | nil => simp [Always]
  | cons head tail ih =>
    rw [Always, ih]
    constructor
    · rintro ⟨hs, htail⟩ before hb
      cases before with
      | nil => exact hs
      | cons b before =>
        obtain ⟨rfl, ht⟩ := List.cons_prefix_cons.mp hb
        exact htail before ht
    · intro h
      refine ⟨h [] List.nil_prefix, ?_⟩
      intro before hb
      exact h (head :: before) (List.cons_prefix_cons.mpr ⟨rfl, hb⟩)

/-- The steps of a run over two event lists are those of both runs. -/
theorem everyStep_append (step : S → E → S) (Q : S → E → Prop) (s : S) (first second : List E) :
    EveryStep step Q s (first ++ second) ↔
      EveryStep step Q s first ∧ EveryStep step Q (run step s first) second := by
  induction first generalizing s with
  | nil => exact (and_iff_right trivial).symm
  | cons e first ih =>
    rw [List.cons_append, EveryStep, EveryStep, run_cons, ih]
    exact and_assoc.symm

/-- Two step properties of one run. -/
theorem EveryStep.and {step : S → E → S} {Q R : S → E → Prop} {s : S} {events : List E}
    (hQ : EveryStep step Q s events) (hR : EveryStep step R s events) :
    EveryStep step (fun s e => Q s e ∧ R s e) s events := by
  induction events generalizing s with
  | nil => trivial
  | cons head tail ih => exact ⟨⟨hQ.1, hR.1⟩, ih hQ.2 hR.2⟩

/-- The last state of a run has what all its states have. -/
theorem Always.last {step : S → E → S} {P : S → Prop} {s : S} {events : List E}
    (h : Always step P s events) : P (run step s events) :=
  (always_iff step P s events).mp h events List.prefix_rfl

/-- Weaker step properties hold of the same run. -/
theorem EveryStep.imp {step : S → E → S} {Q R : S → E → Prop} (hQR : ∀ s e, Q s e → R s e)
    {s : S} {events : List E} (h : EveryStep step Q s events) : EveryStep step R s events := by
  induction events generalizing s with
  | nil => trivial
  | cons head tail ih => exact ⟨hQR s head h.1, ih h.2⟩

/-- Weaker state properties hold of the same run. -/
theorem Always.imp {step : S → E → S} {P R : S → Prop} (hPR : ∀ s, P s → R s)
    {s : S} {events : List E} (h : Always step P s events) : Always step R s events := by
  induction events generalizing s with
  | nil => exact hPR s h
  | cons head tail ih => exact ⟨hPR s h.1, ih h.2⟩

/-- An invariant that every permitted step keeps holds all along a run of
permitted steps. -/
theorem always_of_everyStep {step : S → E → S} {ok : S → E → Prop} {P : S → Prop}
    (hstep : ∀ s e, P s → ok s e → P (step s e)) {s : S} {events : List E}
    (hs : P s) (hok : EveryStep step ok s events) : Always step P s events := by
  induction events generalizing s with
  | nil => exact hs
  | cons head tail ih => exact ⟨hs, ih (hstep s head hs hok.1) hok.2⟩

/-- An unconditional invariant holds all along every run. -/
theorem always_of_step {step : S → E → S} {P : S → Prop}
    (hstep : ∀ s e, P s → P (step s e)) {s : S} (hs : P s) (events : List E) :
    Always step P s events := by
  induction events generalizing s with
  | nil => exact hs
  | cons head tail ih => exact ⟨hs, ih (hstep s head hs)⟩

/-- If under an invariant the condition on a step is exactly what keeps a state
property, then the property survives exactly the runs of such steps. Only runs
of valid steps are looked at. -/
theorem always_iff_everyStep_of_valid {step : S → E → S} {valid ok : S → E → Prop} {I P : S → Prop}
    (hinv : ∀ s e, I s → valid s e → I (step s e))
    (hstep : ∀ s e, I s → valid s e → P s → (P (step s e) ↔ ok s e))
    {s : S} {events : List E} (hI : I s) (hs : P s) (hvalid : EveryStep step valid s events) :
    Always step P s events ↔ EveryStep step ok s events := by
  induction events generalizing s with
  | nil => exact iff_of_true hs trivial
  | cons head tail ih =>
    obtain ⟨hhead, hrest⟩ := hvalid
    constructor
    · rintro ⟨-, htail⟩
      have hnext : P (step s head) := by
        cases tail with
        | nil => exact htail
        | cons _ _ => exact htail.1
      exact ⟨(hstep s head hI hhead hs).mp hnext, (ih (hinv s head hI hhead) hnext hrest).mp htail⟩
    · rintro ⟨hok, hoks⟩
      have hnext := (hstep s head hI hhead hs).mpr hok
      exact ⟨hs, (ih (hinv s head hI hhead) hnext hrest).mpr hoks⟩

theorem everyStep_of_forall {step : S → E → S} {Q : S → E → Prop} (h : ∀ s e, Q s e) (s : S)
    (events : List E) : EveryStep step Q s events := by
  induction events generalizing s with
  | nil => trivial
  | cons head tail ih => exact ⟨h s head, ih (step s head)⟩

/-- A step property that each event has in every state. -/
theorem everyStep_of_mem {step : S → E → S} {Q : S → E → Prop} {s : S} {events : List E}
    (h : ∀ e ∈ events, ∀ s, Q s e) : EveryStep step Q s events := by
  induction events generalizing s with
  | nil => trivial
  | cons head tail ih =>
    exact ⟨h head List.mem_cons_self s, ih fun e he => h e (List.mem_cons_of_mem head he)⟩

/-- The same of all runs. -/
theorem always_iff_everyStep_of_inv {step : S → E → S} {ok : S → E → Prop} {I P : S → Prop}
    (hinv : ∀ s e, I s → I (step s e)) (hstep : ∀ s e, I s → P s → (P (step s e) ↔ ok s e))
    {s : S} (hI : I s) (hs : P s) (events : List E) :
    Always step P s events ↔ EveryStep step ok s events :=
  always_iff_everyStep_of_valid (fun s e h (_ : True) => hinv s e h)
    (fun s e hI _ hs => hstep s e hI hs) hI hs (everyStep_of_forall (fun _ _ => trivial) s events)

/-- The same where no invariant is needed beside the property. -/
theorem always_iff_everyStep {step : S → E → S} {ok : S → E → Prop} {P : S → Prop}
    (hstep : ∀ s e, P s → (P (step s e) ↔ ok s e)) {s : S} (hs : P s) (events : List E) :
    Always step P s events ↔ EveryStep step ok s events :=
  always_iff_everyStep_of_inv (I := fun _ => True) (fun _ _ _ => trivial)
    (fun s e _ hP => hstep s e hP) trivial hs events

/-- Permitted steps from invariant states have a property all along a run. -/
theorem everyStep_of_inv {step : S → E → S} {ok Q : S → E → Prop} {P : S → Prop}
    (hstep : ∀ s e, P s → ok s e → P (step s e)) (hQ : ∀ s e, P s → ok s e → Q s e)
    {s : S} {events : List E} (hs : P s) (hok : EveryStep step ok s events) :
    EveryStep step Q s events := by
  induction events generalizing s with
  | nil => trivial
  | cons head tail ih => exact ⟨hQ s head hs hok.1, ih (hstep s head hs hok.1) hok.2⟩

/-- Step properties that say the same in invariant states say the same of a run. -/
theorem everyStep_congr {step : S → E → S} {P : S → Prop} {Q R : S → E → Prop}
    (hQR : ∀ s e, P s → (Q s e ↔ R s e)) {s : S} {events : List E}
    (h : Always step P s events) : EveryStep step Q s events ↔ EveryStep step R s events := by
  induction events generalizing s with
  | nil => exact Iff.rfl
  | cons head tail ih => exact and_congr (hQR s head h.1) (ih h.2)

/-- If steps that have a property keep an invariant, under which the property is the
same as a condition, then the runs that have the property are those of the condition. -/
theorem everyStep_iff_everyStep {step : S → E → S} {ok Q : S → E → Prop} {P : S → Prop}
    (hstep : ∀ s e, P s → Q s e → P (step s e)) (hok : ∀ s e, P s → (Q s e ↔ ok s e)) {s : S}
    (hs : P s) (events : List E) : EveryStep step Q s events ↔ EveryStep step ok s events := by
  constructor
  · intro h
    exact (everyStep_congr hok (always_of_everyStep hstep hs h)).mp h
  · intro h
    have hstep' : ∀ s e, P s → ok s e → P (step s e) :=
      fun s e hs he => hstep s e hs ((hok s e hs).mpr he)
    exact (everyStep_congr hok (always_of_everyStep hstep' hs h)).mpr h

/-- If permitted steps keep an invariant, the others break it, and what is broken stays so,
then a run ends by its steps in the one or in the other. -/
theorem run_kept_or_broken {step : S → E → S} {ok : S → E → Prop} {P B : S → Prop}
    (hkept : ∀ s e, P s → ok s e → P (step s e)) (hbroken : ∀ s e, P s → ¬ ok s e → B (step s e))
    (hstays : ∀ s e, B s → B (step s e)) {s : S} (hs : P s) (events : List E) :
    EveryStep step ok s events ∧ P (run step s events) ∨
      ¬ EveryStep step ok s events ∧ B (run step s events) := by
  induction events generalizing s with
  | nil => exact .inl ⟨trivial, hs⟩
  | cons head tail ih =>
    by_cases hhead : ok s head
    · rcases ih (hkept s head hs hhead) with ⟨htail, hend⟩ | ⟨htail, hend⟩
      · exact .inl ⟨⟨hhead, htail⟩, hend⟩
      · exact .inr ⟨fun h => htail h.2, hend⟩
    · exact .inr ⟨fun h => hhead h.1, (always_of_step hstays (hbroken s head hs hhead) tail).last⟩

/-- If the condition on a step is exactly that the step has a property and keeps
an invariant, then runs of such steps are exactly the runs that have both. -/
theorem everyStep_and_always_iff {step : S → E → S} {ok Q : S → E → Prop} {P : S → Prop}
    (hstep : ∀ s e, P s → ((Q s e ∧ P (step s e)) ↔ ok s e)) {s : S} (hs : P s)
    (events : List E) :
    (EveryStep step Q s events ∧ Always step P s events) ↔ EveryStep step ok s events := by
  induction events generalizing s with
  | nil => exact iff_of_true ⟨trivial, hs⟩ trivial
  | cons head tail ih =>
    constructor
    · rintro ⟨⟨hQ, hrest⟩, -, htail⟩
      have hnext : P (step s head) := by
        cases tail with
        | nil => exact htail
        | cons _ _ => exact htail.1
      exact ⟨(hstep s head hs).mp ⟨hQ, hnext⟩, (ih hnext).mp ⟨hrest, htail⟩⟩
    · rintro ⟨hok, hrest⟩
      obtain ⟨hQ, hnext⟩ := (hstep s head hs).mpr hok
      obtain ⟨htail, halways⟩ := (ih hnext).mpr hrest
      exact ⟨⟨hQ, htail⟩, hs, halways⟩

/-- A relation between two systems that every permitted step keeps holds after
every run of permitted steps. -/
theorem run_related {S' : Type*} {step : S → E → S} {step' : S' → E → S'} {ok : S → E → Prop}
    {R : S → S' → Prop} (hstep : ∀ s s' e, R s s' → ok s e → R (step s e) (step' s' e)) {s : S}
    {s' : S'} {events : List E} (hs : R s s') (hok : EveryStep step ok s events) :
    R (run step s events) (run step' s' events) := by
  induction events generalizing s s' with
  | nil => exact hs
  | cons head tail ih => exact ih (hstep s s' head hs hok.1) hok.2

section Since

variable {step : S → E → S} {sets spoils : S → E → Prop} {s : S} {events : List E}

/-- A step that sets was taken, and none that spoils since then. -/
def Since (step : S → E → S) (sets spoils : S → E → Prop) (s : S) (events : List E) : Prop :=
  ∃ before e after, events = before ++ e :: after ∧ sets (run step s before) e ∧
    EveryStep step (fun s e => ¬ spoils s e) (step (run step s before) e) after

/-- The last step sets, or it does not spoil what was set before. -/
theorem since_concat (events : List E) (e : E) :
    Since step sets spoils s (events ++ [e]) ↔
      sets (run step s events) e ∨
        Since step sets spoils s events ∧ ¬ spoils (run step s events) e := by
  constructor
  · rintro ⟨before, e', after, heq, hsets, hkept⟩
    rcases List.eq_nil_or_concat after with rfl | ⟨after, last, rfl⟩
    · obtain ⟨rfl, hlast⟩ := List.append_inj' heq rfl
      exact .inl ((List.cons.inj hlast).1 ▸ hsets)
    · rw [List.concat_eq_append] at heq hkept
      rw [← List.cons_append, ← List.append_assoc] at heq
      obtain ⟨rfl, hlast⟩ := List.append_inj' heq rfl
      rw [everyStep_append] at hkept
      refine .inr ⟨⟨before, e', after, rfl, hsets, hkept.1⟩, ?_⟩
      rw [run_append, run_cons, (List.cons.inj hlast).1]
      exact hkept.2.1
  · rintro (hsets | ⟨⟨before, e', after, rfl, hsets, hkept⟩, hsound⟩)
    · exact ⟨events, e, [], rfl, hsets, trivial⟩
    · refine ⟨before, e', after ++ [e], ?_, hsets, ?_⟩
      · rw [List.append_assoc, List.cons_append]
      · rw [run_append, run_cons] at hsound
        exact (everyStep_append ..).mpr ⟨hkept, hsound, trivial⟩

/-- It is set still where less spoils. -/
theorem Since.of_spoils {spoils' : S → E → Prop} (h : Since step sets spoils s events)
    (hless : ∀ s e, spoils' s e → spoils s e) : Since step sets spoils' s events := by
  obtain ⟨before, e, after, heq, hsets, hkept⟩ := h
  exact ⟨before, e, after, heq, hsets, hkept.imp fun s e hno hspoils => hno (hless s e hspoils)⟩

/-- A state property that some steps set, some spoil and all others keep holds
where it was set and not spoiled since. -/
theorem run_iff_since {I P : S → Prop} (hinv : ∀ s e, I s → I (step s e))
    (hsets : ∀ s e, I s → sets s e → P (step s e))
    (hspoils : ∀ s e, I s → ¬ sets s e → spoils s e → ¬ P (step s e))
    (hkeeps : ∀ s e, I s → ¬ sets s e → ¬ spoils s e → (P (step s e) ↔ P s))
    (hI : I s) (hs : ¬ P s) (events : List E) :
    P (run step s events) ↔ Since step sets spoils s events := by
  induction events using List.reverseRecOn with
  | nil =>
    refine iff_of_false hs ?_
    rintro ⟨before, e, after, heq, -⟩
    cases before <;> cases heq
  | append_singleton events e ih =>
    have hbefore : I (run step s events) := (always_of_step hinv hI events).last
    rw [since_concat, run_append, run_cons, run_nil, ← ih]
    by_cases hset : sets (run step s events) e
    · exact iff_of_true (hsets _ e hbefore hset) (.inl hset)
    · by_cases hspoil : spoils (run step s events) e
      · refine iff_of_false (hspoils _ e hbefore hset hspoil) ?_
        rintro (h | ⟨-, h⟩)
        · exact hset h
        · exact h hspoil
      · rw [hkeeps _ e hbefore hset hspoil]
        constructor
        · intro h
          exact .inr ⟨h, hspoil⟩
        · rintro (h | ⟨h, -⟩)
          · exact absurd h hset
          · exact h

end Since

section Deleting

variable (step : S → E → S) (skip : S → E → Bool)

/-- The events of a run that are left when those are deleted that are to be
skipped in the states they come in. -/
def kept : S → List E → List E
  | _, [] => []
  | s, e :: events => if skip s e then kept (step s e) events else e :: kept (step s e) events

/-- What is left of a run is what is left of its first part, then of the rest. -/
theorem kept_append (s : S) (first second : List E) :
    kept step skip s (first ++ second) =
      kept step skip s first ++ kept step skip (run step s first) second := by
  induction first generalizing s with
  | nil => rfl
  | cons e events ih =>
    rw [List.cons_append, kept, kept, run_cons, ih]
    split <;> rfl

/-- Events that change nothing can be deleted. -/
theorem run_kept {step : S → E → S} {skip : S → E → Bool}
    (h : ∀ s e, skip s e = true → step s e = s) (s : S) (events : List E) :
    run step s (kept step skip s events) = run step s events := by
  induction events generalizing s with
  | nil => rfl
  | cons e events ih =>
    rw [kept, run_cons]
    split
    · rename_i hskip
      have hsame := h s e hskip
      rw [hsame]
      exact ih s
    · rw [run_cons]
      exact ih (step s e)

end Deleting

section Simulation

variable {S' E' : Type*} {step : S → E → S} {step' : S' → E' → S'} {view : S → S'}
  {label : E → E'} {P : S → Prop}

/-- A run seen through a view that commutes with every step from an invariant
state is a run of the viewed steps. -/
theorem run_map (hinv : ∀ s e, P s → P (step s e))
    (hview : ∀ s e, P s → view (step s e) = step' (view s) (label e)) {s : S} (hs : P s)
    (events : List E) : view (run step s events) = run step' (view s) (events.map label) := by
  induction events generalizing s with
  | nil => rfl
  | cons head tail ih =>
    rw [run_cons, List.map_cons, run_cons, ← hview s head hs]
    exact ih (hinv s head hs)

/-- Step properties of the viewed run are step properties of the run. -/
theorem everyStep_map (hinv : ∀ s e, P s → P (step s e))
    (hview : ∀ s e, P s → view (step s e) = step' (view s) (label e)) {s : S} (hs : P s)
    (Q : S' → E' → Prop) (events : List E) :
    EveryStep step' Q (view s) (events.map label) ↔
      EveryStep step (fun s e => Q (view s) (label e)) s events := by
  induction events generalizing s with
  | nil => rfl
  | cons head tail ih =>
    rw [List.map_cons, EveryStep, EveryStep, ← hview s head hs]
    exact and_congr Iff.rfl (ih (hinv s head hs))

/-- So are the properties of the states on the way. -/
theorem always_map (hinv : ∀ s e, P s → P (step s e))
    (hview : ∀ s e, P s → view (step s e) = step' (view s) (label e)) {s : S} (hs : P s)
    (Q : S' → Prop) (events : List E) :
    Always step' Q (view s) (events.map label) ↔ Always step (fun s => Q (view s)) s events := by
  induction events generalizing s with
  | nil => rfl
  | cons head tail ih =>
    rw [List.map_cons, Always, Always, ← hview s head hs]
    exact and_congr Iff.rfl (ih (hinv s head hs))

end Simulation

section Progress

variable {step : S → E → S} {P : S → Prop} {rank : S → ℕ}

/-- A rank that no step raises is not raised by a run. -/
theorem rank_run_le (hinv : ∀ s e, P s → P (step s e))
    (hle : ∀ s e, P s → rank (step s e) ≤ rank s) {s : S} (hs : P s) (events : List E) :
    rank (run step s events) ≤ rank s := by
  induction events generalizing s with
  | nil => exact le_rfl
  | cons head tail ih => exact (ih (hinv s head hs)).trans (hle s head hs)

/-- It falls in a run in which an event comes that lowers it in the states in
which it waits for such an event. -/
theorem rank_run_lt (waits : S → Prop) (helpful : E → Prop) (hinv : ∀ s e, P s → P (step s e))
    (hle : ∀ s e, P s → rank (step s e) ≤ rank s)
    (hlt : ∀ s e, P s → waits s → helpful e → rank (step s e) < rank s)
    (hstays : ∀ s e, P s → waits s → ¬ helpful e → waits (step s e)) {s : S} (hs : P s)
    (hwaits : waits s) {events : List E} (hevents : ∃ e ∈ events, helpful e) :
    rank (run step s events) < rank s := by
  induction events generalizing s with
  | nil =>
    obtain ⟨e, he, -⟩ := hevents
    cases he
  | cons head tail ih =>
    rw [run_cons]
    by_cases hhead : helpful head
    · exact (rank_run_le hinv hle (hinv s head hs) tail).trans_lt (hlt s head hs hwaits hhead)
    · have htail : ∃ e ∈ tail, helpful e := by
        obtain ⟨e, he, hhelps⟩ := hevents
        rcases List.mem_cons.mp he with rfl | he
        · exact absurd hhelps hhead
        · exact ⟨e, he, hhelps⟩
      exact (ih (hinv s head hs) (hstays s head hs hwaits hhead) htail).trans_le (hle s head hs)

/-- As many rounds as the rank is high, in each of which it falls, bring it to
zero. -/
theorem rank_rounds_eq_zero {round : List E → Prop} (hinv : ∀ s e, P s → P (step s e))
    (hround : ∀ s events, P s → round events → rank s ≠ 0 → rank (run step s events) < rank s)
    (hle : ∀ s e, P s → rank (step s e) ≤ rank s) {s : S} (hs : P s) {rounds : List (List E)}
    (hrounds : ∀ events ∈ rounds, round events) (hrank : rank s ≤ rounds.length) :
    rank (run step s rounds.flatten) = 0 := by
  induction rounds generalizing s with
  | nil => exact Nat.le_zero.mp hrank
  | cons head tail ih =>
    rw [List.flatten_cons, run_append]
    have hhead := hround s head hs (hrounds head List.mem_cons_self)
    have hnext := rank_run_le hinv hle hs head
    have hafter : P (run step s head) := (always_of_step hinv hs head).last
    refine ih hafter (fun events he => hrounds events (List.mem_cons_of_mem _ he)) ?_
    rw [List.length_cons] at hrank
    omega

end Progress

end KdeConnectNx.Runs
