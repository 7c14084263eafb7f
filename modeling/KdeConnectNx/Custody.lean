import Mathlib.Logic.Basic

/-!
# Custody of resources

Resources are obtained, pass from one owner to another, and are closed. When
every step is one of these, each resource that was obtained is open in the
hands of one owner, or has been closed once.
-/

namespace KdeConnectNx

/-- Which resources there are, who holds them and how often each was closed. -/
structure Custody (ω ρ : Type) where
  obtained : ρ → Prop
  holds : ω → ρ → Prop
  closes : ρ → Nat

namespace Custody

variable {ω ρ : Type} {c c' : Custody ω ρ}

/-- Nothing is held twice, nothing is held closed and nothing is lost. -/
structure Sound (c : Custody ω ρ) : Prop where
  unique : ∀ p q r, c.holds p r → c.holds q r → p = q
  known : ∀ p r, c.holds p r → c.obtained r
  unclosed : ∀ p r, c.holds p r → c.closes r = 0
  settled : ∀ r, c.obtained r → c.closes r = 1 ∨ ∃ p, c.holds p r
  untouched : ∀ r, ¬ c.obtained r → c.closes r = 0

/-- A resource is closed once, or open and held. -/
theorem Sound.cases (h : c.Sound) {r : ρ} (hr : c.obtained r) :
    c.closes r = 1 ∨ c.closes r = 0 ∧ ∃ p, c.holds p r := by
  rcases h.settled r hr with hclosed | ⟨p, hp⟩
  · exact .inl hclosed
  · exact .inr ⟨h.unclosed p r hp, p, hp⟩

/-- What an owner may do. -/
inductive Step (c c' : Custody ω ρ) : Prop
  | stay (hobtained : ∀ r, c'.obtained r ↔ c.obtained r)
      (hholds : ∀ p r, c'.holds p r ↔ c.holds p r) (hcloses : ∀ r, c'.closes r = c.closes r)
  /-- A new resource comes into the hands of an owner. -/
  | obtain (o : ω) (r : ρ) (hnew : ¬ c.obtained r)
      (hobtained : ∀ x, c'.obtained x ↔ c.obtained x ∨ x = r)
      (hholds : ∀ p x, c'.holds p x ↔ c.holds p x ∨ p = o ∧ x = r)
      (hcloses : ∀ x, c'.closes x = c.closes x)
  /-- An owner hands all it holds to one that holds nothing. -/
  | pass (o o' : ω) (hne : o ≠ o') (hempty : ∀ r, ¬ c.holds o' r)
      (hobtained : ∀ r, c'.obtained r ↔ c.obtained r)
      (hholds : ∀ p r, c'.holds p r ↔ p ≠ o ∧ p ≠ o' ∧ c.holds p r ∨ p = o' ∧ c.holds o r)
      (hcloses : ∀ r, c'.closes r = c.closes r)
  /-- An owner closes all it holds. -/
  | close (o : ω) (hobtained : ∀ r, c'.obtained r ↔ c.obtained r)
      (hholds : ∀ p r, c'.holds p r ↔ p ≠ o ∧ c.holds p r)
      (hclosed : ∀ r, c.holds o r → c'.closes r = c.closes r + 1)
      (hcloses : ∀ r, ¬ c.holds o r → c'.closes r = c.closes r)

/-- Custody is kept by every step. -/
theorem Sound.step (h : c.Sound) (hs : Step c c') : c'.Sound := by
  cases hs with
  | stay hobtained hholds hcloses =>
    refine ⟨?_, ?_, ?_, ?_, ?_⟩
    · intro p q r hp hq
      exact h.unique p q r ((hholds p r).mp hp) ((hholds q r).mp hq)
    · intro p r hp
      exact (hobtained r).mpr (h.known p r ((hholds p r).mp hp))
    · intro p r hp
      rw [hcloses, h.unclosed p r ((hholds p r).mp hp)]
    · intro r hr
      rw [hcloses]
      rcases h.settled r ((hobtained r).mp hr) with hclosed | ⟨p, hp⟩
      · exact .inl hclosed
      · exact .inr ⟨p, (hholds p r).mpr hp⟩
    · intro r hr
      rw [hcloses, h.untouched r (mt (hobtained r).mpr hr)]
  | obtain o r hnew hobtained hholds hcloses =>
    have hfree : ∀ p, ¬ c.holds p r := fun p hp => hnew (h.known p r hp)
    refine ⟨?_, ?_, ?_, ?_, ?_⟩
    · intro p q x hp hq
      rcases (hholds p x).mp hp with hp | ⟨rfl, rfl⟩
      · rcases (hholds q x).mp hq with hq | ⟨-, rfl⟩
        · exact h.unique p q x hp hq
        · exact absurd hp (hfree p)
      · rcases (hholds q x).mp hq with hq | ⟨rfl, -⟩
        · exact absurd hq (hfree q)
        · rfl
    · intro p x hp
      refine (hobtained x).mpr ?_
      rcases (hholds p x).mp hp with hp | ⟨-, rfl⟩
      · exact .inl (h.known p x hp)
      · exact .inr rfl
    · intro p x hp
      rw [hcloses]
      rcases (hholds p x).mp hp with hp | ⟨-, rfl⟩
      · exact h.unclosed p x hp
      · exact h.untouched x hnew
    · intro x hx
      rw [hcloses]
      rcases (hobtained x).mp hx with hx | rfl
      · rcases h.settled x hx with hclosed | ⟨p, hp⟩
        · exact .inl hclosed
        · exact .inr ⟨p, (hholds p x).mpr (.inl hp)⟩
      · exact .inr ⟨o, (hholds o x).mpr (.inr ⟨rfl, rfl⟩)⟩
    · intro x hx
      rw [hcloses]
      exact h.untouched x fun hold => hx ((hobtained x).mpr (.inl hold))
  | pass o o' hne hempty hobtained hholds hcloses =>
    refine ⟨?_, ?_, ?_, ?_, ?_⟩
    · intro p q r hp hq
      rcases (hholds p r).mp hp with ⟨hpo, -, hp⟩ | ⟨rfl, hp⟩
      · rcases (hholds q r).mp hq with ⟨-, -, hq⟩ | ⟨rfl, hq⟩
        · exact h.unique p q r hp hq
        · exact absurd (h.unique p o r hp hq) hpo
      · rcases (hholds q r).mp hq with ⟨hqo, -, hq⟩ | ⟨rfl, -⟩
        · exact absurd (h.unique q o r hq hp) hqo
        · rfl
    · intro p r hp
      rcases (hholds p r).mp hp with ⟨-, -, hp⟩ | ⟨-, hp⟩
      · exact (hobtained r).mpr (h.known p r hp)
      · exact (hobtained r).mpr (h.known o r hp)
    · intro p r hp
      rw [hcloses]
      rcases (hholds p r).mp hp with ⟨-, -, hp⟩ | ⟨-, hp⟩
      · exact h.unclosed p r hp
      · exact h.unclosed o r hp
    · intro r hr
      rw [hcloses]
      rcases h.settled r ((hobtained r).mp hr) with hclosed | ⟨p, hp⟩
      · exact .inl hclosed
      · by_cases heq : p = o
        · rw [heq] at hp
          exact .inr ⟨o', (hholds o' r).mpr (.inr ⟨rfl, hp⟩)⟩
        · have hne' : p ≠ o' := by
            rintro rfl
            exact hempty r hp
          exact .inr ⟨p, (hholds p r).mpr (.inl ⟨heq, hne', hp⟩)⟩
    · intro r hr
      rw [hcloses, h.untouched r (mt (hobtained r).mpr hr)]
  | close o hobtained hholds hclosed hcloses =>
    refine ⟨?_, ?_, ?_, ?_, ?_⟩
    · intro p q r hp hq
      exact h.unique p q r ((hholds p r).mp hp).2 ((hholds q r).mp hq).2
    · intro p r hp
      exact (hobtained r).mpr (h.known p r ((hholds p r).mp hp).2)
    · intro p r hp
      obtain ⟨hne, hp⟩ := (hholds p r).mp hp
      rw [hcloses r fun ho => hne (h.unique p o r hp ho)]
      exact h.unclosed p r hp
    · intro r hr
      by_cases ho : c.holds o r
      · rw [hclosed r ho, h.unclosed o r ho]
        exact .inl rfl
      · rw [hcloses r ho]
        rcases h.settled r ((hobtained r).mp hr) with hclosed | ⟨p, hp⟩
        · exact .inl hclosed
        · refine .inr ⟨p, (hholds p r).mpr ⟨?_, hp⟩⟩
          rintro rfl
          exact ho hp
    · intro r hr
      have hold := mt (hobtained r).mpr hr
      rw [hcloses r fun ho => hold (h.known o r ho)]
      exact h.untouched r hold

end Custody

end KdeConnectNx
