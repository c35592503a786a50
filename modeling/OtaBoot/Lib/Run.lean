import Mathlib.Tactic.Common

set_option autoImplicit false

namespace OtaBoot.Run

variable {σ ε : Type} (step : σ → ε → σ)

/-- The state after a list of events. -/
def after (s : σ) (events : List ε) : σ := events.foldl step s

/-- `P` holds at every event of the run, in the state it finds. -/
def Along (P : σ → ε → Prop) : σ → List ε → Prop
  | _, [] => True
  | s, event :: rest => P s event ∧ Along P (step s event) rest

variable {step}

@[simp] theorem after_nil (s : σ) : after step s [] = s := rfl

@[simp] theorem after_cons (s : σ) (event : ε) (rest : List ε) :
    after step s (event :: rest) = after step (step s event) rest := rfl

theorem after_append (s : σ) (first second : List ε) :
    after step s (first ++ second) = after step (after step s first) second :=
  List.foldl_append

theorem along_append (P : σ → ε → Prop) (s : σ) (first second : List ε) :
    Along step P s (first ++ second) ↔
      Along step P s first ∧ Along step P (after step s first) second := by
  induction first generalizing s with
  | nil => simp only [List.nil_append, Along, after_nil, true_and]
  | cons event rest ih => simp only [List.cons_append, Along, after_cons, ih, and_assoc]

/-- Invariant rule: a property that every permitted event preserves holds at the
end of a permitted run. -/
theorem invariant_after {I : σ → Prop} {P : σ → ε → Prop}
    (preserved : ∀ s event, I s → P s event → I (step s event))
    (events : List ε) : ∀ s, I s → Along step P s events → I (after step s events) := by
  induction events with
  | nil =>
      intro s holds _
      exact holds
  | cons event rest ih =>
      intro s holds permitted
      exact ih (step s event) (preserved s event holds permitted.1) permitted.2

theorem invariant_always {I : σ → Prop} (preserved : ∀ s event, I s → I (step s event))
    (events : List ε) : ∀ s, I s → I (after step s events) := by
  induction events with
  | nil =>
      intro s holds
      exact holds
  | cons event rest ih =>
      intro s holds
      exact ih (step s event) (preserved s event holds)

/-- What an invariant gives at one event holds at every event of the run. -/
theorem invariant_along {I : σ → Prop} {P Q : σ → ε → Prop}
    (preserved : ∀ s event, I s → P s event → I (step s event))
    (gives : ∀ s event, I s → P s event → Q s event)
    (events : List ε) : ∀ s, I s → Along step P s events → Along step Q s events := by
  induction events with
  | nil =>
      intro s _ _
      trivial
  | cons event rest ih =>
      intro s holds permitted
      exact ⟨gives s event holds permitted.1,
        ih (step s event) (preserved s event holds permitted.1) permitted.2⟩

/-- Two properties that agree under an invariant agree along every run: the invariant only
has to survive the events that have one of them. -/
theorem along_congr {I : σ → Prop} {P Q : σ → ε → Prop}
    (preserved : ∀ s event, I s → Q s event → I (step s event))
    (same : ∀ s event, I s → (P s event ↔ Q s event))
    (events : List ε) : ∀ s, I s → (Along step P s events ↔ Along step Q s events) := by
  induction events with
  | nil =>
      intro s _
      exact Iff.rfl
  | cons event rest ih =>
      intro s holds
      constructor
      · rintro ⟨first, others⟩
        have here := (same s event holds).mp first
        exact ⟨here, (ih (step s event) (preserved s event holds here)).mp others⟩
      · rintro ⟨here, others⟩
        exact ⟨(same s event holds).mpr here,
          (ih (step s event) (preserved s event holds here)).mpr others⟩

/-- `P` along a run, event by event. -/
theorem along_iff (P : σ → ε → Prop) (events : List ε) : ∀ s,
    Along step P s events ↔
      ∀ before event rest, events = before ++ event :: rest → P (after step s before) event := by
  induction events with
  | nil =>
      intro s
      simp [Along]
  | cons event rest ih =>
      intro s
      rw [Along, ih]
      constructor
      · intro holds before found tail split
        cases before with
        | nil =>
            obtain ⟨rfl, rfl⟩ := List.cons.inj split
            exact holds.1
        | cons first before =>
            obtain ⟨rfl, inner⟩ := List.cons.inj split
            exact holds.2 before found tail inner
      · intro holds
        constructor
        · exact holds [] event rest rfl
        · intro before found tail split
          exact holds (event :: before) found tail (by rw [split, List.cons_append])

theorem along_of_forall {P : σ → ε → Prop} (events : List ε)
    (holds : ∀ event ∈ events, ∀ s, P s event) (s : σ) : Along step P s events := by
  apply (along_iff P events s).mpr
  intro before event rest split
  apply holds
  rw [split]
  exact List.mem_append_right before List.mem_cons_self

/-- A flag that some events set and the others keep or clear: it is up exactly if
it was kept up since the start, or since the last event that set it. -/
theorem flag_after {F : σ → Prop} {sets keeps : σ → ε → Prop}
    (one : ∀ s event, F (step s event) ↔ sets s event ∨ F s ∧ keeps s event)
    (events : List ε) : ∀ s, F (after step s events) ↔
      F s ∧ Along step keeps s events ∨
      ∃ before event rest, events = before ++ event :: rest ∧
        sets (after step s before) event ∧
        Along step keeps (step (after step s before) event) rest := by
  induction events with
  | nil =>
      intro s
      simp [Along]
  | cons event rest ih =>
      intro s
      rw [after_cons, ih, one]
      constructor
      · intro up
        rcases up with ⟨set | kept, along⟩ | ⟨before, found, tail, rfl, set, along⟩
        · exact .inr ⟨[], event, rest, rfl, set, along⟩
        · exact .inl ⟨kept.1, kept.2, along⟩
        · exact .inr ⟨event :: before, found, tail, rfl, set, along⟩
      · intro up
        rcases up with ⟨held, kept, along⟩ | ⟨before, found, tail, split, set, along⟩
        · exact .inl ⟨.inr ⟨held, kept⟩, along⟩
        · cases before with
          | nil =>
              obtain ⟨rfl, rfl⟩ := List.cons.inj split
              exact .inl ⟨.inl set, along⟩
          | cons first before =>
              obtain ⟨rfl, rfl⟩ := List.cons.inj split
              exact .inr ⟨before, found, tail, rfl, set, along⟩

/-- `F` holds in every state of the run, the first and the last included. -/
def Within (step : σ → ε → σ) (F : σ → Prop) (s : σ) (events : List ε) : Prop :=
  F s ∧ Along step (fun t event => F (step t event)) s events

theorem Within.last {F : σ → Prop} (events : List ε) : ∀ s, Within step F s events →
    F (after step s events) := by
  induction events with
  | nil =>
      intro s held
      exact held.1
  | cons event rest ih =>
      intro s held
      exact ih (step s event) ⟨held.2.1, held.2.2⟩

theorem Within.front {F : σ → Prop} {s : σ} {first second : List ε}
    (held : Within step F s (first ++ second)) : F (after step s first) :=
  Within.last first s ⟨held.1, ((along_append _ s first second).mp held.2).1⟩

/-- A property that no permitted event establishes held all along if it holds at the end. -/
theorem within_of_back {F : σ → Prop} {P : σ → ε → Prop}
    (back : ∀ s event, P s event → F (step s event) → F s)
    (events : List ε) : ∀ s, Along step P s events → F (after step s events) →
      Within step F s events := by
  induction events with
  | nil =>
      intro s _ held
      exact ⟨held, trivial⟩
  | cons event rest ih =>
      intro s permitted held
      obtain ⟨next, along⟩ := ih (step s event) permitted.2 held
      exact ⟨back s event permitted.1 next, next, along⟩

/-- A property that holds at the end held all along, or since the last event that
established it. -/
theorem within_or_entered {F : σ → Prop} (s : σ) (events : List ε)
    (held : F (after step s events)) : Within step F s events ∨
      ∃ before event rest, events = before ++ event :: rest ∧ ¬ F (after step s before) ∧
        Within step F (step (after step s before) event) rest := by
  have one : ∀ s event, F (step s event) ↔
      (¬ F s ∧ F (step s event)) ∨ F s ∧ F (step s event) := by
    intro s event
    by_cases was : F s
    · simp only [was, not_true_eq_false, false_and, true_and, false_or]
    · simp only [was, not_false_eq_true, true_and, false_and, or_false]
  rcases (flag_after one events s).mp held with whole | ⟨before, event, rest, split, set, along⟩
  · exact .inl whole
  · exact .inr ⟨before, event, rest, split, set.1, set.2, along⟩

/-- An event of a kind either never occurs or has a last occurrence. -/
theorem never_or_last (P : σ → ε → Prop) (events : List ε) : ∀ s,
    Along step (fun t event => ¬ P t event) s events ∨
      ∃ before event rest, events = before ++ event :: rest ∧ P (after step s before) event ∧
        Along step (fun t event => ¬ P t event) (step (after step s before) event) rest := by
  induction events with
  | nil =>
      intro s
      exact .inl trivial
  | cons event rest ih =>
      intro s
      rcases ih (step s event) with never | ⟨before, found, tail, rfl, holds, none⟩
      · by_cases first : P s event
        · exact .inr ⟨[], event, rest, rfl, first, never⟩
        · exact .inl ⟨first, never⟩
      · exact .inr ⟨event :: before, found, tail, rfl, holds, none⟩

end OtaBoot.Run
