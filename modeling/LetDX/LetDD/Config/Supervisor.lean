import LetDX.LetDD.Config.Results

/-! # The option of the supervisor

The check of the number of parts lets two through, and the third is read all the
same.
-/

namespace LetDX.LetDD

open Parsing

/-- The count in a part, if there is a positive one. -/
def PositiveCount (part : List U8) (value : U64) : Prop :=
  parseUint part 10 64 = some value ∧ 1 ≤ value.toNat

theorem gives_positiveCount_iff {name : String} {part : List U8} {value : U64} :
    Gives (positiveCount name part) value ↔ PositiveCount part value := by
  rw [positiveCount, gives_positive_iff, decide_eq_true_iff]
  rfl

/-- The supervisor that is read from these parts. -/
inductive SupervisorParts : List (List U8) → Supervisor → Prop
  | three {first second third : List U8} {attempt : U64} {maximum minimum : Duration}
      (hattempt : PositiveCount first attempt) (hmaximum : PositiveDuration second maximum)
      (hminimum : PositiveDuration third minimum) :
      SupervisorParts [first, second, third] (newSupervisor attempt maximum minimum)

/-- There are two parts, and both of them are valid. -/
def MinimumMissing (parts : List (List U8)) : Prop :=
  ∃ first second attempt maximum, parts = [first, second] ∧ PositiveCount first attempt ∧
    PositiveDuration second maximum

section Outcomes

variable {input : List U8}

theorem parseSupervisor_gives_iff {supervisor : Supervisor} (hinput : input ≠ []) :
    Gives (parseSupervisor input) supervisor ↔
      SupervisorParts (input.splitOn (character '/')) supervisor := by
  rw [parseSupervisor, if_neg hinput]
  generalize input.splitOn (character '/') = parts
  dsimp only
  split
  next hlength =>
    refine ⟨fun hgives => (not_gives_throw _ _ hgives).elim, fun hparts => ?_⟩
    cases hparts
    simp at hlength
  next hlength =>
    simp only [gives_bind_iff, gives_index_iff, gives_positiveCount_iff,
      gives_positiveDuration_iff, gives_pure_iff]
    constructor
    · rintro ⟨first, hfirst, attempt, hattempt, second, hsecond, maximum, hmaximum, third, hthird,
        minimum, hminimum, rfl⟩
      rcases parts with _ | ⟨first', _ | ⟨second', _ | ⟨third', _ | ⟨fourth, rest⟩⟩⟩⟩
      · cases hfirst
      · cases hsecond
      · cases hthird
      · obtain rfl := Option.some.inj hfirst
        obtain rfl := Option.some.inj hsecond
        obtain rfl := Option.some.inj hthird
        exact .three hattempt hmaximum hminimum
      · simp only [List.length_cons] at hlength
        omega
    · intro hparts
      cases hparts with
      | three hattempt hmaximum hminimum =>
          exact ⟨_, rfl, _, hattempt, _, rfl, _, hmaximum, _, rfl, _, hminimum, rfl⟩

/-- The third part is indexed whenever the first two are valid. -/
theorem parseSupervisor_returns_iff :
    Returns (parseSupervisor input) ↔ ¬MinimumMissing (input.splitOn (character '/')) := by
  by_cases hinput : input = []
  · subst hinput
    refine iff_of_true (fun hnone => by cases hnone) ?_
    rintro ⟨first, second, attempt, maximum, hparts, _⟩
    cases hparts
  rw [parseSupervisor, if_neg hinput]
  generalize input.splitOn (character '/') = parts
  dsimp only
  split
  next hlength =>
    refine iff_of_true (.throw _) ?_
    rintro ⟨first, second, attempt, maximum, rfl, _⟩
    simp at hlength
  next hlength =>
    have hcount (name : String) (part : List U8) : Returns (positiveCount name part) :=
      .positive name _ _ part
    have hduration (name : String) (part : List U8) : Returns (positiveDuration name part) :=
      .positive name parseDuration _ part
    simp only [returns_bind_iff, returns_index_iff, gives_index_iff, gives_positiveCount_iff,
      gives_positiveDuration_iff, hcount, hduration, Returns.pure, true_and, implies_true,
      and_true]
    constructor
    · rintro ⟨_, hnext⟩ ⟨first, second, attempt, maximum, rfl, hattempt, hmaximum⟩
      have houtside := ((hnext first rfl attempt hattempt).2 second rfl maximum hmaximum)
      simp at houtside
    · intro hnot
      refine ⟨by omega, fun first hfirst attempt hattempt => ⟨by omega, ?_⟩⟩
      intro second hsecond maximum hmaximum
      by_contra hshort
      obtain ⟨first', second', rfl⟩ := List.length_eq_two.mp (show parts.length = 2 by omega)
      obtain rfl := Option.some.inj hfirst
      obtain rfl := Option.some.inj hsecond
      exact hnot ⟨_, _, attempt, maximum, rfl, hattempt, hmaximum⟩

end Outcomes

/-- What is promised for an input: no part is read that there is not, and only
the three parts of a supervisor make one. -/
structure SupervisorParsed (input : List U8) : Prop where
  returns : Returns (parseSupervisor input)
  parts : input ≠ [] → ∀ supervisor, Gives (parseSupervisor input) supervisor →
    1 ≤ supervisor.cancelAfter.toNat ∧ 0 < supervisor.maximumDelay.toInt ∧
      0 < supervisor.minimumDelay.toInt ∧
      ∃ attempt maximum minimum, input.splitOn (character '/') = [attempt, maximum, minimum] ∧
        parseUint attempt 10 64 = some supervisor.cancelAfter ∧
        parseDuration maximum = some supervisor.maximumDelay ∧
        parseDuration minimum = some supervisor.minimumDelay

/-- The parser keeps its promise unless the string has just two parts, both valid. -/
theorem supervisorParsed_iff (input : List U8) :
    SupervisorParsed input ↔ ¬MinimumMissing (input.splitOn (character '/')) := by
  rw [← parseSupervisor_returns_iff]
  refine ⟨SupervisorParsed.returns, fun hreturns => ⟨hreturns, ?_⟩⟩
  intro hinput supervisor hgives
  rw [parseSupervisor_gives_iff hinput] at hgives
  generalize hparts : input.splitOn (character '/') = parts at hgives
  cases hgives with
  | three hattempt hmaximum hminimum =>
      exact ⟨hattempt.2, hmaximum.2, hminimum.2, _, _, _, rfl, hattempt.1, hmaximum.1, hminimum.1⟩

/-- The text `3/10s`, with no minimum behind it. -/
def attemptsAndMaximum : List U8 :=
  text ['3', '/', '1', '0', 's']

/-- The parser panics. -/
theorem attemptsAndMaximum_panics :
    ¬SupervisorParsed attemptsAndMaximum ∧ (parseSupervisor attemptsAndMaximum).run = none := by
  have hpanics : (parseSupervisor attemptsAndMaximum).run = none := by decide +kernel
  exact ⟨fun hparsed => hparsed.returns hpanics, hpanics⟩

end LetDX.LetDD
