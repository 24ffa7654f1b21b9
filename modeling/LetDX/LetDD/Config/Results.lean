import LetDX.LetDD.Config.Parser

/-! # What a parser of options gives

One equivalence for each combinator: which values it returns, and when it returns
at all.
-/

namespace LetDX.LetDD

open Parsing

namespace Parsing

variable {α β : Type}

/-- The parser returns this value. -/
def Gives (parsing : Parsing α) (value : α) : Prop :=
  parsing.run = some (.ok value)

theorem gives_pure_iff {value value' : α} : Gives (pure value) value' ↔ value = value' := by
  refine ⟨fun hgives => ?_, fun hsame => hsame ▸ rfl⟩
  exact Except.ok.inj (Option.some.inj hgives)

theorem Gives.eq {parsing : Parsing α} {value value' : α}
    (hgives : Gives parsing value) (hgives' : Gives parsing value') : value = value' :=
  Except.ok.inj (Option.some.inj (hgives.symm.trans hgives'))

theorem not_gives_throw (error : ParserError) (value : α) : ¬Gives (throw error) value :=
  fun hgives => by cases hgives

theorem gives_bind_iff {parsing : Parsing α} {next : α → Parsing β} {value : β} :
    Gives (parsing >>= next) value ↔ ∃ first, Gives parsing first ∧ Gives (next first) value := by
  constructor
  · intro hgives
    rw [Gives, ExceptT.run_bind] at hgives
    cases hrun : parsing.run with
    | none =>
        rw [hrun] at hgives
        cases hgives
    | some parsed =>
        rw [hrun] at hgives
        cases parsed with
        | ok first => exact ⟨first, hrun, hgives⟩
        | error error => cases hgives
  · rintro ⟨first, hfirst, hnext⟩
    rw [Gives, ExceptT.run_bind, hfirst]
    exact hnext

theorem gives_ite_iff {condition : Prop} [Decidable condition] {first second : Parsing α}
    {value : α} : Gives (if condition then first else second) value ↔
      if condition then Gives first value else Gives second value := by
  split <;> rfl

theorem gives_index_iff {parts : List (List U8)} {position : Nat} {part : List U8} :
    Gives (index parts position) part ↔ parts[position]? = some part := by
  rw [index]
  cases parts[position]? with
  | none => exact ⟨fun hgives => (by cases hgives), fun hsome => (by cases hsome)⟩
  | some found => exact gives_pure_iff.trans (Option.some_inj).symm

theorem gives_positive_iff {name : String} {parse : List U8 → Option α} {isPositive : α → Bool}
    {part : List U8} {value : α} :
    Gives (positive name parse isPositive part) value ↔
      parse part = some value ∧ isPositive value = true := by
  rw [← Option.filter_eq_some_iff, positive]
  cases (parse part).filter isPositive with
  | none => exact ⟨fun hgives => (by cases hgives), fun hsome => (by cases hsome)⟩
  | some found => exact gives_pure_iff.trans (Option.some_inj).symm

theorem returns_bind_iff {parsing : Parsing α} {next : α → Parsing β} :
    Returns (parsing >>= next) ↔
      Returns parsing ∧ ∀ value, Gives parsing value → Returns (next value) := by
  rw [Returns, ExceptT.run_bind]
  cases hrun : parsing.run with
  | none => exact iff_of_false (fun hreturns => hreturns rfl) fun hreturns => hreturns.1 hrun
  | some parsed =>
      have hreturns : Returns parsing := fun hnone => by cases hrun.symm.trans hnone
      refine Iff.trans ?_ (and_iff_right hreturns).symm
      cases parsed with
      | ok first =>
          refine ⟨fun hnext value hgives => ?_, fun hnext => hnext first hrun⟩
          obtain rfl := Gives.eq hrun hgives
          exact hnext
      | error error =>
          refine iff_of_true (fun hnone => by cases hnone) fun value hgives => ?_
          cases hrun.symm.trans hgives

theorem returns_index_iff {parts : List (List U8)} {position : Nat} :
    Returns (index parts position) ↔ position < parts.length := by
  refine ⟨fun hreturns => ?_, Returns.index⟩
  by_contra houtside
  refine hreturns ?_
  rw [index, List.getElem?_eq_none (Nat.not_lt.mp houtside)]
  rfl

end Parsing

/-- The integer in a part, if there is a positive one. -/
def PositiveInteger (part : List U8) (value : Int) : Prop :=
  atoi part = some value ∧ 0 < value

/-- The duration in a part, if there is a positive one. -/
def PositiveDuration (part : List U8) (value : Duration) : Prop :=
  parseDuration part = some value ∧ 0 < value.toInt

theorem gives_positiveInteger_iff {name : String} {part : List U8} {value : Int} :
    Gives (positiveInteger name part) value ↔ PositiveInteger part value := by
  rw [positiveInteger, gives_positive_iff, decide_eq_true_iff]
  rfl

theorem gives_positiveDuration_iff {name : String} {part : List U8} {value : Duration} :
    Gives (positiveDuration name part) value ↔ PositiveDuration part value := by
  rw [positiveDuration, gives_positive_iff, BitVec.slt_eq_decide, decide_eq_true_iff]
  rfl

end LetDX.LetDD
