import LetDX.LetDD.Supervisor
import Mathlib.Tactic.NormNum

/-! # The delays between retries

The delay doubles with every try until it reaches the maximum, as long as the
product of 64 bits can be told from one that has wrapped.
-/

namespace LetDX.LetDD.Supervisor

/-- The delay before the clamp, over all integers. -/
def product (s : Supervisor) : Int :=
  s.minimumDelay.toInt * 2 ^ (s.currentTry.toNat - 1)

/-- The delay is the one over all integers. -/
def BackoffExact (s : Supervisor) : Prop :=
  s.calculateBackoff.toInt = min s.maximumDelay.toInt s.product

/-- The product fits, or no product matters, or what is left of it in 64 bits is
a positive integer of no less than the maximum. -/
def Distinct (s : Supervisor) : Prop :=
  s.product < 2 ^ 63 ∨ s.maximumDelay.toInt ≤ s.minimumDelay.toInt ∨
    s.maximumDelay.toInt ≤ s.product % 2 ^ 64 ∧ s.product % 2 ^ 64 < 2 ^ 63

variable {s : Supervisor}

theorem toNat_try_pred (htry : s.currentTry ≠ 0) :
    (s.currentTry - 1).toNat = s.currentTry.toNat - 1 := by
  have hpos : 1 ≤ s.currentTry.toNat := Nat.pos_of_ne_zero (BitVec.toNat_ne.mp htry)
  exact BitVec.toNat_sub_of_le (BitVec.le_def.mpr hpos)

/-- The shift and the multiplication lose what is above 64 bits. -/
theorem toInt_shifted (htry : s.currentTry ≠ 0) :
    (((1 : Duration) <<< (s.currentTry - 1)) * s.minimumDelay).toInt =
      s.product.bmod (2 ^ 64) := by
  have hone : (1 : Duration).toNat = 1 := rfl
  rw [BitVec.toInt_mul, BitVec.shiftLeft_eq', BitVec.toInt_shiftLeft, toNat_try_pred htry,
    Int.bmod_mul_bmod, product, mul_comm, hone, Nat.one_shiftLeft, Nat.cast_pow]
  rfl

theorem toInt_calculateBackoff (htry : s.currentTry ≠ 0) : s.calculateBackoff.toInt =
    min s.maximumDelay.toInt (max s.minimumDelay.toInt (s.product.bmod (2 ^ 64))) := by
  rw [← toInt_shifted htry, calculateBackoff]
  simp only [BitVec.slt_eq_decide, decide_eq_true_eq]
  split <;> split <;> omega

theorem le_product (hmin : 0 < s.minimumDelay.toInt) : s.minimumDelay.toInt ≤ s.product :=
  le_mul_of_one_le_right hmin.le (one_le_pow₀ (by decide))

/-- A product that has wrapped is taken for the minimum, for itself or for the maximum. -/
theorem exact_iff_distinct (hmin : 0 < s.minimumDelay.toInt) (htry : s.currentTry ≠ 0) :
    s.BackoffExact ↔ s.Distinct := by
  have hproduct := le_product hmin
  have hmaximum : s.maximumDelay.toInt < 2 ^ 63 := BitVec.toInt_lt
  rw [BackoffExact, toInt_calculateBackoff htry, Distinct, Int.bmod_eq_emod]
  split <;> omega

/-- With every try the product doubles. -/
theorem product_le {later : U64} (hmin : 0 < s.minimumDelay.toInt) (hlater : s.currentTry ≤ later) :
    s.product ≤ { s with currentTry := later }.product := by
  have htries : s.currentTry.toNat - 1 ≤ later.toNat - 1 :=
    Nat.sub_le_sub_right (BitVec.le_def.mp hlater) 1
  exact mul_le_mul_of_nonneg_left (pow_le_pow_right₀ (by decide) htries) hmin.le

/-- The delay is exact under just this condition. While it holds the delay never
decreases, and it stays at the maximum once it has reached it. -/
theorem backoff_exact_iff (hmin : 0 < s.minimumDelay.toInt) (htry : s.currentTry ≠ 0) :
    (s.BackoffExact ↔ s.Distinct) ∧ ∀ later : U64, s.currentTry ≤ later →
      s.Distinct → { s with currentTry := later }.Distinct →
      s.calculateBackoff.toInt ≤ { s with currentTry := later }.calculateBackoff.toInt ∧
        (s.calculateBackoff = s.maximumDelay →
          { s with currentTry := later }.calculateBackoff = s.maximumDelay) := by
  refine ⟨exact_iff_distinct hmin htry, ?_⟩
  intro later hlater hdistinct hdistinct'
  have htry' : later ≠ 0 := by
    rintro rfl
    exact htry (BitVec.le_zero_iff.mp hlater)
  have hexact := (exact_iff_distinct hmin htry).mpr hdistinct
  have hexact' :=
    (exact_iff_distinct (s := { s with currentTry := later }) hmin htry').mpr hdistinct'
  have hproduct := product_le hmin hlater
  rw [BackoffExact] at hexact hexact'
  dsimp only at hexact'
  refine ⟨by omega, ?_⟩
  intro hreached
  apply BitVec.eq_of_toInt_eq
  rw [hreached] at hexact
  omega

/-- A hundred tries with delays between one second and ten. -/
def patient (currentTry : U64) : Supervisor :=
  { newSupervisor 100 10000000000 1000000000 with currentTry }

theorem backoff_exact_second :
    ((patient 2).BackoffExact ↔ (patient 2).Distinct) ∧ ∀ later : U64, 2 ≤ later →
      (patient 2).Distinct → (patient later).Distinct →
      (patient 2).calculateBackoff.toInt ≤ (patient later).calculateBackoff.toInt ∧
        ((patient 2).calculateBackoff = (patient 2).maximumDelay →
          (patient later).calculateBackoff = (patient 2).maximumDelay) :=
  backoff_exact_iff (s := patient 2) (by decide) (by decide)

/-- The thirty-fifth product is negative, and the delay falls from the maximum to
the minimum. -/
theorem backoff_falls :
    0 < (patient 35).minimumDelay.toInt ∧ 0 < (patient 35).maximumDelay.toInt ∧
      ¬(patient 35).BackoffExact ∧
      (patient 34).calculateBackoff = (patient 34).maximumDelay ∧
      (patient 35).calculateBackoff = (patient 35).minimumDelay := by
  unfold BackoffExact
  decide

end LetDX.LetDD.Supervisor
