import Mathlib.Algebra.Ring.Nat
import Mathlib.Tactic.Common
import Switchyard.Numeric.Binary64

/-! Quotients of whole numbers. Rounding depends on the value of a fraction alone, as far as
powers of two go, and whole numbers up to `2 ^ 53` are numbers themselves; so the quotient of
two of them is rounded once. -/
namespace Switchyard.Binary64

theorem roundDiv_one (n : Nat) : roundDiv n 1 = n := by
  simp [roundDiv, Nat.mod_one]

theorem roundDiv_mul (num den : Nat) {k : Nat} (h : 0 < k) :
    roundDiv (num * k) (den * k) = roundDiv num den := by
  have hlt : den * k < 2 * (num % den * k) ↔ den < 2 * (num % den) := by
    rw [← Nat.mul_assoc]
    exact Nat.mul_lt_mul_right h
  have heq : den * k = 2 * (num % den * k) ↔ den = 2 * (num % den) := by
    rw [← Nat.mul_assoc]
    exact Nat.mul_left_inj (Nat.pos_iff_ne_zero.1 h)
  simp only [roundDiv, Nat.mul_div_mul_right _ _ h, Nat.mul_mod_mul_right, hlt, heq]

theorem scaled_mul (base num den k : Nat) (e : Int) :
    scaled base (num * k) (den * k) e =
      ((scaled base num den e).1 * k, (scaled base num den e).2 * k) := by
  cases e <;> simp only [scaled, Nat.mul_right_comm]

theorem log2_mul_two_pow {n : Nat} (h : n ≠ 0) (k : Nat) : (n * 2 ^ k).log2 = n.log2 + k := by
  have hk : 0 < 2 ^ k := Nat.two_pow_pos k
  rw [Nat.log2_eq_iff (Nat.mul_ne_zero h (Nat.pos_iff_ne_zero.1 hk)), Nat.pow_add,
    Nat.add_right_comm, Nat.pow_add _ (_ + 1)]
  exact ⟨Nat.mul_le_mul_right _ (Nat.log2_self_le h),
    Nat.mul_lt_mul_of_pos_right Nat.lt_log2_self hk⟩

/-- Rounding depends on the value of a fraction. -/
theorem ofRatio_mul_two_pow (negative : Bool) (num : Nat) {den : Nat} (h : den ≠ 0) (k : Nat) :
    ofRatio negative (num * 2 ^ k) (den * 2 ^ k) = ofRatio negative num den := by
  have hk : 0 < 2 ^ k := Nat.two_pow_pos k
  by_cases hnum : num = 0
  · simp [hnum, ofRatio]
  · have hnum' : num * 2 ^ k ≠ 0 := Nat.mul_ne_zero hnum (Nat.pos_iff_ne_zero.1 hk)
    have hrough : (((num * 2 ^ k).log2 : Int) - ((den * 2 ^ k).log2 : Int) - 53) =
        (num.log2 : Int) - (den.log2 : Int) - 53 := by
      rw [log2_mul_two_pow hnum, log2_mul_two_pow h]
      push_cast
      omega
    simp only [ofRatio, if_neg hnum, if_neg hnum', hrough, scaled_mul, roundDiv_mul _ _ hk,
      Nat.mul_div_mul_right _ _ hk]

/-- A whole number below `2 ^ 53` keeps all its bits, moved to the left. -/
theorem ofNat_of_log2 {n d : Nat} (h : n ≠ 0) (hd : n.log2 + d = 52) :
    ofNat n = .finite false (n * 2 ^ d) (-d) := by
  have hlow : 2 ^ 52 ≤ n * 2 ^ d := by
    rw [← hd, Nat.pow_add]
    exact Nat.mul_le_mul_right _ (Nat.log2_self_le h)
  have hhigh : n * 2 ^ d < 2 ^ 53 := by
    have := Nat.mul_lt_mul_of_pos_right (Nat.lt_log2_self (n := n)) (Nat.two_pow_pos d)
    rwa [← Nat.pow_add, Nat.add_right_comm, hd] at this
  have hrough : (n.log2 : Int) - ((1 : Nat).log2 : Int) - 53 = Int.negSucc d := by
    have : (1 : Nat).log2 = 0 := by decide
    omega
  have hwide : ¬ n * 2 ^ (d + 1) < 2 * fullMantissa := by
    rw [Nat.pow_succ, ← Nat.mul_assoc, fullMantissa]
    omega
  have hfitted : max (Int.negSucc d + 1) minExponent = -d := by
    unfold minExponent
    omega
  have hscaled : scaled 2 n 1 (-d) = (n * 2 ^ d, 1) := by
    cases d with
    | zero => simp [scaled]
    | succ k => rfl
  have hround : ¬ n * 2 ^ d = 2 * fullMantissa := by
    rw [fullMantissa]
    omega
  have hmax : ¬ maxExponent < -(d : Int) := by
    unfold maxExponent
    omega
  have hrest : scaled 2 n 1 (Int.negSucc d) = (n * 2 ^ (d + 1), 1) := rfl
  simp only [ofNat, ofRatio, if_neg h, hrough, hrest, Nat.div_one, if_neg hwide, hfitted, hscaled,
    roundDiv_one, if_neg hround, if_neg hmax]

/-- A positive whole number up to `2 ^ 53` is a number. -/
theorem ofNat_exact {n : Nat} (h : n ≠ 0) (hle : n ≤ 2 ^ 53) :
    ∃ m e i, ofNat n = .finite false m e ∧ fraction m e = (n * 2 ^ i, 2 ^ i) := by
  rcases Nat.eq_or_lt_of_le hle with rfl | hlt
  · exact ⟨fullMantissa, 1, 0, by decide, by decide⟩
  · obtain ⟨d, hd⟩ : ∃ d, n.log2 + d = 52 :=
      ⟨52 - n.log2, Nat.add_sub_cancel' (Nat.le_of_lt_succ ((Nat.log2_lt h).2 hlt))⟩
    refine ⟨_, _, d, ofNat_of_log2 h hd, ?_⟩
    cases d with
    | zero => simp [fraction]
    | succ k => rfl

theorem ofRatio_zero (negative : Bool) (den : Nat) :
    ofRatio negative 0 den = .finite negative 0 minExponent := rfl

/-- The quotient of whole numbers up to `2 ^ 53` is rounded once. -/
theorem ofQuotient_eq_ofRatio {num den : Nat} (hnum : num ≤ 2 ^ 53) (hden : den ≤ 2 ^ 53)
    (hpos : den ≠ 0) : ofQuotient num den = ofRatio false num den := by
  obtain ⟨n, k, j, hn, hfn⟩ := ofNat_exact hpos hden
  by_cases hzero : num = 0
  · have hfraction : (fraction 0 minExponent).1 = 0 := rfl
    rw [hzero, ofQuotient, ofNat, ofRatio_zero, hn, dividedBy, hfraction, Nat.zero_mul,
      ofRatio_zero, ofRatio_zero]
  · obtain ⟨m, e, i, hm, hfm⟩ := ofNat_exact hzero hnum
    have hvalue : ofQuotient num den =
        ofRatio false (num * 2 ^ i * 2 ^ j) (2 ^ i * (den * 2 ^ j)) := by
      rw [ofQuotient, hm, hn, dividedBy, hfm, hfn]
    rw [hvalue, Nat.mul_assoc, ← Nat.pow_add, Nat.mul_left_comm, ← Nat.pow_add,
      ofRatio_mul_two_pow false num hpos]

end Switchyard.Binary64
