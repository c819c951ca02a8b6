import Mathlib.Algebra.Ring.Nat
import Mathlib.Tactic.Common
import Switchyard.Numeric.Digits

/-! Decimal digits read back. The digits of a number are those of its tenth and one more, so
what holds of numbers below ten and is passed on from the tenth holds of all. -/
namespace Switchyard.Numeric

/-! ### One digit -/

theorem digitValue?_digitChar {d : Nat} (h : d < 10) : digitValue? (digitChar d) = some d := by
  have all : ∀ d < 10, digitValue? (digitChar d) = some d := by decide
  exact all d h

theorem isDigit_digitChar {d : Nat} (h : d < 10) : isDigit (digitChar d) = true := by
  rw [isDigit, digitValue?_digitChar h, Option.isSome_some]

theorem isDigit_iff {c : Char} : isDigit c = true ↔ '0' ≤ c ∧ c ≤ '9' := by
  unfold isDigit digitValue?
  split
  · rename_i h
    exact ⟨fun _ => h, fun _ => rfl⟩
  · rename_i h
    exact ⟨nofun, fun hc => absurd hc h⟩

theorem exists_digitChar {c : Char} (h : isDigit c = true) : ∃ d < 10, c = digitChar d := by
  obtain ⟨hlow, hhigh⟩ := isDigit_iff.1 h
  have hlow' : 48 ≤ c.toNat := hlow
  have hhigh' : c.toNat ≤ 57 := hhigh
  refine ⟨c.toNat - 48, by omega, ?_⟩
  rw [digitChar, show 48 + (c.toNat - 48) = c.toNat by omega, Char.ofNat_toNat]

/-! ### All digits of a number -/

theorem digitsInto_append (fuel n : Nat) (acc : List Char) :
    digitsInto fuel n acc = digitsInto fuel n [] ++ acc := by
  induction fuel generalizing n acc with
  | zero => rfl
  | succ fuel ih =>
    simp only [digitsInto]
    split
    · rfl
    · rw [ih, ih _ [digitChar (n % 10)], List.append_assoc]
      rfl

/-- Fuel beyond what a number needs is left over. -/
theorem digitsInto_congr {f g n : Nat} (hf : n < 2 ^ (f + 1)) (hg : n < 2 ^ (g + 1))
    (acc : List Char) : digitsInto (f + 1) n acc = digitsInto (g + 1) n acc := by
  induction f generalizing g n acc with
  | zero =>
    have hn : n < 10 := by omega
    simp only [digitsInto, if_pos hn]
  | succ f ih =>
    by_cases hn : n < 10
    · simp only [digitsInto, if_pos hn]
    · cases g with
      | zero => omega
      | succ g =>
        have hf' : n / 10 < 2 ^ (f + 1) := by rw [Nat.pow_succ] at hf; omega
        have hg' : n / 10 < 2 ^ (g + 1) := by rw [Nat.pow_succ] at hg; omega
        have step (fuel : Nat) : digitsInto (fuel + 1 + 1) n acc =
            digitsInto (fuel + 1) (n / 10) (digitChar (n % 10) :: acc) := by
          rw [digitsInto, if_neg hn]
        rw [step, step, ih hf' hg']

theorem natDigits_of_lt {n : Nat} (h : n < 10) : natDigits n = [digitChar n] := by
  simp only [natDigits, digitsInto, if_pos h]

theorem natDigits_of_le {n : Nat} (h : 10 ≤ n) :
    natDigits n = natDigits (n / 10) ++ [digitChar (n % 10)] := by
  obtain ⟨k, hk⟩ : ∃ k, n.log2 = k + 1 := by
    refine Nat.exists_eq_succ_of_ne_zero fun h0 => ?_
    have := Nat.lt_log2_self (n := n)
    rw [h0] at this
    omega
  have hlog : n / 10 < 2 ^ (k + 1) := by
    have := Nat.lt_log2_self (n := n)
    rw [hk, Nat.pow_succ] at this
    omega
  rw [natDigits, hk, digitsInto, if_neg (by omega), digitsInto_append, natDigits,
    digitsInto_congr hlog Nat.lt_log2_self]

/-- From numbers below ten, and from the tenth to the number itself. -/
theorem tenth_induction {P : Nat → Prop} (small : ∀ n < 10, P n)
    (large : ∀ n, 10 ≤ n → P (n / 10) → P n) (n : Nat) : P n := by
  induction n using Nat.strongRecOn with
  | ind n ih =>
    by_cases hn : n < 10
    · exact small n hn
    · exact large n (by omega) (ih (n / 10) (by omega))

theorem isDigit_of_mem_natDigits (n : Nat) : ∀ c ∈ natDigits n, isDigit c = true := by
  induction n using tenth_induction with
  | small n h =>
    rw [natDigits_of_lt h]
    intro c hc
    rw [List.mem_singleton.1 hc]
    exact isDigit_digitChar h
  | large n h ih =>
    rw [natDigits_of_le h]
    intro c hc
    rcases List.mem_append.1 hc with hc | hc
    · exact ih c hc
    · rw [List.mem_singleton.1 hc]
      exact isDigit_digitChar (Nat.mod_lt _ (by decide))

theorem natDigits_ne_nil (n : Nat) : natDigits n ≠ [] := by
  by_cases h : n < 10
  · rw [natDigits_of_lt h]
    exact List.cons_ne_nil _ _
  · rw [natDigits_of_le (by omega)]
    simp

theorem length_natDigits_le {n k : Nat} (h : n < 10 ^ (k + 1)) : (natDigits n).length ≤ k + 1 := by
  induction k generalizing n with
  | zero =>
    rw [natDigits_of_lt (by omega)]
    exact Nat.le_refl 1
  | succ k ih =>
    by_cases hn : n < 10
    · rw [natDigits_of_lt hn]
      simp
    · rw [natDigits_of_le (by omega), List.length_append, List.length_singleton]
      have htenth : n / 10 < 10 ^ (k + 1) := by rw [Nat.pow_succ] at h; omega
      exact Nat.succ_le_succ (ih htenth)

/-- Only zero begins with a zero. -/
theorem head?_natDigits {n : Nat} (h : n ≠ 0) : (natDigits n).head? ≠ some '0' := by
  induction n using tenth_induction with
  | small n hn =>
    rw [natDigits_of_lt hn]
    have all : ∀ d < 10, d ≠ 0 → [digitChar d].head? ≠ some '0' := by decide
    exact all n hn h
  | large n hn ih =>
    obtain ⟨c, rest, hc⟩ := List.exists_cons_of_ne_nil (natDigits_ne_nil (n / 10))
    have hhead := ih (by omega)
    rw [hc] at hhead
    rwa [natDigits_of_le hn, hc]

/-! ### Reading -/

theorem readDigits_append (acc : Nat) (front back : List Char) :
    readDigits acc (front ++ back) = (readDigits acc front).bind (readDigits · back) := by
  induction front generalizing acc with
  | nil => rfl
  | cons c rest ih =>
    simp only [List.cons_append, readDigits]
    split
    · exact ih _
    · rfl

theorem readDigits_natDigits (n : Nat) : readDigits 0 (natDigits n) = some n := by
  induction n using tenth_induction with
  | small n h => simp [natDigits_of_lt h, readDigits, digitValue?_digitChar h]
  | large n h ih =>
    have hlast := digitValue?_digitChar (Nat.mod_lt n (show 0 < 10 by decide))
    rw [natDigits_of_le h, readDigits_append, ih, Option.bind_some]
    simp only [readDigits, hlast, Option.some.injEq]
    omega

theorem natDigits_injective : Function.Injective natDigits := by
  intro m n h
  have hread := congrArg (readDigits 0) h
  rw [readDigits_natDigits, readDigits_natDigits] at hread
  exact Option.some.inj hread

theorem readDigits_zeros (k : Nat) (cs : List Char) :
    readDigits 0 (List.replicate k '0' ++ cs) = readDigits 0 cs := by
  induction k with
  | zero => rfl
  | succ k ih => exact ih

/-! ### Fixed widths -/

theorem readDigits_padLeft (width n : Nat) :
    readDigits 0 (padLeft width (natDigits n)) = some n := by
  rw [padLeft, readDigits_zeros, readDigits_natDigits]

theorem length_padLeft {n k : Nat} (h : n < 10 ^ (k + 1)) :
    (padLeft (k + 1) (natDigits n)).length = k + 1 := by
  have := length_natDigits_le h
  rw [padLeft, List.length_append, List.length_replicate]
  omega

theorem isDigit_of_mem_padLeft (width n : Nat) :
    ∀ c ∈ padLeft width (natDigits n), isDigit c = true := by
  intro c hc
  rcases List.mem_append.1 hc with hc | hc
  · rw [List.eq_of_mem_replicate hc]
    decide
  · exact isDigit_of_mem_natDigits n c hc

theorem readNat_of_ne_nil {cs : List Char} (h : cs ≠ []) : readNat cs = readDigits 0 cs := by
  cases cs with
  | nil => exact absurd rfl h
  | cons c rest => rfl

end Switchyard.Numeric
