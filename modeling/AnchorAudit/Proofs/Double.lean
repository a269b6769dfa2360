import AnchorAudit.Double

/-! Where rounding an integer to a double overflows: half a step below the first power of two that is
out of range. The tie goes up there, since the greatest finite mantissa is odd. -/
namespace AnchorAudit

/-- From an odd quotient on, a half is enough to be rounded up. -/
theorem roundHalfEven_eq_succ_iff {num half k : Nat} (hhalf : 0 < half) (hk : k % 2 = 1)
    (hlt : num < 2 * half * (k + 1)) :
    roundHalfEven num (2 * half) = k + 1 ↔ 2 * half * k + half ≤ num := by
  have hpos : 0 < 2 * half := by omega
  have hdiv : 2 * half * (num / (2 * half)) + num % (2 * half) = num := Nat.div_add_mod num (2 * half)
  have hmod : num % (2 * half) < 2 * half := Nat.mod_lt num hpos
  have hle : num / (2 * half) ≤ k := Nat.le_of_lt_succ (Nat.div_lt_of_lt_mul hlt)
  unfold roundHalfEven
  dsimp only
  generalize num / (2 * half) = q at hdiv hle ⊢
  generalize num % (2 * half) = r at hdiv hmod ⊢
  rcases Nat.lt_or_eq_of_le hle with hq | rfl
  · have hnext : 2 * half * (q + 1) ≤ 2 * half * k := Nat.mul_le_mul_left _ hq
    rw [Nat.mul_succ] at hnext
    constructor
    · intro h
      split at h
      · omega
      split at h
      · omega
      split at h <;> omega
    · intro h
      omega
  · split
    · omega
    split
    · omega
    rw [if_neg (by omega)]
    omega

namespace Double

/-- The least integer whose nearest double is out of range. -/
def leastOverflow : Nat := Nat.pow 2 1024 - Nat.pow 2 970

theorem leastOverflow_eq : leastOverflow = Nat.pow 2 (970 + 54) - Nat.pow 2 970 := by
  rw [leastOverflow, show 1024 = 970 + 54 from rfl]

theorem binaryExponent_one {num : Nat} (h : num ≠ 0) : binaryExponent num 1 = num.log2 := by
  have hlog : Nat.log2 1 = 0 := by decide
  have hle : Nat.pow 2 num.log2 ≤ num := Nat.log2_self_le h
  have hneg : (-(num.log2 : Int)).toNat = 0 := by omega
  unfold binaryExponent
  dsimp only
  rw [hlog]
  simp only [Int.natCast_zero, Int.sub_zero, hneg, Int.toNat_natCast, Nat.one_mul]
  rw [if_neg]
  change ¬num * 1 < _
  omega

theorem isInfinite_ofSteps (negative : Bool) (mantissa : Nat) (exponent : Int) :
    (ofSteps negative mantissa exponent).isInfinite = true ↔
      greatestExponent < exponent ∨
        mantissa = Nat.pow 2 53 ∧ greatestExponent < exponent + 1 := by
  unfold ofSteps
  by_cases hm : mantissa = Nat.pow 2 53
  · rw [if_pos hm]
    dsimp only
    split
    · rename_i h
      simp [isInfinite, hm, h]
    · rename_i h
      have hlt : ¬greatestExponent < exponent := by omega
      simp [isInfinite, h, hlt]
  · rw [if_neg hm]
    dsimp only
    split
    · rename_i h
      simp [isInfinite, h]
    · rename_i h
      simp [isInfinite, h, hm]

theorem inSteps_one (num g : Nat) :
    inSteps num 1 (g + 1) = roundHalfEven num (2 * Nat.pow 2 g) := by
  have hleft : (-((g : Int) + 1)).toNat = 0 := by omega
  have hright : ((g : Int) + 1).toNat = g + 1 := by omega
  have hstep : Nat.pow 2 (g + 1) = 2 * Nat.pow 2 g := Nat.pow_succ'
  unfold inSteps
  rw [hleft, hright, hstep, Nat.one_mul]
  change roundHalfEven (num * 1) _ = _
  rw [Nat.mul_one]

theorem pow_succ_two (n : Nat) : Nat.pow 2 (n + 1) = 2 * Nat.pow 2 n := Nat.pow_succ'

theorem pow_le_pow_two {m n : Nat} (h : m ≤ n) : Nat.pow 2 m ≤ Nat.pow 2 n :=
  Nat.pow_le_pow_right (by decide) h

/-- Of an integer with `g + 54` binary digits the last `g + 1` are rounded away. Rounding carries into
a new digit from the last half step on. -/
theorem inSteps_carries_iff {g num : Nat} (hlog : num.log2 = g + 53) :
    inSteps num 1 (g + 1) = Nat.pow 2 53 ↔ Nat.pow 2 (g + 54) - Nat.pow 2 g ≤ num := by
  have hhalf : 0 < Nat.pow 2 g := Nat.pow_pos (by decide)
  have htop : Nat.pow 2 (g + 54) = Nat.pow 2 g * (2 * (9007199254740991 + 1)) := Nat.pow_add 2 g 54
  have hhigh : num < Nat.pow 2 (g + 54) := by
    have hexp : num.log2 + 1 = g + 54 := by omega
    rw [← hexp]
    exact Nat.lt_log2_self
  rw [← Nat.mul_assoc, Nat.mul_comm (Nat.pow 2 g)] at htop
  have hcarry := roundHalfEven_eq_succ_iff hhalf (by decide) (htop ▸ hhigh)
  rw [inSteps_one, show Nat.pow 2 53 = 9007199254740991 + 1 from rfl, hcarry, htop, Nat.mul_succ]
  omega

theorem overflows_iff {g num : Nat} (hnum : num ≠ 0) :
    ((g : Int) + 1 < (num.log2 : Int) - 52 ∨
        inSteps num 1 ((num.log2 : Int) - 52) = Nat.pow 2 53 ∧
          (g : Int) + 1 < (num.log2 : Int) - 52 + 1) ↔
      Nat.pow 2 (g + 54) - Nat.pow 2 g ≤ num := by
  have hlow : Nat.pow 2 num.log2 ≤ num := Nat.log2_self_le hnum
  have hhigh : num < Nat.pow 2 (num.log2 + 1) := Nat.lt_log2_self
  have htop : Nat.pow 2 (g + 54) = 2 * Nat.pow 2 (g + 53) := pow_succ_two (g + 53)
  have hhalf : Nat.pow 2 g ≤ Nat.pow 2 (g + 53) := pow_le_pow_two (by omega)
  rcases Nat.lt_trichotomy num.log2 (g + 53) with hlog | hlog | hlog
  · have hpow : Nat.pow 2 (num.log2 + 1) ≤ Nat.pow 2 (g + 53) := pow_le_pow_two hlog
    constructor <;> intro <;> omega
  · have hexp : (num.log2 : Int) - 52 = (g : Int) + 1 := by omega
    rw [hexp, inSteps_carries_iff hlog]
    omega
  · have hpow : Nat.pow 2 (g + 54) ≤ Nat.pow 2 num.log2 := pow_le_pow_two hlog
    constructor <;> intro <;> omega

theorem step_one {num : Nat} (h : num ≠ 0) :
    max (binaryExponent num 1 - 52) leastExponent = (num.log2 : Int) - 52 := by
  rw [binaryExponent_one h]
  unfold leastExponent
  omega

/-- Rounding an integer overflows exactly from the least overflow on, on either side of zero. -/
theorem isInfinite_ofInt (n : Int) :
    (ofInt n).isInfinite = true ↔ leastOverflow ≤ n.natAbs := by
  have hexponent : greatestExponent = ((970 : Nat) : Int) + 1 := rfl
  rw [leastOverflow_eq]
  unfold ofInt ofQuotient
  generalize n.natAbs = num
  generalize 970 = g at hexponent ⊢
  by_cases hnum : num = 0
  · have hhalf : 0 < Nat.pow 2 g := Nat.pow_pos (by decide)
    have htop : 2 * Nat.pow 2 g ≤ Nat.pow 2 (g + 54) := by
      rw [← pow_succ_two]
      exact pow_le_pow_two (by omega)
    rw [if_pos hnum, hnum]
    simp only [isInfinite, Bool.false_eq_true, false_iff]
    omega
  · rw [if_neg hnum]
    dsimp only
    rw [step_one hnum, isInfinite_ofSteps, hexponent, overflows_iff hnum]

theorem roundHalfEven_pos {num den : Nat} (hden : 0 < den) (h : den ≤ num) :
    0 < roundHalfEven num den := by
  have hquotient : 0 < num / den := Nat.div_pos h hden
  unfold roundHalfEven
  dsimp only
  split
  · exact hquotient
  split
  · omega
  split <;> omega

theorem isZero_ofSteps {negative : Bool} {mantissa : Nat} {exponent : Int} (h : 0 < mantissa) :
    (ofSteps negative mantissa exponent).isZero = false := by
  have hhalf : 0 < Nat.pow 2 52 := Nat.pow_pos (by decide)
  unfold ofSteps
  by_cases hm : mantissa = Nat.pow 2 53
  · rw [if_pos hm]
    dsimp only
    split
    · rfl
    · exact beq_eq_false_iff_ne.mpr (Nat.ne_of_gt hhalf)
  · rw [if_neg hm]
    dsimp only
    split
    · rfl
    · exact beq_eq_false_iff_ne.mpr (Nat.ne_of_gt h)

/-- Rounding makes no integer zero. -/
theorem isZero_ofInt (n : Int) : (ofInt n).isZero = true ↔ n = 0 := by
  unfold ofInt ofQuotient
  by_cases hnum : n.natAbs = 0
  · rw [if_pos hnum]
    exact ⟨fun _ => Int.natAbs_eq_zero.mp hnum, fun _ => rfl⟩
  · have hpos : 0 < inSteps n.natAbs 1 ((n.natAbs.log2 : Int) - 52) := by
      have hlow : Nat.pow 2 n.natAbs.log2 ≤ n.natAbs := Nat.log2_self_le hnum
      have hstep : Nat.pow 2 ((n.natAbs.log2 : Int) - 52).toNat ≤ Nat.pow 2 n.natAbs.log2 :=
        pow_le_pow_two (by omega)
      have hscale : 0 < Nat.pow 2 (-((n.natAbs.log2 : Int) - 52)).toNat := Nat.pow_pos (by decide)
      have hnumber : n.natAbs ≤ n.natAbs * Nat.pow 2 (-((n.natAbs.log2 : Int) - 52)).toNat :=
        Nat.le_mul_of_pos_right _ hscale
      unfold inSteps
      apply roundHalfEven_pos
      · rw [Nat.one_mul]
        exact Nat.pow_pos (by decide)
      · rw [Nat.one_mul]
        omega
    have hne : n ≠ 0 := fun h => hnum (Int.natAbs_eq_zero.mpr h)
    rw [if_neg hnum]
    dsimp only
    rw [step_one hnum, isZero_ofSteps hpos]
    simp only [Bool.false_eq_true, hne]

end Double

end AnchorAudit
