import RegistryGate.Number.Binary64

/-!
# Integers beyond double precision

An integer has no double-precision form just when it is at least half a unit above the greatest finite
number, for then it is rounded beyond that (`ofInt?_eq_none_iff`).
-/

namespace RegistryGate.Binary64

/-- The least whole magnitude that is rounded beyond the greatest finite number, which is
`(2 ^ 53 - 1) * 2 ^ 971`: half a unit of its last digit above it, `(2 ^ 54 - 1) * 2 ^ 970`. -/
def overflowBound : Nat := 18014398509481983 * Nat.pow 2 970

theorem overflowBound_pos : 0 < overflowBound := by
  unfold overflowBound
  generalize 970 = exponent
  exact Nat.mul_pos (by decide) (Nat.two_pow_pos exponent)

/-! ## Rounding -/

/-- A fraction with an odd whole part is rounded up from the middle on. -/
theorem roundHalfEven_eq_succ_iff {num half count : Nat} (pos : 0 < half)
    (below : num < 2 * half * (count + 1)) (odd : count % 2 = 1) :
    roundHalfEven num (2 * half) = count + 1 ↔ 2 * half * count + half ≤ num := by
  have whole := Nat.div_add_mod num (2 * half)
  have rest := Nat.mod_lt num (show 0 < 2 * half by omega)
  have quotient : num / (2 * half) < count + 1 := Nat.div_lt_of_lt_mul below
  unfold roundHalfEven
  dsimp only
  generalize num / (2 * half) = floor at whole quotient ⊢
  generalize num % (2 * half) = remainder at whole rest ⊢
  rcases Nat.lt_or_eq_of_le (Nat.le_of_lt_succ quotient) with lower | rfl
  · have bound : 2 * half * (floor + 1) ≤ 2 * half * count := Nat.mul_le_mul_left _ lower
    rw [Nat.mul_succ] at bound
    split
    · omega
    · omega
  · split
    · omega
    · omega

/-- A power of two is the product of two others, whatever names those have. -/
theorem pow_two_split (low high : Nat) {total first second : Nat} (sum : low + high = total)
    (lower : Nat.pow 2 low = first) (upper : Nat.pow 2 high = second) :
    Nat.pow 2 total = first * second := by
  subst sum lower upper
  exact Nat.pow_add 2 low high

theorem scale_whole_of_nat (num exponent : Nat) :
    scale num 1 (exponent : Int) = (num, Nat.pow 2 exponent) := by
  unfold scale
  rw [if_pos (Int.natCast_nonneg exponent), Int.toNat_natCast, Nat.one_shiftLeft]
  rfl

/-- A whole number without all but 53 of its binary digits has 53 of them. -/
theorem pow_le_scale_whole {num : Nat} (pos : 0 < num) :
    Nat.pow 2 52 ≤
      (scale num 1 ((num.log2 : Int) - 52)).1 / (scale num 1 ((num.log2 : Int) - 52)).2 := by
  have low : Nat.pow 2 num.log2 ≤ num := Nat.log2_self_le (Nat.pos_iff_ne_zero.mp pos)
  generalize num.log2 = log at low ⊢
  rcases Nat.lt_or_ge log 52 with small | large
  · obtain ⟨more, total⟩ : ∃ more, log + more = 52 := ⟨52 - log, by omega⟩
    have negative : ¬ (0 : Int) ≤ (log : Int) - 52 := by omega
    have shift : (-((log : Int) - 52)).toNat = more := by omega
    unfold scale
    rw [if_neg negative, shift]
    dsimp only
    rw [Nat.shiftLeft_eq, Nat.div_one, pow_two_split log more total rfl rfl]
    exact Nat.mul_le_mul_right _ low
  · obtain ⟨more, rfl⟩ : ∃ more, log = 52 + more := ⟨log - 52, by omega⟩
    have exponent : ((52 + more : Nat) : Int) - 52 = (more : Nat) := by omega
    rw [pow_two_split 52 more rfl rfl rfl] at low
    rw [exponent, scale_whole_of_nat]
    exact (Nat.le_div_iff_mul_le (Nat.two_pow_pos more)).mpr low

/-- A whole number is held with the exponent that leaves 53 digits before the point. -/
theorem exponentOf_whole {num : Nat} (pos : 0 < num) : exponentOf num 1 = (num.log2 : Int) - 52 := by
  have one : (1 : Nat).log2 = 0 := by decide
  have guess : (num.log2 : Int) - (0 : Nat) - 52 = (num.log2 : Int) - 52 := by omega
  unfold exponentOf
  rw [one]
  dsimp only
  rw [guess, if_neg (Nat.not_lt.mpr (pow_le_scale_whole pos))]
  unfold minExponent
  omega

/-- A fraction is out of range when its exponent is too great, or becomes so because its mantissa is
rounded up to the next power of two. -/
theorem ofRatio_of_ne_zero (negative : Bool) {num den : Nat} {exponent : Int} (present : num ≠ 0)
    (least : exponentOf num den = exponent) :
    ofRatio negative num den = .infinite negative ∧
        (maxExponent < exponent ∨ exponent = maxExponent ∧
          roundHalfEven (scale num den exponent).1 (scale num den exponent).2 = Nat.pow 2 53) ∨
      (∃ mantissa power, ofRatio negative num den = .finite negative mantissa power) ∧
        (exponent < maxExponent ∨ exponent = maxExponent ∧
          roundHalfEven (scale num den exponent).1 (scale num den exponent).2 ≠ Nat.pow 2 53) := by
  unfold ofRatio
  rw [if_neg present, least]
  dsimp only
  by_cases carry :
      roundHalfEven (scale num den exponent).1 (scale num den exponent).2 = Nat.pow 2 53
  · rw [if_pos carry]
    dsimp only
    by_cases beyond : maxExponent < exponent + 1
    · rw [if_pos beyond]
      exact .inl ⟨rfl, by omega⟩
    · rw [if_neg beyond]
      exact .inr ⟨⟨_, _, rfl⟩, by omega⟩
  · rw [if_neg carry]
    dsimp only
    by_cases beyond : maxExponent < exponent
    · rw [if_pos beyond]
      exact .inl ⟨rfl, .inl beyond⟩
    · rw [if_neg beyond]
      exact .inr ⟨⟨_, _, rfl⟩, by omega⟩

/-! ## Whole numbers -/

/-- A whole number is out of range from the middle between the greatest finite number and the next
power of two on. -/
theorem ofRatio_whole (negative : Bool) (num : Nat) :
    ofRatio negative num 1 = .infinite negative ∧ overflowBound ≤ num ∨
      (∃ mantissa exponent, ofRatio negative num 1 = .finite negative mantissa exponent) ∧
        num < overflowBound := by
  unfold overflowBound
  -- The exponent gets a name, so that no power of two is computed.
  generalize middle : 970 = half
  have positive : 0 < Nat.pow 2 half := Nat.two_pow_pos half
  generalize unit_eq : Nat.pow 2 half = unit at positive ⊢
  have upper : Nat.pow 2 (53 + half) = 9007199254740992 * unit :=
    pow_two_split 53 half rfl (by decide) unit_eq
  have top : Nat.pow 2 (54 + half) = 18014398509481984 * unit :=
    pow_two_split 54 half rfl (by decide) unit_eq
  rcases Nat.eq_zero_or_pos num with rfl | pos
  · exact .inr ⟨⟨0, minExponent, rfl⟩, by omega⟩
  have present : num ≠ 0 := Nat.pos_iff_ne_zero.mp pos
  have low : Nat.pow 2 num.log2 ≤ num := Nat.log2_self_le present
  have high : num < Nat.pow 2 (num.log2 + 1) := Nat.lt_log2_self
  have parts := ofRatio_of_ne_zero negative present (exponentOf_whole pos)
  unfold maxExponent at parts
  rcases Nat.lt_trichotomy (num.log2 + 1) (54 + half) with small | last | large
  · have step : Nat.pow 2 (num.log2 + 1) ≤ Nat.pow 2 (53 + half) :=
      Nat.pow_le_pow_right Nat.two_pos (by omega)
    rcases parts with ⟨-, beyond⟩ | ⟨finite, -⟩
    · omega
    · exact .inr ⟨finite, by omega⟩
  · -- Among the numbers with the greatest exponent it is the rounding that decides.
    have exponent : (num.log2 : Int) - 52 = (1 + half : Nat) := by omega
    have scaled : scale num 1 ((num.log2 : Int) - 52) = (num, 2 * unit) := by
      rw [exponent, scale_whole_of_nat, pow_two_split 1 half rfl rfl unit_eq]
    have mantissas : Nat.pow 2 53 = 9007199254740991 + 1 := by decide
    have below : num < 2 * unit * (9007199254740991 + 1) := by
      rw [last, top] at high
      omega
    have carried := roundHalfEven_eq_succ_iff positive below rfl
    rw [scaled, mantissas] at parts
    rcases parts with ⟨infinite, beyond | ⟨-, carry⟩⟩ | ⟨finite, within | ⟨-, kept⟩⟩
    · omega
    · have reached := carried.mp carry
      exact .inl ⟨infinite, by omega⟩
    · omega
    · have missed := mt carried.mpr kept
      exact .inr ⟨finite, by omega⟩
  · have step : Nat.pow 2 (54 + half) ≤ Nat.pow 2 num.log2 :=
      Nat.pow_le_pow_right Nat.two_pos (by omega)
    rcases parts with ⟨infinite, -⟩ | ⟨-, within⟩
    · exact .inl ⟨infinite, by omega⟩
    · omega

/-- An integer is too large for double precision from the bound on. -/
theorem ofInt?_eq_none_iff {value : Int} :
    ofInt? value = none ↔ overflowBound ≤ value.natAbs := by
  unfold ofInt?
  rcases ofRatio_whole (decide (value < 0)) value.natAbs with
    ⟨infinite, large⟩ | ⟨⟨mantissa, exponent, finite⟩, small⟩
  · rw [infinite]
    exact ⟨fun _ => large, fun _ => rfl⟩
  · rw [finite]
    refine ⟨fun none => ?_, fun large => absurd small (Nat.not_lt.mpr large)⟩
    cases none

end RegistryGate.Binary64
