import Mathlib.Tactic.Positivity.Basic
import Mathlib.Tactic.Ring
import PathQuery.Binary
/-!
# Whole numbers as floats

The standard library says what a float is through a model of its own, which rounds by shifting a
mantissa to the right and keeping the bit that falls out last and whether any other did. The
quotients of `PathQuery.Binary` are rounded by their remainders and put together as bits. On whole
numbers too long for a mantissa both ways lead to the same float, and what is finite is the same on
both sides for any float.
-/

open Float.Model (Format UnpackedFloat)
open Float.Model.UnpackedFloat

namespace PathQuery.Binary

/-! ### Remainders and the bits that fall out -/

theorem shiftRight_exact (n k : Nat) :
    (ExtendedMantissa.mk n false false) >>> (k + 1) =
      ⟨n / 2 ^ (k + 1), n / 2 ^ k % 2 != 0, n % 2 ^ k != 0⟩ := by
  induction k with
  | zero =>
    show ExtendedMantissa.shiftRightOne _ = _
    simp [ExtendedMantissa.shiftRightOne, Nat.repeat, Nat.mod_one]
  | succ k ih =>
    have hstep : (ExtendedMantissa.mk n false false) >>> (k + 1 + 1) =
        ((ExtendedMantissa.mk n false false) >>> (k + 1)).shiftRightOne := rfl
    -- The bit that fell out last joins those before it.
    have hsticky : (n / 2 ^ k % 2 != 0 || n % 2 ^ k != 0) = (n % 2 ^ (k + 1) != 0) := by
      have hpos : 0 < 2 ^ k := Nat.two_pow_pos k
      rw [Nat.mod_pow_succ, Bool.eq_iff_iff]
      simp only [Bool.or_eq_true, bne_iff_ne, ne_eq, Nat.add_eq_zero_iff, Nat.mul_eq_zero]
      omega
    rw [hstep, ih, ExtendedMantissa.shiftRightOne]
    simp only [Nat.div_div_eq_div_mul, ← Nat.pow_succ, hsticky]

/-- The two bits behind the mantissa decide as the remainder does. -/
theorem roundedMantissa_exact (n k : Nat) :
    ((ExtendedMantissa.mk n false false) >>> (k + 1)).roundedMantissa =
      roundDiv n (2 ^ (k + 1)) := by
  have hlow : n % 2 ^ k < 2 ^ k := Nat.mod_lt _ (Nat.two_pow_pos k)
  have hrest : n % 2 ^ (k + 1) = n % 2 ^ k + 2 ^ k * (n / 2 ^ k % 2) := Nat.mod_pow_succ
  have hpow : 2 ^ (k + 1) = 2 * 2 ^ k := by rw [Nat.pow_succ, Nat.mul_comm]
  rw [shiftRight_exact, roundDiv, hrest, hpow]
  generalize n / (2 * 2 ^ k) = quotient
  generalize n % 2 ^ k = low at *
  generalize 2 ^ k = half at *
  rcases Nat.mod_two_eq_zero_or_one (n / half) with hbit | hbit
  · rw [hbit, if_pos (by omega)]
    cases low <;> rfl
  · rw [hbit, if_neg (by omega)]
    cases low with
    | zero =>
      have htie : (ExtendedMantissa.mk quotient (1 != 0) (0 != 0)).roundedMantissa =
        quotient + quotient % 2 := rfl
      rw [htie, if_neg (by omega)]
      split <;> omega
    | succ rest =>
      rw [if_pos (by omega)]
      rfl

theorem roundDiv_mul_right {c : Nat} (hc : 0 < c) (n d : Nat) :
    roundDiv (n * c) (d * c) = roundDiv n d := by
  have hlt : 2 * (n % d * c) < d * c ↔ 2 * (n % d) < d := by
    rw [← Nat.mul_assoc, Nat.mul_lt_mul_right hc]
  have hgt : d * c < 2 * (n % d * c) ↔ d < 2 * (n % d) := by
    rw [← Nat.mul_assoc, Nat.mul_lt_mul_right hc]
  simp only [roundDiv, Nat.mul_mod_mul_right, Nat.mul_div_mul_right _ _ hc, hlt, hgt]

theorem div_le_roundDiv (n d : Nat) : n / d ≤ roundDiv n d ∧ roundDiv n d ≤ n / d + 1 := by
  simp only [roundDiv]
  grind

/-! ### Floats of full precision as bits -/

/-- The sign with a given bit. -/
def signOf (negative : Bool) : Sign :=
  if negative then .negative else .positive

theorem leadingBit_eq : leadingBit = 4503599627370496 := rfl

theorem toNat_implicit (fraction : BitVec 52) :
    (1#1 ++ fraction).toNat = 2 ^ 52 + fraction.toNat := by
  rw [BitVec.toNat_append, ← Nat.shiftLeft_add_eq_or_of_lt fraction.isLt]
  simp [Nat.shiftLeft_eq]

/-- The float of full precision, or the infinity, with these bits. -/
def unpacked (sign : Sign) (scale : BitVec 11) (fraction : BitVec 52) : UnpackedFloat :=
  if scale = -1#11 then .infinity sign
  else .finite sign (2 ^ 52 + fraction.toNat) ((scale.toNat : Int) - 1075) (by positivity)

/-- A mantissa of full length goes into the bits without its first one, unless it is too large for
the exponents there are. -/
theorem pack_of_full {m : Nat} (hlow : 2 ^ 52 ≤ m) (hhigh : m < 2 ^ 53) (sign : Sign) (e : Int)
    (hm : 0 < m) :
    pack Format.binary64 (.finite sign m e hm) =
      if 2047 ≤ (e + 1075).toNat then packedInfinity Format.binary64 sign
      else packComponents Format.binary64 sign (BitVec.ofNat 11 (e + 1075).toNat)
        (BitVec.ofNat 52 m) := by
  have hlog : m.log2 = 52 := (Nat.log2_eq_iff (Nat.ne_of_gt hm)).mpr ⟨hlow, hhigh⟩
  have hbias : e + 1023 + 52 = e + 1075 := by omega
  show (if 2048 ≤ (e + 1023 + 52).toNat + 1 then packedInfinity Format.binary64 sign
    else if m.log2 + 1 = 53 then packComponents Format.binary64 sign
      (BitVec.ofNat 11 (e + 1023 + 52).toNat) (BitVec.ofNat 52 m) else _) = _
  rw [hbias, if_pos (by omega : m.log2 + 1 = 53)]
  exact if_congr (by omega) rfl rfl

section Components

variable {scale : BitVec 11} {fraction : BitVec 52}

theorem unpack_eq_unpacked {bits : BitVec 64}
    (hexponent : @unpackExponent Format.binary64 bits ≠ 0#11)
    (hmantissa : @unpackExponent Format.binary64 bits = -1#11 →
      @unpackMantissa Format.binary64 bits = 0#52) :
    unpack Format.binary64 bits =
      unpacked (Sign.ofBitVec (@unpackSign Format.binary64 bits))
        (@unpackExponent Format.binary64 bits) (@unpackMantissa Format.binary64 bits) := by
  rw [unpacked]
  by_cases h : @unpackExponent Format.binary64 bits = -1#11
  · rw [if_pos h]
    exact (if_pos h).trans (if_pos (hmantissa h))
  · rw [if_neg h]
    refine (if_neg h).trans ((if_neg hexponent).trans ?_)
    rw [UnpackedFloat.finite.injEq]
    exact ⟨rfl, toNat_implicit _, rfl⟩

theorem sign_packComponents (sign : Sign) (scale : BitVec 11) (fraction : BitVec 52) :
    Sign.ofBitVec (unpackSign (packComponents Format.binary64 sign scale fraction)) = sign := by
  have hfirst : unpackSign (packComponents Format.binary64 sign scale fraction) =
      BitVec.extractLsb' 63 1 (sign.toBitVec ++ scale ++ fraction) := rfl
  rw [hfirst, BitVec.extractLsb'_append_eq_of_le (by decide),
    BitVec.extractLsb'_append_eq_of_le (by decide)]
  cases sign <;> rfl

theorem unpack_packComponents (sign : Sign) (hscale : scale ≠ 0#11)
    (hfraction : scale = -1#11 → fraction = 0#52) :
    unpack Format.binary64 (packComponents Format.binary64 sign scale fraction) =
      unpacked sign scale fraction := by
  rw [unpack_eq_unpacked] <;> rw [unpackExponent_packComponents]
  · rw [sign_packComponents, unpackMantissa_packComponents]
  · exact hscale
  · rwa [unpackMantissa_packComponents]

theorem pack_unpacked (sign : Sign) (hfraction : scale = -1#11 → fraction = 0#52) :
    pack Format.binary64 (unpacked sign scale fraction) =
      packComponents Format.binary64 sign scale fraction := by
  rw [unpacked]
  by_cases h : scale = -1#11
  · rw [if_pos h, h, hfraction h]
    rfl
  · rw [if_neg h]
    have hlt := fraction.isLt
    have hslt := scale.isLt
    have htop : scale.toNat ≠ 2047 := fun e => h (BitVec.eq_of_toNat_eq (by simpa using e))
    have hbias : ((scale.toNat : Int) - 1075 + 1075).toNat = scale.toNat := by omega
    rw [pack_of_full (by omega) (by omega), hbias, if_neg (by omega)]
    congr 1
    · simp
    · apply BitVec.eq_of_toNat_eq
      simp
      omega

theorem toNat_packComponents (sign : Sign) (scale : BitVec 11) (fraction : BitVec 52) :
    (packComponents Format.binary64 sign scale fraction).toNat =
      sign.toBitVec.toNat * signBit + (scale.toNat * leadingBit + fraction.toNat) := by
  rw [packComponents, BitVec.toNat_append, ← Nat.shiftLeft_add_eq_or_of_lt fraction.isLt,
    BitVec.toNat_append, ← Nat.shiftLeft_add_eq_or_of_lt scale.isLt]
  simp only [Nat.shiftLeft_eq, signBit, leadingBit, Nat.pow_eq]
  ring

theorem neg_unpacked (sign : Sign) (scale : BitVec 11) (fraction : BitVec 52) :
    (unpacked sign scale fraction).neg = unpacked (-sign) scale fraction := by
  rw [unpacked, unpacked]
  by_cases h : scale = -1#11
  · rw [if_pos h, if_pos h]
    rfl
  · rw [if_neg h, if_neg h]
    rfl

end Components

/-- The bits of `m * 2 ^ e` without its sign, those of infinity once it leaves the range. -/
def stored (m e : Nat) : Nat :=
  min ((e + 1074) * leadingBit + m) (lastScale * leadingBit)

def storedScale (m e : Nat) : BitVec 11 :=
  BitVec.ofNat 11 (stored m e / leadingBit)

def storedFraction (m e : Nat) : BitVec 52 :=
  BitVec.ofNat 52 (stored m e)

section Stored

variable {m e : Nat} (hlow : leadingBit ≤ m) (hhigh : m < 2 * leadingBit)

include hlow hhigh

theorem toNat_storedScale : (storedScale m e).toNat = min (e + 1075) lastScale := by
  simp only [storedScale, stored, leadingBit_eq, lastScale, BitVec.toNat_ofNat] at *
  omega

theorem toNat_storedFraction :
    (storedFraction m e).toNat = if e + 1075 < lastScale then m - leadingBit else 0 := by
  by_cases h : e + 1075 < lastScale
  · rw [if_pos h]
    simp only [storedFraction, stored, leadingBit_eq, lastScale, BitVec.toNat_ofNat] at *
    omega
  · rw [if_neg h]
    simp only [storedFraction, stored, leadingBit_eq, lastScale, BitVec.toNat_ofNat] at *
    omega

theorem storedScale_ne_zero : storedScale m e ≠ 0#11 := by
  intro h
  have hnat := toNat_storedScale (e := e) hlow hhigh
  rw [h, lastScale] at hnat
  simp at hnat
  omega

theorem storedFraction_eq_zero (h : storedScale m e = -1#11) : storedFraction m e = 0#52 := by
  have hnat := toNat_storedScale (e := e) hlow hhigh
  rw [h, lastScale, show (-1#11).toNat = 2047 from rfl] at hnat
  apply BitVec.eq_of_toNat_eq
  rw [toNat_storedFraction hlow hhigh, lastScale, if_neg (by omega)]
  rfl

theorem stored_eq :
    stored m e = (storedScale m e).toNat * leadingBit + (storedFraction m e).toNat := by
  rw [toNat_storedScale hlow hhigh, toNat_storedFraction hlow hhigh, stored]
  by_cases h : e + 1075 < lastScale
  · rw [if_pos h, Nat.min_eq_left (Nat.le_of_lt h)]
    simp only [leadingBit_eq, lastScale] at *
    omega
  · rw [if_neg h, Nat.min_eq_right (Nat.not_lt.mp h)]
    simp only [leadingBit_eq, lastScale] at *
    omega

theorem pack_finite (sign : Sign) (hm : 0 < m) :
    pack Format.binary64 (.finite sign m e hm) =
      packComponents Format.binary64 sign (storedScale m e) (storedFraction m e) := by
  have hscale := toNat_storedScale (e := e) hlow hhigh
  have hfraction := toNat_storedFraction (e := e) hlow hhigh
  have hbias : ((e : Int) + 1075).toNat = e + 1075 := by omega
  rw [pack_of_full hlow hhigh, hbias]
  rw [lastScale] at hscale hfraction
  by_cases h : e + 1075 < 2047
  · rw [if_neg (by omega)]
    refine congrArg₂ (packComponents Format.binary64 sign) ?_ ?_
    · apply BitVec.eq_of_toNat_eq
      rw [hscale, BitVec.toNat_ofNat]
      simp
      omega
    · apply BitVec.eq_of_toNat_eq
      rw [hfraction, if_pos h, BitVec.toNat_ofNat]
      simp only [leadingBit_eq] at hlow hhigh ⊢
      omega
  · rw [if_pos (by omega), packedInfinity]
    refine congrArg₂ (packComponents Format.binary64 sign) ?_ ?_
    · apply BitVec.eq_of_toNat_eq
      rw [hscale]
      simp
      omega
    · apply BitVec.eq_of_toNat_eq
      rw [hfraction, if_neg h]
      rfl

theorem toBitVec_stored (negative : Bool) :
    (UInt64.ofNat ((if negative then signBit else 0) + stored m e)).toBitVec =
      packComponents Format.binary64 (signOf negative) (storedScale m e)
        (storedFraction m e) := by
  have hbits := toNat_packComponents (signOf negative) (storedScale m e) (storedFraction m e)
  have hsign : (signOf negative).toBitVec.toNat * signBit = if negative then signBit else 0 := by
    cases negative <;> rfl
  rw [← stored_eq hlow hhigh, hsign] at hbits
  apply BitVec.eq_of_toNat_eq
  rw [hbits, UInt64.toNat_toBitVec, UInt64.toNat_ofNat', ← hbits]
  exact Nat.mod_eq_of_lt (packComponents Format.binary64 (signOf negative) _ _).isLt

theorem ofBits_stored (negative : Bool) :
    Float.ofBits (UInt64.ofNat ((if negative then signBit else 0) + stored m e)) =
      Float.ofModel (Float.Model.pack
        (unpacked (signOf negative) (storedScale m e) (storedFraction m e))) := by
  rw [Float.ofBits, Float.Model.ofBits, toBitVec_stored hlow hhigh,
    unpack_packComponents _ (storedScale_ne_zero hlow hhigh) (storedFraction_eq_zero hlow hhigh)]

end Stored

theorem pack_congr {a b : UnpackedFloat} (h : pack Format.binary64 a = pack Format.binary64 b) :
    Float.Model.pack a = Float.Model.pack b := by
  show Float.Model.mk _ _ = Float.Model.mk _ _
  rw [Float.Model.mk.injEq, h]

theorem neg_ofModel_pack (x : UnpackedFloat) :
    (Float.ofModel (Float.Model.pack x)).neg =
      Float.ofModel (Float.Model.pack (unpack Format.binary64 (pack Format.binary64 x)).neg) :=
  rfl

/-! ### Whole numbers too long for a mantissa -/

section Shift

variable {m : Nat} {e : Int}

/-- A mantissa is shifted until 53 bits of it are left, and as far as the least exponent. -/
theorem shiftToTargetExponent_eq (shift : Nat)
    (hshift : (max (m.log2 + 1 + e - 53) (-1074) - e).toNat = shift) :
    shiftToTargetExponent Format.binary64 m e .exact =
      (ExtendedMantissa.mk m false false >>> shift, e + shift) := by
  have htarget : (Format.targetExponent Format.binary64 (Float.Model.totalExponent m e) - e).toNat =
      shift := hshift
  rw [shiftToTargetExponent, shiftToExponent, htarget]
  rfl

theorem shiftToTargetExponent_small (hm : m.log2 ≤ 52) (he : -1074 ≤ e) :
    shiftToTargetExponent Format.binary64 m e .exact = (⟨m, false, false⟩, e) := by
  rw [shiftToTargetExponent_eq 0 (by omega), Int.natCast_zero, Int.add_zero]
  rfl

theorem shiftToTargetExponent_carry (he : -1074 ≤ e) :
    shiftToTargetExponent Format.binary64 (2 ^ 53) e .exact =
      (⟨2 ^ 52, false, false⟩, e + 1) := by
  rw [shiftToTargetExponent_eq 1 (by rw [Nat.log2_two_pow]; omega)]
  rfl

/-- A mantissa that has been rounded is shifted once more, since it may have got too long. -/
theorem roundWithAccuracy_eq {sign : Sign} {first last : ExtendedMantissa} {raised reached : Int}
    (hfirst : shiftToTargetExponent Format.binary64 m e .exact = (first, raised))
    (hlast : shiftToTargetExponent Format.binary64 first.roundedMantissa raised .exact =
      (last, reached)) (hpos : 0 < last.mantissa) :
    roundWithAccuracy Format.binary64 sign m e .exact =
      .finite sign last.mantissa reached hpos := by
  rw [roundWithAccuracy, hfirst]
  dsimp only
  rw [hlast]
  exact dif_neg (Nat.ne_of_gt hpos)

end Shift

section Whole

variable {n k : Nat} (h : n.log2 = k + 53)

include h

theorem ne_zero_of_log2 : n ≠ 0 := by
  rintro rfl
  simp at h

theorem roundDiv_bounds :
    2 ^ 52 ≤ roundDiv n (2 ^ (k + 1)) ∧ roundDiv n (2 ^ (k + 1)) ≤ 2 ^ 53 := by
  obtain ⟨hlow, hhigh⟩ := (Nat.log2_eq_iff (ne_zero_of_log2 h)).mp h
  have hfirst : 2 ^ 52 ≤ n / 2 ^ (k + 1) := by
    rw [Nat.le_div_iff_mul_le (Nat.two_pow_pos _)]
    calc 2 ^ 52 * 2 ^ (k + 1) = 2 ^ (k + 53) := by ring
      _ ≤ n := hlow
  have hlast : n / 2 ^ (k + 1) < 2 ^ 53 := by
    rw [Nat.div_lt_iff_lt_mul (Nat.two_pow_pos _)]
    calc n < 2 ^ (k + 53 + 1) := hhigh
      _ = 2 ^ 53 * 2 ^ (k + 1) := by ring
  obtain ⟨hbelow, habove⟩ := div_le_roundDiv n (2 ^ (k + 1))
  omega

theorem log2_mul_two_pow : (n * 2 ^ 53).log2 = k + 106 := by
  have hn := ne_zero_of_log2 h
  obtain ⟨hlow, hhigh⟩ := (Nat.log2_eq_iff hn).mp h
  rw [Nat.log2_eq_iff (Nat.mul_ne_zero hn (by decide))]
  constructor
  · calc 2 ^ (k + 106) = 2 ^ (k + 53) * 2 ^ 53 := by ring
      _ ≤ n * 2 ^ 53 := Nat.mul_le_mul_right _ hlow
  · calc n * 2 ^ 53 < 2 ^ (k + 53 + 1) * 2 ^ 53 := Nat.mul_lt_mul_of_pos_right hhigh (by decide)
      _ = 2 ^ (k + 106 + 1) := by ring

theorem shiftToTargetExponent_whole :
    shiftToTargetExponent Format.binary64 (n * 2 ^ 53) (-53) .exact =
      (ExtendedMantissa.mk (n * 2 ^ 53) false false >>> (k + 53 + 1), (k + 1 : Int)) := by
  rw [shiftToTargetExponent_eq (k + 53 + 1) (by rw [log2_mul_two_pow h]; omega)]
  congr 1
  omega

omit h in
theorem roundedMantissa_whole :
    (ExtendedMantissa.mk (n * 2 ^ 53) false false >>> (k + 53 + 1)).roundedMantissa =
      roundDiv n (2 ^ (k + 1)) := by
  rw [roundedMantissa_exact, show k + 53 + 1 = k + 1 + 53 by omega, Nat.pow_add 2 (k + 1),
    roundDiv_mul_right (Nat.two_pow_pos 53)]

theorem roundWithAccuracy_whole (hlt : roundDiv n (2 ^ (k + 1)) < 2 ^ 53)
    (hpos : 0 < roundDiv n (2 ^ (k + 1))) :
    roundWithAccuracy Format.binary64 .positive (n * 2 ^ 53) (-53) .exact =
      .finite .positive (roundDiv n (2 ^ (k + 1))) (k + 1) hpos := by
  have hlog : (roundDiv n (2 ^ (k + 1))).log2 < 53 := (Nat.log2_lt (by omega)).mpr hlt
  have hlast : shiftToTargetExponent Format.binary64
      (ExtendedMantissa.mk (n * 2 ^ 53) false false >>> (k + 53 + 1)).roundedMantissa (k + 1)
      .exact = (⟨roundDiv n (2 ^ (k + 1)), false, false⟩, (k + 1 : Int)) := by
    rw [roundedMantissa_whole]
    exact shiftToTargetExponent_small (Nat.le_of_lt_succ hlog) (by omega)
  exact roundWithAccuracy_eq (shiftToTargetExponent_whole h) hlast hpos

theorem roundWithAccuracy_whole_of_carry (hcarry : roundDiv n (2 ^ (k + 1)) = 2 ^ 53) :
    roundWithAccuracy Format.binary64 .positive (n * 2 ^ 53) (-53) .exact =
      .finite .positive (2 ^ 52) (k + 2) (by decide) := by
  have hlast := shiftToTargetExponent_carry (show -1074 ≤ (k + 1 : Int) by omega)
  rw [← hcarry, ← roundedMantissa_whole] at hlast
  exact roundWithAccuracy_eq (shiftToTargetExponent_whole h) hlast (by decide)

/-- A carry out of the mantissa is a carry into the scale. -/
theorem exists_rounded : ∃ m e : Nat, ∃ hm : 0 < m, leadingBit ≤ m ∧ m < 2 * leadingBit ∧
    (k + 1075) * leadingBit + roundDiv n (2 ^ (k + 1)) = (e + 1074) * leadingBit + m ∧
    roundWithAccuracy Format.binary64 .positive (n * 2 ^ 53) (-53) .exact =
      .finite .positive m e hm := by
  obtain ⟨hlow, hhigh⟩ := roundDiv_bounds h
  rw [leadingBit_eq]
  rcases Nat.lt_or_eq_of_le hhigh with hlt | hcarry
  · exact ⟨roundDiv n (2 ^ (k + 1)), k + 1, by omega, hlow, hlt, by ring,
      roundWithAccuracy_whole h hlt _⟩
  · exact ⟨2 ^ 52, k + 2, by decide, Nat.le_refl _, by omega, by rw [hcarry]; ring,
      roundWithAccuracy_whole_of_carry h hcarry⟩

theorem nearest_whole (negative : Bool) :
    nearest negative n 1 = Float.ofBits (UInt64.ofNat ((if negative then signBit else 0) +
      min ((k + 1075) * leadingBit + roundDiv n (2 ^ (k + 1))) (lastScale * leadingBit))) := by
  have hn := ne_zero_of_log2 h
  have hexponent : exponentFor n 1 = .ofNat (k + 1) := by
    have hguess : (n.log2 : Int) - (Nat.log2 1 : Nat) - 53 = .ofNat k := by
      rw [h, show Nat.log2 1 = 0 from rfl, Int.ofNat_eq_natCast]
      omega
    have hlow : ¬ n * 1 < 2 * leadingBit * 1 * (1 * Nat.pow 2 k) := by
      have hpow : 2 * leadingBit * 1 * (1 * 2 ^ k) = 2 ^ n.log2 := by
        rw [h, Nat.add_comm, Nat.pow_add]
        simp [leadingBit]
      rw [Nat.pow_eq, hpow, Nat.mul_one, Nat.not_lt]
      exact Nat.log2_self_le hn
    simp only [exponentFor, hguess, power]
    rw [if_neg hlow]
    simp only [Int.ofNat_eq_natCast]
    omega
  simp only [nearest, hexponent, hn, if_false, power, Nat.pow_eq, Nat.mul_one, Nat.one_mul]
  congr 5

theorem ofNat_whole :
    Float.ofNat n = Float.ofModel (Float.Model.pack
      (roundWithAccuracy Format.binary64 .positive (n * 2 ^ 53) (-53) .exact)) := by
  have hn := ne_zero_of_log2 h
  have hbig : ¬ n < 2 ^ 53 := by
    intro hlt
    have hlog := (Nat.log2_lt hn).mpr hlt
    omega
  have hscientific : UnpackedFloat.ofScientific Format.binary64 n 0 =
      roundWithAccuracy Format.binary64 .positive (n * 2 ^ 53) (-53) .exact := by
    have hmantissa : n <<< 53 * 10 ^ 0 = n * 2 ^ 53 := by
      rw [Nat.shiftLeft_eq, Nat.pow_zero, Nat.mul_one]
    rw [UnpackedFloat.ofScientific, dif_neg hn, if_neg (by decide), if_neg (by simp),
      if_pos (by decide), ← hmantissa]
    rfl
  show Float.ofScientific n false 0 = _
  rw [Float.ofScientific, dif_neg (fun hsmall => hbig hsmall.1), ← hscientific]
  rfl

theorem nearest_eq_ofNat :
    nearest false n 1 = Float.ofNat n ∧ nearest true n 1 = (Float.ofNat n).neg := by
  obtain ⟨m, e, hm, hlow, hhigh, hstored, hround⟩ := exists_rounded h
  have hpack := pack_finite (e := e) hlow hhigh .positive hm
  have hfraction := storedFraction_eq_zero (e := e) hlow hhigh
  have hnat : Float.ofNat n = Float.ofModel (Float.Model.pack (.finite .positive m e hm)) := by
    rw [ofNat_whole h, hround]
  have hnearest (negative : Bool) : nearest negative n 1 =
      Float.ofModel (Float.Model.pack
        (unpacked (signOf negative) (storedScale m e) (storedFraction m e))) := by
    rw [nearest_whole h, hstored, ← stored, ofBits_stored hlow hhigh]
  constructor
  · rw [hnearest, hnat]
    apply congrArg Float.ofModel
    apply pack_congr
    rw [hpack]
    exact pack_unpacked .positive hfraction
  · rw [hnearest, hnat, neg_ofModel_pack, hpack,
      unpack_packComponents _ (storedScale_ne_zero hlow hhigh) hfraction, neg_unpacked]
    rfl

end Whole

theorem nearest_eq_ofInt {n : Int} (h : 2 ^ 53 ≤ n.natAbs) :
    nearest (n < 0) n.natAbs 1 = Float.ofInt n := by
  have hlog : n.natAbs.log2 = (n.natAbs.log2 - 53) + 53 := by
    have hle := (Nat.le_log2 (by omega)).mpr h
    omega
  cases n with
  | ofNat n =>
    have hsign : decide ((Int.ofNat n) < 0) = false := by simp
    rw [hsign]
    exact (nearest_eq_ofNat hlog).1
  | negSucc n =>
    have hsign : decide ((Int.negSucc n) < 0) = true := by simp
    rw [hsign]
    exact (nearest_eq_ofNat hlog).2

/-! ### What is finite -/

theorem toNat_unpackExponent (bits : BitVec 64) :
    (@unpackExponent Format.binary64 bits).toNat =
      bits.toNat / leadingBit % (lastScale + 1) := by
  have hshift : bits.toNat / leadingBit = bits.toNat >>> 52 := (Nat.shiftRight_eq_div_pow _ 52).symm
  rw [hshift, unpackExponent, BitVec.toNat_cast]
  exact BitVec.extractLsb_toNat 62 52 bits

theorem isFinite_unpack (bits : BitVec 64) :
    (unpack Format.binary64 bits).isFinite =
      decide (@unpackExponent Format.binary64 bits ≠ -1#11) := by
  by_cases h : @unpackExponent Format.binary64 bits = -1#11
  · rw [decide_eq_false (not_not_intro h)]
    by_cases hmantissa : @unpackMantissa Format.binary64 bits = 0#52
    · exact congrArg UnpackedFloat.isFinite ((if_pos h).trans (if_pos hmantissa))
    · exact congrArg UnpackedFloat.isFinite ((if_pos h).trans (if_neg hmantissa))
  · rw [decide_eq_true h]
    by_cases hexponent : @unpackExponent Format.binary64 bits = 0#11
    · by_cases hmantissa : @unpackMantissa Format.binary64 bits = 0#52
      · exact congrArg UnpackedFloat.isFinite
          ((if_neg h).trans ((if_pos hexponent).trans (dif_pos hmantissa)))
      · exact congrArg UnpackedFloat.isFinite
          ((if_neg h).trans ((if_pos hexponent).trans (dif_neg hmantissa)))
    · exact congrArg UnpackedFloat.isFinite ((if_neg h).trans (if_neg hexponent))

theorem isFinite_eq_scale (x : Float) :
    isFinite x = decide (x.toBits.toNat / leadingBit % (lastScale + 1) ≠ lastScale) := by
  simp only [isFinite, parts]
  by_cases h : x.toBits.toNat / leadingBit % (lastScale + 1) = lastScale
  · rw [if_pos h, decide_eq_false (not_not_intro h)]
    by_cases hfraction : x.toBits.toNat % leadingBit = 0
    · rw [if_pos hfraction]
    · rw [if_neg hfraction]
  · rw [if_neg h, decide_eq_true h]
    by_cases hscale : x.toBits.toNat / leadingBit % (lastScale + 1) = 0
    · rw [if_pos hscale]
    · rw [if_neg hscale]

theorem isFinite_eq (x : Float) : isFinite x = x.isFinite := by
  have hmodel : x.isFinite = (unpack Format.binary64 x.toBits.toBitVec).isFinite := rfl
  rw [hmodel, isFinite_unpack, isFinite_eq_scale, decide_eq_decide, ← UInt64.toNat_toBitVec,
    ← toNat_unpackExponent, ne_eq, ne_eq, ← BitVec.toNat_inj]
  rfl

end PathQuery.Binary
