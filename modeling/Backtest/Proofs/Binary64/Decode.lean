import Backtest.Proofs.Binary64.Order
import Backtest.Decimal.Binary64

/-!
# Two readings of a binary64 word

The library reads a float's bits itself (`Binary64.ofBits`), while the arithmetic is defined on the
model's unpacked form; both read the same fields of the same word, so they denote the same value
(`ofFloat_eq_toBinary64`), and rounding down to an integer succeeds exactly on finite floats
(`floor?_ok_iff`).
-/

namespace Float.Model.UnpackedFloat

open Backtest.Decimal

/-- Whether a sign is the negative one. -/
def Sign.isNegative : Sign → Bool
  | .negative => true
  | .positive => false

/-- What an unpacked float denotes: a zero is the finite value `±0 * 2 ^ -1074`. -/
def toBinary64 : UnpackedFloat → Binary64
  | .notANumber => .nan
  | .infinity s => .infinite s.isNegative
  | .zero s => .finite s.isNegative 0 (-1074)
  | .finite s m e _ => .finite s.isNegative m e

theorem unpackMantissa_toNat (b : BitVec 64) :
    (@unpackMantissa Format.binary64 b).toNat = b.toNat % 2 ^ 52 := by
  simp [unpackMantissa, Nat.shiftRight_zero]

theorem unpackExponent_toNat (b : BitVec 64) :
    (@unpackExponent Format.binary64 b).toNat = b.toNat / 2 ^ 52 % 2 ^ 11 := by
  simp [unpackExponent, Nat.shiftRight_eq_div_pow]

theorem ofBitVec_unpackSign (b : BitVec 64) :
    (Sign.ofBitVec (@unpackSign Format.binary64 b)).isNegative = (b.toNat / 2 ^ 63 % 2 == 1) := by
  have hbit : (@unpackSign Format.binary64 b).toNat = b.toNat / 2 ^ 63 % 2 := by
    simp [unpackSign, Nat.shiftRight_eq_div_pow]
  unfold Sign.ofBitVec
  by_cases h : @unpackSign Format.binary64 b = 0#1
  · have h0 : b.toNat / 2 ^ 63 % 2 = 0 := by rw [← hbit, h]; rfl
    rw [if_pos h, h0]
    rfl
  · have hne : (@unpackSign Format.binary64 b).toNat ≠ 0 := fun h' => h (BitVec.eq_of_toNat_eq h')
    have hlt := (@unpackSign Format.binary64 b).isLt
    have h1 : b.toNat / 2 ^ 63 % 2 = 1 := by
      rw [← hbit]
      change _ < 2 ^ 1 at hlt
      omega
    rw [if_neg h, h1]
    rfl

/-- The library's reading of a word is the denotation of the model's unpacked form. -/
theorem ofBits_eq_toBinary64 (bits : UInt64) :
    Binary64.ofBits bits = (unpack Format.binary64 bits.toBitVec).toBinary64 := by
  have hmant := unpackMantissa_toNat bits.toBitVec
  have hexp := unpackExponent_toNat bits.toBitVec
  have hsign := ofBitVec_unpackSign bits.toBitVec
  rw [UInt64.toNat_toBitVec] at hmant hexp hsign
  unfold Binary64.ofBits unpack
  simp only [Nat.pow_eq, exponentBias_binary64, Nat.cast_ofNat]
  -- the exponent field all ones, all zeros, or neither
  by_cases htop : bits.toNat / 2 ^ 52 % 2 ^ 11 = 2047
  · have hvec : @unpackExponent Format.binary64 bits.toBitVec = -1#11 :=
      BitVec.eq_of_toNat_eq (by rw [hexp, htop]; rfl)
    rw [if_pos htop, if_pos hvec]
    by_cases hfrac : bits.toNat % 2 ^ 52 = 0
    · have hm : @unpackMantissa Format.binary64 bits.toBitVec = 0#52 :=
        BitVec.eq_of_toNat_eq (by rw [hmant, hfrac]; rfl)
      rw [if_pos hfrac, if_pos hm, toBinary64, hsign]
    · have hm : @unpackMantissa Format.binary64 bits.toBitVec ≠ 0#52 := fun h =>
        hfrac (by rw [← hmant, h]; rfl)
      rw [if_neg hfrac, if_neg hm, toBinary64]
  · have hvec : @unpackExponent Format.binary64 bits.toBitVec ≠ -1#11 := fun h =>
      htop (by rw [← hexp, h]; rfl)
    rw [if_neg htop, if_neg hvec]
    by_cases hzero : bits.toNat / 2 ^ 52 % 2 ^ 11 = 0
    · have hvec0 : @unpackExponent Format.binary64 bits.toBitVec = 0#11 :=
        BitVec.eq_of_toNat_eq (by rw [hexp, hzero]; rfl)
      rw [if_pos hzero, if_pos hvec0]
      split
      · rename_i hm
        have hfrac : bits.toNat % 2 ^ 52 = 0 := by rw [← hmant, hm]; rfl
        rw [toBinary64, hsign, hfrac]
      · rw [toBinary64, hsign, hmant]
        congr 1
        rw [hexp, hzero]
        norm_num
    · have hvec0 : @unpackExponent Format.binary64 bits.toBitVec ≠ 0#11 := fun h =>
        hzero (by rw [← hexp, h]; rfl)
      rw [if_neg hzero, if_neg hvec0, toBinary64, hsign, toNat_one_append, hmant, hexp]
      congr 1
      omega

theorem ofFloat_eq_toBinary64 (x : Float) : Binary64.ofFloat x = x.unpacked.toBinary64 :=
  ofBits_eq_toBinary64 x.toBits

end Float.Model.UnpackedFloat

namespace Backtest.Decimal

open Float.Model.UnpackedFloat

theorem floor?_ok_iff (x : Float) : (∃ n, floor? x = .ok n) ↔ x.isFinite = true := by
  rw [Float.isFinite_iff]
  unfold floor?
  rw [ofFloat_eq_toBinary64]
  cases x.unpacked <;> simp [toBinary64, Float.Model.UnpackedFloat.isFinite]

end Backtest.Decimal
