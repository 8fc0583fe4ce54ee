import Mathlib.Algebra.Group.Nat.Defs
import CompanyRegister.Decimal.Double

/-!
# Whole numbers as doubles

A whole number that some double is becomes that number when it is made a double (`toInt?_ofInt`).

Doubles are followed through their parts: a sign, a mantissa and an exponent. A normal mantissa
fills all of its 53 bits, and neither packing (`unpack_pack`) nor rounding (`roundWithAccuracy_eq`)
changes it. A number is made a double in one way if it has up to 53 bits and in another if it has
more; both shift it until its mantissa is normal, and drop nothing but zeros.
-/

namespace CompanyRegister.Decimal

open Float.Model (Format UnpackedFloat totalExponent)
open Float.Model.UnpackedFloat

/-! ## Reading doubles -/

/-- The sign as a double's reading has it. -/
def isNegative : Sign → Bool
  | .negative => true
  | .positive => false

theorem toNat_unpackMantissa (b : BitVec 64) :
    (@unpackMantissa Format.binary64 b).toNat = b.toNat % 2 ^ 52 := by
  show (b.extractLsb 51 0).toNat = _
  rw [BitVec.extractLsb_toNat]
  simp

theorem toNat_unpackExponent (b : BitVec 64) :
    (@unpackExponent Format.binary64 b).toNat = b.toNat / 2 ^ 52 % 2048 := by
  show (b.extractLsb 62 52).toNat = _
  rw [BitVec.extractLsb_toNat, Nat.shiftRight_eq_div_pow]

theorem toNat_unpackSign (b : BitVec 64) :
    (@unpackSign Format.binary64 b).toNat = b.toNat / 2 ^ 63 % 2 := by
  show (b.extractLsb 63 63).toNat = _
  rw [BitVec.extractLsb_toNat, Nat.shiftRight_eq_div_pow]

/-- The bit in front of a mantissa is not kept in the word. -/
theorem toNat_implicit (b : BitVec 52) : (1#1 ++ b).toNat = 2 ^ 52 + b.toNat := by
  rw [BitVec.toNat_append, ← Nat.shiftLeft_add_eq_or_of_lt b.isLt]
  rfl

theorem isNegative_ofBitVec (b : BitVec 1) : isNegative (Sign.ofBitVec b) = (b.toNat == 1) := by
  revert b
  decide

/-- What a double that is a finite number other than zero is read as. -/
theorem read_of_unpack {x : Float} {s : Sign} {m : Nat} {e : Int} {hm : 0 < m}
    (h : x.toModel.unpack = .finite s m e hm) : read x = .finite (isNegative s) m e := by
  have hunpack : UnpackedFloat.unpack Format.binary64 x.toBits.toBitVec = .finite s m e hm := h
  have hbits : x.toBits.toNat = x.toBits.toBitVec.toNat := rfl
  rw [read, hbits]
  generalize x.toBits.toBitVec = b at hunpack
  have hexponent := toNat_unpackExponent b
  have hmantissa := toNat_unpackMantissa b
  have hsign := toNat_unpackSign b
  have h11 : twoPower 11 = 2048 := rfl
  have h52 : twoPower 52 = 2 ^ 52 := rfl
  have h63 : twoPower 63 = 2 ^ 63 := rfl
  have hones : ∀ w : BitVec 11, w = -1#11 ↔ w.toNat = 2047 := fun w => BitVec.toNat_inj.symm
  have hzeros : ∀ w : BitVec 11, w = 0#11 ↔ w.toNat = 0 := fun w => BitVec.toNat_inj.symm
  simp only [readBits, h11, h52, h63, ← hexponent, ← hmantissa, ← hsign]
  unfold UnpackedFloat.unpack at hunpack
  dsimp only at hunpack
  by_cases hone : @unpackExponent Format.binary64 b = -1#11
  · by_cases hinfinite : @unpackMantissa Format.binary64 b = 0#52
    · rw [if_pos hone, if_pos hinfinite] at hunpack
      cases hunpack
    · rw [if_pos hone, if_neg hinfinite] at hunpack
      cases hunpack
  rw [if_neg hone] at hunpack
  rw [if_neg fun heq => hone ((hones _).mpr heq)]
  by_cases hnull : @unpackExponent Format.binary64 b = 0#11
  · rw [if_pos hnull] at hunpack
    rw [if_pos ((hzeros _).mp hnull)]
    by_cases hzero : @unpackMantissa Format.binary64 b = 0#52
    · rw [dif_pos hzero] at hunpack
      cases hunpack
    · rw [dif_neg hzero] at hunpack
      injection hunpack with hs hm he
      rw [← hs, ← hm, ← he, isNegative_ofBitVec, (hzeros _).mp hnull]
      rfl
  · rw [if_neg hnull] at hunpack
    rw [if_neg fun heq => hnull ((hzeros _).mpr heq)]
    injection hunpack with hs hm he
    rw [← hs, ← hm, ← he, isNegative_ofBitVec, toNat_implicit]
    rfl

/-! ## Normal doubles -/

/-- Whether a mantissa fills all its bits. -/
structure IsNormal (m : Nat) : Prop where
  le : 2 ^ 52 ≤ m
  lt : m < 2 ^ 53

namespace IsNormal

variable {m : Nat}

theorem pos (h : IsNormal m) : 0 < m := Nat.lt_of_lt_of_le (by decide) h.le

theorem log2_eq (h : IsNormal m) : m.log2 = 52 :=
  (Nat.log2_eq_iff (Nat.ne_of_gt h.pos)).mpr ⟨h.le, h.lt⟩

end IsNormal

theorem targetExponent_eq (t : Int) :
    Format.binary64.targetExponent t = max (t - 53) (-1074) := rfl

theorem unpackSign_packComponents (s : Sign) (e : BitVec 11) (m : BitVec 52) :
    @unpackSign Format.binary64 (packComponents Format.binary64 s e m) = s.toBitVec := by
  show (s.toBitVec ++ e ++ m).extractLsb' 63 1 = s.toBitVec
  rw [BitVec.extractLsb'_append_eq_of_le (by decide),
    BitVec.extractLsb'_append_eq_of_le (by decide)]
  cases s <;> rfl

theorem finite_congr {s s' : Sign} {m m' : Nat} {e e' : Int} (hs : s = s') (hm : m = m')
    (he : e = e') {hpos : 0 < m} {hpos' : 0 < m'} :
    UnpackedFloat.finite s m e hpos = .finite s' m' e' hpos' := by
  subst hs hm he
  rfl

/-- A normal double is what it was packed from. -/
theorem unpack_pack {s : Sign} {m : Nat} {e : Int} (hm : IsNormal m) (hlow : -1074 ≤ e)
    (hhigh : e ≤ 971) :
    (Float.Model.pack (.finite s m e hm.pos)).unpack = .finite s m e hm.pos := by
  obtain ⟨k, hk⟩ : ∃ k : Nat, (k : Int) = e + 1075 := ⟨(e + 1075).toNat, by omega⟩
  have hbiased : (e + Format.binary64.exponentBias + (52 : Nat)).toNat = k := by
    show (e + 1023 + 52).toNat = k
    omega
  have hfits : ¬ 2 ^ Format.binary64.exponentBits ≤ k + 1 := by
    show ¬ 2048 ≤ k + 1
    omega
  have hexponent : (BitVec.ofNat 11 k).toNat = k := by
    rw [BitVec.toNat_ofNat]
    omega
  have hmantissa : (1#1 ++ BitVec.ofNat 52 m).toNat = m := by
    have := hm.le
    have := hm.lt
    rw [toNat_implicit, BitVec.toNat_ofNat]
    omega
  have hpack : UnpackedFloat.pack Format.binary64 (.finite s m e hm.pos) =
      packComponents Format.binary64 s (BitVec.ofNat 11 k) (BitVec.ofNat 52 m) := by
    unfold UnpackedFloat.pack
    dsimp only
    rw [hbiased, if_neg hfits, hm.log2_eq]
    exact if_pos rfl
  have hone : BitVec.ofNat 11 k ≠ -1#11 := by
    intro heq
    have htwo : (BitVec.ofNat 11 k).toNat = 2047 := congrArg BitVec.toNat heq
    omega
  have hnull : BitVec.ofNat 11 k ≠ 0#11 := by
    intro heq
    have hz : (BitVec.ofNat 11 k).toNat = 0 := congrArg BitVec.toNat heq
    omega
  have he : (k : Int) - (Format.binary64.exponentBias + (52 : Nat)) = e := by
    show (k : Int) - (1023 + 52) = e
    omega
  show UnpackedFloat.unpack Format.binary64 (UnpackedFloat.pack Format.binary64 _) = _
  rw [hpack]
  unfold UnpackedFloat.unpack
  dsimp only
  rw [unpackExponent_packComponents, if_neg hone, if_neg hnull]
  apply finite_congr
  · rw [unpackSign_packComponents]
    cases s <;> rfl
  · rw [unpackMantissa_packComponents]
    exact hmantissa
  · rw [hexponent]
    exact he

/-! ## Exact rounding -/

theorem shiftRight_eq (m j : Nat) :
    (⟨m * 2 ^ j, false, false⟩ : ExtendedMantissa) >>> j = ⟨m, false, false⟩ := by
  induction j generalizing m with
  | zero => rw [Nat.pow_zero, Nat.mul_one]; rfl
  | succ j ih =>
    have hhalf : m * 2 ^ (j + 1) = m * 2 * 2 ^ j := by rw [Nat.pow_succ', Nat.mul_assoc]
    rw [hhalf]
    show ((⟨m * 2 * 2 ^ j, false, false⟩ : ExtendedMantissa) >>> j).shiftRightOne = _
    rw [ih]
    simp [ExtendedMantissa.shiftRightOne]

/-- Shifting drops nothing of a normal mantissa with zeros behind it. -/
theorem shiftToTargetExponent_eq {m : Nat} (hm : IsNormal m) (j : Nat) {e : Int}
    (he : -1074 ≤ e + j) :
    shiftToTargetExponent Format.binary64 (m * 2 ^ j) e .exact = (⟨m, false, false⟩, e + j) := by
  have hlog : (m * 2 ^ j).log2 = 52 + j := by
    have hpos : 0 < m * 2 ^ j := Nat.mul_pos hm.pos (Nat.two_pow_pos j)
    refine (Nat.log2_eq_iff (Nat.ne_of_gt hpos)).mpr ⟨?_, ?_⟩
    · rw [Nat.pow_add]
      exact Nat.mul_le_mul_right _ hm.le
    · rw [Nat.add_right_comm, Nat.pow_add]
      exact Nat.mul_lt_mul_of_pos_right hm.lt (Nat.two_pow_pos j)
  have htarget : Format.binary64.targetExponent (totalExponent (m * 2 ^ j) e) = e + j := by
    rw [targetExponent_eq, totalExponent, hlog]
    omega
  have hshift : (e + j - e).toNat = j := by omega
  unfold shiftToTargetExponent shiftToExponent
  dsimp only
  rw [htarget, hshift]
  exact congrArg (·, e + j) (shiftRight_eq m j)

theorem roundWithAccuracy_eq {m : Nat} (hm : IsNormal m) (j : Nat) {e : Int} (he : -1074 ≤ e + j)
    (s : Sign) :
    roundWithAccuracy Format.binary64 s (m * 2 ^ j) e .exact = .finite s m (e + j) hm.pos := by
  have hagain : shiftToTargetExponent Format.binary64 m (e + j) .exact =
      (⟨m, false, false⟩, e + j) := by
    have hfixed := shiftToTargetExponent_eq hm 0 (e := e + j) (by omega)
    rwa [Nat.pow_zero, Nat.mul_one, Int.natCast_zero, Int.add_zero] at hfixed
  unfold roundWithAccuracy
  rw [shiftToTargetExponent_eq hm j he]
  have hrounded : (⟨m, false, false⟩ : ExtendedMantissa).roundedMantissa = m := rfl
  dsimp only
  rw [hrounded, hagain]
  exact dif_neg (Nat.ne_of_gt hm.pos)

/-! ## Whole numbers -/

/-- Whether `m * 2 ^ e` is the number `n`. -/
def Stands (n m : Nat) (e : Int) : Prop := m * 2 ^ e.toNat = n * 2 ^ (-e).toNat

theorem log2_le {n : Nat} (hpos : 0 < n) (hn : n < 2 ^ 53) : n.log2 ≤ 52 :=
  Nat.le_of_lt_succ ((Nat.log2_lt (Nat.ne_of_gt hpos)).mpr hn)

/-- A small number becomes a normal mantissa when it is shifted up. -/
theorem isNormal_shift {n : Nat} (hpos : 0 < n) (hn : n < 2 ^ 53) :
    IsNormal (n * 2 ^ (52 - n.log2)) := by
  have hlog := log2_le hpos hn
  have hlow : 2 ^ n.log2 * 2 ^ (52 - n.log2) = 2 ^ 52 := by
    rw [← Nat.pow_add, Nat.add_sub_cancel' hlog]
  have hhigh : 2 ^ (n.log2 + 1) * 2 ^ (52 - n.log2) = 2 ^ 53 := by
    rw [← Nat.pow_add, Nat.add_right_comm, Nat.add_sub_cancel' hlog]
  constructor
  · calc 2 ^ 52 = 2 ^ n.log2 * 2 ^ (52 - n.log2) := hlow.symm
      _ ≤ n * 2 ^ (52 - n.log2) :=
        Nat.mul_le_mul_right _ (Nat.log2_self_le (Nat.ne_of_gt hpos))
  · calc n * 2 ^ (52 - n.log2) < 2 ^ (n.log2 + 1) * 2 ^ (52 - n.log2) :=
        Nat.mul_lt_mul_of_pos_right Nat.lt_log2_self (Nat.two_pow_pos _)
      _ = 2 ^ 53 := hhigh

/-- Rounding a small number only shifts it. -/
theorem round_eq {n : Nat} (hpos : 0 < n) (hn : n < 2 ^ 53) :
    UnpackedFloat.round Format.binary64 .positive n 0 =
      .finite .positive (n * 2 ^ (52 - n.log2)) ((n.log2 : Int) - 52)
        (isNormal_shift hpos hn).pos := by
  have hlog := log2_le hpos hn
  have htarget : Format.binary64.targetExponent (totalExponent n 0) = (n.log2 : Int) - 52 := by
    rw [targetExponent_eq, totalExponent]
    omega
  have hshift : ((0 : Int) - ((n.log2 : Int) - 52)).toNat = 52 - n.log2 := by omega
  have hnext : (0 : Int) - (52 - n.log2 : Nat) = (n.log2 : Int) - 52 := by omega
  have hexact := roundWithAccuracy_eq (isNormal_shift hpos hn) 0 (e := (n.log2 : Int) - 52)
    (by omega) .positive
  rw [Nat.pow_zero, Nat.mul_one, Int.natCast_zero, Int.add_zero] at hexact
  rw [UnpackedFloat.round, htarget, decreaseExponent, hshift, hnext, Nat.shiftLeft_eq]
  exact hexact

theorem unpack_toFloat {n : Nat} (hpos : 0 < n) (hn : n < 2 ^ 53) :
    n.toUInt64.toFloat.toModel.unpack =
      .finite .positive (n * 2 ^ (52 - n.log2)) ((n.log2 : Int) - 52)
        (isNormal_shift hpos hn).pos := by
  have hlog := log2_le hpos hn
  have hnat : n.toUInt64.toNat = n := Nat.mod_eq_of_lt (by omega)
  have hnormalize : UnpackedFloat.ofUInt64 Format.binary64 n.toUInt64 =
      UnpackedFloat.round Format.binary64 .positive n 0 := by
    show UnpackedFloat.normalize Format.binary64 (n.toUInt64.toNat : Int) 0 .positive = _
    rw [hnat, UnpackedFloat.normalize, Int.compare_eq_gt.mpr (by omega)]
    rfl
  show (Float.Model.pack (UnpackedFloat.ofUInt64 Format.binary64 n.toUInt64)).unpack = _
  rw [hnormalize, round_eq hpos hn]
  exact unpack_pack (isNormal_shift hpos hn) (by omega) (by omega)

/-- A number below two to the power of 53 is made a word, and multiplied by one. -/
theorem unpack_ofNat_of_lt {n : Nat} (hpos : 0 < n) (hn : n < 2 ^ 53) :
    (Float.ofNat n).toModel.unpack =
      .finite .positive (n * 2 ^ (52 - n.log2)) ((n.log2 : Int) - 52)
        (isNormal_shift hpos hn).pos := by
  have hm := isNormal_shift hpos hn
  have hlog := log2_le hpos hn
  have hone : (Float.ofBits 0x3FF0000000000000).toModel.unpack =
      .finite .positive (2 ^ 52) (-52) (by decide) := by rfl
  have hproduct : Float.ofNat n = n.toUInt64.toFloat * Float.ofBits 0x3FF0000000000000 := by
    show Float.ofScientific n false 0 = _
    rw [Float.ofScientific, dif_pos ⟨hn, by decide⟩]
    rfl
  have hexact := roundWithAccuracy_eq hm 52 (e := (n.log2 : Int) - 52 + -52) (by omega)
    (.positive * .positive)
  have hexponent : (n.log2 : Int) - 52 + -52 + (52 : Nat) = (n.log2 : Int) - 52 := by omega
  rw [hproduct]
  show (Float.Model.pack (UnpackedFloat.mul Format.binary64 n.toUInt64.toFloat.toModel.unpack
    (Float.ofBits 0x3FF0000000000000).toModel.unpack)).unpack = _
  rw [unpack_toFloat hpos hn, hone]
  show (Float.Model.pack (roundWithAccuracy Format.binary64 (.positive * .positive)
    (n * 2 ^ (52 - n.log2) * 2 ^ 52) ((n.log2 : Int) - 52 + -52) .exact)).unpack = _
  rw [hexact]
  rw [hexponent]
  exact unpack_pack hm (by omega) (by omega)

/-- A larger number is shifted up and rounded down again. -/
theorem unpack_ofNat_of_le {m k : Nat} (hm : IsNormal m) (hk : k ≤ 971)
    (hn : 2 ^ 53 ≤ m * 2 ^ k) :
    (Float.ofNat (m * 2 ^ k)).toModel.unpack = .finite .positive m k hm.pos := by
  have hpos : m * 2 ^ k ≠ 0 := by omega
  have hslow : Float.ofNat (m * 2 ^ k) =
      .ofModel (.pack (roundWithAccuracy Format.binary64 (.positive * .positive)
        ((m * 2 ^ k) <<< 53 * 1) (-53 + 0) .exact)) := by
    show Float.ofScientific (m * 2 ^ k) false 0 = _
    rw [Float.ofScientific, dif_neg fun h => Nat.not_lt.mpr hn h.1]
    show Float.ofModel (.pack (UnpackedFloat.ofScientific Format.binary64 (m * 2 ^ k) 0)) = _
    rw [UnpackedFloat.ofScientific, dif_neg hpos, if_neg (by decide), if_neg, if_pos (by decide)]
    · rfl
    · show ¬ (0 : Int) < -(2048 + ((m * 2 ^ k).log2 : Int))
      omega
  have hshift : (m * 2 ^ k) <<< 53 * 1 = m * 2 ^ (k + 53) := by
    rw [Nat.mul_one, Nat.shiftLeft_eq, Nat.mul_assoc, ← Nat.pow_add]
  have hexact := roundWithAccuracy_eq hm (k + 53) (e := -53 + 0) (by omega)
    (.positive * .positive)
  have hexponent : (-53 : Int) + 0 + (k + 53 : Nat) = k := by omega
  rw [hslow, hshift, hexact]
  rw [hexponent]
  exact unpack_pack hm (by omega) (by omega)

/-! ## Reading whole numbers back -/

theorem toInt?_of_unpack {x : Float} {s : Sign} {n m : Nat} {e : Int} {hm : 0 < m}
    (h : x.toModel.unpack = .finite s m e hm) (hstands : Stands n m e) :
    toInt? x = some (s.apply n) := by
  have hratio : (Ratio.ofScaled m e).num = n * (Ratio.ofScaled m e).den ∧
      0 < (Ratio.ofScaled m e).den := by
    rw [Ratio.ofScaled]
    rw [Stands] at hstands
    split
    · next he =>
      have hzero : (-e).toNat = 0 := by omega
      rw [hzero] at hstands
      exact ⟨hstands, Nat.one_pos⟩
    · next he =>
      have hzero : e.toNat = 0 := by omega
      rw [hzero, Nat.pow_zero, Nat.mul_one] at hstands
      exact ⟨hstands, Nat.two_pow_pos _⟩
  obtain ⟨hnum, hden⟩ := hratio
  have hquotient : ((Ratio.ofScaled m e).num : Int) / ((Ratio.ofScaled m e).den : Int) = n := by
    rw [hnum, ← Int.natCast_ediv, Nat.mul_div_cancel _ hden]
  rw [toInt?, read_of_unpack h]
  dsimp only
  rw [hquotient, hnum, if_pos (Nat.mul_mod_left _ _)]
  cases s with
  | negative => rfl
  | positive => rfl

/-- A number that is a normal mantissa shifted up, but not too far. -/
def IsShifted (n : Nat) : Prop := ∃ m k, IsNormal m ∧ k ≤ 971 ∧ n = m * 2 ^ k

theorem exists_unpack_ofNat {n : Nat} (hpos : 0 < n)
    (h : n < 2 ^ 53 ∨ IsShifted n) :
    ∃ m e, ∃ hm : IsNormal m, Stands n m e ∧ -52 ≤ e ∧ e ≤ 971 ∧
      (Float.ofNat n).toModel.unpack = .finite .positive m e hm.pos := by
  by_cases hn : n < 2 ^ 53
  · have hlog := log2_le hpos hn
    refine ⟨_, _, isNormal_shift hpos hn, ?_, by omega, by omega, unpack_ofNat_of_lt hpos hn⟩
    have hzero : ((n.log2 : Int) - 52).toNat = 0 := by omega
    have hshift : (-((n.log2 : Int) - 52)).toNat = 52 - n.log2 := by omega
    rw [Stands, hzero, hshift, Nat.pow_zero, Nat.mul_one]
  · obtain ⟨m, k, hm, hk, rfl⟩ := h.resolve_left hn
    refine ⟨m, k, hm, ?_, by omega, by omega, unpack_ofNat_of_le hm hk (by omega)⟩
    have hzero : (-(k : Int)).toNat = 0 := by omega
    rw [Stands, hzero, Nat.pow_zero, Nat.mul_one, Int.toNat_natCast]

theorem toInt?_ofInt_zero : toInt? (Float.ofInt 0) = some 0 := by
  have hread : read (Float.ofInt 0) = .finite false 0 (-1074) := rfl
  have hnum : (Ratio.ofScaled 0 (-1074)).num = 0 := rfl
  rw [toInt?, hread]
  dsimp only
  rw [hnum, if_pos (Nat.zero_mod _), Int.natCast_zero, Int.zero_ediv]
  rfl

theorem toInt?_ofInt_of_natAbs {n : Int}
    (h : n.natAbs < 2 ^ 53 ∨ IsShifted n.natAbs) : toInt? (Float.ofInt n) = some n := by
  cases n with
  | ofNat n =>
    rcases Nat.eq_zero_or_pos n with rfl | hpos
    · exact toInt?_ofInt_zero
    · obtain ⟨m, e, hm, hstands, -, -, hunpack⟩ := exists_unpack_ofNat hpos h
      exact toInt?_of_unpack hunpack hstands
  | negSucc n =>
    obtain ⟨m, e, hm, hstands, hlow, hhigh, hunpack⟩ := exists_unpack_ofNat n.succ_pos h
    have hneg : (Float.ofInt (.negSucc n)).toModel.unpack = .finite .negative m e hm.pos := by
      show (Float.Model.pack (Float.ofNat n.succ).toModel.unpack.neg).unpack = _
      rw [hunpack]
      exact unpack_pack hm (by omega) hhigh
    exact toInt?_of_unpack hneg hstands

theorem lt_or_isShifted {m k : Nat} (hm : m < 2 ^ 53) (hk : k ≤ 971) :
    m * 2 ^ k < 2 ^ 53 ∨ IsShifted (m * 2 ^ k) := by
  rcases Nat.eq_zero_or_pos m with rfl | hpos
  · left
    rw [Nat.zero_mul]
    decide
  · have hnormal := isNormal_shift hpos hm
    by_cases hle : 52 - m.log2 ≤ k
    · refine .inr ⟨_, k - (52 - m.log2), hnormal, by omega, ?_⟩
      rw [Nat.mul_assoc, ← Nat.pow_add, Nat.add_sub_cancel' hle]
    · left
      have hpow : 2 ^ k ≤ 2 ^ (52 - m.log2) := Nat.pow_le_pow_right (by decide) (by omega)
      exact Nat.lt_of_le_of_lt (Nat.mul_le_mul_left m hpow) hnormal.lt

/-- The bounds of what a double is read as. -/
theorem bounds_of_readBits {bits : Nat} {negative : Bool} {m : Nat} {q : Int}
    (h : readBits bits = .finite negative m q) : m < 2 ^ 53 ∧ q ≤ 971 := by
  have h11 : twoPower 11 = 2048 := rfl
  have h52 : twoPower 52 = 2 ^ 52 := rfl
  simp only [readBits, h52, h11] at h
  split at h
  · split at h <;> cases h
  · split at h
    · simp only [Reading.finite.injEq] at h
      omega
    · simp only [Reading.finite.injEq] at h
      omega

/-- The number that a double is is small, or shifted up. -/
theorem natAbs_of_toInt? {x : Float} {n : Int} (h : toInt? x = some n) :
    n.natAbs < 2 ^ 53 ∨ IsShifted n.natAbs := by
  rw [toInt?] at h
  split at h
  · next negative m q hread =>
    obtain ⟨hm, hq⟩ := bounds_of_readBits hread
    dsimp only at h
    split at h
    · next hmod =>
      have hn : n.natAbs = (Ratio.ofScaled m q).num / (Ratio.ofScaled m q).den := by
        rw [Option.some.injEq, ← Int.natCast_ediv] at h
        rw [← h]
        split
        · rw [Int.natAbs_neg, Int.natAbs_natCast]
        · rw [Int.natAbs_natCast]
      rw [Ratio.ofScaled] at hn
      split at hn
      · have hnum : n.natAbs = m * 2 ^ q.toNat := hn.trans (Nat.div_one _)
        rw [hnum]
        exact lt_or_isShifted hm (by omega)
      · left
        rw [hn]
        exact Nat.lt_of_le_of_lt (Nat.div_le_self m (twoPower (-q).toNat)) hm
    · cases h
  · cases h

/-- A whole number that some double is becomes that number as a double. -/
theorem toInt?_ofInt {n : Int} (h : ∃ x, toInt? x = some n) : toInt? (Float.ofInt n) = some n := by
  obtain ⟨x, hx⟩ := h
  exact toInt?_ofInt_of_natAbs (natAbs_of_toInt? hx)

end CompanyRegister.Decimal
