import CompanyRegister.Store.Conversion

/-!
# The zeros among doubles

A column of doubles has one zero, so a negative zero that goes in comes out as a positive one. As
numbers the two are equal: what such a column holds of a finite number is that number.
-/

namespace CompanyRegister.Decimal

open Float.Model (UnpackedFloat)

/-! ## Finite numbers -/

theorem isNaN_eq_false {x : Float} (h : x.isFinite = true) : x.isNaN = false := by
  simp only [Float.isFinite, Float.Model.isFinite] at h
  simp only [Float.isNaN, Float.Model.isNaN]
  cases hx : x.toModel.unpack with
  | infinity s => rfl
  | notANumber => rw [hx] at h; cases h
  | zero s => rfl
  | finite s m e hm => rfl

theorem isFinite_zero : (0.0 : Float).isFinite = true := by decide

theorem compare_self {u : UnpackedFloat} (h : u.isFinite = true) : u.compare u = some .eq := by
  cases u with
  | infinity s => cases h
  | notANumber => cases h
  | zero s => rfl
  | finite s m e hm =>
    have heq : (compare e e).then (compare m m) = .eq := by
      rw [(Std.ReflCmp.compare_self : compare e e = .eq),
        (Std.ReflCmp.compare_self : compare m m = .eq)]
      rfl
    cases s
    · exact congrArg (fun o => some o.swap) heq
    · exact congrArg some heq

/-- A finite number equals itself, other than what is no number. -/
theorem beq_self {x : Float} (h : x.isFinite = true) : (x == x) = true := by
  have heq : x.toModel.unpack.compare x.toModel.unpack = some .eq := compare_self h
  show (x.toModel.unpack.compare x.toModel.unpack == some .eq) = true
  rw [heq]
  rfl

/-! ## Zeros -/

/-- Only a double without magnitude is the whole number zero. -/
theorem read_of_toInt?_zero {x : Float} (h : toInt? x = some 0) :
    ∃ negative q, read x = .finite negative 0 q := by
  rw [toInt?] at h
  split at h
  · next negative m q hread =>
    dsimp only at h
    split at h
    · next hmod =>
      have hquotient : (Ratio.ofScaled m q).num / (Ratio.ofScaled m q).den = 0 := by
        simp only [Option.some.injEq] at h
        split at h <;> omega
      have hnum : (Ratio.ofScaled m q).num = 0 := by
        rw [← Nat.div_add_mod (Ratio.ofScaled m q).num (Ratio.ofScaled m q).den, hquotient, hmod,
          Nat.mul_zero]
      have hm : m = 0 := by
        rw [Ratio.ofScaled] at hnum
        split at hnum
        · exact (Nat.mul_eq_zero.mp hnum).resolve_right (Nat.ne_of_gt (Nat.two_pow_pos _))
        · exact hnum
      exact ⟨negative, q, hm ▸ hread⟩
    · cases h
  · cases h

/-- A double without magnitude has no bit but that of the sign. -/
theorem bits_of_readBits_zero {bits : Nat} (hbits : bits < twoPower 64) {negative : Bool} {q : Int}
    (h : readBits bits = .finite negative 0 q) : bits = 0 ∨ bits = twoPower 63 := by
  have h11 : twoPower 11 = 2048 := rfl
  have h52 : twoPower 52 = 4503599627370496 := rfl
  have h63 : twoPower 63 = 9223372036854775808 := rfl
  have h64 : twoPower 64 = 18446744073709551616 := rfl
  simp only [readBits, h52, h11] at h
  split at h
  · split at h <;> cases h
  · split at h
    · simp only [Reading.finite.injEq] at h
      omega
    · simp only [Reading.finite.injEq] at h
      omega

theorem unpack_of_toInt?_zero {x : Float} (h : toInt? x = some 0) :
    ∃ s, x.toModel.unpack = .zero s := by
  obtain ⟨negative, q, hread⟩ := read_of_toInt?_zero h
  -- Only two words are left, and to unpack a given word is to compute.
  have hword : ∀ w : UInt64, x.toBits.toNat = w.toNat →
      x.toModel.unpack = UnpackedFloat.unpack .binary64 w.toBitVec := by
    intro w hw
    have heq : x.toBits = w := UInt64.toNat_inj.mp hw
    rw [← heq]
    rfl
  rcases bits_of_readBits_zero x.toBits.toNat_lt hread with hbits | hbits
  · exact ⟨.positive, (hword 0 hbits).trans rfl⟩
  · exact ⟨.negative, (hword 0x8000000000000000 hbits).trans rfl⟩

end CompanyRegister.Decimal

namespace CompanyRegister.Store

open Decimal

theorem isFinite_plainZero {x : Float} (h : x.isFinite = true) :
    (plainZero x).isFinite = true := by
  rw [plainZero]
  split
  · exact isFinite_zero
  · exact h

/-- What a column of doubles holds of a finite number is that number. -/
theorem plainZero_beq {x : Float} (h : x.isFinite = true) : (plainZero x == x) = true := by
  rw [plainZero]
  split
  · next hzero =>
    obtain ⟨s, hs⟩ := unpack_of_toInt?_zero hzero
    have hplain : (0.0 : Float).toModel.unpack = .zero .positive := rfl
    show (((0.0 : Float).toModel.unpack.compare x.toModel.unpack) == some .eq) = true
    rw [hs, hplain]
    rfl
  · exact beq_self h

end CompanyRegister.Store
