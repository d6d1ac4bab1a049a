import LightModem.Context
import LightModem.Gf2

set_option autoImplicit false

namespace LightModem

open Polynomial Gf2

def messageNat (data : List UInt8) : ℕ := data.foldl (fun n b => n * 256 + b.toNat) 0

section Remainder

variable {polynome : UInt16}

theorem crc16Shift_low (polynome : UInt16) (crc : UInt32) :
    (crc16Shift polynome crc).toNat % 2 ^ 16 = shift 16 polynome.toNat (crc.toNat % 2 ^ 16) := by
  have highbit : (crc &&& 0x8000).toUInt16 ≠ 0 ↔ (crc.toNat % 2 ^ 16).testBit 15 = true := by
    rw [Ne, ← UInt16.toNat_inj, UInt32.toNat_toUInt16, UInt32.toNat_and]
    change ¬ (crc.toNat &&& 2 ^ 15) % 2 ^ 16 = 0 ↔ _
    rw [Nat.and_two_pow, Nat.testBit_mod_two_pow]
    cases crc.toNat.testBit 15 <;> decide
  have doubled : (crc <<< 1).toNat % 2 ^ 16 = crc.toNat % 2 ^ 16 * 2 % 2 ^ 16 := by
    rw [UInt32.toNat_shiftLeft]
    change crc.toNat <<< 1 % 2 ^ 32 % 2 ^ 16 = _
    rw [Nat.shiftLeft_eq]
    omega
  have low : polynome.toNat % 2 ^ 16 = polynome.toNat := Nat.mod_eq_of_lt polynome.toNat_lt
  rw [crc16Shift, shift]
  by_cases h : (crc.toNat % 2 ^ 16).testBit 15 = true
  · rw [if_pos (highbit.mpr h), if_pos h, UInt32.toNat_xor, Nat.xor_mod_two_pow, doubled,
      UInt16.toNat_toUInt32, low]
  · rw [if_neg (mt highbit.mp h), if_neg h, doubled]

theorem crc16Shift_iterate_low (polynome : UInt16) (n : ℕ) (crc : UInt32) :
    ((crc16Shift polynome)^[n] crc).toNat % 2 ^ 16 = (shift 16 polynome.toNat)^[n] (crc.toNat % 2 ^ 16) := by
  induction n generalizing crc with
  | zero => rfl
  | succ n ih => rw [Function.iterate_succ_apply, ih, crc16Shift_low, Function.iterate_succ_apply]

theorem crctab_toNat (polynome : UInt16) (i : UInt8) :
    ((crc16Init polynome).crctab i).toNat = (shift 16 polynome.toNat)^[8] (i.toNat * 2 ^ 8) := by
  have hi := i.toNat_lt
  have start : (i.toUInt32 <<< 8).toNat % 2 ^ 16 = i.toNat * 2 ^ 8 := by
    rw [UInt32.toNat_shiftLeft, UInt8.toNat_toUInt32]
    change i.toNat <<< 8 % 2 ^ 32 % 2 ^ 16 = _
    rw [Nat.shiftLeft_eq]
    omega
  rw [← start, ← crc16Shift_iterate_low, crc16Init, UInt32.toNat_toUInt16, UInt32.toNat_and]
  change (_ &&& (2 ^ 16 - 1)) % 2 ^ 16 = _
  rw [Nat.and_two_pow_sub_one_eq_mod, Nat.mod_mod]

theorem mk_crctab (polynome : UInt16) (i : UInt8) :
    AdjoinRoot.mk (generator 16 polynome.toNat) (bitPoly ((crc16Init polynome).crctab i).toNat) =
      AdjoinRoot.mk (generator 16 polynome.toNat) (bitPoly i.toNat * X ^ 16) := by
  have hi := i.toNat_lt
  rw [crctab_toNat, mk_iterate_shift (by decide) polynome.toNat_lt 8 (by omega), ← Nat.shiftLeft_eq,
    bitPoly_shiftLeft, mul_assoc, ← pow_add]

theorem mk_crc16_step (polynome crc : UInt16) (b : UInt8) :
    AdjoinRoot.mk (generator 16 polynome.toNat)
        (bitPoly ((crc <<< 8) ^^^ (crc16Init polynome).crctab (((crc >>> 8) ^^^ b.toUInt16) &&& 0xFF).toUInt8).toNat) =
      AdjoinRoot.mk (generator 16 polynome.toNat) (bitPoly crc.toNat * X ^ 8 + bitPoly b.toNat * X ^ 16) := by
  have hcrc := crc.toNat_lt
  have hb := b.toNat_lt
  have index : ((((crc >>> 8) ^^^ b.toUInt16) &&& 0xFF).toUInt8).toNat = crc.toNat / 2 ^ 8 ^^^ b.toNat := by
    have small : crc.toNat / 2 ^ 8 ^^^ b.toNat < 2 ^ 8 := Nat.xor_lt_two_pow (by omega) hb
    rw [UInt16.toNat_toUInt8, UInt16.toNat_and, UInt16.toNat_xor, UInt16.toNat_shiftRight, UInt8.toNat_toUInt16]
    change ((crc.toNat >>> 8 ^^^ b.toNat) &&& (2 ^ 8 - 1)) % 2 ^ 8 = _
    rw [Nat.shiftRight_eq_div_pow, Nat.and_two_pow_sub_one_eq_mod, Nat.mod_mod, Nat.mod_eq_of_lt small]
  have shifted : (crc <<< 8).toNat = (crc.toNat % 2 ^ 8) <<< 8 := by
    rw [UInt16.toNat_shiftLeft]
    change crc.toNat <<< 8 % 2 ^ 16 = _
    rw [Nat.shiftLeft_eq, Nat.shiftLeft_eq]
    omega
  rw [UInt16.toNat_xor, bitPoly_xor, map_add, mk_crctab, index, shifted, bitPoly_shiftLeft, bitPoly_xor,
    ← map_add, bitPoly_div_mod crc.toNat 8]
  congr 1
  ring

theorem messageNat_concat (data : List UInt8) (b : UInt8) :
    messageNat (data ++ [b]) = messageNat data * 2 ^ 8 + b.toNat := by
  rw [messageNat, List.foldl_append]
  rfl

theorem mk_crc16DoCalcul (polynome : UInt16) (data : List UInt8) (initValue : UInt16) :
    AdjoinRoot.mk (generator 16 polynome.toNat)
        (bitPoly initValue.toNat * X ^ (8 * data.length) + bitPoly (messageNat data) * X ^ 16) =
      AdjoinRoot.mk (generator 16 polynome.toNat)
        (bitPoly (crc16DoCalcul (crc16Init polynome) data initValue 0).toNat) := by
  induction data using List.reverseRecOn with
  | nil => simp [crc16DoCalcul, messageNat]
  | append_singleton data b ih =>
    have next : crc16DoCalcul (crc16Init polynome) (data ++ [b]) initValue 0 =
        (crc16DoCalcul (crc16Init polynome) data initValue 0 <<< 8) ^^^ (crc16Init polynome).crctab
          (((crc16DoCalcul (crc16Init polynome) data initValue 0 >>> 8) ^^^ b.toUInt16) &&& 0xFF).toUInt8 := by
      simp only [crc16DoCalcul, List.foldl_append, List.foldl_cons, List.foldl_nil, UInt16.xor_zero]
    have shifted : AdjoinRoot.mk (generator 16 polynome.toNat)
          (bitPoly (crc16DoCalcul (crc16Init polynome) data initValue 0).toNat * X ^ 8) =
        AdjoinRoot.mk (generator 16 polynome.toNat)
          ((bitPoly initValue.toNat * X ^ (8 * data.length) + bitPoly (messageNat data) * X ^ 16) * X ^ 8) := by
      rw [map_mul, ← ih, ← map_mul]
    rw [next, mk_crc16_step, map_add _ (bitPoly (crc16DoCalcul _ _ _ _).toNat * X ^ 8), shifted, ← map_add,
      messageNat_concat, bitPoly_two_pow_add b.toNat_lt, List.length_append, List.length_singleton]
    apply congrArg
    rw [Nat.mul_add, pow_add]
    ring

end Remainder

theorem generator_ccitt : generator 16 lxmodemCrc16CcittPolynome.toNat = X ^ 16 + X ^ 12 + X ^ 5 + 1 := by
  have bits : lxmodemCrc16CcittPolynome.toNat = (1 <<< 12) ^^^ (1 <<< 5) ^^^ 1 := by decide
  rw [generator, bits, bitPoly_xor, bitPoly_xor, bitPoly_shiftLeft, bitPoly_shiftLeft, bitPoly_one, one_mul,
    one_mul, add_assoc, add_assoc, add_assoc]

theorem crc16DoCalcul_remainder :
    (∀ (polynome : UInt16) (data : List UInt8) (initValue xorFinal : UInt16),
      bitPoly (crc16DoCalcul (crc16Init polynome) data initValue xorFinal).toNat =
        (bitPoly initValue.toNat * X ^ (8 * data.length) + bitPoly (messageNat data) * X ^ 16) %ₘ
          (X ^ 16 + bitPoly polynome.toNat) + bitPoly xorFinal.toNat) ∧
    ∀ data : List UInt8, bitPoly (crc16DoCalcul (crc16Init lxmodemCrc16CcittPolynome) data 0 0).toNat =
      (bitPoly (messageNat data) * X ^ 16) %ₘ (X ^ 16 + X ^ 12 + X ^ 5 + 1) := by
  have division (polynome : UInt16) (data : List UInt8) (initValue xorFinal : UInt16) :
      bitPoly (crc16DoCalcul (crc16Init polynome) data initValue xorFinal).toNat =
        (bitPoly initValue.toNat * X ^ (8 * data.length) + bitPoly (messageNat data) * X ^ 16) %ₘ
          generator 16 polynome.toNat + bitPoly xorFinal.toNat := by
    have final : crc16DoCalcul (crc16Init polynome) data initValue xorFinal =
        crc16DoCalcul (crc16Init polynome) data initValue 0 ^^^ xorFinal := by
      simp only [crc16DoCalcul, UInt16.xor_zero]
    rw [modByMonic_generator polynome.toNat_lt (UInt16.toNat_lt _) (mk_crc16DoCalcul polynome data initValue), final,
      UInt16.toNat_xor, bitPoly_xor]
  refine ⟨division, fun data => ?_⟩
  have xmodem := division lxmodemCrc16CcittPolynome data 0 0
  rw [generator_ccitt] at xmodem
  simpa using xmodem

end LightModem
