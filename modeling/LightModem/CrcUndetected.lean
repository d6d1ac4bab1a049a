import LightModem.CrcDetection

set_option autoImplicit false

namespace LightModem

open Polynomial Gf2

section Codeword

variable {polynome : UInt16} {w w' payload check : List UInt8}

theorem messageNat_injective (length : w'.length = w.length) (same : messageNat w' = messageNat w) : w' = w := by
  induction w using List.reverseRecOn generalizing w' with
  | nil => exact List.length_eq_zero_iff.mp length
  | append_singleton w b ih =>
    obtain ⟨w', b', rfl⟩ : ∃ v c, w' = v ++ [c] := by
      obtain rfl | ⟨v, c, rfl⟩ := w'.eq_nil_or_concat
      · simp at length
      · exact ⟨v, c, List.concat_eq_append⟩
    rw [messageNat_concat, messageNat_concat] at same
    have hb := b.toNat_lt
    have hb' := b'.toNat_lt
    have last : b' = b := UInt8.toNat_inj.mp (by omega)
    have first : w' = w := ih (by simpa using length) (by omega)
    rw [first, last]

theorem generator_dvd_iff (hcheck : check.length = 2) :
    generator 16 polynome.toNat ∣ bitPoly (messageNat (payload ++ check)) ↔
      check = checkBytes (crc16Init polynome) true payload := by
  have low : messageNat check < 2 ^ 16 := by
    have h := messageNat_lt check
    rwa [hcheck] at h
  have crc := (crc16DoCalcul (crc16Init polynome) payload 0 0).toNat_lt
  have remainder := mk_crc16DoCalcul polynome payload 0
  rw [UInt16.toNat_zero, bitPoly_zero, zero_mul, zero_add] at remainder
  rw [messageNat_append, hcheck, bitPoly_two_pow_add low, ← CharTwo.sub_eq_add, ← AdjoinRoot.mk_eq_mk]
  constructor
  · intro h
    apply messageNat_injective
    · rw [hcheck, checkBytes_length]
      rfl
    · rw [messageNat_checkBytes]
      exact bitPoly_eq_of_mk polynome.toNat_lt low crc (h.symm.trans remainder)
  · rintro rfl
    rw [messageNat_checkBytes]
    exact remainder

theorem lxmodemCheckCrc_ok_iff {pThis : ModemContext} (crc16 : pThis.crc16 = crc16Init polynome) {blksize : ℕ}
    (hasCrc : lxmodemBlockHasCrc pThis blksize = true) (length : w.length = blksize + 2) (a b : UInt8) :
    lxmodemCheckCrc (pThis.fill (a :: b :: w)) blksize = .recvOk ↔
      generator 16 polynome.toNat ∣ bitPoly (messageNat w) := by
  obtain ⟨payload, check, rfl, hpayload, hcheck⟩ : ∃ payload check, w = payload ++ check ∧
      payload.length = blksize ∧ check.length = 2 :=
    ⟨w.take blksize, w.drop blksize, (List.take_append_drop _ _).symm, by simp [length], by simp [length]⟩
  rw [lxmodemCheckCrc_fill pThis a b hpayload (by rw [hasCrc]; exact hcheck), hasCrc, crc16, generator_dvd_iff hcheck]
  split
  · next same => exact iff_of_true rfl same
  · next other => exact iff_of_false (by decide) other

theorem generator_ccitt_bits : generator 16 lxmodemCrc16CcittPolynome.toNat = bitPoly 0x11021 := by
  have bits : (0x11021 : ℕ) = (1 <<< 16) ^^^ lxmodemCrc16CcittPolynome.toNat := by decide
  rw [generator, bits, bitPoly_xor, bitPoly_shiftLeft, bitPoly_one, one_mul]

theorem testBit_ccitt (k : ℕ) : Nat.testBit 0x11021 k = true ↔ k = 0 ∨ k = 5 ∨ k = 12 ∨ k = 16 := by
  rcases Nat.lt_or_ge k 17 with h | h
  · interval_cases k <;> decide
  · have high : Nat.testBit 0x11021 k = false := by
      apply Nat.testBit_lt_two_pow
      exact Nat.lt_of_lt_of_le (by decide) (Nat.pow_le_pow_right (by decide) h)
    rw [high]
    constructor
    · intro h
      cases h
    · omega

theorem error_ccitt {s : ℕ} (length : w'.length = w.length) (altered : flips w w' = {s, s + 4, s + 11, s + 16}) :
    messageNat w ^^^ messageNat w' = 0x11021 <<< (8 * w.length - 1 - (s + 16)) := by
  have inside : s + 16 < 8 * w.length := by
    have last : s + 16 ∈ flips w w' := by
      rw [altered]
      simp
    rw [flips, Finset.mem_filter, Finset.mem_range] at last
    exact last.1
  have support := support_error length
  rw [altered] at support
  apply Nat.eq_of_testBit_eq
  intro j
  have term : (messageNat w ^^^ messageNat w').testBit j = true ↔
      j ∈ (bitPoly (messageNat w ^^^ messageNat w')).support := by
    rw [mem_support_iff, coeff_bitPoly]
    split
    · next set => exact iff_of_true set one_ne_zero
    · next unset => exact iff_of_false unset (not_not.mpr rfl)
  rw [Bool.eq_iff_iff, term, support, Nat.testBit_shiftLeft, Bool.and_eq_true, testBit_ccitt, decide_eq_true_eq]
  simp only [Finset.mem_image, Finset.mem_insert, Finset.mem_singleton]
  constructor
  · rintro ⟨i, rfl | rfl | rfl | rfl, rfl⟩ <;> omega
  · rintro ⟨le, places⟩
    refine ⟨8 * w.length - 1 - j, ?_, ?_⟩ <;> omega

end Codeword

theorem lxmodemCheckCrc_undetected_iff (pThis : ModemContext) (polynome : UInt16)
    (crc16 : pThis.crc16 = crc16Init polynome) (blksize : ℕ) (hasCrc : lxmodemBlockHasCrc pThis blksize = true)
    (a b a' b' : UInt8) (w w' : List UInt8) (length : w.length = blksize + 2) (length' : w'.length = blksize + 2)
    (accepts : lxmodemCheckCrc (pThis.fill (a :: b :: w)) blksize = .recvOk) :
    lxmodemCheckCrc (pThis.fill (a' :: b' :: w')) blksize = .recvOk ↔
      generator 16 polynome.toNat ∣ bitPoly (messageNat w ^^^ messageNat w') := by
  rw [lxmodemCheckCrc_ok_iff crc16 hasCrc length] at accepts
  rw [lxmodemCheckCrc_ok_iff crc16 hasCrc length', bitPoly_xor]
  exact (dvd_add_right accepts).symm

theorem lxmodemCheckCrc_undetected_lastBytes :
    generator 16 lxmodemCrc16CcittPolynome.toNat ∣ bitPoly (messageNat (List.replicate 130 0) ^^^
      messageNat (List.replicate 127 0 ++ [0x01, 0x10, 0x21])) :=
  (lxmodemCheckCrc_undetected_iff (lmodemSetLineBuffer (lmodemInit .lxmodem128WithCrc) (.fresh 0) 132).1
    lxmodemCrc16CcittPolynome rfl 128 rfl 1 254 1 254 (List.replicate 130 0)
    (List.replicate 127 0 ++ [0x01, 0x10, 0x21]) rfl rfl (by decide +kernel)).mp (by decide +kernel)

theorem lxmodemCheckCrc_misses (pThis : ModemContext) (crc16 : pThis.crc16 = crc16Init lxmodemCrc16CcittPolynome)
    (blksize : ℕ) (hasCrc : lxmodemBlockHasCrc pThis blksize = true) (a b a' b' : UInt8) (w w' : List UInt8)
    (length : w.length = blksize + 2) (length' : w'.length = blksize + 2)
    (accepts : lxmodemCheckCrc (pThis.fill (a :: b :: w)) blksize = .recvOk) (s : ℕ)
    (altered : flips w w' = {s, s + 4, s + 11, s + 16}) :
    lxmodemCheckCrc (pThis.fill (a' :: b' :: w')) blksize = .recvOk := by
  have same : w'.length = w.length := length'.trans length.symm
  rw [lxmodemCheckCrc_ok_iff crc16 hasCrc length] at accepts
  rw [lxmodemCheckCrc_ok_iff crc16 hasCrc length']
  rw [← dvd_add_right accepts, ← bitPoly_xor, error_ccitt same altered, bitPoly_shiftLeft, generator_ccitt_bits]
  exact Dvd.intro _ rfl

theorem lxmodemCheckCrc_misses_lastBytes :
    lxmodemCheckCrc ((lmodemSetLineBuffer (lmodemInit .lxmodem128WithCrc) (.fresh 0) 132).1.fill
      (1 :: 254 :: (List.replicate 127 0 ++ [0x01, 0x10, 0x21]))) 128 = .recvOk :=
  lxmodemCheckCrc_misses (lmodemSetLineBuffer (lmodemInit .lxmodem128WithCrc) (.fresh 0) 132).1 rfl 128 rfl
    1 254 1 254 (List.replicate 130 0) (List.replicate 127 0 ++ [0x01, 0x10, 0x21]) rfl rfl (by decide +kernel) 1023
    (by decide +kernel)

end LightModem
