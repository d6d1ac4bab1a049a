import LightModem.CrcRemainder
import LightModem.Reception

set_option autoImplicit false

namespace LightModem

open Polynomial Gf2

def bitAt (w : List UInt8) (i : ℕ) : Bool := (w.getD (i / 8) 0).toNat.testBit (7 - i % 8)

def flips (w w' : List UInt8) : Finset ℕ := (Finset.range (8 * w.length)).filter fun i => bitAt w i ≠ bitAt w' i

section Detection

variable {w w' : List UInt8}

theorem messageNat_lt (w : List UInt8) : messageNat w < 2 ^ (8 * w.length) := by
  induction w using List.reverseRecOn with
  | nil => decide
  | append_singleton w b ih =>
    have hb := b.toNat_lt
    rw [messageNat_concat, List.length_append, List.length_singleton, Nat.mul_add, Nat.mul_one, Nat.pow_add]
    omega

theorem testBit_messageNat (w : List UInt8) {i : ℕ} (hi : i < 8 * w.length) :
    (messageNat w).testBit (8 * w.length - 1 - i) = bitAt w i := by
  induction w using List.reverseRecOn with
  | nil => simp at hi
  | append_singleton w b ih =>
    rw [List.length_append, List.length_singleton] at hi ⊢
    rw [messageNat_concat, Nat.mul_comm _ (2 ^ 8), Nat.testBit_two_pow_mul_add _ b.toNat_lt, bitAt]
    rcases Nat.lt_or_ge i (8 * w.length) with h | h
    · rw [if_neg (by omega), List.getD_append _ _ _ _ (by omega)]
      have hplace : 8 * (w.length + 1) - 1 - i - 8 = 8 * w.length - 1 - i := by omega
      rw [hplace, ih h, bitAt]
    · have hindex : i / 8 = w.length := by omega
      rw [if_pos (by omega), hindex, List.getD_append_right _ _ _ _ (Nat.le_refl _), Nat.sub_self]
      have hplace : 8 * (w.length + 1) - 1 - i = 7 - i % 8 := by omega
      rw [hplace]
      rfl

theorem support_error (length : w'.length = w.length) :
    (bitPoly (messageNat w ^^^ messageNat w')).support = (flips w w').image fun i => 8 * w.length - 1 - i := by
  ext j
  rw [mem_support_iff, coeff_bitPoly, Nat.testBit_xor, Finset.mem_image]
  constructor
  · intro h
    have differ : (messageNat w).testBit j ≠ (messageNat w').testBit j := by
      intro heq
      rw [heq, Bool.xor_self] at h
      exact h rfl
    have hj : j < 8 * w.length := by
      by_contra hge
      have high {v : List UInt8} (hv : v.length = w.length) : (messageNat v).testBit j = false := by
        apply Nat.testBit_lt_two_pow
        exact Nat.lt_of_lt_of_le (messageNat_lt v) (Nat.pow_le_pow_right (by decide) (by omega))
      exact differ ((high rfl).trans (high length).symm)
    refine ⟨8 * w.length - 1 - j, ?_, by omega⟩
    rw [flips, Finset.mem_filter, Finset.mem_range, ← testBit_messageNat w (by omega),
      ← testBit_messageNat w' (by omega), length]
    have hplace : 8 * w.length - 1 - (8 * w.length - 1 - j) = j := by omega
    rw [hplace]
    exact ⟨by omega, differ⟩
  · rintro ⟨i, hi, rfl⟩
    rw [flips, Finset.mem_filter, Finset.mem_range] at hi
    have hw' := testBit_messageNat w' (show i < 8 * w'.length by omega)
    rw [length] at hw'
    rw [testBit_messageNat w hi.1, hw']
    cases hb : bitAt w i <;> cases hb' : bitAt w' i <;> simp [hb, hb'] at hi ⊢

theorem card_error (length : w'.length = w.length) :
    (bitPoly (messageNat w ^^^ messageNat w')).support.card = (flips w w').card := by
  rw [support_error length, Finset.card_image_of_injOn]
  intro i hi j hj h
  simp only [flips, Finset.coe_filter, Finset.mem_range, Set.mem_ofPred_eq] at hi hj
  simp only at h
  omega

theorem messageNat_append (w v : List UInt8) : messageNat (w ++ v) = messageNat w * 2 ^ (8 * v.length) + messageNat v := by
  induction v using List.reverseRecOn with
  | nil => simp [messageNat]
  | append_singleton v b ih =>
    rw [← List.append_assoc, messageNat_concat, ih, messageNat_concat, List.length_append, List.length_singleton,
      Nat.mul_add, Nat.pow_add]
    ring

theorem messageNat_checkBytes (crc16 : Crc16Context) (payload : List UInt8) :
    messageNat (checkBytes crc16 true payload) = (crc16DoCalcul crc16 payload 0 0).toNat := by
  generalize hcrc : crc16DoCalcul crc16 payload 0 0 = crc
  have hlt := crc.toNat_lt
  have hi : ((crc &&& 0xFF00) >>> 8).toUInt8.toNat = crc.toNat / 2 ^ 8 := by
    rw [UInt16.toNat_toUInt8, UInt16.toNat_shiftRight, UInt16.toNat_and]
    change (crc.toNat &&& 0xFF00) >>> 8 % 2 ^ 8 = _
    rw [Nat.shiftRight_and_distrib]
    change (crc.toNat >>> 8 &&& (2 ^ 8 - 1)) % 2 ^ 8 = _
    rw [Nat.and_two_pow_sub_one_eq_mod, Nat.shiftRight_eq_div_pow]
    omega
  have lo : (crc &&& 0x00FF).toUInt8.toNat = crc.toNat % 2 ^ 8 := by
    rw [UInt16.toNat_toUInt8, UInt16.toNat_and]
    change (crc.toNat &&& (2 ^ 8 - 1)) % 2 ^ 8 = _
    rw [Nat.and_two_pow_sub_one_eq_mod, Nat.mod_mod]
  simp only [checkBytes, hcrc, if_true, messageNat, List.foldl_cons, List.foldl_nil, hi, lo]
  omega

theorem period_ccitt : avoids 16 lxmodemCrc16CcittPolynome.toNat 1 8207 1 = true := by decide +kernel

theorem dvd_of_accepts {pThis : ModemContext} (crc16 : pThis.crc16 = crc16Init lxmodemCrc16CcittPolynome)
    {blksize : ℕ} (hasCrc : lxmodemBlockHasCrc pThis blksize = true) (length : w.length = blksize + 2) {a b : UInt8}
    (accepts : lxmodemCheckCrc (pThis.fill (a :: b :: w)) blksize = .recvOk) :
    generator 16 lxmodemCrc16CcittPolynome.toNat ∣ bitPoly (messageNat w) := by
  obtain ⟨payload, check, rfl, hpayload, hcheck⟩ : ∃ payload check, w = payload ++ check ∧
      payload.length = blksize ∧ check.length = 2 :=
    ⟨w.take blksize, w.drop blksize, (List.take_append_drop _ _).symm, by simp [length], by simp [length]⟩
  rw [lxmodemCheckCrc_fill pThis a b hpayload (by rw [hasCrc]; exact hcheck), hasCrc, crc16] at accepts
  split at accepts
  · rename_i hsame
    have low : messageNat check < 2 ^ (8 * 2) := by
      have h := messageNat_lt check
      rwa [hcheck] at h
    rw [messageNat_append, hcheck, bitPoly_two_pow_add low, hsame,
      messageNat_checkBytes, ← CharTwo.sub_eq_add, ← AdjoinRoot.mk_eq_mk]
    have remainder := mk_crc16DoCalcul lxmodemCrc16CcittPolynome payload 0
    rwa [UInt16.toNat_zero, bitPoly_zero, zero_mul, zero_add] at remainder
  · cases accepts

end Detection

theorem lxmodemCheckCrc_detects (pThis : ModemContext)
    (crc16 : pThis.crc16 = crc16Init lxmodemCrc16CcittPolynome) (blksize : ℕ) (size : blksize = 128 ∨ blksize = 1024)
    (hasCrc : lxmodemBlockHasCrc pThis blksize = true) (a b a' b' : UInt8) (w w' : List UInt8)
    (length : w.length = blksize + 2) (length' : w'.length = blksize + 2)
    (accepts : lxmodemCheckCrc (pThis.fill (a :: b :: w)) blksize = .recvOk)
    (altered : Odd (flips w w').card ∨ (flips w w').card = 2 ∨
      (flips w w').Nonempty ∧ ∃ s, ∀ i ∈ flips w w', s ≤ i ∧ i < s + 16) :
    lxmodemCheckCrc (pThis.fill (a' :: b' :: w')) blksize = .recvError := by
  by_contra hne
  have accepts' : lxmodemCheckCrc (pThis.fill (a' :: b' :: w')) blksize = .recvOk := by
    rw [lxmodemCheckCrc, blockHasCrc_fill, hasCrc] at hne ⊢
    simp only [if_true] at hne ⊢
    split at hne
    · rename_i hsame
      rw [if_pos hsame]
    · exact absurd rfl hne
  have dvd : generator 16 lxmodemCrc16CcittPolynome.toNat ∣ bitPoly (messageNat w ^^^ messageNat w') := by
    rw [bitPoly_xor]
    exact dvd_add (dvd_of_accepts crc16 hasCrc length accepts) (dvd_of_accepts crc16 hasCrc length' accepts')
  have same : w'.length = w.length := length'.trans length.symm
  have place : ∀ j ∈ (bitPoly (messageNat w ^^^ messageNat w')).support,
      ∃ i ∈ flips w w', j = 8 * w.length - 1 - i ∧ i < 8 * w.length := by
    intro j hj
    rw [support_error same, Finset.mem_image] at hj
    obtain ⟨i, hi, rfl⟩ := hj
    rw [flips, Finset.mem_filter, Finset.mem_range] at hi
    exact ⟨i, by rw [flips, Finset.mem_filter, Finset.mem_range]; exact hi, rfl, hi.1⟩
  rcases altered with odd | two | ⟨nonempty, s, burst⟩
  · apply not_dvd_of_odd _ _ dvd
    · rw [generator_ccitt]
      simp only [eval_add, eval_pow, eval_X, eval_one, one_pow]
      decide
    · rwa [card_error same]
  · refine not_dvd_of_two (by decide) (by decide) (by decide) period_ccitt ?_ ?_ dvd
    · intro j hj
      obtain ⟨i, _, rfl, _⟩ := place j hj
      omega
    · rwa [card_error same]
  · refine @not_dvd_of_burst 16 _ _ (by decide) (by decide) (by decide) ?_ (8 * w.length - 16 - s) ?_ dvd
    · intro zero
      have none := card_error same
      rw [zero, support_zero, Finset.card_empty] at none
      exact absurd none.symm nonempty.card_pos.ne'
    · intro j hj
      obtain ⟨i, hi, rfl, hlt⟩ := place j hj
      have := burst i hi
      omega

theorem lxmodemCheckCrc_detects_oneBit :
    lxmodemCheckCrc ((lmodemSetLineBuffer (lmodemInit .lxmodem128WithCrc) (.fresh 0) 132).1.fill
      (1 :: 254 :: (List.replicate 129 0 ++ [1]))) 128 = .recvError :=
  lxmodemCheckCrc_detects _ rfl 128 (Or.inl rfl) rfl 1 254 1 254 (List.replicate 130 0) (List.replicate 129 0 ++ [1])
    rfl rfl (by decide +kernel) (Or.inl (by decide +kernel))

end LightModem
