import Mathlib.Algebra.Field.ZMod
import Mathlib.Algebra.Polynomial.Div
import Mathlib.Data.Nat.Bitwise
import Mathlib.Data.ZMod.Basic
import Mathlib.RingTheory.AdjoinRoot

set_option autoImplicit false

/-!
Polynomials over the field of two elements, given by the bits of natural numbers, and the remainders that
shift registers compute of them.
-/

namespace LightModem.Gf2

open Polynomial

noncomputable def bitPoly (n : ℕ) : (ZMod 2)[X] :=
  ∑ i ∈ Finset.range n, if n.testBit i then X ^ i else 0

theorem coeff_bitPoly (n i : ℕ) : (bitPoly n).coeff i = if n.testBit i then 1 else 0 := by
  have term (j : ℕ) : (if n.testBit j then (X : (ZMod 2)[X]) ^ j else 0).coeff i =
      if i = j then (if n.testBit i then 1 else 0) else 0 := by
    by_cases h : i = j
    · subst h
      split <;> simp
    · split <;> simp [coeff_X_pow, h]
  rw [bitPoly, finsetSum_coeff, Finset.sum_congr rfl fun j _ => term j, Finset.sum_ite_eq]
  split
  · rfl
  · rename_i h
    rw [Finset.mem_range, not_lt] at h
    rw [Nat.testBit_lt_two_pow (Nat.lt_of_lt_of_le Nat.lt_two_pow_self (Nat.pow_le_pow_right (by decide) h))]
    rfl

theorem bitPoly_injective : Function.Injective bitPoly := by
  intro a b h
  apply Nat.eq_of_testBit_eq
  intro i
  have hi := congrArg (fun f => f.coeff i) h
  simp only [coeff_bitPoly] at hi
  cases ha : a.testBit i <;> cases hb : b.testBit i <;> simp [ha, hb] at hi <;> rfl

@[simp] theorem bitPoly_zero : bitPoly 0 = 0 := rfl

@[simp] theorem bitPoly_one : bitPoly 1 = 1 := by simp [bitPoly]

theorem bitPoly_xor (a b : ℕ) : bitPoly (a ^^^ b) = bitPoly a + bitPoly b := by
  ext i
  rw [coeff_add, coeff_bitPoly, coeff_bitPoly, coeff_bitPoly, Nat.testBit_xor]
  cases a.testBit i <;> cases b.testBit i <;> decide

theorem bitPoly_shiftLeft (n k : ℕ) : bitPoly (n <<< k) = bitPoly n * X ^ k := by
  ext i
  rw [coeff_mul_X_pow', coeff_bitPoly, Nat.testBit_shiftLeft]
  by_cases h : k ≤ i
  · simp [h, coeff_bitPoly]
  · simp [h]

theorem bitPoly_two_pow_add {n k m : ℕ} (h : m < 2 ^ k) :
    bitPoly (n * 2 ^ k + m) = bitPoly n * X ^ k + bitPoly m := by
  ext i
  rw [coeff_add, coeff_mul_X_pow', coeff_bitPoly, coeff_bitPoly, Nat.mul_comm, Nat.testBit_two_pow_mul_add _ h]
  by_cases hi : i < k
  · rw [if_pos hi, if_neg (Nat.not_le.mpr hi), zero_add, coeff_bitPoly]
  · rw [if_neg hi, if_pos (Nat.not_lt.mp hi), coeff_bitPoly,
      Nat.testBit_lt_two_pow (Nat.lt_of_lt_of_le h (Nat.pow_le_pow_right (by decide) (Nat.not_lt.mp hi)))]
    simp

theorem bitPoly_div_mod (n k : ℕ) : bitPoly n = bitPoly (n / 2 ^ k) * X ^ k + bitPoly (n % 2 ^ k) := by
  rw [← bitPoly_two_pow_add (Nat.mod_lt _ (Nat.two_pow_pos k)), Nat.div_add_mod']

theorem degree_bitPoly_lt {n k : ℕ} (h : n < 2 ^ k) : (bitPoly n).degree < k := by
  rw [degree_lt_iff_coeff_zero]
  intro i hi
  rw [coeff_bitPoly, Nat.testBit_lt_two_pow (Nat.lt_of_lt_of_le h (Nat.pow_le_pow_right (by decide) hi))]
  rfl

noncomputable def generator (w p : ℕ) : (ZMod 2)[X] := X ^ w + bitPoly p

section Generator

variable {w p : ℕ}

theorem generator_monic (h : p < 2 ^ w) : (generator w p).Monic :=
  monic_X_pow_add (degree_bitPoly_lt h)

theorem degree_generator (h : p < 2 ^ w) : (generator w p).degree = w := by
  rw [generator, degree_add_eq_left_of_degree_lt, degree_X_pow]
  rw [degree_X_pow]
  exact degree_bitPoly_lt h

theorem modByMonic_generator (hp : p < 2 ^ w) {n : ℕ} (hn : n < 2 ^ w) {f : (ZMod 2)[X]}
    (h : AdjoinRoot.mk (generator w p) f = AdjoinRoot.mk (generator w p) (bitPoly n)) :
    f %ₘ generator w p = bitPoly n := by
  rw [modByMonic_eq_of_dvd_sub (generator_monic hp) (AdjoinRoot.mk_eq_mk.mp h)]
  rw [modByMonic_eq_self_iff (generator_monic hp), degree_generator hp]
  exact degree_bitPoly_lt hn

def shift (w p c : ℕ) : ℕ :=
  if c.testBit (w - 1) then (c * 2 % 2 ^ w) ^^^ p else c * 2 % 2 ^ w

theorem shift_lt (hp : p < 2 ^ w) (c : ℕ) : shift w p c < 2 ^ w := by
  have h := Nat.mod_lt (c * 2) (Nat.two_pow_pos w)
  rw [shift]
  split
  · exact Nat.xor_lt_two_pow h hp
  · exact h

theorem mk_X_pow (w p : ℕ) :
    AdjoinRoot.mk (generator w p) (X ^ w) = AdjoinRoot.mk (generator w p) (bitPoly p) := by
  rw [AdjoinRoot.mk_eq_mk]
  refine ⟨1, ?_⟩
  rw [mul_one, generator, CharTwo.sub_eq_add]

theorem mk_shift (hw : 0 < w) {c : ℕ} (hc : c < 2 ^ w) :
    AdjoinRoot.mk (generator w p) (bitPoly (shift w p c)) = AdjoinRoot.mk (generator w p) (bitPoly c * X) := by
  obtain ⟨w, rfl⟩ : ∃ k, w = k + 1 := ⟨w - 1, by omega⟩
  have doubled : bitPoly c * X = bitPoly (c * 2 / 2 ^ (w + 1)) * X ^ (w + 1) + bitPoly (c * 2 % 2 ^ (w + 1)) := by
    rw [← bitPoly_div_mod, ← pow_one X, ← bitPoly_shiftLeft, Nat.shiftLeft_eq, Nat.pow_one]
  have high : c * 2 / 2 ^ (w + 1) = if c.testBit w then 1 else 0 := by
    have bit : c / 2 ^ w < 2 := Nat.div_lt_of_lt_mul (by rw [← Nat.pow_succ]; exact hc)
    rw [Nat.pow_succ, Nat.mul_div_mul_right _ _ (by decide), Nat.testBit_eq_decide_div_mod_eq]
    simp only [decide_eq_true_eq]
    generalize c / 2 ^ w = high at bit ⊢
    split <;> omega
  rw [doubled, map_add, map_mul, mk_X_pow, high, shift, Nat.add_sub_cancel]
  split
  · rw [bitPoly_xor, map_add, bitPoly_one, map_one, one_mul]
    exact add_comm _ _
  · rw [bitPoly_zero, map_zero, zero_mul, zero_add]

theorem mk_iterate_shift (hw : 0 < w) (hp : p < 2 ^ w) (n : ℕ) {c : ℕ} (hc : c < 2 ^ w) :
    AdjoinRoot.mk (generator w p) (bitPoly ((shift w p)^[n] c)) =
      AdjoinRoot.mk (generator w p) (bitPoly c * X ^ n) := by
  induction n generalizing c with
  | zero => rw [Function.iterate_zero_apply, pow_zero, mul_one]
  | succ n ih =>
    rw [Function.iterate_succ_apply, ih (shift_lt hp c), map_mul, mk_shift hw hc, ← map_mul, pow_succ',
      mul_assoc]

theorem bitPoly_eq_of_mk (hp : p < 2 ^ w) {a b : ℕ} (ha : a < 2 ^ w) (hb : b < 2 ^ w)
    (h : AdjoinRoot.mk (generator w p) (bitPoly a) = AdjoinRoot.mk (generator w p) (bitPoly b)) : a = b := by
  apply bitPoly_injective
  rw [← modByMonic_generator hp hb h, modByMonic_generator hp ha rfl]

theorem isCoprime_generator_X (hw : 0 < w) (odd : p % 2 = 1) : IsCoprime (generator w p) X := by
  obtain ⟨w, rfl⟩ : ∃ k, w = k + 1 := ⟨w - 1, by omega⟩
  have low : bitPoly p = bitPoly (p / 2) * X + 1 := by
    have h := bitPoly_div_mod p 1
    rw [pow_one, pow_one, odd, bitPoly_one] at h
    exact h
  refine ⟨1, X ^ w + bitPoly (p / 2), ?_⟩
  rw [generator, low, pow_succ]
  have double : X ^ w * X + bitPoly (p / 2) * X + (X ^ w * X + bitPoly (p / 2) * X) = (0 : (ZMod 2)[X]) :=
    CharTwo.add_self_eq_zero _
  linear_combination double

def avoids (w p c₀ : ℕ) : ℕ → ℕ → Bool
  | 0, _ => true
  | n + 1, c => shift w p c != c₀ && avoids w p c₀ n (shift w p c)

theorem iterate_ne_of_avoids {c₀ n c : ℕ} (h : avoids w p c₀ n c = true) {d : ℕ} (hd : 0 < d) (hn : d ≤ n) :
    (shift w p)^[d] c ≠ c₀ := by
  induction n generalizing c d with
  | zero => omega
  | succ n ih =>
    simp only [avoids, Bool.and_eq_true, bne_iff_ne] at h
    obtain ⟨d, rfl⟩ : ∃ k, d = k + 1 := ⟨d - 1, by omega⟩
    rw [Function.iterate_succ_apply]
    rcases Nat.eq_zero_or_pos d with rfl | hpos
    · exact h.1
    · exact ih h.2 hpos (by omega)

end Generator

section Errors

variable {w p : ℕ} {f : (ZMod 2)[X]}

theorem coeff_eq_one {i : ℕ} (h : i ∈ f.support) : f.coeff i = 1 := by
  rw [mem_support_iff] at h
  generalize f.coeff i = a at h ⊢
  revert a
  decide

theorem eval_one_eq_card (f : (ZMod 2)[X]) : f.eval 1 = f.support.card := by
  rw [eval_eq_sum, sum_def, Finset.card_eq_sum_ones, Nat.cast_sum]
  apply Finset.sum_congr rfl
  intro i hi
  rw [coeff_eq_one hi, one_pow, mul_one, Nat.cast_one]

theorem not_dvd_of_odd (even : (generator w p).eval 1 = 0) (odd : Odd f.support.card) :
    ¬ generator w p ∣ f := by
  rintro ⟨g, rfl⟩
  have h := eval_one_eq_card (generator w p * g)
  rw [eval_mul, even, zero_mul] at h
  have two : 2 ∣ (generator w p * g).support.card := (ZMod.natCast_eq_zero_iff _ 2).mp h.symm
  exact (Nat.not_even_iff_odd.mpr odd) (even_iff_two_dvd.mpr two)

theorem dvd_of_dvd_X_pow_mul (hw : 0 < w) (odd : p % 2 = 1) {i : ℕ} (h : generator w p ∣ X ^ i * f) :
    generator w p ∣ f :=
  ((isCoprime_generator_X hw odd).pow_right).dvd_of_dvd_mul_left h

theorem not_dvd_of_two (hw : 0 < w) (hp : p < 2 ^ w) (odd : p % 2 = 1) {n : ℕ} (period : avoids w p 1 n 1 = true)
    (small : ∀ i ∈ f.support, i ≤ n) (two : f.support.card = 2) : ¬ generator w p ∣ f := by
  intro dvd
  obtain ⟨i, j, hlt, hsupport⟩ : ∃ i j, i < j ∧ f.support = {i, j} := by
    obtain ⟨i, j, hne, hsupport⟩ := Finset.card_eq_two.mp two
    rcases Nat.lt_or_gt_of_ne hne with h | h
    · exact ⟨i, j, h, hsupport⟩
    · exact ⟨j, i, h, hsupport.trans (Finset.pair_comm i j)⟩
  have hi : i ∈ f.support := by rw [hsupport]; exact Finset.mem_insert_self _ _
  have hj : j ∈ f.support := by rw [hsupport]; exact Finset.mem_insert_of_mem (Finset.mem_singleton_self _)
  have terms : f = X ^ i * (1 + X ^ (j - i)) := by
    rw [f.as_sum_support_C_mul_X_pow, hsupport, Finset.sum_pair hlt.ne, coeff_eq_one hi, coeff_eq_one hj, map_one,
      one_mul, one_mul, mul_add, mul_one, ← pow_add, Nat.add_sub_cancel' hlt.le]
  rw [terms] at dvd
  have unit : AdjoinRoot.mk (generator w p) (X ^ (j - i)) = AdjoinRoot.mk (generator w p) 1 := by
    rw [AdjoinRoot.mk_eq_mk, CharTwo.sub_eq_add, add_comm]
    exact dvd_of_dvd_X_pow_mul hw odd dvd
  have one_lt : 1 < 2 ^ w := Nat.one_lt_two_pow hw.ne'
  have turned := mk_iterate_shift hw hp (j - i) one_lt
  rw [bitPoly_one, one_mul, unit, ← bitPoly_one] at turned
  have hn := small j hj
  refine iterate_ne_of_avoids period (show 0 < j - i by omega) (by omega) (bitPoly_eq_of_mk hp ?_ one_lt turned)
  obtain ⟨k, hk⟩ : ∃ k, j - i = k + 1 := ⟨j - i - 1, by omega⟩
  rw [hk, Function.iterate_succ_apply']
  exact shift_lt hp _

theorem not_dvd_of_burst (hw : 0 < w) (hp : p < 2 ^ w) (odd : p % 2 = 1) (nonzero : f ≠ 0) {s : ℕ}
    (burst : ∀ i ∈ f.support, s ≤ i ∧ i < s + w) : ¬ generator w p ∣ f := by
  intro dvd
  obtain ⟨g, rfl⟩ : X ^ s ∣ f := by
    rw [X_pow_dvd_iff]
    intro d hd
    by_contra hne
    exact absurd (burst d (mem_support_iff.mpr hne)).1 (Nat.not_le.mpr hd)
  have low : g.degree < (generator w p).degree := by
    rw [degree_generator hp, degree_lt_iff_coeff_zero]
    intro i hi
    by_contra hne
    have term : (X ^ s * g).coeff (i + s) ≠ 0 := by rwa [coeff_X_pow_mul]
    have := (burst (i + s) (mem_support_iff.mpr term)).2
    omega
  have zero := eq_zero_of_dvd_of_degree_lt (dvd_of_dvd_X_pow_mul hw odd dvd) low
  exact nonzero (by rw [zero, mul_zero])

end Errors

end LightModem.Gf2
