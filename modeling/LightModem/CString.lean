import LightModem.Memory
import Mathlib.Data.List.TakeWhile
import Mathlib.Data.Nat.Digits.Lemmas

set_option autoImplicit false

namespace LightModem

def cString (m : Memory UInt8) (n : ℕ) : List UInt8 := (m.load 0 n).takeWhile (· ≠ 0)

def strncpy (dest : Memory UInt8) (offset : ℕ) (source : Memory UInt8) (n : ℕ) : Memory UInt8 :=
  let s := cString source n
  dest.store offset (s ++ List.replicate (n - s.length) 0)

def printNat (base n : ℕ) : List UInt8 :=
  if n = 0 then [48] else (Nat.digits base n).reverse.map (fun d => UInt8.ofNat (48 + d))

def printInt (n : ℤ) : List UInt8 :=
  if n < 0 then 45 :: printNat 10 n.natAbs else printNat 10 n.natAbs

/-- Stores what fits of `text` and a null character in `size` cells, and returns the length of all
of `text`. -/
def snprintf (dest : Memory UInt8) (offset size : ℕ) (text : List UInt8) : Memory UInt8 × ℕ :=
  (if size = 0 then dest else dest.store offset (text.take (size - 1) ++ [0]), text.length)

/-- The largest `unsigned long` of a 64-bit Linux, where the tests of the repository run. -/
def ulongMax : ℕ := 2 ^ 64 - 1

def isspace (c : UInt8) : Bool := c = 32 || (9 ≤ c && c ≤ 13)

def isdigit (base : ℕ) (c : UInt8) : Bool := 48 ≤ c.toNat && c.toNat < 48 + base

def digitsValue (base : ℕ) (s : List UInt8) : ℕ := s.foldl (fun n c => n * base + (c.toNat - 48)) 0

/-- The value of the number at the head of a string, in a base of at most ten, and the rest of the
string. Without a digit nothing is consumed. -/
def strtoul (s : List UInt8) (base : ℕ) : ℕ × List UInt8 :=
  let unsigned := s.dropWhile isspace
  let negative := unsigned.head? = some 45
  let number := if negative ∨ unsigned.head? = some 43 then unsigned.tail else unsigned
  let digits := number.takeWhile (isdigit base)
  if digits = [] then (0, s)
  else
    let n := digitsValue base digits
    let value := if n > ulongMax then ulongMax
      else if negative then (ulongMax + 1 - n) % (ulongMax + 1) else n
    (value, number.dropWhile (isdigit base))

/-- What `strtoul` reads to its end: nothing, or white space, a sign that may be missing, and digits. -/
def IsNumeral (base : ℕ) (s : List UInt8) : Prop :=
  s = [] ∨ ∃ space sign digits, s = space ++ (sign ++ digits) ∧ (∀ c ∈ space, isspace c = true) ∧
    (sign = [] ∨ sign = [43] ∨ sign = [45]) ∧ digits ≠ [] ∧ ∀ c ∈ digits, isdigit base c = true

section Strings

variable {m : Memory UInt8} {n : ℕ} {s : List UInt8}

theorem cString_eq (h : m.Holds 0 (s ++ [0])) (plain : 0 ∉ s) (hn : s.length < n) :
    cString m n = s := by
  have hall : ∀ c ∈ s, decide (c ≠ 0) = true := by
    intro c hc
    simpa using ne_of_mem_of_not_mem hc plain
  obtain ⟨k, rfl⟩ := Nat.exists_eq_add_of_le (show (s ++ [0]).length ≤ n by simpa using hn)
  rw [cString, Memory.load_add, h, List.append_assoc, List.takeWhile_append_of_pos hall]
  simp

theorem cString_full (h : m.Holds 0 s) (plain : 0 ∉ s) : cString m s.length = s := by
  rw [cString, h, List.takeWhile_eq_self_iff]
  intro c hc
  simpa using ne_of_mem_of_not_mem hc plain

theorem cString_take {source : Memory UInt8} {name : List UInt8} (plain : 0 ∉ name)
    (content : source.Holds 0 (name ++ [0])) (n : ℕ) : cString source n = name.take n := by
  rcases Nat.lt_or_ge name.length n with hn | hn
  · rw [List.take_of_length_le hn.le]
    exact cString_eq content plain hn
  · have hlen : (name.take n).length = n := by rw [List.length_take]; omega
    have hcut : source.Holds 0 (name.take n) := by
      rw [← List.take_append_drop n name, List.append_assoc] at content
      exact (Memory.holds_append.mp content).1
    have hplain : 0 ∉ name.take n := fun h => plain (List.mem_of_mem_take h)
    have full := cString_full hcut hplain
    rwa [hlen] at full

theorem cString_plain (m : Memory UInt8) (n : ℕ) : 0 ∉ cString m n := by
  intro h
  simpa using List.mem_takeWhile_imp h

theorem cString_length_le (m : Memory UInt8) (n : ℕ) : (cString m n).length ≤ n := by
  have hle := (@List.takeWhile_prefix _ (m.load 0 n) (fun c => decide (c ≠ 0))).length_le
  rwa [Memory.load_length] at hle

theorem strncpy_ended (b source : Memory UInt8) (p n : ℕ) :
    (strncpy b p source n).store (p + n) [0] =
      b.store p (cString source n ++ List.replicate (n + 1 - (cString source n).length) 0) := by
  have hle := cString_length_le source n
  have length : p + n = p + (cString source n ++ List.replicate (n - (cString source n).length) 0).length := by
    rw [List.length_append, List.length_replicate]
    omega
  rw [show n + 1 - (cString source n).length = n - (cString source n).length + 1 by omega, List.replicate_succ',
    ← List.append_assoc, ← Memory.store_append _ p (_ ++ _) [0], ← length]
  rfl

theorem strncpy_cString (b source : Memory UInt8) (p n : ℕ) :
    ((strncpy b p source n).store (p + n) [0]).Holds p (cString source n ++ [0]) := by
  have hle := cString_length_le source n
  obtain ⟨k, hk⟩ : ∃ k, n + 1 - (cString source n).length = k + 1 := ⟨n - (cString source n).length, by omega⟩
  rw [strncpy_ended, hk, List.replicate_succ, List.append_cons]
  exact (Memory.holds_append.mp (Memory.holds_store b p _)).1

theorem strncpy_cut (b : Memory UInt8) {source : Memory UInt8} {name : List UInt8} (plain : 0 ∉ name)
    (content : source.Holds 0 (name ++ [0])) (p n : ℕ) :
    ((strncpy b p source n).store (p + n) [0]).Holds p (name.take n ++ [0]) := by
  rw [← cString_take plain content n]
  exact strncpy_cString b source p n

theorem cString_strncpy (dest source : Memory UInt8) (last : ℕ) :
    cString ((strncpy dest 0 source last).store last [0]) (last + 1) = cString source last := by
  have held := strncpy_cString dest source 0 last
  rw [Nat.zero_add] at held
  exact cString_eq held (cString_plain source last) (Nat.lt_succ_of_le (cString_length_le source last))

theorem load_concat (m : Memory UInt8) (n : ℕ) : m.load 0 (n + 1) = m.load 0 n ++ [m n] := by
  rw [Memory.load_add, Nat.zero_add]
  rfl

theorem cString_succ (m : Memory UInt8) (n : ℕ) :
    cString m (n + 1) = if (cString m n).length = n ∧ m n ≠ 0 then cString m n ++ [m n] else cString m n := by
  have hlen : (m.load 0 n).length = n := Memory.load_length m 0 n
  rw [cString, load_concat, List.takeWhile_append, ← cString, hlen]
  by_cases full : (cString m n).length = n
  · have all : cString m n = m.load 0 n :=
      (List.takeWhile_prefix _).eq_of_length (full.trans hlen.symm)
    by_cases hc : m n = 0 <;> simp [hc, all]
  · rw [if_neg full, if_neg (fun h => full h.1)]

theorem strncpy_last (dest source : Memory UInt8) (n : ℕ) :
    (strncpy dest 0 source (n + 1)).store n [0] = (strncpy dest 0 source n).store n [0] := by
  have hle := cString_length_le source n
  obtain ⟨c, text⟩ : ∃ c, cString source (n + 1) ++ List.replicate (n + 1 - (cString source (n + 1)).length) 0 =
      cString source n ++ List.replicate (n - (cString source n).length) 0 ++ [c] := by
    rw [cString_succ]
    split
    · rename_i h
      exact ⟨source n, by simp [h.1]⟩
    · exact ⟨0, by rw [show n + 1 - (cString source n).length = n - (cString source n).length + 1 by omega,
        List.replicate_succ', List.append_assoc]⟩
  have length : (cString source n ++ List.replicate (n - (cString source n).length) 0).length = n := by
    rw [List.length_append, List.length_replicate]
    omega
  have stored := Memory.store_append dest 0 (cString source n ++ List.replicate (n - (cString source n).length) 0) [c]
  rw [Nat.zero_add, length] at stored
  rw [strncpy, strncpy, text, ← stored]
  exact Memory.store_covered _ le_rfl

theorem cString_copied (dest source : Memory UInt8) (n : ℕ) :
    cString ((dest.store 0 (source.load 0 (n + 1))).store n [0]) (n + 1) = cString source n := by
  have ended : ((dest.store 0 (source.load 0 (n + 1))).store n [0]).load 0 (n + 1) = source.load 0 n ++ [0] := by
    have last := Memory.load_store (dest.store 0 (source.load 0 (n + 1))) n [0]
    rw [Memory.load_add, Nat.zero_add, Memory.load_store_disjoint _ (Or.inl (Nat.zero_add n).le),
      Memory.load_store_zero _ (by rw [Memory.load_length]; omega), List.drop_zero,
      Memory.load_take _ (Nat.le_succ n)]
    exact congrArg _ last
  rw [cString, ended, List.takeWhile_append, ← cString]
  split
  · rename_i full
    have all : cString source n = source.load 0 n := (List.takeWhile_prefix _).eq_of_length full
    simp [all]
  · rfl

end Strings

section Digits

variable {base : ℕ}

theorem digitChar_toNat {d : ℕ} (h : d < 10) : (UInt8.ofNat (48 + d)).toNat = 48 + d :=
  UInt8.toNat_ofNat_of_lt' (show 48 + d < 256 by omega)

theorem digitsValue_reverse (hb : base ≤ 10) (ds : List ℕ) (h : ∀ d ∈ ds, d < base) :
    digitsValue base (ds.reverse.map (fun d => UInt8.ofNat (48 + d))) = Nat.ofDigits base ds := by
  induction ds with
  | nil => rfl
  | cons d ds ih =>
    have hd : d < base := h d (by simp)
    rw [List.reverse_cons, List.map_append, digitsValue, List.foldl_append, ← digitsValue,
      ih fun d' hd' => h d' (by simp [hd']), Nat.ofDigits_cons]
    simp only [List.map_cons, List.map_nil, List.foldl_cons, List.foldl_nil]
    rw [digitChar_toNat (by omega), Nat.add_sub_cancel_left]
    rw [Nat.mul_comm, Nat.add_comm]

theorem digitsValue_printNat (hb : 1 < base) (hb' : base ≤ 10) (n : ℕ) :
    digitsValue base (printNat base n) = n := by
  rw [printNat]
  split
  · rename_i h
    rw [h]
    simp [digitsValue]
  · rw [digitsValue_reverse hb' _ fun d hd => Nat.digits_lt_base hb hd, Nat.ofDigits_digits]

theorem isdigit_printNat (hb : 1 < base) (hb' : base ≤ 10) (n : ℕ) :
    ∀ c ∈ printNat base n, isdigit base c = true := by
  intro c hc
  rw [printNat] at hc
  split at hc
  · rw [List.mem_singleton] at hc
    simp only [hc, isdigit, Bool.and_eq_true, decide_eq_true_eq]
    exact ⟨by decide, show 48 < 48 + base by omega⟩
  · simp only [List.mem_map, List.mem_reverse] at hc
    obtain ⟨d, hd, rfl⟩ := hc
    have hlt := Nat.digits_lt_base hb hd
    simp only [isdigit, digitChar_toNat (show d < 10 by omega), Bool.and_eq_true, decide_eq_true_eq]
    omega

theorem printNat_ne_nil (base n : ℕ) : printNat base n ≠ [] := by
  rw [printNat]
  split
  · simp
  · simpa [Nat.digits_ne_nil_iff_ne_zero] using ‹n ≠ 0›

theorem printNat_length_le (hb : 1 < base) {n k : ℕ} (hk : 0 < k) (h : n < base ^ k) :
    (printNat base n).length ≤ k := by
  rw [printNat]
  split
  · exact hk
  · simpa using (Nat.digits_length_le_iff hb n).mpr h

theorem isdigit_bounds {c : UInt8} (hb : base ≤ 10) (h : isdigit base c = true) :
    48 ≤ c.toNat ∧ c.toNat < 58 := by
  simp only [isdigit, Bool.and_eq_true, decide_eq_true_eq] at h
  omega

theorem isdigit_plain {c : UInt8} (hb : base ≤ 10) (h : isdigit base c = true) :
    c ≠ 32 ∧ c ≠ 0 ∧ c ≠ 43 ∧ c ≠ 45 ∧ isspace c = false := by
  have := isdigit_bounds hb h
  refine ⟨?_, ?_, ?_, ?_, ?_⟩
  · rintro rfl; simp at this
  · rintro rfl; simp at this
  · rintro rfl; simp at this
  · rintro rfl; simp at this
  · have h32 : c ≠ 32 := by rintro rfl; simp at this
    have h13 : ¬ c ≤ 13 := by rw [UInt8.le_iff_toNat_le]; simp; omega
    simp [isspace, h32, h13]

theorem strtoul_digits (hb : base ≤ 10) {s : List UInt8} (hs : s ≠ [])
    (digits : ∀ c ∈ s, isdigit base c = true) (small : digitsValue base s ≤ ulongMax) :
    strtoul s base = (digitsValue base s, []) := by
  obtain ⟨c, rest, rfl⟩ := List.exists_cons_of_ne_nil hs
  obtain ⟨_, _, hplus, hminus, hspace⟩ := isdigit_plain hb (digits c (by simp))
  have take : (c :: rest).takeWhile (isdigit base) = c :: rest := List.takeWhile_eq_self_iff.mpr digits
  have drop : (c :: rest).dropWhile (isdigit base) = [] := List.dropWhile_eq_nil_iff.mpr digits
  have nospace : (c :: rest).dropWhile isspace = c :: rest := by
    rw [List.dropWhile_cons_of_neg (by simp [hspace])]
  simp [strtoul, nospace, hminus, hplus, take, drop, Nat.not_lt.mpr small]

theorem strtoul_printNat (hb : 1 < base) (hb' : base ≤ 10) {n : ℕ} (h : n ≤ ulongMax) :
    strtoul (printNat base n) base = (n, []) := by
  have value := digitsValue_printNat hb hb' n
  rw [strtoul_digits hb' (printNat_ne_nil base n) (isdigit_printNat hb hb' n) (by rw [value]; exact h),
    value]

theorem strtoul_negative (hb : 1 < base) (hb' : base ≤ 10) {n : ℕ} (h : n ≤ ulongMax) :
    strtoul (45 :: printNat base n) base = ((ulongMax + 1 - n) % (ulongMax + 1), []) := by
  have value := digitsValue_printNat hb hb' n
  have digits := isdigit_printNat hb hb' n
  have take := List.takeWhile_eq_self_iff.mpr digits
  have drop := List.dropWhile_eq_nil_iff.mpr digits
  have nospace : (45 :: printNat base n).dropWhile isspace = 45 :: printNat base n :=
    List.dropWhile_cons_of_neg (by decide)
  simp [strtoul, nospace, take, drop, printNat_ne_nil, value, Nat.not_lt.mpr h]

end Digits

section Numerals

variable {base : ℕ} {s : List UInt8}

def unsignedPart (s : List UInt8) : List UInt8 :=
  if s.head? = some 45 ∨ s.head? = some 43 then s.tail else s

theorem unsignedPart_append {sign digits : List UInt8} (hb : base ≤ 10)
    (hsign : sign = [] ∨ sign = [43] ∨ sign = [45]) (hd : ∀ c ∈ digits, isdigit base c = true) :
    unsignedPart (sign ++ digits) = digits := by
  rcases hsign with rfl | rfl | rfl
  · cases digits with
    | nil => rfl
    | cons c digits =>
      obtain ⟨_, _, hplus, hminus, _⟩ := isdigit_plain hb (hd c (by simp))
      simp [unsignedPart, hplus, hminus]
  · rfl
  · rfl

theorem exists_sign (s : List UInt8) :
    ∃ sign, (sign = [] ∨ sign = [43] ∨ sign = [45]) ∧ s = sign ++ unsignedPart s := by
  rw [unsignedPart]
  by_cases h : s.head? = some 45 ∨ s.head? = some 43
  · rw [if_pos h]
    rcases h with h | h
    · exact ⟨[45], Or.inr (Or.inr rfl), (List.cons_head?_tail h).symm⟩
    · exact ⟨[43], Or.inr (Or.inl rfl), (List.cons_head?_tail h).symm⟩
  · rw [if_neg h]
    exact ⟨[], Or.inl rfl, rfl⟩

theorem strtoul_rest (s : List UInt8) (base : ℕ) :
    (strtoul s base).2 =
      if (unsignedPart (s.dropWhile isspace)).takeWhile (isdigit base) = [] then s
      else (unsignedPart (s.dropWhile isspace)).dropWhile (isdigit base) := by
  rw [strtoul, unsignedPart]
  simp only
  split_ifs <;> rfl

theorem strtoul_rest_iff (hb : base ≤ 10) : (strtoul s base).2 = [] ↔ IsNumeral base s := by
  rw [strtoul_rest]
  constructor
  · intro h
    split_ifs at h with hnone
    · exact Or.inl h
    · obtain ⟨sign, hsign, hs⟩ := exists_sign (s.dropWhile isspace)
      refine Or.inr ⟨s.takeWhile isspace, sign, unsignedPart (s.dropWhile isspace), ?_, ?_, hsign, ?_, ?_⟩
      · rw [← hs, List.takeWhile_append_dropWhile]
      · intro c hc
        exact List.mem_takeWhile_imp hc
      · intro h0
        exact hnone (by rw [h0]; rfl)
      · exact List.dropWhile_eq_nil_iff.mp h
  · rintro (rfl | ⟨space, sign, digits, rfl, hspace, hsign, hne, hd⟩)
    · rfl
    · have started : (space ++ (sign ++ digits)).dropWhile isspace = sign ++ digits := by
        rw [List.dropWhile_append_of_pos hspace]
        obtain ⟨c, rest, rfl⟩ := List.exists_cons_of_ne_nil hne
        obtain ⟨_, _, _, _, hc⟩ := isdigit_plain hb (hd c (by simp))
        rcases hsign with rfl | rfl | rfl
        · exact List.dropWhile_cons_of_neg (by simp [hc])
        · exact List.dropWhile_cons_of_neg (by decide)
        · exact List.dropWhile_cons_of_neg (by decide)
      rw [started, unsignedPart_append hb hsign hd, List.takeWhile_eq_self_iff.mpr hd, if_neg hne]
      exact List.dropWhile_eq_nil_iff.mpr hd

end Numerals
theorem strtoul_printInt (value : UInt32) :
    ∃ r, strtoul (printInt value.toInt32.toInt) 10 = (r, []) ∧ r.toUInt32 = value := by
  have := value.toNat_lt
  have hint : value.toInt32.toInt = (value.toNat : ℤ).bmod (2 ^ 32) := by
    rw [Int32.toInt, UInt32.toBitVec_toInt32, BitVec.toInt_eq_toNat_bmod]
    rfl
  by_cases h : value.toInt32.toInt < 0
  · have hnat : value.toInt32.toInt.natAbs = 2 ^ 32 - value.toNat := by
      rw [hint, Int.bmod] at h ⊢
      split at h <;> split <;> omega
    rw [printInt, if_pos h, hnat, strtoul_negative (by decide) (by decide) (by rw [ulongMax]; omega)]
    refine ⟨_, rfl, UInt32.toNat_inj.mp ?_⟩
    rw [ulongMax, UInt32.toNat_ofNat']
    omega
  · have hnat : value.toInt32.toInt.natAbs = value.toNat := by
      rw [hint, Int.bmod] at h ⊢
      split at h <;> split <;> omega
    rw [printInt, if_neg h, hnat, strtoul_printNat (by decide) (by decide) (by rw [ulongMax]; omega)]
    exact ⟨_, rfl, UInt32.ofNat_toNat⟩

theorem printInt_plain {value : ℤ} : ∀ c ∈ printInt value, c ≠ 32 ∧ c ≠ 0 := by
  have digits (n : ℕ) : ∀ c ∈ printNat 10 n, c ≠ 32 ∧ c ≠ 0 := by
    intro c hc
    obtain ⟨h32, h0, _⟩ := isdigit_plain (by decide) (isdigit_printNat (by decide) (by decide) n c hc)
    exact ⟨h32, h0⟩
  intro c hc
  rw [printInt] at hc
  split at hc
  · rcases List.mem_cons.mp hc with rfl | hc
    · exact ⟨by decide, by decide⟩
    · exact digits _ c hc
  · exact digits _ c hc

theorem printInt_ne_nil (value : ℤ) : printInt value ≠ [] := by
  rw [printInt]
  split
  · exact List.cons_ne_nil _ _
  · exact printNat_ne_nil _ _

theorem printInt_length_le (value : UInt32) : (printInt value.toInt32.toInt).length ≤ 11 := by
  have hle : (printNat 10 value.toInt32.toInt.natAbs).length ≤ 10 := by
    apply printNat_length_le (by decide) (by decide)
    have := value.toInt32.toInt_lt
    have := value.toInt32.le_toInt
    omega
  rw [printInt]
  split
  · rw [List.length_cons]
    omega
  · omega

end LightModem
