import Mathlib.Data.List.Basic
import Mathlib.Data.Nat.Notation

set_option autoImplicit false

namespace LightModem

variable {β : Type}

/-- The memory behind a pointer: what lies at each offset from it, and the end of the part of it that
has been stored to. -/
@[ext] structure Memory (β : Type) where
  cell : ℕ → β
  extent : ℕ

instance : CoeFun (Memory β) (fun _ => ℕ → β) := ⟨Memory.cell⟩

namespace Memory

def fresh (a : β) : Memory β := ⟨fun _ => a, 0⟩

def holding (data : List β) (a : β) : Memory β := ⟨fun i => data.getD i a, 0⟩

def load (m : Memory β) (p n : ℕ) : List β := (List.range n).map (fun i => m (p + i))

def store (m : Memory β) (p : ℕ) (data : List β) : Memory β :=
  ⟨fun i => if h : p ≤ i ∧ i - p < data.length then data[i - p] else m i,
    if data.length = 0 then m.extent else max m.extent (p + data.length)⟩

def shift (m : Memory β) (p : ℕ) : Memory β := ⟨fun i => m (p + i), m.extent - p⟩

variable (m : Memory β) {p q k n : ℕ} {data : List β}

@[simp] theorem load_length (p n : ℕ) : (m.load p n).length = n := by simp [load]

@[simp] theorem load_shift (p q n : ℕ) : (m.shift p).load q n = m.load (p + q) n := by
  simp [load, shift, Nat.add_assoc]

@[simp] theorem load_zero (p : ℕ) : m.load p 0 = [] := rfl

theorem load_getElem {i : ℕ} (h : i < (m.load p n).length) : (m.load p n)[i] = m (p + i) := by
  simp [load]

theorem load_add (p k n : ℕ) : m.load p (k + n) = m.load p k ++ m.load (p + k) n := by
  simp [load, List.range_add, Function.comp_def, Nat.add_assoc]

theorem load_succ (p n : ℕ) : m.load p (n + 1) = m p :: m.load (p + 1) n := by
  rw [Nat.add_comm n 1, load_add]
  rfl

theorem load_congr {m m' : Memory β} (h : ∀ i < n, m (p + i) = m' (p + i)) :
    m.load p n = m'.load p n := by
  simp only [load, List.map_inj_left, List.mem_range]
  exact h

theorem load_take (h : k ≤ n) : (m.load p n).take k = m.load p k := by
  obtain ⟨r, rfl⟩ := Nat.exists_eq_add_of_le h
  rw [load_add, List.take_left' (load_length m p k)]

theorem load_drop (h : k ≤ n) : (m.load p n).drop k = m.load (p + k) (n - k) := by
  obtain ⟨r, rfl⟩ := Nat.exists_eq_add_of_le h
  rw [load_add, List.drop_left' (load_length m p k), Nat.add_sub_cancel_left]

theorem store_of_lt {i : ℕ} (h : i < p) : m.store p data i = m i := by
  simp only [store]
  rw [dif_neg (by omega)]

theorem store_of_ge {i : ℕ} (h : p + data.length ≤ i) : m.store p data i = m i := by
  simp only [store]
  rw [dif_neg (by omega)]

theorem store_add {i : ℕ} (h : i < data.length) : m.store p data (p + i) = data[i] := by
  simp only [store]
  rw [dif_pos ⟨by omega, by omega⟩]
  simp

theorem store_zero {i : ℕ} (h : i < data.length) : m.store 0 data i = data[i] := by
  simpa using @store_add β m 0 data i h

theorem store_extent (p : ℕ) (data : List β) :
    (m.store p data).extent = if data.length = 0 then m.extent else max m.extent (p + data.length) := rfl

theorem store_extent_le {b : ℕ} (h : p ≤ b) :
    (m.store p data).extent ≤ b ↔ m.extent ≤ b ∧ p + data.length ≤ b := by
  rw [store_extent]
  split <;> omega

theorem extent_le_store (p : ℕ) (data : List β) : m.extent ≤ (m.store p data).extent := by
  rw [store_extent]
  split <;> omega

@[simp] theorem store_nil (p : ℕ) : m.store p [] = m := by
  ext i
  · simp [store]
  · rfl

theorem store_append (p : ℕ) (a b : List β) :
    (m.store p a).store (p + a.length) b = m.store p (a ++ b) := by
  ext i
  swap
  · simp only [store_extent, List.length_append]
    split_ifs <;> omega
  rcases Nat.lt_or_ge i p with hi | hi
  · rw [store_of_lt _ (by omega), store_of_lt _ hi, store_of_lt _ hi]
  obtain ⟨k, rfl⟩ := Nat.exists_eq_add_of_le hi
  rcases Nat.lt_or_ge k a.length with hk | hk
  · rw [store_of_lt _ (by omega), store_add _ hk, store_add _ (by rw [List.length_append]; omega),
      List.getElem_append_left hk]
  obtain ⟨j, rfl⟩ := Nat.exists_eq_add_of_le hk
  rw [← Nat.add_assoc]
  rcases Nat.lt_or_ge j b.length with hj | hj
  · rw [store_add _ hj, Nat.add_assoc, store_add _ (by rw [List.length_append]; omega),
      List.getElem_append_right (by omega)]
    simp
  · rw [store_of_ge _ (by omega), store_of_ge _ (by omega),
      store_of_ge _ (by rw [List.length_append]; omega)]

theorem store_covered {a b : List β} (h : a.length ≤ b.length) : (m.store p a).store p b = m.store p b := by
  ext i
  swap
  · simp only [store_extent]
    split_ifs <;> omega
  rcases Nat.lt_or_ge i p with hi | hi
  · rw [store_of_lt _ hi, store_of_lt _ hi, store_of_lt _ hi]
  obtain ⟨k, rfl⟩ := Nat.exists_eq_add_of_le hi
  rcases Nat.lt_or_ge k b.length with hk | hk
  · rw [store_add _ hk, store_add _ hk]
  · rw [store_of_ge _ (by omega), store_of_ge _ (by omega), store_of_ge _ (by omega)]

theorem load_store (p : ℕ) (data : List β) : (m.store p data).load p data.length = data := by
  apply List.ext_getElem (load_length _ _ _)
  intro i h h'
  rw [load_getElem, store_add m h']

theorem load_store_inner (hk : k + n ≤ data.length) :
    (m.store p data).load (p + k) n = (data.drop k).take n := by
  have h : (data.drop k).take n = (((m.store p data).load p data.length).drop k).take n := by
    rw [load_store]
  rw [h, load_drop _ (by omega), load_take _ (by omega)]

theorem load_store_zero (hk : k + n ≤ data.length) :
    (m.store 0 data).load k n = (data.drop k).take n := by
  rw [← load_store_inner m hk, Nat.zero_add]

theorem load_store_disjoint (h : q + n ≤ p ∨ p + data.length ≤ q) :
    (m.store p data).load q n = m.load q n := by
  apply load_congr
  intro i hi
  rcases h with h | h
  · exact store_of_lt m (by omega)
  · exact store_of_ge m (by omega)

def Holds (m : Memory β) (p : ℕ) (s : List β) : Prop := m.load p s.length = s

instance [DecidableEq β] (m : Memory β) (p : ℕ) (s : List β) : Decidable (m.Holds p s) :=
  inferInstanceAs (Decidable (m.load p s.length = s))

section Holds

variable {m : Memory β} {a b : List β} {c : β}

theorem holds_append : m.Holds p (a ++ b) ↔ m.Holds p a ∧ m.Holds (p + a.length) b := by
  rw [Holds, List.length_append, load_add]
  constructor
  · intro h
    exact List.append_inj h (load_length m p _)
  · rintro ⟨ha, hb⟩
    rw [ha, hb]

theorem holds_cons : m.Holds p (c :: a) ↔ m p = c ∧ m.Holds (p + 1) a := by
  rw [Holds, List.length_cons, load_succ, List.cons.injEq]
  rfl

@[simp] theorem holds_nil : m.Holds p [] := rfl

@[simp] theorem holds_shift : (m.shift p).Holds q a ↔ m.Holds (p + q) a := by
  rw [Holds, load_shift]
  rfl

theorem holds_store (m : Memory β) (p : ℕ) (a : List β) : (m.store p a).Holds p a := m.load_store p a

theorem holds_store_disjoint (h : q + a.length ≤ p ∨ p + data.length ≤ q) :
    (m.store p data).Holds q a ↔ m.Holds q a := by
  rw [Holds, load_store_disjoint m h]
  rfl

theorem holding_ended (data : List β) (c : β) : (holding data c).Holds 0 (data ++ [c]) := by
  apply List.ext_getElem (by simp)
  intro i h h'
  rw [load_getElem]
  rcases Nat.lt_or_ge i data.length with hi | hi
  · rw [List.getElem_append_left hi]
    simp [holding, List.getD, hi]
  · rw [List.getElem_append_right hi]
    simp [holding, List.getD, hi]

end Holds

end Memory

end LightModem
