import LightModem.Interaction
import Mathlib.Data.List.Range

set_option autoImplicit false

namespace LightModem.Interaction

variable {β α γ σ : Type}

namespace Program

inductive Extends : Program β α → Program β α → Prop
  | done (a : α) : Extends (.done a) (.done a)
  | read {n : ℕ} {p q : Reply β n → Program β α} (h : ∀ r, Extends (p r) (q r)) :
      Extends (.read n p) (.read n q)
  | write {data : List β} {p q : Program β α} (h : Extends p q) :
      Extends (.write data p) (.write data q)
  | outOfFuel (q : Program β α) : Extends .outOfFuel q

variable {p q : Program β α} {f g : α → Program β γ} {o : Peer β}

theorem Extends.refl (p : Program β α) : Extends p p := by
  induction p with
  | done a => exact .done a
  | read n next ih => exact .read ih
  | write data next ih => exact .write ih
  | outOfFuel => exact .outOfFuel _

theorem Extends.bind (h : Extends p q) (hf : ∀ a, Extends (f a) (g a)) : Extends (p >>= f) (q >>= g) := by
  induction h with
  | done a => exact hf a
  | read h ih => exact .read ih
  | write h ih => exact .write ih
  | outOfFuel q => exact .outOfFuel _

theorem Extends.run (h : Extends p q) {i : ℕ} {t : List (Event β)} {a : α}
    (hp : p.run o i = (t, some a)) : q.run o i = (t, some a) := by
  induction h generalizing i t with
  | done b => exact hp
  | read h ih =>
    simp only [run_read, Prod.mk.injEq] at hp ⊢
    obtain ⟨rfl, h2⟩ := hp
    rw [ih _ (Prod.ext rfl h2)]
    exact ⟨rfl, rfl⟩
  | write h ih =>
    simp only [run_write, Prod.mk.injEq] at hp ⊢
    obtain ⟨rfl, h2⟩ := hp
    rw [ih (Prod.ext rfl h2)]
    exact ⟨rfl, rfl⟩
  | outOfFuel q => simp at hp

theorem extends_whileLoop (cond : σ → Bool) (body : σ → Program β σ) {fuel fuel' : ℕ}
    (hle : fuel ≤ fuel') (s : σ) : Extends (whileLoop cond body fuel s) (whileLoop cond body fuel' s) := by
  induction fuel generalizing fuel' s with
  | zero => exact .outOfFuel _
  | succ fuel ih =>
    obtain ⟨more, rfl⟩ : ∃ more, fuel' = more + 1 := ⟨fuel' - 1, by omega⟩
    cases hc : cond s with
    | false =>
      rw [whileLoop_false fuel hc, whileLoop_false more hc]
      exact .done s
    | true =>
      rw [whileLoop_true fuel hc, whileLoop_true more hc]
      exact (Extends.refl _).bind fun s' => ih (by omega) s'

end Program

def Growing (p : ℕ → Program β α) : Prop := ∀ fuel fuel', fuel ≤ fuel' → (p fuel).Extends (p fuel')

theorem Growing.run_eq {p : ℕ → Program β α} {o : Peer β} (h : Growing p) {fuel fuel' i : ℕ}
    {t t' : List (Event β)} {a a' : α} (hr : (p fuel).run o i = (t, some a))
    (hr' : (p fuel').run o i = (t', some a')) : t = t' ∧ a = a' := by
  rcases Nat.le_total fuel fuel' with hle | hle
  · have := (h _ _ hle).run hr
    simpa [this] using hr'
  · have := (h _ _ hle).run hr'
    simpa [this, eq_comm] using hr

/-- One of the rounds before the `N`-th stops the loop, or `left` of them count. -/
def Settles (stops : ℕ → Prop) (counts : ℕ → Bool) (left N : ℕ) : Prop :=
  (∃ k < N, stops k) ∨ left ≤ (List.range N).countP counts

section Settles

variable {stops : ℕ → Prop} {counts : ℕ → Bool} {left N : ℕ}

theorem exists_lt_succ_iff {P : ℕ → Prop} {N : ℕ} : (∃ k < N + 1, P k) ↔ P 0 ∨ ∃ k < N, P (k + 1) := by
  constructor
  · rintro ⟨k, hk, h⟩
    cases k with
    | zero => exact Or.inl h
    | succ k => exact Or.inr ⟨k, by omega, h⟩
  · rintro (h | ⟨k, hk, h⟩)
    · exact ⟨0, by omega, h⟩
    · exact ⟨k + 1, by omega, h⟩

theorem countP_range_succ (counts : ℕ → Bool) (N : ℕ) :
    (List.range (N + 1)).countP counts =
      (List.range N).countP (fun k => counts (k + 1)) + if counts 0 = true then 1 else 0 := by
  rw [List.range_succ_eq_map, List.countP_cons, List.countP_map]
  rfl

theorem settles_zero : Settles stops counts 0 N := Or.inr (Nat.zero_le _)

theorem not_settles_zero (h : 0 < left) : ¬ Settles stops counts left 0 := by
  rintro (⟨k, hk, _⟩ | hle)
  · omega
  · rw [List.range_zero, List.countP_nil] at hle
    omega

theorem settles_stop (h : stops 0) : Settles stops counts left (N + 1) := Or.inl ⟨0, by omega, h⟩

theorem settles_count (h : ¬ stops 0) (hc : counts 0 = true) :
    Settles stops counts (left + 1) (N + 1) ↔
      Settles (fun k => stops (k + 1)) (fun k => counts (k + 1)) left N := by
  simp only [Settles, exists_lt_succ_iff, countP_range_succ, h, hc, false_or, ↓reduceIte,
    Nat.add_le_add_iff_right]

theorem settles_idle (h : ¬ stops 0) (hc : counts 0 = false) :
    Settles stops counts left (N + 1) ↔
      Settles (fun k => stops (k + 1)) (fun k => counts (k + 1)) left N := by
  simp only [Settles, exists_lt_succ_iff, countP_range_succ, h, hc, false_or, Bool.false_eq_true,
    ↓reduceIte, Nat.add_zero]

theorem Settles.mono (h : Settles stops counts left N) {N' : ℕ} (hN : N ≤ N') :
    Settles stops counts left N' := by
  rcases h with ⟨k, hk, h⟩ | h
  · exact Or.inl ⟨k, by omega, h⟩
  · exact Or.inr (h.trans ((List.range_sublist.mpr hN).countP_le))

end Settles

end LightModem.Interaction
