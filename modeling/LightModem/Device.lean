import LightModem.Interaction

set_option autoImplicit false

namespace LightModem.Interaction

variable {β α γ σ τ : Type}

structure Device (β σ : Type) where
  getchar : σ → (n : ℕ) → Reply β n × σ
  putchar : σ → List β → σ

namespace Program

def onDevice (d : Device β σ) : Program β α → σ → (List (Event β) × Option α) × σ
  | .done a, s => (([], some a), s)
  | .read n next, s =>
    let (r, s) := d.getchar s n
    let x := (next r).onDevice d s
    ((r.event :: x.1.1, x.1.2), x.2)
  | .write data next, s =>
    let x := next.onDevice d (d.putchar s data)
    ((.sent data :: x.1.1, x.1.2), x.2)
  | .outOfFuel, s => (([], none), s)

variable {d : Device β σ} {p : Program β α} {s : σ}

@[simp] theorem onDevice_done (a : α) : (Program.done a : Program β α).onDevice d s = (([], some a), s) := rfl

@[simp] theorem onDevice_outOfFuel : (.outOfFuel : Program β α).onDevice d s = (([], none), s) := rfl

theorem onDevice_map {d : Device β σ} {d' : Device β τ} {f : σ → τ}
    (reads : ∀ s n, d'.getchar (f s) n = ((d.getchar s n).1, f (d.getchar s n).2))
    (writes : ∀ s data, d'.putchar (f s) data = f (d.putchar s data)) (p : Program β α) (s : σ) :
    p.onDevice d' (f s) = ((p.onDevice d s).1, f (p.onDevice d s).2) := by
  induction p generalizing s with
  | done a => rfl
  | read n next ih => simp only [onDevice, reads, ih]
  | write data next ih => simp only [onDevice, writes, ih]
  | outOfFuel => rfl

theorem run_congr {o o' : Peer β} {i : ℕ} (h : ∀ j ≥ i, o j = o' j) : p.run o i = p.run o' i := by
  induction p generalizing i with
  | done a => rfl
  | read n next ih =>
    rw [run_read, run_read, h i (Nat.le_refl i), ih _ fun j hj => h j (by omega)]
  | write data next ih => rw [run_write, run_write, ih h]
  | outOfFuel => rfl

theorem exists_peer (d : Device β σ) (p : Program β α) (s : σ) (i : ℕ) :
    ∃ o : Peer β, p.run o i = (p.onDevice d s).1 := by
  induction p generalizing s i with
  | done a => exact ⟨fun _ _ => .timedOut [] (Nat.zero_le _), rfl⟩
  | read n next ih =>
    obtain ⟨o, ho⟩ := ih (d.getchar s n).1 (d.getchar s n).2 (i + 1)
    let o' : Peer β := fun j m =>
      if h : j = i ∧ m = n then h.2 ▸ (d.getchar s n).1 else o j m
    have first : o' i n = (d.getchar s n).1 := dif_pos ⟨rfl, rfl⟩
    have later (j : ℕ) (hj : j ≥ i + 1) : o' j = o j := by
      funext m
      exact dif_neg fun h => by omega
    refine ⟨o', ?_⟩
    rw [run_read, first, run_congr later, ho]
    rfl
  | write data next ih =>
    obtain ⟨o, ho⟩ := ih (d.putchar s data) i
    refine ⟨o, ?_⟩
    rw [run_write, ho]
    rfl
  | outOfFuel => exact ⟨fun _ _ => .timedOut [] (Nat.zero_le _), rfl⟩

theorem Ensures.onDevice {Q : List (Event β) → α → Prop} {t : List (Event β)} {a : α} (h : p.Ensures Q)
    (run : (p.onDevice d s).1 = (t, some a)) : Q t a := by
  obtain ⟨o, ho⟩ := exists_peer d p s 0
  exact h.run (ho.trans run)

theorem Terminates.onDevice (h : p.Terminates) (d : Device β σ) (s : σ) :
    ∃ t a, (p.onDevice d s).1 = (t, some a) := by
  obtain ⟨o, ho⟩ := exists_peer d p s 0
  obtain ⟨t, a, run⟩ := @Terminates.run _ _ _ o h 0
  exact ⟨t, a, ho.symm.trans run⟩

end Program

def costOf (cost : ℕ → ℕ) : List (Event β) → ℕ
  | [] => 0
  | .sent _ :: t => costOf cost t
  | .received data :: t => cost data.length + costOf cost t
  | .timedOut n :: t => cost n + costOf cost t

section Cost

variable {cost : ℕ → ℕ} {t t' : List (Event β)} {d : Device β σ} {p : Program β α} {s : σ}

@[simp] theorem costOf_nil : costOf cost ([] : List (Event β)) = 0 := rfl

@[simp] theorem costOf_sent (data : List β) : costOf cost (.sent data :: t) = costOf cost t := rfl

@[simp] theorem costOf_received (data : List β) :
    costOf cost (.received data :: t) = cost data.length + costOf cost t := rfl

@[simp] theorem costOf_timedOut (n : ℕ) : costOf cost (.timedOut n :: t) = cost n + costOf cost t := rfl

@[simp] theorem costOf_reply {n : ℕ} (r : Reply β n) : costOf cost (r.event :: t) = cost n + costOf cost t := by
  cases r with
  | received data size => rw [Reply.event, costOf_received, size]
  | timedOut written size => rfl

@[simp] theorem costOf_append (t t' : List (Event β)) :
    costOf cost (t ++ t') = costOf cost t + costOf cost t' := by
  induction t with
  | nil => simp
  | cons e t ih => cases e <;> simp [ih, Nat.add_assoc]

theorem Program.onDevice_measure (μ : σ → ℕ) (reads : ∀ s n, μ (d.getchar s n).2 ≤ μ s + cost n)
    (writes : ∀ s data, μ (d.putchar s data) ≤ μ s) (p : Program β α) (s : σ) :
    μ (p.onDevice d s).2 ≤ μ s + costOf cost (p.onDevice d s).1.1 := by
  induction p generalizing s with
  | done a => exact Nat.le_add_right _ _
  | read n next ih =>
    have here := reads s n
    have rest := ih (d.getchar s n).1 (d.getchar s n).2
    have total : costOf cost ((Program.read n next).onDevice d s).1.1 =
        cost n + costOf cost ((next (d.getchar s n).1).onDevice d (d.getchar s n).2).1.1 := costOf_reply _
    rw [total]
    exact Nat.le_trans rest (by omega)
  | write data next ih => exact Nat.le_trans (ih (d.putchar s data)) (Nat.add_le_add_right (writes s data) _)
  | outOfFuel => exact Nat.le_add_right _ _

theorem costOf_whileLoop {cond : τ → Bool} {body : τ → Program β τ} (I : ℕ → τ → Prop) (c : ℕ)
    (round : ∀ m s, I m s → cond s = true →
      (body s).Ensures (fun t s' => costOf cost t ≤ c ∧ ∃ m' < m, I m' s'))
    {m : ℕ} {s : τ} (hs : I m s) (fuel : ℕ) :
    (whileLoop cond body fuel s).Ensures (fun t _ => costOf cost t ≤ c * m) := by
  refine (ensures_whileLoop (fun t s' => ∃ m', I m' s' ∧ costOf cost t + c * m' ≤ c * m) ?_ fuel
    ⟨m, hs, by simp⟩).mono ?_
  · rintro t s' ⟨m', h, paid⟩ running
    refine (round m' s' h running).mono ?_
    rintro t' s'' ⟨spent, m'', smaller, h'⟩
    refine ⟨m'', h', ?_⟩
    have fewer : c * (m'' + 1) ≤ c * m' := Nat.mul_le_mul_left c smaller
    rw [Nat.mul_succ] at fewer
    rw [costOf_append]
    omega
  · rintro t s' ⟨⟨m', _, paid⟩, _⟩
    omega

end Cost

end LightModem.Interaction
