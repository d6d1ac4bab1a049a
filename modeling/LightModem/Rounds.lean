import LightModem.Interaction

set_option autoImplicit false

namespace LightModem.Interaction

variable {β σ : Type}

structure Round (β σ : Type) where
  before : σ
  events : List (Event β)
  after : σ

def roundEvents (l : List (Round β σ)) : List (Event β) := l.flatMap Round.events

@[simp] theorem roundEvents_nil : roundEvents ([] : List (Round β σ)) = [] := rfl

@[simp] theorem roundEvents_append (l l' : List (Round β σ)) :
    roundEvents (l ++ l') = roundEvents l ++ roundEvents l' := List.flatMap_append

@[simp] theorem roundEvents_cons (r : Round β σ) (l : List (Round β σ)) :
    roundEvents (r :: l) = r.events ++ roundEvents l := rfl

inductive Rounds (cond : σ → Bool) (body : σ → Program β σ) (o : Peer β) (s₀ : σ) (i : ℕ) :
    List (Round β σ) → σ → Prop
  | start : Rounds cond body o s₀ i [] s₀
  | round {l : List (Round β σ)} {s s' : σ} {t : List (Event β)} (h : Rounds cond body o s₀ i l s)
      (hc : cond s = true) (run : (body s).run o (i + reads (roundEvents l)) = (t, some s')) :
      Rounds cond body o s₀ i (l ++ [⟨s, t, s'⟩]) s'

namespace Rounds

variable {cond : σ → Bool} {body : σ → Program β σ} {o : Peer β} {s₀ s : σ} {i : ℕ}
  {l : List (Round β σ)} {t : List (Event β)}

theorem run (h : Rounds cond body o s₀ i l s) (fuel : ℕ) :
    (whileLoop cond body (l.length + fuel) s₀).run o i =
      (roundEvents l ++ ((whileLoop cond body fuel s).run o (i + reads (roundEvents l))).1,
        ((whileLoop cond body fuel s).run o (i + reads (roundEvents l))).2) := by
  induction h generalizing fuel with
  | start => rw [List.length_nil, Nat.zero_add]; rfl
  | round h hc run ih =>
    rw [List.length_append, List.length_singleton, Nat.add_assoc, Nat.add_comm 1, ih,
      whileLoop_true fuel hc, Program.run_bind_some run]
    simp [Nat.add_assoc]

theorem run_finished (h : Rounds cond body o s₀ i l s) (hc : cond s = false) :
    (whileLoop cond body (l.length + 1) s₀).run o i = (roundEvents l, some s) := by
  rw [h.run, whileLoop_false 0 hc]
  simp

theorem of_run_from {s' : σ} {fuel : ℕ} (h : Rounds cond body o s₀ i l s)
    (run : (whileLoop cond body fuel s).run o (i + reads (roundEvents l)) = (t, some s')) :
    ∃ l', Rounds cond body o s₀ i (l ++ l') s' ∧ roundEvents l' = t ∧ cond s' = false := by
  induction fuel generalizing l s t with
  | zero => simp [whileLoop] at run
  | succ fuel ih =>
    cases hc : cond s with
    | false =>
      obtain ⟨rfl, rfl⟩ := Program.run_whileLoop_false hc run
      exact ⟨[], by rwa [List.append_nil], rfl, hc⟩
    | true =>
      rw [whileLoop_true fuel hc] at run
      obtain ⟨t₁, s₁, t₂, first, rest, rfl⟩ := Program.exists_of_run_bind run
      have h₁ := h.round hc first
      have next : i + reads (roundEvents (l ++ [(⟨s, t₁, s₁⟩ : Round β σ)])) =
          i + reads (roundEvents l) + reads t₁ := by
        simp [Nat.add_assoc]
      rw [← next] at rest
      obtain ⟨l', h', rfl, hc'⟩ := ih h₁ rest
      exact ⟨⟨s, t₁, s₁⟩ :: l', by simpa using h', rfl, hc'⟩

theorem of_run {fuel : ℕ} (run : (whileLoop cond body fuel s₀).run o i = (t, some s)) :
    ∃ l, Rounds cond body o s₀ i l s ∧ roundEvents l = t ∧ cond s = false := by
  obtain ⟨l, h⟩ := (@start _ _ cond body o s₀ i).of_run_from run
  exact ⟨l, h⟩

theorem invariant (I : List (Round β σ) → σ → Prop) (initial : I [] s₀)
    (step : ∀ l s t s', Rounds cond body o s₀ i l s → I l s → cond s = true →
      (body s).run o (i + reads (roundEvents l)) = (t, some s') → I (l ++ [⟨s, t, s'⟩]) s')
    (h : Rounds cond body o s₀ i l s) : I l s := by
  induction h with
  | start => exact initial
  | round h hc run ih => exact step _ _ _ _ h ih hc run

end Rounds

def readData (t : List (Event β)) : List (List β) :=
  t.filterMap (fun e => match e with
    | .sent _ => none
    | .received data => some data
    | .timedOut _ => none)

@[simp] theorem readData_nil : readData ([] : List (Event β)) = [] := rfl

@[simp] theorem readData_received (data : List β) (t : List (Event β)) :
    readData (.received data :: t) = data :: readData t := rfl

@[simp] theorem readData_sent (data : List β) (t : List (Event β)) :
    readData (.sent data :: t) = readData t := rfl

theorem Performs.run_scripted {α : Type} {script rest : List (List β)} {i : ℕ} {p : Program β α}
    {t : List (Event β)} {a : α} (h : Performs p t (.done a)) (heard : ∀ n, .timedOut n ∉ t)
    (hs : script.drop i = readData t ++ rest) :
    p.run (.scripted script) i = (t, some a) ∧ script.drop (i + reads t) = rest := by
  generalize hq : (Program.done a : Program β α) = q at h
  induction h generalizing i with
  | refl p =>
    subst hq
    exact ⟨rfl, hs⟩
  | @read n next t q r h ih =>
    cases r with
    | timedOut written size => exact absurd (List.mem_cons_self) (heard n)
    | received data size =>
      have hs' : script.drop i = data :: (readData t ++ rest) := hs
      have next_drop : script.drop (i + 1) = readData t ++ rest := by
        rw [← List.drop_drop, hs', List.drop_succ_cons, List.drop_zero]
      obtain ⟨run, left⟩ := ih (fun n hn => heard n (List.mem_cons_of_mem _ hn)) next_drop hq
      rw [Program.run_read, Peer.scripted_received hs' size, run]
      refine ⟨rfl, ?_⟩
      rw [reads_reply, ← left, Nat.add_assoc, Nat.add_comm 1]
  | @write data p t q h ih =>
    obtain ⟨run, left⟩ := ih (fun n hn => heard n (List.mem_cons_of_mem _ hn)) hs hq
    rw [Program.run_write, run]
    exact ⟨rfl, left⟩

end LightModem.Interaction
