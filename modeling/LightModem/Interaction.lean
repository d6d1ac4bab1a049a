import Mathlib.Data.Nat.Notation
import Mathlib.Logic.Relation

set_option autoImplicit false

namespace LightModem.Interaction

variable {β α γ σ : Type}

/-- What a read of `n` symbols brings. A read that times out may leave some symbols behind. -/
inductive Reply (β : Type) (n : ℕ)
  | received (data : List β) (size : data.length = n)
  | timedOut (written : List β) (size : written.length ≤ n)

inductive Event (β : Type)
  | sent (data : List β)
  | received (data : List β)
  | timedOut (n : ℕ)
  deriving DecidableEq

def Reply.event {n : ℕ} : Reply β n → Event β
  | .received data _ => .received data
  | .timedOut _ _ => .timedOut n

def Reply.data? {n : ℕ} : Reply β n → Option (List β)
  | .received data _ => some data
  | .timedOut _ _ => none

/-- A sequential program over one line. `outOfFuel` is a call cut short before it returned. -/
inductive Program (β α : Type)
  | done (a : α)
  | read (n : ℕ) (next : Reply β n → Program β α)
  | write (data : List β) (next : Program β α)
  | outOfFuel

namespace Program

def bind : Program β α → (α → Program β γ) → Program β γ
  | .done a, f => f a
  | .read n next, f => .read n (fun r => bind (next r) f)
  | .write data next, f => .write data (bind next f)
  | .outOfFuel, _ => .outOfFuel

instance : Monad (Program β) where
  pure := .done
  bind := bind

@[simp] theorem pure_eq (a : α) : (pure a : Program β α) = .done a := rfl

@[simp] theorem done_bind (a : α) (f : α → Program β γ) : (Program.done a >>= f) = f a := rfl

@[simp] theorem read_bind (n : ℕ) (next : Reply β n → Program β α) (f : α → Program β γ) :
    (Program.read n next >>= f) = .read n (fun r => next r >>= f) := rfl

@[simp] theorem write_bind (data : List β) (next : Program β α) (f : α → Program β γ) :
    (Program.write data next >>= f) = .write data (next >>= f) := rfl

@[simp] theorem outOfFuel_bind (f : α → Program β γ) :
    ((.outOfFuel : Program β α) >>= f) = .outOfFuel := rfl

theorem bind_done (p : Program β α) : (p >>= .done) = p := by
  induction p with
  | done a => rfl
  | read n next ih => simp only [read_bind, ih]
  | write data next ih => simp only [write_bind, ih]
  | outOfFuel => rfl

theorem bind_bind {δ : Type} (p : Program β α) (f : α → Program β γ) (g : γ → Program β δ) :
    (p >>= f >>= g) = p >>= fun a => f a >>= g := by
  induction p with
  | done a => rfl
  | read n next ih => simp only [read_bind, ih]
  | write data next ih => simp only [write_bind, ih]
  | outOfFuel => rfl

instance : LawfulMonad (Program β) :=
  LawfulMonad.mk' _ bind_done (fun _ _ => rfl) bind_bind

end Program

def getchars (n : ℕ) : Program β (Reply β n) := .read n .done

def putchars (data : List β) : Program β Unit := .write data (.done ())

@[simp] theorem getchars_bind (n : ℕ) (f : Reply β n → Program β α) :
    (getchars n >>= f) = .read n f := rfl

@[simp] theorem putchars_bind (data : List β) (f : Unit → Program β α) :
    (putchars data >>= f) = .write data (f ()) := rfl

namespace Program

def writing (pending : List (List β)) (p : Program β α) : Program β α := pending.foldr .write p

inductive WritesOnly : Program β α → Prop
  | done (a : α) : WritesOnly (.done a)
  | write (data : List β) {p : Program β α} (h : WritesOnly p) : WritesOnly (.write data p)

theorem WritesOnly.eq_writing {p : Program β α} (h : p.WritesOnly) :
    ∃ pending a, p = .writing pending (.done a) := by
  induction h with
  | done a => exact ⟨[], a, rfl⟩
  | write data _ ih =>
    obtain ⟨pending, a, rfl⟩ := ih
    exact ⟨data :: pending, a, rfl⟩

end Program

/-! The specification of a program against every peer. -/

namespace Program

/-- Whatever the peer does, a call that returns `a` after the events `t` satisfies `Q t a`. -/
def Ensures : Program β α → (List (Event β) → α → Prop) → Prop
  | .done a, Q => Q [] a
  | .read _ next, Q => ∀ r, (next r).Ensures (fun t a => Q (r.event :: t) a)
  | .write data next, Q => next.Ensures (fun t a => Q (.sent data :: t) a)
  | .outOfFuel, _ => True

def Terminates : Program β α → Prop
  | .done _ => True
  | .read _ next => ∀ r, (next r).Terminates
  | .write _ next => next.Terminates
  | .outOfFuel => False

def Requests (P : ℕ → Prop) : Program β α → Prop
  | .done _ => True
  | .read n next => P n ∧ ∀ r, (next r).Requests P
  | .write _ next => next.Requests P
  | .outOfFuel => True

variable {p : Program β α} {f : α → Program β γ} {Q R : List (Event β) → α → Prop} {P : ℕ → Prop}

@[simp] theorem ensures_done (a : α) : (Program.done a : Program β α).Ensures Q ↔ Q [] a := Iff.rfl

@[simp] theorem ensures_read (n : ℕ) (next : Reply β n → Program β α) :
    (Program.read n next).Ensures Q ↔
      ∀ r, (next r).Ensures (fun t a => Q (r.event :: t) a) := Iff.rfl

@[simp] theorem ensures_write (data : List β) :
    (Program.write data p).Ensures Q ↔ p.Ensures (fun t a => Q (.sent data :: t) a) := Iff.rfl

@[simp] theorem ensures_outOfFuel : (.outOfFuel : Program β α).Ensures Q := trivial

theorem ensures_writing (pending : List (List β)) (a : α) :
    (Program.writing pending (.done a)).Ensures Q ↔ Q (pending.map .sent) a := by
  induction pending generalizing Q with
  | nil => rfl
  | cons data pending ih => exact ih

theorem Ensures.mono (h : p.Ensures Q) (hQ : ∀ t a, Q t a → R t a) : p.Ensures R := by
  induction p generalizing Q R with
  | done a => exact hQ _ _ h
  | read n next ih => exact fun r => ih r (h r) (fun t a => hQ _ a)
  | write data next ih => exact ih h (fun t a => hQ _ a)
  | outOfFuel => trivial

theorem ensures_true (p : Program β α) : p.Ensures (fun _ _ => True) := by
  induction p with
  | done a => trivial
  | read n next ih => exact fun r => ih r
  | write data next ih => exact ih
  | outOfFuel => trivial

theorem Ensures.and (hQ : p.Ensures Q) (hR : p.Ensures R) : p.Ensures (fun t a => Q t a ∧ R t a) := by
  induction p generalizing Q R with
  | done a => exact ⟨hQ, hR⟩
  | read n next ih => exact fun r => ih r (hQ r) (hR r)
  | write data next ih => exact ih hQ hR
  | outOfFuel => trivial

theorem ensures_bind {Q : List (Event β) → γ → Prop} :
    (p >>= f).Ensures Q ↔ p.Ensures (fun t a => (f a).Ensures (fun t' b => Q (t ++ t') b)) := by
  induction p generalizing Q with
  | done a => rfl
  | read n next ih => simp only [read_bind, ensures_read, ih, List.cons_append]
  | write data next ih => simp only [write_bind, ensures_write, ih, List.cons_append]
  | outOfFuel => rfl

theorem terminates_bind (hp : p.Terminates) (hf : p.Ensures (fun _ a => (f a).Terminates)) :
    (p >>= f).Terminates := by
  induction p with
  | done a => exact hf
  | read n next ih => exact fun r => ih r (hp r) (hf r)
  | write data next ih => exact ih hp hf
  | outOfFuel => exact hp.elim

theorem Terminates.bind (hp : p.Terminates) (hf : ∀ a, (f a).Terminates) : (p >>= f).Terminates := by
  induction p with
  | done a => exact hf a
  | read n next ih => exact fun r => ih r (hp r)
  | write data next ih => exact ih hp
  | outOfFuel => exact hp.elim

@[simp] theorem requests_write (data : List β) : (Program.write data p).Requests P ↔ p.Requests P := Iff.rfl

theorem Requests.bind (hp : p.Requests P) (hf : p.Ensures (fun _ a => (f a).Requests P)) :
    (p >>= f).Requests P := by
  induction p with
  | done a => exact hf
  | read n next ih => exact ⟨hp.1, fun r => ih r (hp.2 r) (hf r)⟩
  | write data next ih => exact ih hp hf
  | outOfFuel => trivial

end Program

def whileLoop (cond : σ → Bool) (body : σ → Program β σ) : ℕ → σ → Program β σ
  | 0, _ => .outOfFuel
  | fuel + 1, s => if cond s then body s >>= whileLoop cond body fuel else .done s

section WhileLoop

variable {cond : σ → Bool} {body : σ → Program β σ} {s : σ}

theorem whileLoop_true (fuel : ℕ) (h : cond s = true) :
    whileLoop cond body (fuel + 1) s = body s >>= whileLoop cond body fuel := by
  simp [whileLoop, h]

theorem whileLoop_false (fuel : ℕ) (h : cond s = false) :
    whileLoop cond body (fuel + 1) s = .done s := by
  simp [whileLoop, h]

theorem ensures_whileLoop (I : List (Event β) → σ → Prop)
    (step : ∀ t s, I t s → cond s = true → (body s).Ensures (fun t' s' => I (t ++ t') s'))
    (fuel : ℕ) (hs : I [] s) :
    (whileLoop cond body fuel s).Ensures (fun t s' => I t s' ∧ cond s' = false) := by
  have general : ∀ fuel t s, I t s →
      (whileLoop cond body fuel s).Ensures (fun t' s' => I (t ++ t') s' ∧ cond s' = false) := by
    intro fuel
    induction fuel with
    | zero => intro t s _; trivial
    | succ fuel ih =>
      intro t s h
      cases hc : cond s with
      | false => rw [whileLoop_false fuel hc]; simpa using ⟨h, hc⟩
      | true =>
        rw [whileLoop_true fuel hc, Program.ensures_bind]
        refine (step t s h hc).mono fun t' s' h' => (ih (t ++ t') s' h').mono fun t'' s'' => ?_
        simp only [List.append_assoc]
        exact id
  simpa using general fuel [] s hs

theorem terminates_whileLoop (I : ℕ → σ → Prop)
    (round : ∀ m s, I m s → cond s = true → (body s).Terminates)
    (smaller : ∀ m s, I m s → cond s = true → (body s).Ensures (fun _ s' => ∃ m' < m, I m' s'))
    {m fuel : ℕ} (hs : I m s) (hfuel : m < fuel) : (whileLoop cond body fuel s).Terminates := by
  induction fuel generalizing m s with
  | zero => omega
  | succ fuel ih =>
    cases hc : cond s with
    | false => rw [whileLoop_false fuel hc]; trivial
    | true =>
      rw [whileLoop_true fuel hc]
      apply Program.terminates_bind (round m s hs hc)
      exact (smaller m s hs hc).mono fun _ s' ⟨m', hm, h⟩ => ih h (by omega)

theorem requests_whileLoop {P : ℕ → Prop} (I : σ → Prop)
    (round : ∀ s, I s → cond s = true → (body s).Requests P)
    (keeps : ∀ s, I s → cond s = true → (body s).Ensures (fun _ s' => I s')) (fuel : ℕ) (hs : I s) :
    (whileLoop cond body fuel s).Requests P := by
  induction fuel generalizing s with
  | zero => trivial
  | succ fuel ih =>
    cases hc : cond s with
    | false => rw [whileLoop_false fuel hc]; trivial
    | true =>
      rw [whileLoop_true fuel hc]
      exact (round s hs hc).bind ((keeps s hs hc).mono fun _ s' h => ih h)

end WhileLoop

abbrev Peer (β : Type) := ℕ → (n : ℕ) → Reply β n

def Event.isRead : Event β → Bool
  | .sent _ => false
  | .received _ => true
  | .timedOut _ => true

@[simp] theorem Reply.event_isRead {n : ℕ} (r : Reply β n) : r.event.isRead = true := by
  cases r <;> rfl

def reads (t : List (Event β)) : ℕ := t.countP Event.isRead

@[simp] theorem reads_nil : reads ([] : List (Event β)) = 0 := rfl

@[simp] theorem reads_sent (data : List β) (t : List (Event β)) : reads (.sent data :: t) = reads t := rfl

@[simp] theorem reads_append (t t' : List (Event β)) : reads (t ++ t') = reads t + reads t' :=
  List.countP_append

@[simp] theorem reads_reply {n : ℕ} (r : Reply β n) (t : List (Event β)) :
    reads (r.event :: t) = reads t + 1 := by simp [reads]

def writes (t : List (Event β)) : List (List β) :=
  t.filterMap (fun e => match e with
    | .sent data => some data
    | .received _ => none
    | .timedOut _ => none)

@[simp] theorem writes_nil : writes ([] : List (Event β)) = [] := rfl

@[simp] theorem writes_append (t t' : List (Event β)) : writes (t ++ t') = writes t ++ writes t' :=
  List.filterMap_append

@[simp] theorem writes_sent (data : List β) (t : List (Event β)) :
    writes (.sent data :: t) = data :: writes t := rfl

@[simp] theorem writes_received (data : List β) (t : List (Event β)) :
    writes (.received data :: t) = writes t := rfl

@[simp] theorem writes_timedOut (n : ℕ) (t : List (Event β)) : writes (.timedOut n :: t) = writes t := rfl

theorem mem_writes {data : List β} {t : List (Event β)} : data ∈ writes t ↔ .sent data ∈ t := by
  induction t with
  | nil => simp
  | cons e t ih => cases e <;> simp [ih]

def Heard (o : Peer β) : ℕ → List (Event β) → Prop
  | _, [] => True
  | i, .sent _ :: t => Heard o i t
  | i, .received data :: t => (o i data.length).data? = some data ∧ Heard o (i + 1) t
  | i, .timedOut n :: t => (o i n).data? = none ∧ Heard o (i + 1) t

theorem heard_append {o : Peer β} {i : ℕ} {t t' : List (Event β)} :
    Heard o i (t ++ t') ↔ Heard o i t ∧ Heard o (i + reads t) t' := by
  induction t generalizing i with
  | nil => simp [Heard]
  | cons e t ih =>
    cases e with
    | sent data => exact ih
    | received data =>
      have count : reads (.received data :: t) = reads t + 1 := List.countP_cons_of_pos rfl
      rw [List.cons_append, Heard, Heard, ih, and_assoc, count, Nat.add_assoc, Nat.add_comm 1]
    | timedOut n =>
      have count : reads (.timedOut n :: t) = reads t + 1 := List.countP_cons_of_pos rfl
      rw [List.cons_append, Heard, Heard, ih, and_assoc, count, Nat.add_assoc, Nat.add_comm 1]

namespace Program

/-- The events of a run and its result, the outcomes of the peer being used from the `i`-th on. -/
def run (o : Peer β) : ℕ → Program β α → List (Event β) × Option α
  | _, .done a => ([], some a)
  | i, .read n next =>
    let x := (next (o i n)).run o (i + 1)
    ((o i n).event :: x.1, x.2)
  | i, .write data next =>
    let x := next.run o i
    (.sent data :: x.1, x.2)
  | _, .outOfFuel => ([], none)

variable {p : Program β α} {f : α → Program β γ} {Q : List (Event β) → α → Prop} {o : Peer β}

@[simp] theorem run_done (i : ℕ) (a : α) : (Program.done a : Program β α).run o i = ([], some a) := rfl

@[simp] theorem run_read (i n : ℕ) (next : Reply β n → Program β α) :
    (Program.read n next).run o i =
      ((o i n).event :: ((next (o i n)).run o (i + 1)).1, ((next (o i n)).run o (i + 1)).2) := rfl

@[simp] theorem run_write (i : ℕ) (data : List β) :
    (Program.write data p).run o i = (.sent data :: (p.run o i).1, (p.run o i).2) := rfl

@[simp] theorem run_outOfFuel (i : ℕ) : (.outOfFuel : Program β α).run o i = ([], none) := rfl

theorem run_bind_some {i : ℕ} {t : List (Event β)} {a : α} (h : p.run o i = (t, some a)) :
    (p >>= f).run o i =
      (t ++ ((f a).run o (i + reads t)).1, ((f a).run o (i + reads t)).2) := by
  induction p generalizing i t with
  | done b =>
    obtain ⟨rfl, rfl⟩ : [] = t ∧ b = a := by simpa using h
    simp
  | read n next ih =>
    simp only [run_read, Prod.mk.injEq] at h
    obtain ⟨rfl, h2⟩ := h
    rw [read_bind, run_read, ih _ (Prod.ext rfl h2)]
    simp [Nat.add_assoc, Nat.add_comm 1]
  | write data next ih =>
    simp only [run_write, Prod.mk.injEq] at h
    obtain ⟨rfl, h2⟩ := h
    rw [write_bind, run_write, ih (Prod.ext rfl h2)]
    simp
  | outOfFuel => simp at h

theorem run_bind_none {i : ℕ} (h : (p.run o i).2 = none) : ((p >>= f).run o i).2 = none := by
  induction p generalizing i with
  | done b => simp at h
  | read n next ih => exact ih _ h
  | write data next ih => exact ih h
  | outOfFuel => rfl

theorem exists_of_run_bind {i : ℕ} {t : List (Event β)} {b : γ} (h : (p >>= f).run o i = (t, some b)) :
    ∃ t₁ a t₂, p.run o i = (t₁, some a) ∧ (f a).run o (i + reads t₁) = (t₂, some b) ∧ t = t₁ ++ t₂ := by
  cases hp : (p.run o i).2 with
  | none =>
    have hnone : ((p >>= f).run o i).2 = none := run_bind_none hp
    rw [h] at hnone
    cases hnone
  | some a =>
    have hrun : p.run o i = ((p.run o i).1, some a) := Prod.ext rfl hp
    rw [run_bind_some hrun] at h
    obtain ⟨ht, hb⟩ := Prod.mk.inj h
    exact ⟨_, a, _, hrun, Prod.ext rfl hb, ht.symm⟩

theorem exists_of_run_read {i n : ℕ} {next : Reply β n → Program β α} {t : List (Event β)} {a : α}
    (h : (Program.read n next).run o i = (t, some a)) :
    ∃ rest, t = (o i n).event :: rest ∧ (next (o i n)).run o (i + 1) = (rest, some a) := by
  obtain ⟨rfl, ha⟩ := Prod.mk.inj h
  exact ⟨_, rfl, Prod.ext rfl ha⟩

theorem exists_of_run_write {i : ℕ} {data : List β} {t : List (Event β)} {a : α}
    (h : (Program.write data p).run o i = (t, some a)) :
    ∃ rest, t = .sent data :: rest ∧ p.run o i = (rest, some a) := by
  obtain ⟨rfl, ha⟩ := Prod.mk.inj h
  exact ⟨_, rfl, Prod.ext rfl ha⟩

theorem exists_of_run_map {i : ℕ} {f : α → γ} {t : List (Event β)} {b : γ}
    (h : (p >>= fun a => .done (f a)).run o i = (t, some b)) : ∃ a, p.run o i = (t, some a) ∧ b = f a := by
  obtain ⟨t₁, a, t₂, hp, hdone, rfl⟩ := exists_of_run_bind h
  obtain ⟨rfl, hb⟩ := Prod.mk.inj hdone
  rw [List.append_nil]
  exact ⟨a, hp, (Option.some.inj hb).symm⟩

theorem Ensures.run {i : ℕ} {t : List (Event β)} {a : α} (h : p.Ensures Q)
    (ht : p.run o i = (t, some a)) : Q t a := by
  induction p generalizing i t Q with
  | done b =>
    obtain ⟨rfl, rfl⟩ : [] = t ∧ b = a := by simpa using ht
    exact h
  | read n next ih =>
    have h' : (next (o i n)).Ensures (fun t a => Q ((o i n).event :: t) a) := h _
    simp only [run_read, Prod.mk.injEq] at ht
    obtain ⟨rfl, h2⟩ := ht
    have result := ih _ h' (Prod.ext rfl h2)
    exact result
  | write data next ih =>
    have h' : next.Ensures (fun t a => Q (.sent data :: t) a) := h
    simp only [run_write, Prod.mk.injEq] at ht
    obtain ⟨rfl, h2⟩ := ht
    have result := ih h' (Prod.ext rfl h2)
    exact result
  | outOfFuel => simp at ht

theorem Terminates.run (h : p.Terminates) (i : ℕ) : ∃ t a, p.run o i = (t, some a) := by
  induction p generalizing i with
  | done a => exact ⟨[], a, rfl⟩
  | read n next ih =>
    obtain ⟨t, a, ht⟩ := ih _ (h (o i n)) (i + 1)
    exact ⟨_ :: t, a, by rw [run_read, ht]⟩
  | write data next ih =>
    obtain ⟨t, a, ht⟩ := ih h i
    exact ⟨_ :: t, a, by rw [run_write, ht]⟩
  | outOfFuel => exact h.elim

theorem Terminates.run_isSome (h : p.Terminates) (i : ℕ) : (p.run o i).2.isSome = true := by
  obtain ⟨t, a, ht⟩ := @Terminates.run _ _ _ o h i
  rw [ht]
  rfl

theorem run_bind_isSome {i : ℕ} (h : (p.run o i).2.isSome = true)
    (hf : p.Ensures (fun _ a => (f a).Terminates)) : ((p >>= f).run o i).2.isSome = true := by
  obtain ⟨a, ha⟩ := Option.isSome_iff_exists.mp h
  rw [run_bind_some (Prod.ext rfl ha)]
  exact (hf.run (Prod.ext rfl ha)).run_isSome _

theorem run_whileLoop_false {cond : α → Bool} {body : α → Program β α} {s s' : α} {fuel i : ℕ} {t : List (Event β)}
    (hc : cond s = false) (h : (whileLoop cond body fuel s).run o i = (t, some s')) : t = [] ∧ s = s' := by
  cases fuel with
  | zero => simp [whileLoop] at h
  | succ fuel =>
    rw [whileLoop_false fuel hc, run_done] at h
    obtain ⟨rfl, hs⟩ := Prod.mk.inj h
    exact ⟨rfl, Option.some.inj hs⟩

theorem isSome_of_run_bind {i : ℕ} (h : ((p >>= f).run o i).2.isSome = true) :
    (p.run o i).2.isSome = true := by
  cases hp : (p.run o i).2 with
  | none =>
    rw [run_bind_none hp] at h
    cases h
  | some a => rfl

theorem run_heard (p : Program β α) (i : ℕ) : Heard o i (p.run o i).1 := by
  induction p generalizing i with
  | done a => trivial
  | read n next ih =>
    rw [run_read]
    have later := ih (o i n) (i + 1)
    generalize hr : o i n = r at later
    cases r with
    | received data size =>
      exact ⟨by rw [size, hr]; rfl, later⟩
    | timedOut written size => exact ⟨by rw [hr]; rfl, later⟩
  | write data next ih => exact ih i
  | outOfFuel => trivial

end Program

/-- The call `p`, whose loops are given as many rounds as they ask for, returns `a` after `t`. -/
def Returns (p : ℕ → Program β α) (o : Peer β) (t : List (Event β)) (a : α) : Prop :=
  ∃ fuel, (p fuel).run o 0 = (t, some a)

/-- The peer that brings the data of a script, one read after the other, and then nothing. A read of
another size than the data times out. -/
def Peer.scripted (script : List (List β)) : Peer β := fun i n =>
  if h : (script.getD i []).length = n then .received _ h else .timedOut [] (Nat.zero_le n)

theorem Peer.scripted_silent {script : List (List β)} {i n : ℕ} (hi : script.length ≤ i) (hn : 0 < n) :
    (Peer.scripted script i n).data? = none := by
  have hget : script.getD i [] = [] := by
    rw [List.getD_eq_getElem?_getD, List.getElem?_eq_none hi]
    rfl
  unfold Peer.scripted
  rw [hget, dif_neg (by simp only [List.length_nil]; omega)]
  rfl

theorem Peer.scripted_received {script rest : List (List β)} {data : List β} {i n : ℕ}
    (h : script.drop i = data :: rest) (size : data.length = n) :
    Peer.scripted script i n = .received data size := by
  have hget : script.getD i [] = data := by
    have hdrop := congrArg (fun l => l[0]?) h
    simp only [List.getElem?_drop, Nat.add_zero, List.getElem?_cons_zero] at hdrop
    rw [List.getD_eq_getElem?_getD, hdrop]
    rfl
  subst hget
  exact dif_pos size

theorem Peer.scripted_timedOut {script rest : List (List β)} {i n : ℕ} (h : script.drop i = [] :: rest)
    (hn : 0 < n) : Peer.scripted script i n = .timedOut [] (Nat.zero_le n) := by
  have hget : script.getD i [] = [] := by
    have hdrop := congrArg (fun l => l[0]?) h
    simp only [List.getElem?_drop, Nat.add_zero, List.getElem?_cons_zero] at hdrop
    rw [List.getD_eq_getElem?_getD, hdrop]
    rfl
  unfold Peer.scripted
  rw [hget, dif_neg (by simp only [List.length_nil]; omega)]

theorem returns_of_run {δ : Type} {p : ℕ → Program β α} {o : Peer β} {f : α → δ} {b : δ} (fuel : ℕ)
    (h : ((p fuel).run o 0).2.map f = some b) :
    ∃ a, Returns p o ((p fuel).run o 0).1 a ∧ f a = b := by
  obtain ⟨a, ha, hb⟩ := Option.map_eq_some_iff.mp h
  exact ⟨a, ⟨fuel, Prod.ext rfl ha⟩, hb⟩

def Halts (p : ℕ → Program β α) (o : Peer β) : Prop := ∃ t a, Returns p o t a

theorem Returns.ensures {p : ℕ → Program β α} {o : Peer β} {t : List (Event β)} {a : α}
    {Q : List (Event β) → α → Prop} (h : Returns p o t a) (hQ : ∀ fuel, (p fuel).Ensures Q) : Q t a := by
  obtain ⟨fuel, h⟩ := h
  exact (hQ fuel).run h

theorem halts_of_terminates {p : ℕ → Program β α} (h : ∃ fuel, (p fuel).Terminates) (o : Peer β) :
    Halts p o := by
  obtain ⟨fuel, h⟩ := h
  obtain ⟨t, a, ht⟩ := h.run 0
  exact ⟨t, a, fuel, ht⟩

theorem halts_iff {p : ℕ → Program β α} {o : Peer β} :
    Halts p o ↔ ∃ fuel, ((p fuel).run o 0).2.isSome = true := by
  constructor
  · rintro ⟨t, a, fuel, h⟩
    exact ⟨fuel, by rw [h]; rfl⟩
  · rintro ⟨fuel, h⟩
    obtain ⟨a, ha⟩ := Option.isSome_iff_exists.mp h
    exact ⟨_, a, fuel, Prod.ext rfl ha⟩

inductive Performs : Program β α → List (Event β) → Program β α → Prop
  | refl (p : Program β α) : Performs p [] p
  | read {n : ℕ} {next : Reply β n → Program β α} {t : List (Event β)} {q : Program β α}
      (r : Reply β n) (h : Performs (next r) t q) : Performs (.read n next) (r.event :: t) q
  | write {data : List β} {p : Program β α} {t : List (Event β)} {q : Program β α}
      (h : Performs p t q) : Performs (.write data p) (.sent data :: t) q

namespace Performs

variable {p q r : Program β α} {t t' : List (Event β)} {Q : List (Event β) → α → Prop}

theorem trans (h : Performs p t q) (h' : Performs q t' r) : Performs p (t ++ t') r := by
  induction h with
  | refl p => exact h'
  | read r h ih => exact .read r (ih h')
  | write h ih => exact .write (ih h')

theorem bind (h : Performs p t q) (f : α → Program β γ) : Performs (p >>= f) t (q >>= f) := by
  induction h with
  | refl p => exact .refl _
  | read r h ih => exact .read r ih
  | write h ih => exact .write ih

theorem ensures (h : Performs p t q) (hp : p.Ensures Q) : q.Ensures (fun t' a => Q (t ++ t') a) := by
  induction h generalizing Q with
  | refl p => exact hp
  | read r h ih => exact ih (hp r)
  | write h ih => exact ih hp

theorem whileLoop {cond : σ → Bool} {body : σ → Program β σ} {s s' : σ} (h : Performs (body s) t (.done s'))
    (hc : cond s = true) (fuel : ℕ) :
    Performs (whileLoop cond body (fuel + 1) s) t (whileLoop cond body fuel s') := by
  rw [whileLoop_true fuel hc]
  exact h.bind _

theorem of_sent {data : List β} (h : Performs p (.sent data :: t) q) :
    ∃ p', p = .write data p' ∧ Performs p' t q := by
  generalize he : Event.sent data :: t = events at h
  cases h with
  | refl => cases he
  | read r h =>
    cases r
    all_goals cases he
  | write h =>
    cases he
    exact ⟨_, rfl, h⟩

theorem of_received {data : List β} (h : Performs p (.received data :: t) q) :
    ∃ (next : Reply β data.length → Program β α), p = .read data.length next ∧
      Performs (next (.received data rfl)) t q := by
  generalize he : Event.received data :: t = events at h
  cases h with
  | refl => cases he
  | read r h =>
    cases r with
    | timedOut written size => cases he
    | received data' size =>
      cases he
      subst size
      exact ⟨_, rfl, h⟩
  | write h => cases he

theorem of_nil (h : Performs p [] q) : p = q := by
  generalize he : ([] : List (Event β)) = events at h
  cases h with
  | refl => rfl
  | read r h => cases he
  | write h => cases he

theorem of_append (h : Performs p (t ++ t') q) : ∃ p', Performs p t p' ∧ Performs p' t' q := by
  induction t generalizing p with
  | nil => exact ⟨p, .refl p, h⟩
  | cons e t ih =>
    generalize he : e :: t ++ t' = events at h
    cases h with
    | refl => cases he
    | read r h =>
      cases he
      obtain ⟨p', h₁, h₂⟩ := ih h
      exact ⟨p', .read r h₁, h₂⟩
    | write h =>
      cases he
      obtain ⟨p', h₁, h₂⟩ := ih h
      exact ⟨p', .write h₁, h₂⟩
end Performs

end LightModem.Interaction
