import LightModem.Interaction
import Mathlib.Data.List.Basic

set_option autoImplicit false

namespace LightModem.Interaction

variable {β α γ σ : Type}

/-- The result of a program whose reads take from the stream `q`, `answer` being what a write adds to the
stream. A read of more symbols than there are times out. -/
def Program.fed (answer : List β → List β) : Program β α → List β → Option (α × List β)
  | .done a, q => some (a, q)
  | .read n next, q =>
    if h : n ≤ q.length then (next (.received (q.take n) (List.length_take_of_le h))).fed answer (q.drop n)
    else (next (.timedOut [] (Nat.zero_le n))).fed answer q
  | .write data next, q => next.fed answer (q ++ answer data)
  | .outOfFuel, _ => none

section Fed

variable {answer : List β → List β} {q : List β} {n : ℕ} {next : Reply β n → Program β α}

@[simp] theorem fed_done (a : α) : (Program.done a : Program β α).fed answer q = some (a, q) := rfl

@[simp] theorem fed_write (data : List β) (p : Program β α) :
    (Program.write data p).fed answer q = p.fed answer (q ++ answer data) := rfl

@[simp] theorem fed_outOfFuel : (.outOfFuel : Program β α).fed answer q = none := rfl

theorem fed_read (h : n ≤ q.length) : (Program.read n next).fed answer q =
    (next (.received (q.take n) (List.length_take_of_le h))).fed answer (q.drop n) := by
  simp [Program.fed, h]

theorem fed_read_short (h : q.length < n) : (Program.read n next).fed answer q =
    (next (.timedOut [] (Nat.zero_le n))).fed answer q := by
  simp [Program.fed, Nat.not_le.mpr h]

theorem fed_bind (p : Program β α) (f : α → Program β γ) :
    (p >>= f).fed answer q = (p.fed answer q).bind fun x => (f x.1).fed answer x.2 := by
  induction p generalizing q with
  | done a => rfl
  | read n next ih =>
    rcases Nat.lt_or_ge q.length n with h | h
    · rw [Program.read_bind, fed_read_short h, fed_read_short h, ih]
    · rw [Program.read_bind, fed_read h, fed_read h, ih]
  | write data next ih => exact ih
  | outOfFuel => rfl

end Fed

end LightModem.Interaction
