import LightModem.Interaction

set_option autoImplicit false

/-!
Two programs joined by two first-in first-out lines. A medium says which steps may happen: what the
line carries for the symbols written, and whether a read may time out.
-/

namespace LightModem.Interaction

variable {β α γ : Type}

inductive Label (β : Type)
  | write (written delivered : List β)
  | read (data : List β)
  | timeOut (n : ℕ)
  deriving DecidableEq

namespace Label

def delivered : Label β → List β
  | .write _ delivered => delivered
  | .read _ => []
  | .timeOut _ => []

def consumed : Label β → List β
  | .write _ _ => []
  | .read data => data
  | .timeOut _ => []

theorem delivered_of_reads {ℓ : Label β} (reads : ∀ w d, ℓ ≠ .write w d) : ℓ.delivered = [] := by
  cases ℓ with
  | write w d => exact absurd rfl (reads w d)
  | read data => rfl
  | timeOut n => rfl

end Label

/-- `p`, before which the symbols `q` wait, takes the step `ℓ`. A read that times out takes nothing. -/
inductive Moves : Program β α → List β → Label β → Program β α → List β → Prop
  | write {p : Program β α} {q : List β} (written delivered : List β) :
      Moves (.write written p) q (.write written delivered) p q
  | read {n : ℕ} {next : Reply β n → Program β α} {q : List β} (data : List β)
      (size : data.length = n) :
      Moves (.read n next) (data ++ q) (.read data) (next (.received data size)) q
  | timeOut {n : ℕ} {next : Reply β n → Program β α} {q : List β} :
      Moves (.read n next) q (.timeOut n) (next (.timedOut [] (Nat.zero_le n))) q

theorem Moves.append {p p' : Program β α} {q q' : List β} {ℓ : Label β} (h : Moves p q ℓ p' q')
    (more : List β) : Moves p (q ++ more) ℓ p' (q' ++ more) := by
  cases h with
  | write written delivered => exact .write _ _
  | read data size => rw [List.append_assoc]; exact .read _ _
  | timeOut => exact .timeOut

theorem Moves.ensures {p p' : Program β α} {q q' : List β} {ℓ : Label β} {P : α → Prop}
    (h : Moves p q ℓ p' q') (hp : p.Ensures fun _ a => P a) : p'.Ensures fun _ a => P a := by
  cases h with
  | write written delivered => exact hp
  | read data size => exact hp _
  | timeOut => exact hp _

theorem Moves.bind {p p' : Program β α} {q q' : List β} {ℓ : Label β} (h : Moves p q ℓ p' q')
    (f : α → Program β γ) : Moves (p >>= f) q ℓ (p' >>= f) q' := by
  cases h with
  | write written delivered => exact .write _ _
  | read data size => exact .read data size
  | timeOut => exact .timeOut

theorem Moves.queue {p p' : Program β α} {q q' : List β} {ℓ : Label β} (h : Moves p q ℓ p' q') :
    q = ℓ.consumed ++ q' := by
  cases h <;> rfl

/-- Which steps a party may take after the ones in its log. -/
structure Medium (β : Type) where
  left : List (Label β) → Label β → Prop
  right : List (Label β) → Label β → Prop

structure Network (β α : Type) where
  left : Program β α
  right : Program β α
  toLeft : List β
  toRight : List β
  leftLog : List (Label β)
  rightLog : List (Label β)

inductive Step (m : Medium β) : Network β α → Network β α → Prop
  | left {s : Network β α} {ℓ : Label β} {p : Program β α} {q : List β}
      (h : Moves s.left s.toLeft ℓ p q) (allowed : m.left s.leftLog ℓ) :
      Step m s ⟨p, s.right, q, s.toRight ++ ℓ.delivered, s.leftLog ++ [ℓ], s.rightLog⟩
  | right {s : Network β α} {ℓ : Label β} {p : Program β α} {q : List β}
      (h : Moves s.right s.toRight ℓ p q) (allowed : m.right s.rightLog ℓ) :
      Step m s ⟨s.left, p, s.toLeft ++ ℓ.delivered, q, s.leftLog, s.rightLog ++ [ℓ]⟩

abbrev Steps (m : Medium β) : Network β α → Network β α → Prop := Relation.ReflTransGen (Step m)

def Network.start (left right : Program β α) : Network β α := ⟨left, right, [], [], [], []⟩

def Network.bind (s : Network β α) (f g : α → Program β γ) : Network β γ :=
  ⟨s.left >>= f, s.right >>= g, s.toLeft, s.toRight, s.leftLog, s.rightLog⟩

theorem Step.bind {m : Medium β} {s s' : Network β α} (h : Step m s s') (f g : α → Program β γ) :
    Step m (s.bind f g) (s'.bind f g) := by
  cases h with
  | left hm allowed => exact .left (hm.bind f) allowed
  | right hm allowed => exact .right (hm.bind g) allowed

theorem steps_bind {m : Medium β} {s s' : Network β α} (h : Steps m s s') (f g : α → Program β γ) :
    Steps m (s.bind f g) (s'.bind f g) :=
  h.lift (fun s => s.bind f g) fun _ _ step => step.bind f g

theorem Step.logs {m : Medium β} {s s' : Network β α} (h : Step m s s') :
    s.leftLog <+: s'.leftLog ∧ s.rightLog <+: s'.rightLog := by
  cases h with
  | left hm allowed => exact ⟨List.prefix_append _ _, List.prefix_rfl⟩
  | right hm allowed => exact ⟨List.prefix_rfl, List.prefix_append _ _⟩

theorem steps_logs {m : Medium β} {s s' : Network β α} (h : Steps m s s') :
    s.leftLog <+: s'.leftLog ∧ s.rightLog <+: s'.rightLog := by
  induction h with
  | refl => exact ⟨List.prefix_rfl, List.prefix_rfl⟩
  | tail _ step ih => exact ⟨ih.1.trans step.logs.1, ih.2.trans step.logs.2⟩

end LightModem.Interaction
