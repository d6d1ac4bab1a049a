import LightModem.Confluence

set_option autoImplicit false

/-!
Networks in which reads may time out, runs that are described by where each party is, and runs that
are computed from a list of choices.
-/

namespace LightModem.Interaction

variable {β α σ τ : Type}

def Wire.Delays (w : Wire β) (log : List (Label β)) : Label β → Prop
  | .write written delivered => delivered = w log written
  | .read _ => True
  | .timeOut _ => True

def Medium.delayed (forward backward : Wire β) : Medium β := ⟨forward.Delays, backward.Delays⟩

def Medium.leftDelayed (forward backward : Wire β) : Medium β := ⟨forward.Delays, backward.Allows⟩

theorem Wire.Allows.delays {w : Wire β} {log : List (Label β)} {ℓ : Label β} (h : w.Allows log ℓ) :
    w.Delays log ℓ := by
  cases ℓ with
  | write written delivered => exact h
  | read data => trivial
  | timeOut n => trivial

theorem Step.mono {m m' : Medium β} {s s' : Network β α}
    (left : ∀ log ℓ, m.left log ℓ → m'.left log ℓ) (right : ∀ log ℓ, m.right log ℓ → m'.right log ℓ)
    (h : Step m s s') : Step m' s s' := by
  cases h with
  | left hm allowed => exact .left hm (left _ _ allowed)
  | right hm allowed => exact .right hm (right _ _ allowed)

theorem steps_mono {m m' : Medium β} {s s' : Network β α} (h : ∀ s s' : Network β α, Step m s s' → Step m' s s')
    (run : Steps m s s') : Steps m' s s' :=
  run.lift id h

theorem Step.leftDelayed {forward backward : Wire β} {s s' : Network β α}
    (h : Step (.ofWires forward backward) s s') : Step (.leftDelayed forward backward) s s' := by
  apply h.mono
  · exact fun log ℓ => Wire.Allows.delays
  · exact fun log ℓ allowed => allowed

theorem Step.delays {forward backward : Wire β} {s s' : Network β α}
    (h : Step (.leftDelayed forward backward) s s') : Step (.delayed forward backward) s s' := by
  apply h.mono
  · exact fun log ℓ allowed => allowed
  · exact fun log ℓ => Wire.Allows.delays

theorem Step.delayed {forward backward : Wire β} {s s' : Network β α}
    (h : Step (.ofWires forward backward) s s') : Step (.delayed forward backward) s s' :=
  h.leftDelayed.delays

def Wire.Waits (w : Wire β) (last : List (Label β) → ℕ → Prop) (stuck : Prop) (log : List (Label β)) :
    Label β → Prop
  | .write written delivered => delivered = w log written
  | .read _ => True
  | .timeOut n => last log n → stuck

def Stuck (forward backward : Wire β) (s : Network β α) : Prop :=
  ∀ s', ¬ Step (.ofWires forward backward) s s'

def Medium.patient (forward backward : Wire β) (leftLast rightLast : List (Label β) → ℕ → Prop) (stuck : Prop) :
    Medium β := ⟨forward.Waits leftLast stuck, backward.Waits rightLast stuck⟩

def PatientStep (forward backward : Wire β) (leftLast rightLast : List (Label β) → ℕ → Prop)
    (s s' : Network β α) : Prop :=
  Step (.patient forward backward leftLast rightLast (Stuck forward backward s)) s s'

theorem Wire.Allows.waits {w : Wire β} {log : List (Label β)} {ℓ : Label β} (h : w.Allows log ℓ)
    (last : List (Label β) → ℕ → Prop) (stuck : Prop) : w.Waits last stuck log ℓ := by
  cases ℓ with
  | write written delivered => exact h
  | read data => trivial
  | timeOut n => exact h.elim

theorem Step.patient {forward backward : Wire β} {s s' : Network β α}
    (h : Step (.ofWires forward backward) s s') (leftLast rightLast : List (Label β) → ℕ → Prop) :
    PatientStep forward backward leftLast rightLast s s' := by
  apply h.mono
  · exact fun log ℓ allowed => allowed.waits leftLast _
  · exact fun log ℓ allowed => allowed.waits rightLast _

structure Situation (σ τ β : Type) where
  left : σ
  right : τ
  toLeft : List β
  toRight : List β
  leftLog : List (Label β)
  rightLog : List (Label β)

structure Description (σ β α : Type) where
  At : σ → Program β α → Prop
  Step : σ → Label β → σ → Prop
  follows : ∀ {a p q ℓ p' q'}, At a p → Moves p q ℓ p' q' → ∃ a', Step a ℓ a' ∧ At a' p'

section Situation

variable {L : Description σ β α} {R : Description τ β α} {m : Medium β}

structure Situation.Describes (L : Description σ β α) (R : Description τ β α) (c : Situation σ τ β)
    (s : Network β α) : Prop where
  left : L.At c.left s.left
  right : R.At c.right s.right
  toLeft : s.toLeft = c.toLeft
  toRight : s.toRight = c.toRight
  leftLog : s.leftLog = c.leftLog
  rightLog : s.rightLog = c.rightLog

inductive Situation.Step (L : Description σ β α) (R : Description τ β α) (m : Medium β) :
    Situation σ τ β → Situation σ τ β → Prop
  | left {c : Situation σ τ β} {ℓ : Label β} {a : σ} {q : List β} (h : L.Step c.left ℓ a)
      (queue : c.toLeft = ℓ.consumed ++ q) (allowed : m.left c.leftLog ℓ) :
      Step L R m c ⟨a, c.right, q, c.toRight ++ ℓ.delivered, c.leftLog ++ [ℓ], c.rightLog⟩
  | right {c : Situation σ τ β} {ℓ : Label β} {b : τ} {q : List β} (h : R.Step c.right ℓ b)
      (queue : c.toRight = ℓ.consumed ++ q) (allowed : m.right c.rightLog ℓ) :
      Step L R m c ⟨c.left, b, c.toLeft ++ ℓ.delivered, q, c.leftLog, c.rightLog ++ [ℓ]⟩

theorem Situation.Describes.step {c : Situation σ τ β} {s s' : Network β α} (h : c.Describes L R s)
    (hs : Interaction.Step m s s') : ∃ c', Situation.Step L R m c c' ∧ c'.Describes L R s' := by
  obtain ⟨left, right, toLeft, toRight, leftLog, rightLog⟩ := h
  cases hs with
  | @left ℓ p q hm allowed =>
    obtain ⟨a, hstep, hat⟩ := L.follows left hm
    refine ⟨_, .left hstep (toLeft ▸ hm.queue) (leftLog ▸ allowed), ⟨hat, right, rfl, ?_, ?_, rightLog⟩⟩
    · rw [toRight]
    · rw [leftLog]
  | @right ℓ p q hm allowed =>
    obtain ⟨b, hstep, hat⟩ := R.follows right hm
    refine ⟨_, .right hstep (toRight ▸ hm.queue) (rightLog ▸ allowed), ⟨left, hat, ?_, rfl, leftLog, ?_⟩⟩
    · rw [toLeft]
    · rw [rightLog]

def Situation.Balanced (c : Situation σ τ β) : Prop :=
  c.leftLog.flatMap Label.delivered = c.rightLog.flatMap Label.consumed ++ c.toRight

theorem Situation.Step.balanced {c c' : Situation σ τ β} (h : Situation.Step L R m c c')
    (balanced : c.Balanced) : c'.Balanced := by
  unfold Situation.Balanced at *
  cases h with
  | left h queue allowed => simp [balanced]
  | right h queue allowed => simp [balanced, queue]

theorem Situation.invariant {S : Network β α → Network β α → Prop} {I : Situation σ τ β → Prop}
    {M : Network β α → Medium β} {c : Situation σ τ β} {s s' : Network β α}
    (sub : ∀ s s', S s s' → Interaction.Step (M s) s s')
    (keeps : ∀ c c' s s', c.Describes L R s → S s s' → I c → Situation.Step L R (M s) c c' → I c')
    (hs : Relation.ReflTransGen S s s') (describes : c.Describes L R s) (hI : I c) :
    ∃ c', c'.Describes L R s' ∧ I c' := by
  induction hs with
  | refl => exact ⟨c, describes, hI⟩
  | tail _ hstep ih =>
    obtain ⟨c', describes', hI'⟩ := ih
    obtain ⟨c'', hstep', describes''⟩ := describes'.step (sub _ _ hstep)
    exact ⟨c'', describes'', keeps _ _ _ _ describes' hstep hI' hstep'⟩

end Situation

def WholeWrites (l r : List (Label β)) : Prop :=
  ∃ sent, sent <+: l ∧ sent.flatMap Label.delivered = r.flatMap Label.consumed

def Program.result? : Program β α → Option α
  | .done a => some a
  | .read _ _ => none
  | .write _ _ => none
  | .outOfFuel => none

theorem Program.done_of_result {γ : Type} {p : Program β α} {f : α → γ} {x : γ} (h : p.result?.map f = some x) :
    ∃ a, p = .done a ∧ f a = x := by
  obtain ⟨a, ha, rfl⟩ := Option.map_eq_some_iff.mp h
  cases p <;> cases ha
  exact ⟨a, rfl, rfl⟩

theorem Network.returned_of_results {γ δ : Type} {s : Network β α} {f : α → γ} {g : α → δ} {x : γ} {y : δ}
    (h : (s.left.result?.map f, s.right.result?.map g) = (some x, some y)) :
    ∃ a b, s.Returned a b ∧ f a = x ∧ g b = y := by
  obtain ⟨hl, hr⟩ := Prod.mk.inj h
  obtain ⟨a, ha, hx⟩ := Program.done_of_result hl
  obtain ⟨b, hb, hy⟩ := Program.done_of_result hr
  exact ⟨a, b, ⟨ha, hb⟩, hx, hy⟩

inductive Choice
  | leftMoves
  | leftExpires
  | rightMoves
  | rightExpires

namespace Network

def choose (forward backward : Wire β) (s : Network β α) : Choice → Network β α
  | .leftMoves => match s.left with
    | .write d p => ⟨p, s.right, s.toLeft, s.toRight ++ forward s.leftLog d,
        s.leftLog ++ [.write d (forward s.leftLog d)], s.rightLog⟩
    | .read n next =>
      if h : (s.toLeft.take n).length = n then
        ⟨next (.received (s.toLeft.take n) h), s.right, s.toLeft.drop n, s.toRight,
          s.leftLog ++ [.read (s.toLeft.take n)], s.rightLog⟩
      else s
    | .done _ => s
    | .outOfFuel => s
  | .rightMoves => match s.right with
    | .write d p => ⟨s.left, p, s.toLeft ++ backward s.rightLog d, s.toRight, s.leftLog,
        s.rightLog ++ [.write d (backward s.rightLog d)]⟩
    | .read n next =>
      if h : (s.toRight.take n).length = n then
        ⟨s.left, next (.received (s.toRight.take n) h), s.toLeft, s.toRight.drop n, s.leftLog,
          s.rightLog ++ [.read (s.toRight.take n)]⟩
      else s
    | .done _ => s
    | .outOfFuel => s
  | .leftExpires => match s.left with
    | .read n next => ⟨next (.timedOut [] (Nat.zero_le n)), s.right, s.toLeft, s.toRight,
        s.leftLog ++ [.timeOut n], s.rightLog⟩
    | .write _ _ => s
    | .done _ => s
    | .outOfFuel => s
  | .rightExpires => match s.right with
    | .read n next => ⟨s.left, next (.timedOut [] (Nat.zero_le n)), s.toLeft, s.toRight,
        s.leftLog, s.rightLog ++ [.timeOut n]⟩
    | .write _ _ => s
    | .done _ => s
    | .outOfFuel => s

def chooseAll (forward backward : Wire β) (choices : List Choice) (s : Network β α) : Network β α :=
  choices.foldl (choose forward backward) s

variable {forward backward : Wire β} {s : Network β α}

theorem reflGen_leftMoves :
    Relation.ReflGen (Step (.ofWires forward backward)) s (s.choose forward backward .leftMoves) := by
  obtain ⟨left, right, toLeft, toRight, leftLog, rightLog⟩ := s
  cases left with
  | write d p => exact .single (step_leftWrites d)
  | read n next =>
    simp only [choose]
    split
    · rename_i h
      have step := @step_leftReads _ _ forward backward right n next (toLeft.drop n) toRight leftLog rightLog
        (toLeft.take n) h
      rw [List.take_append_drop] at step
      exact .single step
    · exact .refl
  | done a => exact .refl
  | outOfFuel => exact .refl

theorem reflGen_rightMoves :
    Relation.ReflGen (Step (.ofWires forward backward)) s (s.choose forward backward .rightMoves) := by
  obtain ⟨left, right, toLeft, toRight, leftLog, rightLog⟩ := s
  cases right with
  | write d p => exact .single (step_rightWrites d)
  | read n next =>
    simp only [choose]
    split
    · rename_i h
      have step := @step_rightReads _ _ forward backward left n next toLeft (toRight.drop n) leftLog rightLog
        (toRight.take n) h
      rw [List.take_append_drop] at step
      exact .single step
    · exact .refl
  | done a => exact .refl
  | outOfFuel => exact .refl

theorem reflGen_leftExpires :
    Relation.ReflGen (Step (.leftDelayed forward backward)) s (s.choose forward backward .leftExpires) := by
  obtain ⟨left, right, toLeft, toRight, leftLog, rightLog⟩ := s
  cases left with
  | read n next =>
    have step := @Step.left _ _ (.leftDelayed forward backward) ⟨.read n next, right, toLeft, toRight, leftLog, rightLog⟩
      (.timeOut n) _ toLeft .timeOut trivial
    simp only [Label.delivered, List.append_nil] at step
    exact .single step
  | write d p => exact .refl
  | done a => exact .refl
  | outOfFuel => exact .refl

theorem reflGen_rightExpires :
    Relation.ReflGen (Step (.delayed forward backward)) s (s.choose forward backward .rightExpires) := by
  obtain ⟨left, right, toLeft, toRight, leftLog, rightLog⟩ := s
  cases right with
  | read n next =>
    have step := @Step.right _ _ (.delayed forward backward) ⟨left, .read n next, toLeft, toRight, leftLog, rightLog⟩
      (.timeOut n) _ toRight .timeOut trivial
    simp only [Label.delivered, List.append_nil] at step
    exact .single step
  | write d p => exact .refl
  | done a => exact .refl
  | outOfFuel => exact .refl

theorem steps_choose (c : Choice) : Steps (.delayed forward backward) s (s.choose forward backward c) := by
  cases c with
  | leftMoves => exact steps_mono (fun _ _ => Step.delayed) reflGen_leftMoves.to_reflTransGen
  | rightMoves => exact steps_mono (fun _ _ => Step.delayed) reflGen_rightMoves.to_reflTransGen
  | leftExpires => exact steps_mono (fun _ _ => Step.delays) reflGen_leftExpires.to_reflTransGen
  | rightExpires => exact reflGen_rightExpires.to_reflTransGen

theorem steps_chooseAll (choices : List Choice) (s : Network β α) :
    Steps (.delayed forward backward) s (s.chooseAll forward backward choices) := by
  induction choices generalizing s with
  | nil => exact .refl
  | cons c choices ih => exact (steps_choose c).trans (ih _)

theorem steps_chooseAll_left {choices : List Choice} (waits : .rightExpires ∉ choices) (s : Network β α) :
    Steps (.leftDelayed forward backward) s (s.chooseAll forward backward choices) := by
  induction choices generalizing s with
  | nil => exact .refl
  | cons c choices ih =>
    refine .trans ?_ (ih (fun h => waits (List.mem_cons_of_mem _ h)) _)
    cases c with
    | leftMoves => exact steps_mono (fun _ _ => Step.leftDelayed) reflGen_leftMoves.to_reflTransGen
    | rightMoves => exact steps_mono (fun _ _ => Step.leftDelayed) reflGen_rightMoves.to_reflTransGen
    | leftExpires => exact reflGen_leftExpires.to_reflTransGen
    | rightExpires => exact absurd List.mem_cons_self waits

def alternate (forward backward : Wire β) : ℕ → Network β α → Network β α
  | 0, s => s
  | rounds + 1, s => alternate forward backward rounds
      ((s.choose forward backward .leftMoves).choose forward backward .rightMoves)

def alternateAll (forward backward : Wire β) (test : Network β α → Bool) : ℕ → Network β α → Bool
  | 0, _ => true
  | rounds + 1, s =>
    let s' := s.choose forward backward .leftMoves
    test s && test s' && alternateAll forward backward test rounds (s'.choose forward backward .rightMoves)

theorem steps_alternateAll {test : Network β α → Bool} {rounds : ℕ} {s : Network β α}
    (h : s.alternateAll forward backward test rounds = true) :
    Relation.ReflTransGen (fun a b => Step (.ofWires forward backward) a b ∧ test a = true) s
      (s.alternate forward backward rounds) := by
  induction rounds generalizing s with
  | zero => exact .refl
  | succ rounds ih =>
    simp only [alternateAll, Bool.and_eq_true] at h
    obtain ⟨⟨hs, hs'⟩, rest⟩ := h
    have tested {a b : Network β α} (ha : test a = true)
        (hab : Relation.ReflGen (Step (.ofWires forward backward)) a b) :
        Relation.ReflTransGen (fun a b => Step (.ofWires forward backward) a b ∧ test a = true) a b := by
      cases hab with
      | refl => exact .refl
      | single step => exact .single ⟨step, ha⟩
    exact ((tested hs reflGen_leftMoves).trans (tested hs' reflGen_rightMoves)).trans (ih rest)

theorem steps_alternate (rounds : ℕ) (s : Network β α) :
    Steps (.ofWires forward backward) s (s.alternate forward backward rounds) := by
  induction rounds generalizing s with
  | zero => exact .refl
  | succ rounds ih =>
    exact (reflGen_leftMoves.to_reflTransGen.trans reflGen_rightMoves.to_reflTransGen).trans (ih _)

end Network

end LightModem.Interaction
