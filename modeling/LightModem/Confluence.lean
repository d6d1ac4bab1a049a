import LightModem.Network

set_option autoImplicit false

/-!
A network whose lines are functions and whose reads wait: the order in which its parties are
scheduled does not matter, so that what one run reaches is reached by every run.
-/

namespace LightModem.Interaction

variable {S β α : Type}

/-- Every run from `s` comes to a state that satisfies `Q`. -/
inductive Inevitable (R : S → S → Prop) (Q : S → Prop) : S → Prop
  | now {s : S} (h : Q s) : Inevitable R Q s
  | later {s : S} (some : ∃ s', R s s') (all : ∀ s', R s s' → Inevitable R Q s') : Inevitable R Q s

def Diamond (R : S → S → Prop) : Prop := ∀ s a b, R s a → R s b → a = b ∨ ∃ c, R a c ∧ R b c

namespace Inevitable

variable {R : S → S → Prop} {Q : S → Prop} {s s' : S}

theorem mono {Q' : S → Prop} (h : Inevitable R Q s) (hQ : ∀ s, Q s → Q' s) : Inevitable R Q' s := by
  induction h with
  | now hq => exact .now (hQ _ hq)
  | later ex all ih => exact .later ex ih

theorem of_step (hR : Diamond R) (final : ∀ s, Q s → ∀ s', ¬ R s s') (hs : R s s')
    (h : Inevitable R Q s') : Inevitable R Q s := by
  induction h generalizing s with
  | @now a hq =>
    refine .later ⟨a, hs⟩ fun b hb => ?_
    rcases hR s a b hs hb with rfl | ⟨c, hac, _⟩
    · exact .now hq
    · exact (final a hq c hac).elim
  | @later a ex all ih =>
    refine .later ⟨a, hs⟩ fun b hb => ?_
    rcases hR s a b hs hb with rfl | ⟨c, hac, hbc⟩
    · exact .later ex all
    · exact ih c hac hbc

theorem of_steps (hR : Diamond R) (final : ∀ s, Q s → ∀ s', ¬ R s s')
    (hs : Relation.ReflTransGen R s s') (h : Inevitable R Q s') : Inevitable R Q s := by
  induction hs using Relation.ReflTransGen.head_induction_on with
  | refl => exact h
  | head hs _ ih => exact of_step hR final hs ih

theorem reaches (h : Inevitable R Q s) : ∃ t, Relation.ReflTransGen R s t ∧ Q t := by
  induction h with
  | @now s hq => exact ⟨s, .refl, hq⟩
  | later ex all ih =>
    obtain ⟨a, ha⟩ := ex
    obtain ⟨t, ht, hq⟩ := ih a ha
    exact ⟨t, .head ha ht, hq⟩

end Inevitable

abbrev Wire (β : Type) := List (Label β) → List β → List β

def Wire.Allows (w : Wire β) (log : List (Label β)) : Label β → Prop
  | .write written delivered => delivered = w log written
  | .read _ => True
  | .timeOut _ => False

def Medium.ofWires (forward backward : Wire β) : Medium β := ⟨forward.Allows, backward.Allows⟩

def Wire.perfect : Wire β := fun _ written => written

def Medium.perfect : Medium β := .ofWires .perfect .perfect

theorem Wire.Allows.congr {w w' : Wire β} {log : List (Label β)} {ℓ : Label β} (h : w.Allows log ℓ)
    (same : ∀ written, w log written = w' log written) : w'.Allows log ℓ := by
  cases ℓ with
  | write written delivered =>
    change delivered = w' log written
    rw [← same]
    exact h
  | read data => trivial
  | timeOut n => exact h.elim

theorem steps_rewire {forward backward forward' backward' : Wire β} {s s' : Network β α}
    (h : Steps (.ofWires forward backward) s s')
    (left : ∀ log, s.leftLog <+: log → log <+: s'.leftLog → ∀ written, forward log written = forward' log written)
    (right : ∀ log, s.rightLog <+: log → log <+: s'.rightLog →
      ∀ written, backward log written = backward' log written) : Steps (.ofWires forward' backward') s s' := by
  induction h with
  | refl => exact .refl
  | @tail a b steps step ih =>
    obtain ⟨toLeft, toRight⟩ := steps_logs steps
    obtain ⟨onLeft, onRight⟩ := step.logs
    apply (ih (fun log start stop => left log start (stop.trans onLeft))
      (fun log start stop => right log start (stop.trans onRight))).tail
    cases step with
    | left hm allowed => exact .left hm (allowed.congr (left _ toLeft onLeft))
    | right hm allowed => exact .right hm (allowed.congr (right _ toRight onRight))

theorem Moves.deterministic {w : Wire β} {log : List (Label β)} {p p₁ p₂ : Program β α}
    {q q₁ q₂ : List β} {ℓ₁ ℓ₂ : Label β} (h₁ : Moves p q ℓ₁ p₁ q₁) (a₁ : w.Allows log ℓ₁)
    (h₂ : Moves p q ℓ₂ p₂ q₂) (a₂ : w.Allows log ℓ₂) : ℓ₁ = ℓ₂ ∧ p₁ = p₂ ∧ q₁ = q₂ := by
  cases h₁ with
  | timeOut => exact a₁.elim
  | write written delivered =>
    cases h₂ with
    | write _ delivered' => cases a₁; cases a₂; exact ⟨rfl, rfl, rfl⟩
  | read data size =>
    generalize hq : data ++ q₁ = queue at h₂
    cases h₂ with
    | timeOut => exact a₂.elim
    | read data' size' =>
      obtain ⟨rfl, rfl⟩ := List.append_inj hq (size.trans size'.symm)
      exact ⟨rfl, rfl, rfl⟩

theorem diamond_ofWires (forward backward : Wire β) :
    Diamond (Step (.ofWires forward backward) : Network β α → Network β α → Prop) := by
  intro s a b ha hb
  cases ha with
  | left h₁ a₁ =>
    cases hb with
    | left h₂ a₂ =>
      obtain ⟨rfl, rfl, rfl⟩ := h₁.deterministic a₁ h₂ a₂
      exact Or.inl rfl
    | right h₂ a₂ =>
      exact Or.inr ⟨_, .right (h₂.append _) a₂, .left (h₁.append _) a₁⟩
  | right h₁ a₁ =>
    cases hb with
    | left h₂ a₂ =>
      exact Or.inr ⟨_, .left (h₂.append _) a₂, .right (h₁.append _) a₁⟩
    | right h₂ a₂ =>
      obtain ⟨rfl, rfl, rfl⟩ := h₁.deterministic a₁ h₂ a₂
      exact Or.inl rfl

def Network.Returned (s : Network β α) (a b : α) : Prop := s.left = .done a ∧ s.right = .done b

theorem Network.Returned.no_step {m : Medium β} {s s' : Network β α} {a b : α}
    (h : s.Returned a b) : ¬ Step m s s' := by
  obtain ⟨hl, hr⟩ := h
  intro hs
  cases hs with
  | left hm _ => rw [hl] at hm; cases hm
  | right hm _ => rw [hr] at hm; cases hm

section Steps

variable {forward backward : Wire β} {p r : Program β α} {n : ℕ} {next : Reply β n → Program β α}
  {toLeft toRight : List β} {leftLog rightLog : List (Label β)}

theorem step_leftWrites (d : List β) :
    Step (.ofWires forward backward) ⟨.write d p, r, toLeft, toRight, leftLog, rightLog⟩
      ⟨p, r, toLeft, toRight ++ forward leftLog d,
        leftLog ++ [.write d (forward leftLog d)], rightLog⟩ :=
  @Step.left _ _ (.ofWires forward backward) ⟨.write d p, r, toLeft, toRight, leftLog, rightLog⟩
    (.write d (forward leftLog d)) p toLeft (.write _ _) rfl

theorem step_rightWrites (d : List β) :
    Step (.ofWires forward backward) ⟨p, .write d r, toLeft, toRight, leftLog, rightLog⟩
      ⟨p, r, toLeft ++ backward rightLog d, toRight, leftLog,
        rightLog ++ [.write d (backward rightLog d)]⟩ :=
  @Step.right _ _ (.ofWires forward backward) ⟨p, .write d r, toLeft, toRight, leftLog, rightLog⟩
    (.write d (backward rightLog d)) r toRight (.write _ _) rfl

theorem step_leftReads (d : List β) (size : d.length = n) :
    Step (.ofWires forward backward) ⟨.read n next, r, d ++ toLeft, toRight, leftLog, rightLog⟩
      ⟨next (.received d size), r, toLeft, toRight, leftLog ++ [.read d], rightLog⟩ := by
  have h := @Step.left _ _ (.ofWires forward backward)
    ⟨.read n next, r, d ++ toLeft, toRight, leftLog, rightLog⟩ (.read d)
    (next (.received d size)) toLeft (.read _ _) trivial
  simpa [Label.delivered] using h

theorem step_rightReads (d : List β) (size : d.length = n) :
    Step (.ofWires forward backward) ⟨p, .read n next, toLeft, d ++ toRight, leftLog, rightLog⟩
      ⟨p, next (.received d size), toLeft, toRight, leftLog, rightLog ++ [.read d]⟩ := by
  have h := @Step.right _ _ (.ofWires forward backward)
    ⟨p, .read n next, toLeft, d ++ toRight, leftLog, rightLog⟩ (.read d)
    (next (.received d size)) toRight (.read _ _) trivial
  simpa [Label.delivered] using h

end Steps

section Exchange

variable {forward backward : Wire β} {p p' q q' : Program β α} {toLeft toRight : List β}
  {leftLog rightLog : List (Label β)}

theorem steps_leftReads {reads : List (List β)} (h : Performs p (reads.map .received) p') :
    Steps (.ofWires forward backward) ⟨p, q, reads.flatten ++ toLeft, toRight, leftLog, rightLog⟩
      ⟨p', q, toLeft, toRight, leftLog ++ reads.map .read, rightLog⟩ := by
  induction reads generalizing p leftLog with
  | nil =>
    obtain rfl := Performs.of_nil h
    simp only [List.flatten_nil, List.nil_append, List.map_nil, List.append_nil]
    exact .refl
  | cons d reads ih =>
    obtain ⟨next, rfl, hnext⟩ := Performs.of_received h
    rw [List.flatten_cons, List.append_assoc]
    apply Relation.ReflTransGen.head (step_leftReads d rfl)
    have rest := @ih (next (.received d rfl)) (leftLog ++ [.read d]) hnext
    rw [List.append_assoc] at rest
    exact rest

theorem steps_rightReads {reads : List (List β)} (h : Performs q (reads.map .received) q') :
    Steps (.ofWires forward backward) ⟨p, q, toLeft, reads.flatten ++ toRight, leftLog, rightLog⟩
      ⟨p, q', toLeft, toRight, leftLog, rightLog ++ reads.map .read⟩ := by
  induction reads generalizing q rightLog with
  | nil =>
    obtain rfl := Performs.of_nil h
    simp only [List.flatten_nil, List.nil_append, List.map_nil, List.append_nil]
    exact .refl
  | cons d reads ih =>
    obtain ⟨next, rfl, hnext⟩ := Performs.of_received h
    rw [List.flatten_cons, List.append_assoc]
    apply Relation.ReflTransGen.head (step_rightReads d rfl)
    have rest := @ih (next (.received d rfl)) (rightLog ++ [.read d]) hnext
    rw [List.append_assoc] at rest
    exact rest

theorem steps_rightwards {f : List β} {reads : List (List β)} (hp : Performs p [.sent f] p')
    (hq : Performs q (reads.map .received) q') (carried : forward leftLog f = reads.flatten) :
    Steps (.ofWires forward backward) ⟨p, q, toLeft, [], leftLog, rightLog⟩
      ⟨p', q', toLeft, [], leftLog ++ [.write f reads.flatten], rightLog ++ reads.map .read⟩ := by
  obtain ⟨_, rfl, hnext⟩ := hp.of_sent
  rw [hnext.of_nil]
  have write := @step_leftWrites _ _ forward backward p' q toLeft [] leftLog rightLog f
  rw [carried, List.nil_append] at write
  apply Relation.ReflTransGen.head write
  have read := @steps_rightReads _ _ forward backward p' q q' toLeft [] 
    (leftLog ++ [.write f reads.flatten]) rightLog reads hq
  rw [List.append_nil] at read
  exact read

theorem steps_leftwards {f : List β} {reads : List (List β)} (hq : Performs q [.sent f] q')
    (hp : Performs p (reads.map .received) p') (carried : backward rightLog f = reads.flatten) :
    Steps (.ofWires forward backward) ⟨p, q, [], toRight, leftLog, rightLog⟩
      ⟨p', q', [], toRight, leftLog ++ reads.map .read, rightLog ++ [.write f reads.flatten]⟩ := by
  obtain ⟨_, rfl, hnext⟩ := hq.of_sent
  rw [hnext.of_nil]
  have write := @step_rightWrites _ _ forward backward p q' [] toRight leftLog rightLog f
  rw [carried, List.nil_append] at write
  apply Relation.ReflTransGen.head write
  have read := @steps_leftReads _ _ forward backward p p' q' [] toRight 
    leftLog (rightLog ++ [.write f reads.flatten]) reads hp
  rw [List.append_nil] at read
  exact read

theorem steps_leftRounds {rounds : List (List β × List β)}
    (h : Performs p (rounds.flatMap fun x => [.sent x.1, .received x.2]) p') :
    ∃ toRight' leftLog', Steps (.ofWires forward backward)
        ⟨p, q, (rounds.map Prod.snd).flatten ++ toLeft, toRight, leftLog, rightLog⟩
        ⟨p', q, toLeft, toRight', leftLog', rightLog⟩ ∧
      ((∀ log f, forward log f = f) → toRight' = toRight ++ (rounds.map Prod.fst).flatten) := by
  induction rounds generalizing p toRight leftLog with
  | nil =>
    obtain rfl := Performs.of_nil h
    exact ⟨toRight, leftLog, .refl, fun _ => (List.append_nil toRight).symm⟩
  | cons x rounds ih =>
    obtain ⟨f, d⟩ := x
    obtain ⟨p₁, rfl, writes⟩ := Performs.of_sent h
    obtain ⟨next, rfl, reads⟩ := Performs.of_received writes
    obtain ⟨toRight', leftLog', rest, carried⟩ := @ih (next (.received d rfl)) (toRight ++ forward leftLog f)
      (leftLog ++ [.write f (forward leftLog f)] ++ [.read d]) reads
    refine ⟨toRight', leftLog', .head (step_leftWrites f) (.head ?_ rest), fun perfect => ?_⟩
    · rw [List.map_cons, List.flatten_cons, List.append_assoc]
      exact step_leftReads d rfl
    · rw [carried perfect, perfect, List.map_cons, List.flatten_cons, List.append_assoc]

theorem steps_exchange {f a d : List β} {reads : List (List β)} (hp : Performs p [.sent f, .received d] p')
    (hq : Performs q (reads.map .received ++ [.sent a]) q') (carried : forward leftLog f = reads.flatten)
    (answered : backward (rightLog ++ reads.map .read) a = d) :
    Steps (.ofWires forward backward) ⟨p, q, [], [], leftLog, rightLog⟩
      ⟨p', q', [], [], leftLog ++ [.write f reads.flatten, .read d],
        rightLog ++ reads.map .read ++ [.write a d]⟩ := by
  obtain ⟨p₁, hp₁, hp₂⟩ := @Performs.of_append _ _ _ _ [.sent f] [.received d] hp
  obtain ⟨q₁, hq₁, hq₂⟩ := hq.of_append
  have there := @steps_rightwards _ _ forward backward p p₁ q q₁ [] leftLog rightLog f reads hp₁ hq₁ carried
  have back := @steps_leftwards _ _ forward backward p₁ p' q₁ q' [] (leftLog ++ [.write f reads.flatten])
    (rightLog ++ reads.map .read) a [d] hq₂ hp₂ (by rw [answered]; simp)
  have hd : [d].flatten = d := by simp
  rw [List.append_assoc, hd] at back
  exact there.trans back

theorem steps_answersTwice {f a b d e : List β} {reads : List (List β)} (hp : Performs p [.sent f] p')
    (hq : Performs q (reads.map .received ++ [.sent a, .sent b]) q') (carried : forward leftLog f = reads.flatten)
    (first : backward (rightLog ++ reads.map .read) a = d)
    (second : backward (rightLog ++ reads.map .read ++ [.write a d]) b = e) :
    Steps (.ofWires forward backward) ⟨p, q, [], [], leftLog, rightLog⟩
      ⟨p', q', d ++ e, [], leftLog ++ [.write f reads.flatten],
        rightLog ++ reads.map .read ++ [.write a d] ++ [.write b e]⟩ := by
  obtain ⟨q₁, hq₁, hq₂⟩ := hq.of_append
  obtain ⟨q₂, rfl, hq₃⟩ := hq₂.of_sent
  obtain ⟨q₃, rfl, hq₄⟩ := hq₃.of_sent
  obtain rfl := hq₄.of_nil
  have there := @steps_rightwards _ _ forward backward p p' q _ [] leftLog rightLog f reads hp hq₁ carried
  have one := @step_rightWrites _ _ forward backward p' (.write b q₃) [] [] (leftLog ++ [.write f reads.flatten])
    (rightLog ++ reads.map .read) a
  rw [first] at one
  have two := @step_rightWrites _ _ forward backward p' q₃ ([] ++ d) [] (leftLog ++ [.write f reads.flatten])
    (rightLog ++ reads.map .read ++ [.write a d]) b
  rw [second] at two
  exact (there.tail one).tail two

end Exchange

end LightModem.Interaction
