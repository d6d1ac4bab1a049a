import LightModem.Turns

set_option autoImplicit false

/-!
Frames that arrive in their order, none of them cut in two. A receiver that takes them one by one
stores every block before the end of the file, unless one of them is damaged when its acknowledgement
is already on its way.
-/

namespace LightModem

open Interaction

inductive Carries (sender : ModemContext) (file : List UInt8) : List (ℕ × Bool) → List UInt8 → Prop
  | nil : Carries sender file [] []
  | cons {i : ℕ} {intact : Bool} {frame q : List UInt8} {flight : List (ℕ × Bool)}
      (arrives : Arrives sender file i intact frame) (rest : Carries sender file flight q) :
      Carries sender file ((i, intact) :: flight) (frame ++ q)

def Follows : ℕ → List (ℕ × Bool) → ℕ → Prop
  | j, [], k => j = k
  | j, (i, intact) :: flight, k =>
    i + 1 = j ∧ Follows j flight k ∨ i = j ∧ Follows (if intact then j + 1 else j) flight k

inductive Facing (sender receiver : ModemContext) (file : List UInt8) (j : ℕ) :
    ReceiverPhase → List (List UInt8) → List (ℕ × Bool) → List UInt8 → Prop
  | writing {s : LxmodemReceiveState} {pending : List (List UInt8)} {flight : List (ℕ × Bool)} {q : List UInt8}
      (stocked : Stocked sender receiver file j s) (answer : pending = [] ∨ ∃ b, pending = [[b]])
      (carries : Carries sender file flight q) :
      Facing sender receiver file j (.writing pending s) pending flight q
  | filling {s : LxmodemReceiveState} {header : UInt8} {blksize i : ℕ} {intact : Bool} {body : List UInt8}
      {flight : List (ℕ × Bool)} {q : List UInt8} (stocked : Stocked sender receiver file j s)
      (kind : FrameKind s.pThis header blksize) (size : body.length = bodySize s.pThis blksize)
      (arrives : Arrives sender file i intact (header :: body)) (carries : Carries sender file flight q) :
      Facing sender receiver file j (.filling s header blksize) [] ((i, intact) :: flight) (body ++ q)

structure Quiet (toLeft : List UInt8) (pending : List (List UInt8)) (flight : List (ℕ × Bool)) (j : ℕ) : Prop where
  toLeft : ACK ∉ toLeft
  pending : [ACK] ∉ pending
  flight : ∀ f ∈ flight, f = (j, false)

inductive Paired (quiet : Prop) : SenderPhase → ℕ → Prop
  | first (i : ℕ) : Paired quiet (.sending i 0) i
  | repeats (i c : ℕ) : Paired quiet (.sending i (c + 1)) (i + 1)
  | sent (i c attempts : ℕ) : Paired quiet (.waiting i c attempts) (i + 1)
  | refused (i c : ℕ) (h : quiet) : Paired quiet (.sending i (c + 1)) i
  | spoiled (i c attempts : ℕ) (h : quiet) : Paired quiet (.waiting i c attempts) i
  | stopped (k : ℕ) : Paired quiet .stopped k

structure Live (sender receiver : ModemContext) (file : List UInt8) (left : SenderPhase)
    (right : ReceiverPhase) (toLeft toRight : List UInt8) (j k : ℕ) (pending : List (List UInt8))
    (flight : List (ℕ × Bool)) : Prop where
  facing : Facing sender receiver file j right pending flight toRight
  stored : j ≤ blockCount sender.blksize file
  follows : Follows j flight k
  paired : Paired (Quiet toLeft pending flight j) left k

def tokens (toLeft : List UInt8) (pending : List (List UInt8)) (flight : List (ℕ × Bool)) : ℕ :=
  toLeft.length + pending.length + flight.length

def Lockstep : SenderPhase → ℕ → Prop
  | .sending _ _, n => n = 0
  | .waiting _ _ _, n => n = 1
  | .asking _, _ => True
  | .cancelling, _ => True
  | .stopped, _ => True

inductive Over (sender receiver : ModemContext) (file : List UInt8) : ReceiverPhase → Prop
  | dead {pending : List (List UInt8)} {s : LxmodemReceiveState} (h : s.Dead) :
      Over sender receiver file (.writing pending s)
  | complete {pending : List (List UInt8)} {s : LxmodemReceiveState} (h : Complete sender receiver file s) :
      Over sender receiver file (.writing pending s)
  | lost : Over sender receiver file .lost

inductive Opening (sender receiver : ModemContext) (file : List UInt8) :
    SenderPhase → ReceiverPhase → List UInt8 → List UInt8 → Prop
  | silent {left : SenderPhase} (sends : (∃ attempts, left = .asking attempts) ∨ left = .stopped) :
      Opening sender receiver file left .asking [] []
  | asked {left : SenderPhase} {s : LxmodemReceiveState} {p : UInt8}
      (sends : (∃ attempts, left = .asking attempts) ∨ left = .stopped)
      (stocked : Stocked sender receiver file 0 s) (decodes : lxmodemDecodePreambule sender p = true) :
      Opening sender receiver file left (.writing [] s) [p] []

section Pipeline

variable {sender receiver : ModemContext} {file : List UInt8} {left left' : SenderPhase}
  {right right' : ReceiverPhase} {toLeft toRight q : List UInt8} {i j k c : ℕ} {intact : Bool}
  {pending : List (List UInt8)} {flight : List (ℕ × Bool)} {d : List UInt8} {ℓ : Label UInt8}

theorem Paired.mono {quiet quiet' : Prop} (h : Paired quiet left k) (hq : quiet → quiet') :
    Paired quiet' left k := by
  cases h with
  | first => exact .first _
  | repeats => exact .repeats _ _
  | sent => exact .sent _ _ _
  | refused _ _ h => exact .refused _ _ (hq h)
  | spoiled _ _ _ h => exact .spoiled _ _ _ (hq h)
  | stopped => exact .stopped _

theorem Carries.concat (h : Carries sender file flight q) (arrives : Arrives sender file i intact d) :
    Carries sender file (flight ++ [(i, intact)]) (q ++ d) := by
  induction h with
  | nil => simpa using Carries.cons arrives .nil
  | cons first _ ih =>
    rw [List.append_assoc]
    exact .cons first ih

theorem Follows.concat (h : Follows j flight k) (place : i + 1 = k ∨ i = k) :
    Follows j (flight ++ [(i, intact)]) (if i = k ∧ intact = true then k + 1 else k) := by
  induction flight generalizing j with
  | nil =>
    obtain rfl : j = k := h
    rcases place with hprev | rfl
    · rw [if_neg (by omega)]
      exact Or.inl ⟨hprev, rfl⟩
    · exact Or.inr ⟨rfl, by cases intact <;> simp [Follows]⟩
  | cons f flight ih => exact h.imp (fun h => ⟨h.1, ih h.2⟩) (fun h => ⟨h.1, ih h.2⟩)

theorem Facing.concat (h : Facing sender receiver file j right pending flight toRight)
    (arrives : Arrives sender file i intact d) :
    Facing sender receiver file j right pending (flight ++ [(i, intact)]) (toRight ++ d) := by
  cases h with
  | writing stocked answer carries => exact .writing stocked answer (carries.concat arrives)
  | filling stocked kind size first carries =>
    rw [List.append_assoc]
    exact .filling stocked kind size first (carries.concat arrives)

theorem Follows.quiet (h : Follows j flight k) (quiet : ∀ f ∈ flight, f = (j, false)) : j = k := by
  induction flight with
  | nil => exact h
  | cons f flight ih =>
    obtain rfl := quiet f (by simp)
    rcases h with ⟨hj, _⟩ | ⟨_, rest⟩
    · omega
    · exact ih rest fun f hf => quiet f (by simp [hf])

theorem Live.sends (h : Live sender receiver file (.sending i c) right toLeft toRight j k pending flight)
    (arrives : Arrives sender file i intact d)
    (spared : intact = true ∨ 0 < c ∨ Quiet toLeft pending flight j) :
    ∃ k', Live sender receiver file (.waiting i c 10) right toLeft (toRight ++ d) j k' pending
      (flight ++ [(i, intact)]) := by
  obtain ⟨facing, stored, follows, paired⟩ := h
  generalize hleft : SenderPhase.sending i c = left at paired
  have quietly (quiet : Quiet toLeft pending flight j) (hk : i = k) (hi : intact = false) :
      Live sender receiver file (.waiting i c 10) right toLeft (toRight ++ d) j k pending
        (flight ++ [(i, intact)]) := by
    have hj := follows.quiet quiet.flight
    have follows' := @Follows.concat i j k intact flight follows (Or.inr hk)
    rw [if_neg (by simp [hi])] at follows'
    refine ⟨facing.concat arrives, stored, follows', ?_⟩
    subst hk hi hj
    exact .spoiled _ c 10 ⟨quiet.toLeft, quiet.pending, fun f hf => by
      rcases List.mem_append.mp hf with hf | hf
      · exact quiet.flight f hf
      · exact List.mem_singleton.mp hf⟩
  have afresh (hk : i = k) (hi : intact = true) :
      Live sender receiver file (.waiting i c 10) right toLeft (toRight ++ d) j (k + 1) pending
        (flight ++ [(i, intact)]) := by
    have follows' := @Follows.concat i j k intact flight follows (Or.inr hk)
    rw [if_pos ⟨hk, hi⟩] at follows'
    exact ⟨facing.concat arrives, stored, follows', hk ▸ .sent i c 10⟩
  cases paired with
  | first i =>
    cases hleft
    cases intact with
    | true => exact ⟨_, afresh rfl rfl⟩
    | false =>
      have quiet : Quiet toLeft pending flight j := by simpa using spared
      exact ⟨_, quietly quiet rfl rfl⟩
  | repeats i c =>
    cases hleft
    have follows' := @Follows.concat i j (i + 1) intact flight follows (Or.inl rfl)
    rw [if_neg (by omega)] at follows'
    exact ⟨_, facing.concat arrives, stored, follows', .sent i (c + 1) 10⟩
  | refused i c quiet =>
    cases hleft
    cases intact with
    | true => exact ⟨_, afresh rfl rfl⟩
    | false => exact ⟨_, quietly quiet rfl rfl⟩
  | sent => cases hleft
  | spoiled => cases hleft
  | stopped => cases hleft

theorem Quiet.heard (h : Quiet toLeft pending flight j) {read : List UInt8} (queue : toLeft = read ++ q) :
    Quiet q pending flight j :=
  ⟨fun hack => h.toLeft (by simp [queue, hack]), h.pending, h.flight⟩

theorem Live.hears (h : Live sender receiver file left right toLeft toRight j k pending flight)
    (step : SenderStep sender file left ℓ left') (queue : toLeft = ℓ.consumed ++ q)
    (reads : ∀ w d, ℓ ≠ .write w d) :
    Live sender receiver file left' right q toRight j k pending flight := by
  obtain ⟨facing, stored, follows, paired⟩ := h
  refine ⟨facing, stored, follows, ?_⟩
  cases step with
  | asksAgain => cases paired
  | unasked => cases paired
  | decodes => cases paired
  | rejects => cases paired
  | cancels => cases paired
  | sends i c d hi => exact absurd rfl (reads _ _)
  | waits i c attempts =>
    cases paired with
    | sent => exact .sent _ _ _
    | spoiled _ _ _ quiet => exact .spoiled _ _ _ (quiet.heard queue)
  | runsOut i c =>
    cases paired with
    | sent => exact .repeats _ _
    | spoiled _ _ _ quiet => exact .refused _ _ (quiet.heard queue)
  | next i c attempts hi =>
    cases paired with
    | sent => exact .first _
    | spoiled _ _ _ quiet => exact absurd (by simp [queue, Label.consumed]) quiet.toLeft
  | finishes => exact .stopped k
  | again i c attempts b hb =>
    cases paired with
    | sent => exact .repeats _ _
    | spoiled _ _ _ quiet => exact .refused _ _ (quiet.heard queue)
  | gaveUp => exact .stopped k
  | ranOut => exact .stopped k

theorem Arrives.ne_nil (h : Arrives sender file i intact d) : d ≠ [] := by
  cases h with
  | intact hi =>
    unfold fileFrame
    split <;> exact List.cons_ne_nil _ _
  | spoiled hi bytes spoils => exact List.cons_ne_nil _ _

theorem Carries.first {b : UInt8} (h : Carries sender file flight (b :: q)) :
    ∃ i intact rest body q', flight = (i, intact) :: rest ∧ q = body ++ q' ∧
      Arrives sender file i intact (b :: body) ∧ Carries sender file rest q' := by
  generalize hq : b :: q = queue at h
  cases h with
  | nil => cases hq
  | @cons i intact frame q' rest arrives carries =>
    cases frame with
    | nil => exact absurd rfl arrives.ne_nil
    | cons b' body =>
      obtain ⟨rfl, rfl⟩ := List.cons.inj hq
      exact ⟨i, intact, rest, body, q', rfl, rfl, arrives, carries⟩

theorem Arrives.body_length {s : LxmodemReceiveState} {header : UInt8} {blksize : ℕ} {body : List UInt8}
    (h : Arrives sender file i intact (header :: body)) (stocked : Stocked sender receiver file j s)
    (checks : SameChecks sender receiver) (kind : FrameKind s.pThis header blksize) :
    body.length = bodySize s.pThis blksize := by
  obtain ⟨hi, rfl, bytes, rfl, hlen, _⟩ := h.block kind
  have hcrc : lxmodemBlockHasCrc s.pThis blksize = sender.usesCrc := by
    rw [← stocked.setup.blockHasCrc]
    exact checks.hasCrc _ _ (stocked.setup.frameKind.mpr kind)
  have hblk := frameKind_payload kind
  rw [bodySize, hcrc, List.length_cons, List.length_cons, hlen]
  omega

theorem Arrives.endOfFile {s : LxmodemReceiveState} {header : UInt8} {body : List UInt8}
    (h : Arrives sender file i intact (header :: body)) (stocked : Stocked sender receiver file j s)
    (compatible : Compatible sender receiver) (other : ∀ blksize, ¬ FrameKind s.pThis header blksize) :
    header = EOT ∧ i = blockCount sender.blksize file ∧ body = [] := by
  have kind := stocked.kind compatible i
  generalize hframe : header :: body = frame at h
  cases h with
  | intact hi =>
    by_cases hlt : i < blockCount sender.blksize file
    · rw [fileFrame, if_pos hlt] at hframe
      obtain ⟨rfl, _⟩ := List.cons.inj hframe
      exact absurd kind (other _)
    · rw [fileFrame, if_neg hlt] at hframe
      obtain ⟨rfl, rfl⟩ := List.cons.inj hframe
      exact ⟨rfl, by omega, rfl⟩
  | spoiled hi bytes spoils =>
    obtain ⟨rfl, _⟩ := List.cons.inj hframe
    exact absurd kind (other _)

theorem quiet_of_lockstep (h : Lockstep (.sending i c) (tokens toLeft pending flight)) :
    Quiet toLeft pending flight j := by
  have hzero : toLeft.length + pending.length + flight.length = 0 := h
  have hleft : toLeft = [] := List.length_eq_zero_iff.mp (by omega)
  have hpending : pending = [] := List.length_eq_zero_iff.mp (by omega)
  have hflight : flight = [] := List.length_eq_zero_iff.mp (by omega)
  subst hleft hpending hflight
  exact ⟨by simp, by simp, by simp⟩

theorem Live.lockstep_hears (h : Live sender receiver file left right toLeft toRight j k pending flight)
    (step : SenderStep sender file left ℓ left') (queue : toLeft = ℓ.consumed ++ q)
    (reads : ∀ w d, ℓ ≠ .write w d) (answered : ∀ i c, left = .waiting i c 1 → ℓ ≠ .timeOut 1)
    (lockstep : Lockstep left (tokens toLeft pending flight)) : Lockstep left' (tokens q pending flight) := by
  have paired := h.paired
  subst queue
  cases step with
  | asksAgain => cases paired
  | unasked => cases paired
  | decodes => cases paired
  | rejects => cases paired
  | cancels => cases paired
  | sends i c d hi => exact absurd rfl (reads _ _)
  | waits => exact lockstep
  | runsOut => exact absurd rfl (answered _ _ rfl)
  | next =>
    simp only [Lockstep, tokens, Label.consumed, List.length_append, List.length_singleton] at lockstep ⊢
    omega
  | finishes => trivial
  | again =>
    simp only [Lockstep, tokens, Label.consumed, List.length_append, List.length_singleton] at lockstep ⊢
    omega
  | gaveUp => trivial
  | ranOut => trivial

theorem Taken.live {s' : LxmodemReceiveState} {i : ℕ} {intact : Bool} {pending : List (List UInt8)}
    (taken : Taken sender receiver file j i intact pending s') (hi : i < blockCount sender.blksize file)
    (carries : Carries sender file flight q) (stored : j ≤ blockCount sender.blksize file)
    (follows : Follows j ((i, intact) :: flight) k)
    (paired : Paired (Quiet toLeft [] ((i, intact) :: flight) j) left k) :
    Over sender receiver file (.writing pending s') ∨ ∃ j' pending' flight',
      Live sender receiver file left (.writing pending s') toLeft q j' k pending' flight' ∧
        tokens toLeft pending' flight' = tokens toLeft [] ((i, intact) :: flight) := by
  cases taken with
  | dead dead => exact Or.inl (.dead dead)
  | repeated hprev writes stocked' =>
    subst writes
    have follows' : Follows j flight k := by
      rcases follows with ⟨_, follows⟩ | ⟨hnext, _⟩
      · exact follows
      · omega
    refine Or.inr ⟨j, _, flight, ⟨.writing stocked' (Or.inr ⟨_, rfl⟩) carries, stored, follows', ?_⟩, ?_⟩
    · apply paired.mono
      intro quiet
      obtain ⟨hj, _⟩ := Prod.mk.inj (quiet.flight (i, intact) (by simp))
      omega
    · simp only [tokens, List.length_cons, List.length_nil]
      omega
  | stored hnext whole writes stocked' =>
    subst writes whole
    have follows' : Follows (j + 1) flight k := by
      rcases follows with ⟨hprev, _⟩ | ⟨_, follows⟩
      · omega
      · exact follows
    refine Or.inr ⟨j + 1, _, flight,
      ⟨.writing stocked' (Or.inr ⟨_, rfl⟩) carries, by omega, follows', ?_⟩, ?_⟩
    · apply paired.mono
      intro quiet
      obtain ⟨_, hfalse⟩ := Prod.mk.inj (quiet.flight (i, true) (by simp))
      cases hfalse
    · simp only [tokens, List.length_cons, List.length_nil]
      omega
  | refused hnext damaged writes stocked' =>
    subst writes damaged
    have follows' : Follows j flight k := by
      rcases follows with ⟨hprev, _⟩ | ⟨_, follows⟩
      · omega
      · exact follows
    refine Or.inr ⟨j, _, flight, ⟨.writing stocked' (Or.inr ⟨_, rfl⟩) carries, stored, follows', ?_⟩, ?_⟩
    · exact paired.mono fun quiet =>
        ⟨quiet.toLeft, by decide, fun f hf => quiet.flight f (List.mem_cons_of_mem _ hf)⟩
    · simp only [tokens, List.length_cons, List.length_nil]
      omega

theorem Live.receives (h : Live sender receiver file left right toLeft toRight j k pending flight)
    (writable : receiver.ramfile.Writable) (compatible : Compatible sender receiver)
    (step : ReceiverStep receiver right ℓ right') (queue : toRight = ℓ.consumed ++ q)
    (carried : ∀ w d, ℓ = .write w d → d = w) (whole : ∀ n, ℓ = .timeOut n → n = 1) :
    Over sender receiver file right' ∨ ∃ j' pending' flight',
      Live sender receiver file left right' (toLeft ++ ℓ.delivered) q j' k pending' flight' ∧
        tokens (toLeft ++ ℓ.delivered) pending' flight' = tokens toLeft pending flight := by
  obtain ⟨facing, stored, follows, paired⟩ := h
  cases facing with
  | @writing s _ _ _ stocked answer carries =>
    cases step with
    | writes w d rest _ =>
      obtain rfl := carried w d rfl
      obtain rfl : toRight = q := queue
      obtain ⟨b, hb⟩ : ∃ b, d :: rest = [[b]] := by simpa using answer
      obtain ⟨rfl, rfl⟩ := List.cons.inj hb
      refine Or.inr ⟨j, [], flight, ⟨.writing stocked (Or.inl rfl) carries, stored, follows, ?_⟩, ?_⟩
      · refine paired.mono fun quiet => ⟨?_, by simp, quiet.flight⟩
        have hack := quiet.pending
        have hleft := quiet.toLeft
        simp only [List.mem_singleton, List.cons.injEq, and_true] at hack
        simp [Label.delivered, hack, hleft]
      · simp only [tokens, Label.delivered, List.length_append, List.length_cons, List.length_nil]
    | expires running turn =>
      obtain rfl : toRight = q := queue
      rcases stocked.expires turn with dead | ⟨rfl, stocked'⟩
      · exact Or.inl (.dead dead)
      · rw [Label.delivered, List.append_nil]
        exact Or.inr ⟨j, [], flight, ⟨.writing stocked' (Or.inl rfl) carries, stored, follows, paired⟩, rfl⟩
    | @char _ s' header pending' running other turn =>
      obtain rfl : toRight = header :: q := queue
      obtain ⟨i, intact, rest, body, q', rfl, rfl, arrives, carries'⟩ := carries.first
      obtain ⟨rfl, rfl, rfl⟩ := arrives.endOfFile stocked compatible other
      have hj : j = blockCount sender.blksize file := by
        rcases follows with ⟨hprev, _⟩ | ⟨hnext, _⟩ <;> omega
      subst hj
      rcases stocked.char turn with dead | ⟨hne, _⟩ | ⟨_, _, finished, same⟩
      · exact Or.inl (.dead dead)
      · exact absurd rfl hne
      · exact Or.inl (.complete (stocked.completes finished same))
    | @header _ header blksize running kind =>
      obtain rfl : toRight = header :: q := queue
      obtain ⟨i, intact, rest, body, q', rfl, rfl, arrives, carries'⟩ := carries.first
      have size := arrives.body_length stocked compatible.sameChecks kind
      rw [Label.delivered, List.append_nil]
      exact Or.inr ⟨j, [], _, ⟨.filling stocked kind size arrives carries', stored, follows, paired⟩, rfl⟩
    | loses => exact Or.inl .lost
  | @filling s header blksize i intact body flight q₀ stocked kind size arrives carries =>
    cases step with
    | @block _ s' _ _ body' pending' size' turn =>
      obtain ⟨rfl, rfl⟩ := List.append_inj (show body ++ q₀ = body' ++ q from queue) (size.trans size'.symm)
      have place : i + 1 = j ∨ i = j := follows.imp And.left And.left
      have hi := (arrives.block kind).1
      rw [Label.delivered, List.append_nil]
      exact (stocked.takes writable compatible.sameChecks kind size' arrives place turn).live hi carries stored follows
        paired
    | breaks turn =>
      have hone := whole _ rfl
      rw [bodySize] at hone
      omega
    | loses => exact Or.inl .lost

theorem Over.step (h : Over sender receiver file right) (step : ReceiverStep receiver right ℓ right') :
    Over sender receiver file right' := by
  cases h with
  | dead h =>
    cases step with
    | writes => exact .dead h
    | expires running => rw [h.1] at running; cases running
    | char running => rw [h.1] at running; cases running
    | header running => rw [h.1] at running; cases running
    | loses => exact .lost
  | complete h =>
    cases step with
    | writes => exact .complete h
    | expires running => rw [h.finished] at running; cases running
    | char running => rw [h.finished] at running; cases running
    | header running => rw [h.finished] at running; cases running
    | loses => exact .lost
  | lost =>
    cases step with
    | loses => exact .lost

theorem Over.returned {s : LxmodemReceiveState} (h : Over sender receiver file (.writing [] s))
    (success : 0 ≤ s.receivedBytes.toInt32) : Complete sender receiver file s := by
  cases h with
  | dead h =>
    rw [h.2] at success
    exact absurd success (by decide)
  | complete h => exact h

theorem Live.running {s : LxmodemReceiveState} {pending' : List (List UInt8)}
    (h : Live sender receiver file left (.writing pending' s) toLeft toRight j k pending flight) :
    s.bFinished = false := by
  have facing := h.facing
  cases facing with
  | writing stocked answer carries => exact stocked.running

theorem Opening.running {s : LxmodemReceiveState}
    (h : Opening sender receiver file left (.writing pending s) toLeft toRight) : s.bFinished = false := by
  cases h with
  | asked sends stocked decodes => exact stocked.running

theorem stocked_initial (sender : ModemContext) (file : List UInt8) (writable : receiver.ramfile.Writable) :
    Stocked sender receiver file 0 (.initial receiver) :=
  ⟨receiving_initial sender receiver file, writable.write⟩

theorem Opening.hears (h : Opening sender receiver file left right toLeft toRight)
    (step : SenderStep sender file left ℓ left') (queue : toLeft = ℓ.consumed ++ q) :
    Opening sender receiver file left' right q (toRight ++ ℓ.delivered) ∨
      left' = .sending 0 0 ∧ ℓ.delivered = [] ∧
        Live sender receiver file left' right q toRight 0 0 [] [] ∧ q = [] := by
  cases h with
  | silent sends =>
    cases step with
    | asksAgain attempts =>
      obtain rfl : [] = q := queue
      exact Or.inl (.silent (Or.inl ⟨_, rfl⟩))
    | unasked =>
      obtain rfl : [] = q := queue
      exact Or.inl (.silent (Or.inr rfl))
    | decodes => cases queue
    | rejects => cases queue
    | _ => simp at sends
  | @asked s p sends stocked decodes =>
    cases step with
    | asksAgain attempts =>
      obtain rfl : [p] = q := queue
      exact Or.inl (.asked (Or.inl ⟨_, rfl⟩) stocked decodes)
    | unasked =>
      obtain rfl : [p] = q := queue
      exact Or.inl (.asked (Or.inr rfl) stocked decodes)
    | decodes attempts p' h =>
      obtain ⟨rfl, rfl⟩ := List.cons.inj (show p :: [] = p' :: q from queue)
      exact Or.inr ⟨rfl, rfl, ⟨.writing stocked (Or.inl rfl) .nil, Nat.zero_le _, rfl, .first 0⟩, rfl⟩
    | rejects attempts p' h =>
      obtain ⟨rfl, rfl⟩ := List.cons.inj (show p :: [] = p' :: q from queue)
      rw [decodes] at h
      cases h
    | _ => simp at sends

theorem Opening.receives (h : Opening sender receiver file left right toLeft toRight)
    (writable : receiver.ramfile.Writable) (compatible : Compatible sender receiver)
    (step : ReceiverStep receiver right ℓ right') (queue : toRight = ℓ.consumed ++ q)
    (carried : ∀ w d, ℓ = .write w d → d = w) :
    Opening sender receiver file left right' (toLeft ++ ℓ.delivered) q ∨
      Over sender receiver file right' := by
  cases h with
  | silent sends =>
    cases step with
    | asks p d asks =>
      obtain rfl := carried [p] d rfl
      obtain rfl : [] = q := queue
      obtain ⟨p', asks', decodes⟩ := compatible.preambule
      rw [asks] at asks'
      cases asks'
      exact Or.inl (.asked sends (stocked_initial sender file writable) decodes)
    | loses => exact Or.inr .lost
  | asked sends stocked decodes =>
    cases step with
    | expires running turn =>
      obtain rfl : [] = q := queue
      rcases stocked.expires turn with dead | ⟨rfl, stocked'⟩
      · exact Or.inr (.dead dead)
      · exact Or.inl (.asked sends stocked' decodes)
    | char => cases queue
    | header => cases queue
    | loses => exact Or.inr .lost

end Pipeline

end LightModem
