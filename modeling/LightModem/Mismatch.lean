import LightModem.Headers

set_option autoImplicit false

namespace LightModem

open Interaction

def firstFrame (sender : ModemContext) (file : List UInt8) (p : UInt8) : List UInt8 :=
  if lxmodemDecodePreambule sender p = true then fileFrame sender file 0 else [CAN, CAN]

inductive Unanswerable (sender receiver : ModemContext) (file : List UInt8) (p : UInt8) : Prop
  | unreadable (h : Unreadable receiver (firstFrame sender file p))
  | single (decodes : lxmodemDecodePreambule sender p = true) (count : blockCount sender.blksize file ≤ 1)
      (checks : SameChecks sender receiver)

inductive Lingers (sender : ModemContext) (p : UInt8) : SenderPhase → ReceiverPhase → List UInt8 → Prop
  | asking {right : ReceiverPhase} {toLeft : List UInt8} (attempts : ℕ)
      (asked : right = .asking ∧ toLeft = [] ∨ ∃ rest, toLeft = p :: rest) :
      Lingers sender p (.asking attempts) right toLeft
  | cancelling {right : ReceiverPhase} {toLeft : List UInt8} (h : lxmodemDecodePreambule sender p = false) :
      Lingers sender p .cancelling right toLeft
  | sending {right : ReceiverPhase} {toLeft : List UInt8} (c : ℕ)
      (h : lxmodemDecodePreambule sender p = true) : Lingers sender p (.sending 0 c) right toLeft
  | waiting {right : ReceiverPhase} {toLeft : List UInt8} (c attempts : ℕ)
      (h : lxmodemDecodePreambule sender p = true) : Lingers sender p (.waiting 0 c attempts) right toLeft
  | stopped {right : ReceiverPhase} {toLeft : List UInt8} : Lingers sender p .stopped right toLeft

structure Refusing (sender receiver : ModemContext) (file : List UInt8) (p : UInt8)
    (s : Situation SenderPhase ReceiverPhase UInt8) : Prop where
  left : Lingers sender p s.left s.right s.toLeft
  unasked : (∃ attempts, s.left = .asking attempts) → s.leftLog.flatMap Label.delivered = []
  quiet : ACK ∉ s.toLeft
  sent : ∀ ℓ ∈ s.leftLog, ℓ.delivered = [] ∨ ℓ.delivered = firstFrame sender file p
  right : s.right = .asking ∨ Wandering sender receiver file 0 True [] s.right s.rightLog

structure Held (sender receiver : ModemContext) (file : List UInt8)
    (s : Situation SenderPhase ReceiverPhase UInt8) : Prop where
  left : (∃ i c, s.left = .sending i c) ∨ (∃ i c attempts, s.left = .waiting i c attempts) ∨ s.left = .stopped
  sent : ∀ ℓ ∈ s.leftLog, ℓ.delivered = [] ∨ ℓ.delivered = fileFrame sender file 0 ∨ ℓ.delivered = [EOT]
  right : Wandering sender receiver file 1 False [] s.right s.rightLog

inductive Mismatched (sender receiver : ModemContext) (file : List UInt8) (p : UInt8)
    (s : Situation SenderPhase ReceiverPhase UInt8) : Prop
  | refusing (h : Refusing sender receiver file p s)
  | held (count : blockCount sender.blksize file = 1) (checks : SameChecks sender receiver)
      (h : Held sender receiver file s)
  | misled (h : Misled s)
  | ended (h : Over sender receiver file s.right)

section Mismatch

variable {sender receiver : ModemContext} {file : List UInt8} {p : UInt8} {left left' : SenderPhase}
  {right right' : ReceiverPhase} {toLeft q : List UInt8} {ℓ : Label UInt8} {log : List (Label UInt8)}
  {s s' : Situation SenderPhase ReceiverPhase UInt8}

theorem beyond_nil (n : ℕ) : Beyond [] n := by
  exact Nat.zero_le n

theorem preambule_ne_ACK (asks : lxmodemBuildAndSendPreambule receiver = putchars [p]) : p ≠ ACK := by
  rintro rfl
  unfold lxmodemBuildAndSendPreambule at asks
  cases hp : receiver.protocol <;> cases ho : receiver.opts <;> rw [hp, ho] at asks <;>
    exact absurd asks (by simp [putchars, NAK, ACK, charC])

theorem Lingers.step (h : Lingers sender p left right toLeft) (quiet : ACK ∉ toLeft)
    (step : SenderStep sender file left ℓ left') (queue : toLeft = ℓ.consumed ++ q)
    (carried : ∀ w d, ℓ = .write w d → d = w) :
    Lingers sender p left' right q ∧ (ℓ.delivered = [] ∨ ℓ.delivered = firstFrame sender file p) ∧
      ((∃ attempts, left' = .asking attempts) → ℓ.delivered = [] ∧ ∃ attempts, left = .asking attempts) := by
  cases h with
  | asking attempts asked =>
    cases step with
    | asksAgain attempts =>
      obtain rfl : toLeft = q := queue
      exact ⟨.asking _ asked, Or.inl rfl, fun _ => ⟨rfl, _, rfl⟩⟩
    | unasked => exact ⟨.stopped, Or.inl rfl, by simp⟩
    | decodes attempts p' hp =>
      obtain ⟨rfl, _⟩ : p' = p ∧ True := by
        rcases asked with ⟨_, rfl⟩ | ⟨rest, rfl⟩
        · cases queue
        · exact ⟨(List.cons.inj queue).1.symm, trivial⟩
      exact ⟨.sending 0 hp, Or.inl rfl, by simp⟩
    | rejects attempts p' hp =>
      obtain ⟨rfl, _⟩ : p' = p ∧ True := by
        rcases asked with ⟨_, rfl⟩ | ⟨rest, rfl⟩
        · cases queue
        · exact ⟨(List.cons.inj queue).1.symm, trivial⟩
      exact ⟨.cancelling hp, Or.inl rfl, by simp⟩
  | cancelling hp =>
    cases step with
    | cancels d =>
      obtain rfl := carried _ d rfl
      refine ⟨.stopped, Or.inr ?_, by simp⟩
      rw [firstFrame, hp]
      rfl
  | sending c hp =>
    cases step with
    | sends _ _ d hi =>
      obtain rfl := carried _ d rfl
      refine ⟨.waiting c 10 hp, Or.inr ?_, by simp⟩
      rw [firstFrame, if_pos hp]
      rfl
  | waiting c attempts hp =>
    have unread (h : toLeft = [ACK] ++ q) : False := quiet (by simp [h])
    cases step with
    | waits => exact ⟨.waiting _ _ hp, Or.inl rfl, by simp⟩
    | runsOut => exact ⟨.sending _ hp, Or.inl rfl, by simp⟩
    | next => exact (unread queue).elim
    | finishes => exact (unread queue).elim
    | again => exact ⟨.sending _ hp, Or.inl rfl, by simp⟩
    | gaveUp => exact ⟨.stopped, Or.inl rfl, by simp⟩
    | ranOut => exact ⟨.stopped, Or.inl rfl, by simp⟩
  | stopped => cases step

theorem Refusing.left_step (h : Refusing sender receiver file p s) (step : SenderStep sender file s.left ℓ left')
    (queue : s.toLeft = ℓ.consumed ++ q) (carried : ∀ w d, ℓ = .write w d → d = w) :
    Refusing sender receiver file p
      ⟨left', s.right, q, s.toRight ++ ℓ.delivered, s.leftLog ++ [ℓ], s.rightLog⟩ := by
  obtain ⟨lingers, delivered, unasked⟩ := h.left.step h.quiet step queue carried
  refine ⟨lingers, ?_, ?_, ?_, h.right⟩
  · intro asking
    obtain ⟨hd, hasking⟩ := unasked asking
    change (s.leftLog ++ [ℓ]).flatMap Label.delivered = []
    rw [List.flatMap_append, h.unasked hasking]
    simp [hd]
  · exact fun hack => h.quiet (by rw [queue]; exact List.mem_append_right _ hack)
  · intro ℓ' hmem
    rcases List.mem_append.mp hmem with hmem | hmem
    · exact h.sent ℓ' hmem
    · rw [List.mem_singleton.mp hmem]
      exact delivered

theorem Held.left_step (h : Held sender receiver file s) (count : blockCount sender.blksize file = 1)
    (step : SenderStep sender file s.left ℓ left') (carried : ∀ w d, ℓ = .write w d → d = w) :
    Held sender receiver file
      ⟨left', s.right, q, s.toRight ++ ℓ.delivered, s.leftLog ++ [ℓ], s.rightLog⟩ := by
  obtain ⟨left, right, toLeft, toRight, leftLog, rightLog⟩ := s
  obtain ⟨hleft, sent, hright⟩ := h
  suffices hstep : ((∃ i c, left' = .sending i c) ∨ (∃ i c attempts, left' = .waiting i c attempts) ∨
      left' = .stopped) ∧
      (ℓ.delivered = [] ∨ ℓ.delivered = fileFrame sender file 0 ∨ ℓ.delivered = [EOT]) by
    refine ⟨hstep.1, ?_, hright⟩
    intro ℓ' hmem
    rcases List.mem_append.mp hmem with hmem | hmem
    · exact sent ℓ' hmem
    · rw [List.mem_singleton.mp hmem]
      exact hstep.2
  cases step with
  | asksAgain => simp at hleft
  | unasked => simp at hleft
  | decodes => simp at hleft
  | rejects => simp at hleft
  | cancels => simp at hleft
  | sends i c d hi =>
    obtain rfl := carried _ d rfl
    refine ⟨Or.inr (Or.inl ⟨_, _, _, rfl⟩), Or.inr ?_⟩
    rcases Nat.eq_zero_or_pos i with rfl | hpos
    · exact Or.inl rfl
    · exact Or.inr (fileFrame_eq_EOT.mpr (by omega))
  | waits => exact ⟨Or.inr (Or.inl ⟨_, _, _, rfl⟩), Or.inl rfl⟩
  | runsOut => exact ⟨Or.inl ⟨_, _, rfl⟩, Or.inl rfl⟩
  | next => exact ⟨Or.inl ⟨_, _, rfl⟩, Or.inl rfl⟩
  | finishes => exact ⟨Or.inr (Or.inr rfl), Or.inl rfl⟩
  | again => exact ⟨Or.inl ⟨_, _, rfl⟩, Or.inl rfl⟩
  | gaveUp => exact ⟨Or.inr (Or.inr rfl), Or.inl rfl⟩
  | ranOut => exact ⟨Or.inr (Or.inr rfl), Or.inl rfl⟩

theorem Lingers.right_step (h : Lingers sender p left right toLeft) (d : List UInt8)
    (asks : right = .asking → d = [p]) : Lingers sender p left right' (toLeft ++ d) := by
  cases h with
  | asking attempts asked =>
    refine .asking attempts (Or.inr ?_)
    rcases asked with ⟨hright, rfl⟩ | ⟨rest, rfl⟩
    · exact ⟨[], asks hright⟩
    · exact ⟨rest ++ d, rfl⟩
  | cancelling hp => exact .cancelling hp
  | sending c hp => exact .sending c hp
  | waiting c attempts hp => exact .waiting c attempts hp
  | stopped => exact .stopped

theorem Refusing.asked (h : Refusing sender receiver file p s) (hright : s.right = .asking)
    (writable : receiver.ramfile.Writable) (asks : lxmodemBuildAndSendPreambule receiver = putchars [p])
    (step : ReceiverStep receiver s.right ℓ right') (carried : ∀ w d, ℓ = .write w d → d = w) :
    Mismatched sender receiver file p
      ⟨s.left, right', s.toLeft ++ ℓ.delivered, q, s.leftLog, s.rightLog ++ [ℓ]⟩ := by
  rw [hright] at step
  cases step with
  | asks p' d asks' =>
    obtain rfl := carried _ d rfl
    obtain rfl : p' = p := by
      rw [asks'] at asks
      simpa [putchars] using asks
    have hne := preambule_ne_ACK asks
    refine .refusing ⟨h.left.right_step [p'] fun _ => rfl, h.unasked, ?_, h.sent, Or.inr ?_⟩
    · intro hack
      rcases List.mem_append.mp hack with hack | hack
      · exact h.quiet hack
      · exact hne (List.mem_singleton.mp hack).symm
    · exact .writing (stocked_initial sender file writable) (by simp) (beyond_nil _)
  | loses => exact .ended .lost

theorem Refusing.acknowledges {before rest : List (Label UInt8)} {header : UInt8}
    (h : Refusing sender receiver file p s) (unanswerable : Unanswerable sender receiver file p)
    (writable : receiver.ramfile.Writable) (toLeft' : List UInt8)
    (balance : s.leftLog.flatMap Label.delivered = log.flatMap Label.consumed ++ q)
    (acknowledges : Acknowledges sender receiver file 0 [] right' log before header rest)
    (whole : WholeWrites s.leftLog before) :
    Mismatched sender receiver file p ⟨s.left, right', toLeft', q, s.leftLog, log⟩ := by
  cases unanswerable with
  | unreadable unreadable =>
    obtain ⟨sent, later, hlog, hq⟩ := @Acknowledges.frame sender receiver file 0 [] s.leftLog log right' q
      before rest header acknowledges whole balance
    obtain ⟨skipped, ℓ, after, body', rfl, hℓ, _⟩ := exists_of_delivered hq
    rcases h.sent ℓ (by simp [hlog]) with hnil | hframe
    · rw [hnil] at hℓ
      cases hℓ
    · rw [← hframe, hℓ] at unreadable
      exact absurd unreadable acknowledges.readable
  | single decodes count checks =>
    have hframe : firstFrame sender file p = fileFrame sender file 0 := if_pos decodes
    have sent : ∀ ℓ ∈ s.leftLog, ℓ.delivered = [] ∨ Unreadable receiver ℓ.delivered ∨
        ∃ i, i = 0 ∧ ℓ.delivered = fileFrame sender file i := by
      intro ℓ hmem
      refine (h.sent ℓ hmem).imp id fun hd => Or.inr ⟨0, rfl, hd.trans hframe⟩
    rcases @Acknowledges.taken sender receiver file 0 [] s.leftLog log right' q before rest header acknowledges
      writable checks whole balance (Nat.zero_le _) _ (by simp) sent with
      ended | ⟨r, i, after, rfl, stocked, rfl, hi, _, _⟩
    · exact .ended ended
    · refine .held (by omega) checks ⟨?_, ?_, .writing stocked (by simp) (beyond_nil _)⟩
      · have lingers := h.left
        generalize hleft : s.left = left at lingers
        cases lingers with
        | asking attempts _ =>
          obtain ⟨sent', later', hlog, hq⟩ := @Acknowledges.frame sender receiver file 0 [] s.leftLog log _ q
            before rest header acknowledges whole balance
          have none := h.unasked ⟨_, hleft⟩
          rw [hlog, List.flatMap_append, ← hq] at none
          simp at none
        | cancelling hp =>
          rw [hp] at decodes
          cases decodes
        | sending c _ => exact Or.inl ⟨_, _, rfl⟩
        | waiting c attempts _ => exact Or.inr (Or.inl ⟨_, _, _, rfl⟩)
        | stopped => exact Or.inr (Or.inr rfl)
      · intro ℓ hmem
        exact (h.sent ℓ hmem).imp id fun hd => Or.inl (hd.trans hframe)

theorem Refusing.right_step (h : Refusing sender receiver file p s)
    (unanswerable : Unanswerable sender receiver file p) (writable : receiver.ramfile.Writable)
    (asks : lxmodemBuildAndSendPreambule receiver = putchars [p])
    (step : ReceiverStep receiver s.right ℓ right') (carried : ∀ w d, ℓ = .write w d → d = w)
    (balance : s.leftLog.flatMap Label.delivered = (s.rightLog ++ [ℓ]).flatMap Label.consumed ++ q) :
    Mismatched sender receiver file p
      ⟨s.left, right', s.toLeft ++ ℓ.delivered, q, s.leftLog, s.rightLog ++ [ℓ]⟩ := by
  rcases h.right with hright | wandering
  · exact h.asked hright writable asks step carried
  have lingers : Lingers sender p s.left right' (s.toLeft ++ ℓ.delivered) := by
    apply h.left.right_step
    intro hright
    rw [hright] at wandering
    cases wandering
  rcases wandering.reads step with ended | ⟨wandering', refuses⟩ | ⟨before, header, rest, acknowledges, reads⟩
  · exact .ended ended
  · refine .refusing ⟨lingers, h.unasked, ?_, h.sent, Or.inr wandering'⟩
    intro hack
    rcases List.mem_append.mp hack with hack | hack
    · exact h.quiet hack
    · cases ℓ with
      | write w d => exact refuses trivial w d rfl (carried w d rfl ▸ hack)
      | read data => cases hack
      | timeOut n => cases hack
  · by_cases whole : WholeWrites s.leftLog before
    · exact h.acknowledges unanswerable writable _ balance acknowledges whole
    · exact .misled (@Acknowledges.misled sender receiver file 0 [] before rest header
        ⟨s.left, right', s.toLeft ++ ℓ.delivered, q, s.leftLog, s.rightLog ++ [ℓ]⟩ acknowledges whole)

theorem Held.right_step (h : Held sender receiver file s) (count : blockCount sender.blksize file = 1)
    (checks : SameChecks sender receiver) (writable : receiver.ramfile.Writable)
    (step : ReceiverStep receiver s.right ℓ right')
    (balance : s.leftLog.flatMap Label.delivered = (s.rightLog ++ [ℓ]).flatMap Label.consumed ++ q) :
    Mismatched sender receiver file p
      ⟨s.left, right', s.toLeft ++ ℓ.delivered, q, s.leftLog, s.rightLog ++ [ℓ]⟩ := by
  rcases h.right.reads step with ended | ⟨wandering', _⟩ | ⟨before, header, rest, acknowledges, reads⟩
  · exact .ended ended
  · exact .held count checks ⟨h.left, h.sent, wandering'⟩
  by_cases whole : WholeWrites s.leftLog before
  · have sent : ∀ ℓ ∈ s.leftLog, ℓ.delivered = [] ∨ Unreadable receiver ℓ.delivered ∨
        ∃ i, i ≤ 1 ∧ ℓ.delivered = fileFrame sender file i := by
      intro ℓ hmem
      rcases h.sent ℓ hmem with hnil | hframe | heot
      · exact Or.inl hnil
      · exact Or.inr (Or.inr ⟨0, Nat.zero_le _, hframe⟩)
      · exact Or.inr (Or.inr ⟨1, Nat.le_refl _, heot.trans (fileFrame_eq_EOT.mpr (by omega)).symm⟩)
    rcases @Acknowledges.taken sender receiver file 1 [] s.leftLog _ right' q before rest header acknowledges
      writable checks whole balance count.ge _ (fun i hi => ⟨by omega, by omega⟩) sent with
      ended | ⟨r, i, after, rfl, stocked, place, hi, _, _⟩
    · exact .ended ended
    · obtain rfl : i = 0 := by omega
      exact .held count checks ⟨h.left, h.sent, .writing stocked (by simp) (beyond_nil _)⟩
  · exact .misled (@Acknowledges.misled sender receiver file 1 [] before rest header
      ⟨s.left, right', s.toLeft ++ ℓ.delivered, q, s.leftLog, s.rightLog ++ [ℓ]⟩ acknowledges whole)

theorem Mismatched.step (h : Mismatched sender receiver file p s) (balanced : s.Balanced)
    (unanswerable : Unanswerable sender receiver file p) (loaded : sender.ramfile.Loaded file)
    (writable : receiver.ramfile.Writable) (asks : lxmodemBuildAndSendPreambule receiver = putchars [p])
    (notMisled : ¬ Misled s)
    (step : s.Step (senderDescription loaded) (receiverDescription writable) (.delayed .perfect .perfect) s') :
    Mismatched sender receiver file p s' := by
  have balance := step.balanced balanced
  cases step with
  | @left ℓ left' q hstep queue allowed =>
    have carried : ∀ w d, ℓ = .write w d → d = w := by
      rintro w d rfl
      exact allowed
    cases h with
    | refusing h => exact .refusing (h.left_step hstep queue carried)
    | held count checks h => exact .held count checks (h.left_step count hstep carried)
    | misled h => exact absurd h notMisled
    | ended h => exact .ended h
  | @right ℓ right' q hstep queue allowed =>
    have carried : ∀ w d, ℓ = .write w d → d = w := by
      rintro w d rfl
      exact allowed
    cases h with
    | refusing h => exact h.right_step unanswerable writable asks hstep carried balance
    | held count checks h => exact h.right_step count checks writable hstep balance
    | misled h => exact absurd h notMisled
    | ended h => exact .ended (h.step hstep)

theorem Mismatched.finished {pending : List (List UInt8)} {r : LxmodemReceiveState}
    (h : Mismatched sender receiver file p s) (notMisled : ¬ Misled s) (hr : s.right = .writing pending r)
    (finished : r.bFinished = true) : Over sender receiver file (.writing pending r) := by
  have running {j : ℕ} {quiet : Prop} (hw : Wandering sender receiver file j quiet [] s.right s.rightLog) :
      r.bFinished = false := by
    rw [hr] at hw
    cases hw with
    | writing stocked => exact stocked.running
  cases h with
  | refusing h =>
    rcases h.right with hright | hw
    · rw [hr] at hright
      cases hright
    · rw [running hw] at finished
      cases finished
  | held count checks h =>
    rw [running h.right] at finished
    cases finished
  | misled h => exact absurd h notMisled
  | ended h =>
    rw [hr] at h
    exact h

end Mismatch

theorem unanswerable_xmodem {sender receiver : ModemContext} (file : List UInt8) (hs : sender.protocol = .xmodem)
    (hr : receiver.protocol = .xmodem) (crc16 : receiver.crc16 = sender.crc16)
    (configured : receiver.Configured)
    (mismatched : ¬ (sender.opts = receiver.opts ∨
      sender.opts = .lxmodem128WithCrc ∧ receiver.opts = .lxmodem1k)) :
    ∃ p, lxmodemBuildAndSendPreambule receiver = putchars [p] ∧ Unanswerable sender receiver file p := by
  have rejected (p : UInt8) (h : lxmodemDecodePreambule sender p = false) :
      Unanswerable sender receiver file p := by
    refine .unreadable ⟨CAN, [CAN], ?_, by decide, ?_⟩
    · rw [firstFrame, h]
      rfl
    · rintro blksize (⟨h, _⟩ | ⟨h, _⟩) <;> cases h
  have asksNAK (ho : receiver.opts = .lxmodem128WithChksum) :
      lxmodemBuildAndSendPreambule receiver = putchars [NAK] := by
    rw [lxmodemBuildAndSendPreambule, hr, ho]
  have asksC (ho : receiver.opts ≠ .lxmodem128WithChksum) :
      lxmodemBuildAndSendPreambule receiver = putchars [charC] := by
    rw [lxmodemBuildAndSendPreambule, hr]
    cases hopts : receiver.opts with
    | lxmodem128WithChksum => exact absurd hopts ho
    | lxmodem128WithCrc => rfl
    | lxmodem1k => rfl
  cases hro : receiver.opts with
  | lxmodem128WithChksum =>
    refine ⟨NAK, asksNAK hro, rejected NAK ?_⟩
    rw [lxmodemDecodePreambule, if_pos rfl]
    exact decide_eq_false fun ho => mismatched (Or.inl (ho.trans hro.symm))
  | lxmodem1k =>
    refine ⟨charC, asksC (by rw [hro]; decide), rejected charC ?_⟩
    cases hso : sender.opts with
    | lxmodem128WithChksum => simp [lxmodemDecodePreambule, hs, hso, charC, NAK]
    | lxmodem128WithCrc => exact absurd (Or.inr ⟨hso, hro⟩) mismatched
    | lxmodem1k => exact absurd (Or.inl (hso.trans hro.symm)) mismatched
  | lxmodem128WithCrc =>
    refine ⟨charC, asksC (by rw [hro]; decide), ?_⟩
    cases hso : sender.opts with
    | lxmodem128WithChksum => exact rejected charC (by simp [lxmodemDecodePreambule, hs, hso, charC, NAK])
    | lxmodem128WithCrc => exact absurd (Or.inl (hso.trans hro.symm)) mismatched
    | lxmodem1k =>
      have decodes : lxmodemDecodePreambule sender charC = true := by
        simp [lxmodemDecodePreambule, hso, charC, NAK]
      have hblk : sender.blksize = 1024 := if_pos (Or.inl hso)
      by_cases long : 128 < file.length
      · have hcount : 0 < blockCount sender.blksize file :=
          (blockCount_pos sender).mpr (List.ne_nil_of_length_pos (Nat.zero_lt_of_lt long))
        have header : frameHeader (blockPayload sender.blksize file 0) = STX := by
          rw [frameHeader, if_neg]
          rw [hblk, blockPayload_length 1024 file 0 (by omega)]
          simp only [blockSize, Nat.zero_mul]
          split <;> omega
        refine .unreadable ⟨STX, frameBody sender.crc16 sender.usesCrc (UInt8.ofNat (0 + 1))
          (blockPayload sender.blksize file 0), ?_, by decide, ?_⟩
        · rw [firstFrame, if_pos decodes, fileFrame, if_pos hcount, dataFrame, header]
        · rintro blksize (⟨h, _⟩ | ⟨_, _, hopts⟩)
          · cases h
          · rw [hro, hr] at hopts
            rcases hopts with h | h <;> cases h
      · refine .single decodes ?_ ⟨crc16, ?_⟩
        · rw [hblk, blockCount]
          omega
        · intro header blksize kind
          rw [hasCrc_of_kind configured kind, ModemContext.usesCrc, ModemContext.usesCrc, hro, hso]
          rfl

theorem xmodem_mismatched (sender receiver : ModemContext) (file : List UInt8)
    (loaded : sender.ramfile.Loaded file) (crc16 : receiver.crc16 = sender.crc16)
    (configured : receiver.Configured)
    (mismatched : ¬ (sender.opts = receiver.opts ∨
      sender.opts = .lxmodem128WithCrc ∧ receiver.opts = .lxmodem1k))
    (fresh : receiver.ramfile.writeOffset = 0) (capacity : receiver.ramfile.maxSize.toNat < 2147483648)
    (fuel fuel' : ℕ) (s : Network UInt8 (Int32 × ModemContext))
    (run : Relation.ReflTransGen (fun a b => Step (.delayed .perfect .perfect) a b ∧ Orderly a)
      (.start (lmodemEmit .xmodem fuel sender) (lmodemReceive .xmodem fuel' receiver)) s)
    (n : Int32) (receiver' : ModemContext) (returned : s.right = .done (n, receiver')) (hn : 0 ≤ n) :
    receiver'.ramfile.writeOffset.toNat = (paddedFile { sender with protocol := .xmodem }.blksize file).length ∧
      receiver'.ramfile.buffer.load 0 (paddedFile { sender with protocol := .xmodem }.blksize file).length =
        paddedFile { sender with protocol := .xmodem }.blksize file := by
  have writable : receiver.ramfile.Writable := ⟨by rw [fresh]; exact Nat.zero_le _, capacity⟩
  have loaded' : { sender with protocol := .xmodem }.ramfile.Loaded file := loaded
  have writable' : { receiver with protocol := .xmodem }.ramfile.Writable := writable
  obtain ⟨p, asks, unanswerable⟩ := @unanswerable_xmodem { sender with protocol := .xmodem }
    { receiver with protocol := .xmodem } file rfl rfl crc16 configured mismatched
  obtain ⟨c, describes, invariant, balanced⟩ := @Situation.invariant UInt8 (Int32 × ModemContext) SenderPhase
    ReceiverPhase (senderDescription loaded') (receiverDescription writable') _
    (fun c => Mismatched { sender with protocol := .xmodem } { receiver with protocol := .xmodem } file p c ∧
      c.Balanced) (fun _ => _) _ _ _
    (fun _ _ h => h.1)
    (fun c c' _ _ describes hs hc hstep => ⟨hc.1.step hc.2 unanswerable loaded' writable' asks
      (fun misled => misled.not_orderly describes hs.2) hstep, hstep.balanced hc.2⟩)
    run (describes_start loaded' writable' fuel fuel')
    ⟨.refusing ⟨.asking 10 (Or.inl ⟨rfl, rfl⟩), fun _ => rfl, by simp, by simp, Or.inl rfl⟩, rfl⟩
  have right := describes.right
  rw [returned] at right
  obtain ⟨r, hr, finished, rfl, rfl⟩ := ReceiverAt.returned right
  have notMisled : ¬ Misled c := by
    rintro ⟨_, _, _, _, _, hright, _⟩
    rw [hr] at hright
    cases hright
  exact ((invariant.finished notMisled hr finished).returned hn).holds capacity fresh

def crcReceiver : ModemContext :=
  lmodemSetFileBuffer (lmodemSetLineBuffer (lmodemInit .lxmodem128WithCrc) (.fresh 0) 132).1 (.fresh 0) 2048

theorem xmodem_mismatched_oneByte :
    ∃ s n receiver', Relation.ReflTransGen (fun a b => Step (.delayed .perfect .perfect) a b ∧ Orderly a)
        (.start (lmodemEmit .xmodem 4 (longSender [7])) (lmodemReceive .xmodem 4 crcReceiver)) s ∧
      s.right = .done (n, receiver') ∧ receiver'.ramfile.writeOffset.toNat = 128 := by
  have run := @Network.steps_alternateAll _ _ .perfect .perfect orderly? 10
    (.start (lmodemEmit .xmodem 4 (longSender [7])) (lmodemReceive .xmodem 4 crcReceiver)) (by decide +kernel)
  obtain ⟨⟨m, sender'⟩, ⟨n, receiver'⟩, returned, rfl, rfl⟩ := @Network.returned_of_results _ _ _ _
    ((Network.start (lmodemEmit .xmodem 4 (longSender [7]))
      (lmodemReceive .xmodem 4 crcReceiver)).alternate .perfect .perfect 10)
    Prod.fst Prod.fst 128 128 (by decide +kernel)
  have orderly : Relation.ReflTransGen (fun a b => Step (.delayed .perfect .perfect) a b ∧ Orderly a) _ _ :=
    Relation.ReflTransGen.mono (fun a b h => ⟨h.1.delayed, orderly_of_test h.2⟩) _ _ run
  have holds := xmodem_mismatched (longSender [7]) crcReceiver [7] ⟨⟨by decide, by decide⟩, rfl⟩ rfl rfl
    (by decide) rfl (by decide) 4 4 _ orderly _ receiver' returned.2 (by decide)
  have size : (paddedFile (longSender [7]).blksize [7]).length = 128 := by decide +kernel
  exact ⟨_, _, receiver', orderly, returned.2, holds.1.trans size⟩

theorem xmodem_mismatched_loses :
    ∃ s n receiver', Steps (.ofWires .perfect .perfect)
        (.start (lmodemEmit .xmodem 10 (longSender endingFile)) (lmodemReceive .xmodem 10 crcReceiver)) s ∧
      s.right = .done (n, receiver') ∧ 0 ≤ n ∧ receiver'.ramfile.writeOffset ≠
        (paddedFile (longSender endingFile).blksize endingFile).length.toUInt32 := by
  have run := @Network.steps_alternate _ _ .perfect .perfect 14
    (.start (lmodemEmit .xmodem 10 (longSender endingFile)) (lmodemReceive .xmodem 10 crcReceiver))
  obtain ⟨⟨n, receiver'⟩, returned, hr⟩ := @Program.done_of_result _ _ _
    ((Network.start (lmodemEmit .xmodem 10 (longSender endingFile))
      (lmodemReceive .xmodem 10 crcReceiver)).alternate .perfect .perfect 14).right
    (fun r => (r.1, r.2.ramfile.writeOffset)) (0, 0) (by decide +kernel)
  obtain ⟨rfl, hw⟩ := Prod.mk.inj hr
  have hw' : receiver'.ramfile.writeOffset = 0 := hw
  have size : (paddedFile (longSender endingFile).blksize endingFile).length = 1024 := by decide +kernel
  exact ⟨_, 0, receiver', run, returned, by decide, by rw [hw', size]; decide⟩

end LightModem
