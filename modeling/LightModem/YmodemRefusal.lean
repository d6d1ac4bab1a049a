import LightModem.Agreement
import LightModem.Batch

set_option autoImplicit false

namespace LightModem

open Interaction

section Data

variable {α : Type} {sender receiver : ModemContext} {file : List UInt8} {k sendFuel receiveFuel : ℕ}
  {sendState : LxmodeSendState} {receiveState : LxmodemReceiveState} {leftLog rightLog : List (Label UInt8)}
  {afterSend : LxmodeSendState → Program UInt8 α} {afterReceive : LxmodemReceiveState → Program UInt8 α}

theorem SendHead.abandons (head : SendHead sender file k sendState) (hfile : file.length < 2147483648)
    (retry : sendState.retry = 0) (fuel : ℕ) :
    ∃ s', Performs (lxmodeSendLoop (fuel + 3) sendState)
        ((List.replicate 2 (fileFrame sender file k, [CAN])).flatMap fun x => [.sent x.1, .received x.2])
        (.done s') ∧ s'.emittedBytes = -1 := by
  obtain ⟨s₁, first, answered⟩ := head.performs hfile (fuel + 2) CAN
  rw [retry] at answered
  cases answered with
  | gaveUp ha hg hf he => exact absurd hg (by simp [GivesUp])
  | again ha hg head' hr =>
    obtain ⟨s₂, second, answered'⟩ := head'.performs hfile (fuel + 1) CAN
    rw [hr] at answered'
    cases answered' with
    | again ha' hg' head'' hr' => exact absurd (Or.inr ⟨by simp, by decide, Nat.le_refl 2⟩) hg'
    | gaveUp ha' hg' hf he =>
      have ended : lxmodeSendLoop (fuel + 1) s₂ = .done s₂ := whileLoop_false _ (by simp [hf])
      rw [ended] at second
      exact ⟨s₂, first.trans second, he⟩

theorem steps_turnedAway (compatible : Compatible sender receiver) (writable : receiver.ramfile.Writable)
    (before : receiver.ramfile.writeOffset.toNat + (payloadsBefore sender.blksize file k).length ≤
      receiver.ramfile.maxSize.toNat)
    (full : receiver.ramfile.maxSize.toNat ≤
      receiver.ramfile.writeOffset.toNat + (payloadsBefore sender.blksize file (k + 1)).length)
    (hfile : file.length < 2147483648) (hk : k < blockCount sender.blksize file)
    (head : SendHead sender file k sendState) (receiving : Receiving sender receiver file k receiveState) (hs : 4 ≤ sendFuel) (hr : 2 ≤ receiveFuel) :
    ∃ s r l' r', Steps .perfect
        ⟨lxmodeSendLoop sendFuel sendState >>= afterSend,
          lxmodemReceiveLoop receiveFuel receiveState >>= afterReceive, [], [], leftLog, rightLog⟩
        ⟨afterSend s, afterReceive r, [], fileFrame sender file (k + 1) ++ fileFrame sender file (k + 1), l', r'⟩ ∧
      TurnedAway sender receiver file k s r := by
  obtain ⟨sendFuel, rfl⟩ := Nat.exists_eq_add_of_le' hs
  obtain ⟨receiveFuel, rfl⟩ := Nat.exists_eq_add_of_le' hr
  obtain ⟨r, performs, finished, lost, setup, ramfile⟩ := receiving.overflows compatible writable before full
  have ended : lxmodemReceiveLoop (receiveFuel + 1) r = .done r := whileLoop_false _ (by simp [finished])
  have receives := lxmodemReceiveLoop_performs performs receiving.running (receiveFuel + 1)
  rw [ended] at receives
  obtain ⟨s₁, sends, answered⟩ := head.performs hfile (sendFuel + 3) ACK
  cases answered with
  | finished hi hf he setup' => omega
  | again ha hg head' hr => exact absurd rfl ha
  | gaveUp ha hg hf he => exact absurd rfl ha
  | next hi head' hretry =>
    obtain ⟨s₂, abandons, cancelled⟩ := head'.abandons hfile hretry sendFuel
    obtain ⟨waiting, writes, waits⟩ := @Performs.of_append _ _ _ _ [.sent (fileFrame sender file k)]
      [.received [ACK]] (sends.bind afterSend)
    obtain ⟨reads, hreads⟩ : ∃ reads, reads = [[frameHeader (blockPayload sender.blksize file k)],
      UInt8.ofNat (k + 1) :: ~~~UInt8.ofNat (k + 1) :: (blockPayload sender.blksize file k ++
        checkBytes sender.crc16 sender.usesCrc (blockPayload sender.blksize file k))] := ⟨_, rfl⟩
    have frame : fileFrame sender file k = reads.flatten := by
      rw [hreads, fileFrame, if_pos hk]
      simp [dataFrame, frameBody]
    have answers : Performs (lxmodemReceiveLoop (receiveFuel + 2) receiveState)
        (reads.map .received ++ [.sent [ACK], .sent [CAN, CAN]]) (.done r) := by
      rw [hreads]
      exact receives
    have told := @steps_answersTwice _ _ .perfect .perfect _ _ _ _ leftLog rightLog _ _ _ _ _ reads writes
      (answers.bind afterReceive) frame rfl rfl
    have heard := @steps_leftReads _ _ .perfect .perfect _ _ (afterReceive r) [CAN, CAN] []
      (leftLog ++ [.write (fileFrame sender file k) reads.flatten])
      (rightLog ++ reads.map .read ++ [.write [ACK] [ACK]] ++ [.write [CAN, CAN] [CAN, CAN]]) [[ACK]] waits
    obtain ⟨toRight, l', alone, carried⟩ := @steps_leftRounds _ _ .perfect .perfect _ _ (afterReceive r) [] [] _ _
      (List.replicate 2 (fileFrame sender file (k + 1), [CAN])) (abandons.bind afterSend)
    have frames := carried fun _ _ => rfl
    rw [frames] at alone
    exact ⟨s₂, r, l', _, (told.trans heard).trans (by simpa using alone), cancelled, lost, setup, ramfile⟩

end Data

section End

variable {sender receiver : ModemContext} {file : List UInt8} {i fuel : ℕ} {l r : List (Label UInt8)}

theorem lymodemAnswerNextFile_performs (pThis : ModemContext) :
    ∃ x more, Performs (lymodemAnswerNextFile pThis) [.sent (x :: more)] (.done pThis) ∧ (x = ACK ∨ x = CAN) := by
  rw [lymodemAnswerNextFile]
  split
  · exact ⟨ACK, [], .write (.refl _), Or.inl rfl⟩
  · exact ⟨CAN, [CAN], .write (.refl _), Or.inr rfl⟩

theorem lymodemWaitNextFile_frame (pThis : ModemContext) {header : UInt8} {body : List UInt8}
    (kind : header = SOH ∧ body.length = 128 + 2 + 2 ∨ header = STX ∧ body.length = 1024 + 2 + 2) (attempts : ℕ) :
    ∃ x more, Performs (lymodemWaitNextFile pThis (attempts + 1))
        [.received [header], .received body, .sent (x :: more)] (.done (pThis.fill body)) ∧ (x = ACK ∨ x = CAN) := by
  obtain ⟨x, more, answers, answer⟩ := lymodemAnswerNextFile_performs (pThis.fill body)
  refine ⟨x, more, ?_, answer⟩
  rw [lymodemWaitNextFile, getchars_bind]
  apply Performs.read (.received [header] rfl)
  rcases kind with ⟨rfl, size⟩ | ⟨rfl, size⟩
  · simp only [List.headD_cons, ↓reduceIte, true_or, getchars_bind]
    apply Performs.read (.received body size)
    exact answers
  · simp only [List.headD_cons, show STX ≠ SOH by decide, ↓reduceIte, or_true, getchars_bind]
    apply Performs.read (.received body size)
    exact answers

theorem lymodemWaitNextFile_end (pThis : ModemContext) (attempts : ℕ) :
    ∃ x more, Performs (lymodemWaitNextFile pThis (attempts + 1)) [.received [EOT], .sent (x :: more)] (.done pThis) ∧
      (x = ACK ∨ x = CAN) := by
  obtain ⟨x, more, answers, answer⟩ := lymodemAnswerNextFile_performs pThis
  refine ⟨x, more, ?_, answer⟩
  rw [lymodemWaitNextFile, getchars_bind]
  apply Performs.read (.received [EOT] rfl)
  simp only [List.headD_cons, show ¬ (EOT = SOH ∨ EOT = STX) by decide, ↓reduceIte]
  exact answers

theorem lymodemBlockNextFile_stale (hs : sender.protocol = .ymodem) (hr : receiver.protocol = .ymodem) (i : ℕ) :
    ∃ (reads : List (List UInt8)) (x : UInt8) (more : List UInt8) (receiver' : ModemContext),
      Performs (lymodemBlockNextFile receiver) (.sent [charC] :: (reads.map .received ++ [.sent (x :: more)]))
        (.done receiver') ∧
      fileFrame sender file i = reads.flatten ∧ (x = ACK ∨ x = CAN) ∧ SameSetup receiver receiver' ∧
      receiver'.ramfile = receiver.ramfile := by
  have preambule : lxmodemBuildAndSendPreambule receiver = putchars [charC] := by
    rw [lxmodemBuildAndSendPreambule, hr]
  have checks : sender.usesCrc = true := by simp [ModemContext.usesCrc, hs]
  have small : sender.blksize ≤ 1024 := by simp [ModemContext.blksize, hs]
  rw [lymodemBlockNextFile, preambule, putchars_bind, fileFrame]
  split
  · have size := blockPayload_length sender.blksize file i small
    obtain ⟨payload, hpayload⟩ : ∃ payload, payload = blockPayload sender.blksize file i := ⟨_, rfl⟩
    rw [← hpayload] at size ⊢
    have length : (frameBody sender.crc16 sender.usesCrc (UInt8.ofNat (i + 1)) payload).length =
        payload.length + 2 + 2 := by
      rw [frameBody_length, checks, checkSize, if_pos rfl]
    have kind : frameHeader payload = SOH ∧
          (frameBody sender.crc16 sender.usesCrc (UInt8.ofNat (i + 1)) payload).length = 128 + 2 + 2 ∨
        frameHeader payload = STX ∧
          (frameBody sender.crc16 sender.usesCrc (UInt8.ofNat (i + 1)) payload).length = 1024 + 2 + 2 := by
      rw [length, frameHeader]
      rcases blockSize_eq (min sender.blksize (file.length - i * sender.blksize)) with short | long
      · rw [size, short]
        exact Or.inl ⟨rfl, rfl⟩
      · rw [size, long]
        exact Or.inr ⟨rfl, rfl⟩
    obtain ⟨x, more, performs, answer⟩ := lymodemWaitNextFile_frame receiver kind 9
    exact ⟨[[frameHeader payload], frameBody sender.crc16 sender.usesCrc (UInt8.ofNat (i + 1)) payload], x, more, _,
      .write performs, by simp [dataFrame], answer, ⟨rfl, rfl, rfl, rfl, rfl, rfl⟩, rfl⟩
  · obtain ⟨x, more, performs, answer⟩ := lymodemWaitNextFile_end receiver 9
    exact ⟨[[EOT]], x, more, receiver, .write performs, rfl, answer, .refl _, rfl⟩

theorem afterData_failed {x : UInt8} (answer : x = ACK ∨ x = CAN) (sender : ModemContext) (fuel : ℕ) :
    ∃ frame sender', Performs (afterData (fuel + 2) (-1, sender)) [.received [charC], .sent frame, .received [x]]
      (.done (-1, sender')) := by
  obtain ⟨frame, sender', build⟩ : ∃ frame sender', lymodemSendEndOfBach sender = .write frame (.done sender') :=
    ⟨_, _, rfl⟩
  have asked : Performs (afterData (fuel + 2) (-1, sender)) [.received [charC]]
      (lymodemEmitEndOfBach (fuel + 2) sender true ACK (-1) >>= fun z => .done (z.1.toInt32, z.2)) :=
    ((lmodemWaitReceptionOf_performs charC).bind _).bind _
  have handshake : ∃ s, Performs (lymodemHandshake (fuel + 2) sender' ACK true) [.received [x]] (.done s) := by
    rcases answer with rfl | rfl
    · exact ⟨_, lymodemHandshake_acknowledged sender' ACK true fuel⟩
    · have turn := @lymodemHandshakeTurn_performs sender' ⟨ACK, true, false, 0⟩ CAN (by decide)
      exact ⟨_, @Performs.whileLoop _ _ _ (fun s : LymodemHandshakeState => !s.bDone && s.retry < 10)
        (lymodemHandshakeTurn sender') _ _ turn rfl (fuel + 1)⟩
  obtain ⟨s, handshake⟩ := handshake
  have ends : Performs (lymodemEmitEndOfBach (fuel + 2) sender true ACK (-1)) [.sent frame, .received [x]]
      (.done (-1, sender')) := by
    have failed : (if s.bOk then (-1 : UInt32) else -1) = -1 := ite_self _
    have performs := handshake.bind fun s => .done (if s.bOk then (-1 : UInt32) else -1, sender')
    rw [Program.done_bind, failed] at performs
    rw [lymodemEmitEndOfBach_eq, build]
    exact .write performs
  exact ⟨frame, sender', asked.trans (ends.bind _)⟩

theorem steps_refusedBatch (hs : sender.protocol = .ymodem) (hr : receiver.protocol = .ymodem) (toRight : List UInt8)
    (failed : ModemContext) :
    ∃ sender' receiver' toLeft toRight' l' r', Steps .perfect
        ⟨afterData (fuel + 2) (-1, failed), afterReception (-1, receiver), [],
          fileFrame sender file i ++ toRight, l, r⟩
        ⟨.done (-1, sender'), .done (-1, lymodemTrim (-1) receiver'), toLeft, toRight', l', r'⟩ ∧
      SameSetup receiver receiver' ∧ receiver'.ramfile = receiver.ramfile := by
  obtain ⟨reads, x, more, receiver', performs, frame, answer, setup, ramfile⟩ :=
    @lymodemBlockNextFile_stale sender receiver file hs hr i
  obtain ⟨batch, sender', ends⟩ := afterData_failed answer failed fuel
  have answers := performs.bind fun pThis => .done ((-1 : UInt32).toInt32, lymodemTrim (-1) pThis)
  obtain ⟨asked, asks, replies⟩ := @Performs.of_append _ _ _ _ [.sent [charC]] _ answers
  obtain ⟨read, reading, writing⟩ := replies.of_append
  obtain ⟨heard, hears, sends⟩ := @Performs.of_append _ _ _ _ [.received [charC]] _ ends
  obtain ⟨sent, rfl, hears'⟩ := sends.of_sent
  obtain ⟨written, rfl, finished⟩ := writing.of_sent
  obtain rfl := finished.of_nil
  rw [frame]
  have first := @steps_leftwards _ _ .perfect .perfect _ _ _ _ (reads.flatten ++ toRight) l r [charC] [[charC]] asks
    hears rfl
  have second := @steps_rightReads _ _ .perfect .perfect (.write batch sent) asked _ [] toRight (l ++ [.read [charC]])
    (r ++ [.write [charC] [charC]]) reads reading
  have third := @step_rightWrites _ _ .perfect .perfect (.write batch sent)
    (.done ((-1 : UInt32).toInt32, lymodemTrim (-1) receiver')) [] toRight (l ++ [.read [charC]])
    (r ++ [.write [charC] [charC]] ++ reads.map .read) (x :: more)
  have fourth := @step_leftWrites _ _ .perfect .perfect sent
    (.done ((-1 : UInt32).toInt32, lymodemTrim (-1) receiver')) (x :: more) toRight (l ++ [.read [charC]])
    (r ++ [.write [charC] [charC]] ++ reads.map .read ++ [.write (x :: more) (x :: more)]) batch
  have fifth := @steps_leftReads _ _ .perfect .perfect sent _ (.done ((-1 : UInt32).toInt32, lymodemTrim (-1) receiver'))
    more (toRight ++ batch) (l ++ [.read [charC]] ++ [.write batch batch])
    (r ++ [.write [charC] [charC]] ++ reads.map .read ++ [.write (x :: more) (x :: more)]) [[x]] hears'
  exact ⟨sender', receiver', _, _, _, _, (((first.trans second).tail third).tail fourth).trans fifth, setup, ramfile⟩

end End

end LightModem
