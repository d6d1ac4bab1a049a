import LightModem.Recovery

set_option autoImplicit false

namespace LightModem

open Interaction

abbrev HasRoom (receiver : ModemContext) (blksize : ℕ) (file : List UInt8) (i : ℕ) : Prop :=
  receiver.ramfile.writeOffset.toNat + (payloadsBefore blksize file i).length < receiver.ramfile.maxSize.toNat

/-- How many blocks of the file a receiver stores. It refuses the one that would fill its file. -/
def blocksThatFit (receiver : ModemContext) (blksize : ℕ) (file : List UInt8) : ℕ :=
  Nat.findGreatest (HasRoom receiver blksize file) (blockCount blksize file)

section Fits

variable {receiver : ModemContext} {blksize : ℕ} {file : List UInt8}

theorem payloadsBefore_length_le (small : blksize ≤ 1024) (i : ℕ) :
    (payloadsBefore blksize file i).length ≤ 1024 * i := by
  induction i with
  | zero => exact Nat.le_refl 0
  | succ i ih =>
    have block := blockPayload_length blksize file i small
    rw [payloadsBefore_succ, List.length_append]
    rcases blockSize_eq (min blksize (file.length - i * blksize)) with h | h <;> omega

theorem blocksThatFit_le : blocksThatFit receiver blksize file ≤ blockCount blksize file := Nat.findGreatest_le _

theorem blocksThatFit_room (h : 0 < blocksThatFit receiver blksize file) :
    HasRoom receiver blksize file (blocksThatFit receiver blksize file) :=
  Nat.findGreatest_of_ne_zero rfl h.ne'

theorem blocksThatFit_full (h : blocksThatFit receiver blksize file < blockCount blksize file) :
    receiver.ramfile.maxSize.toNat ≤ receiver.ramfile.writeOffset.toNat +
      (payloadsBefore blksize file (blocksThatFit receiver blksize file + 1)).length := by
  have none : ¬ HasRoom receiver blksize file (blocksThatFit receiver blksize file + 1) :=
    Nat.findGreatest_is_greatest (Nat.lt_succ_self _) h
  exact Nat.le_of_not_lt none

theorem blocksThatFit_before (writable : receiver.ramfile.Writable) :
    receiver.ramfile.writeOffset.toNat +
        (payloadsBefore blksize file (blocksThatFit receiver blksize file)).length ≤
      receiver.ramfile.maxSize.toNat := by
  rcases Nat.eq_zero_or_pos (blocksThatFit receiver blksize file) with none | some
  · rw [none, payloadsBefore_zero]
    exact writable.write
  · exact (blocksThatFit_room some).le

end Fits

section Refusal

variable {sender receiver : ModemContext} {file : List UInt8} {i : ℕ} {s : LxmodemReceiveState}

theorem Receiving.overflows (h : Receiving sender receiver file i s) (compatible : Compatible sender receiver)
    (writable : receiver.ramfile.Writable)
    (before : receiver.ramfile.writeOffset.toNat + (payloadsBefore sender.blksize file i).length ≤
      receiver.ramfile.maxSize.toNat)
    (full : receiver.ramfile.maxSize.toNat ≤
      receiver.ramfile.writeOffset.toNat + (payloadsBefore sender.blksize file (i + 1)).length) :
    ∃ s', Performs (lxmodemReceiveTurn s) [.received [frameHeader (blockPayload sender.blksize file i)],
        .received (UInt8.ofNat (i + 1) :: ~~~UInt8.ofNat (i + 1) :: (blockPayload sender.blksize file i ++
          checkBytes sender.crc16 sender.usesCrc (blockPayload sender.blksize file i))),
        .sent [ACK], .sent [CAN, CAN]] (.done s') ∧
      s'.bFinished = true ∧ s'.receivedBytes = -1 ∧ SameSetup receiver s'.pThis ∧
      s'.pThis.ramfile = receiver.ramfile.appended (payloadsBefore sender.blksize file i) := by
  have kind := h.kind compatible i
  have body : s.body (blockPayload sender.blksize file i) = UInt8.ofNat (i + 1) :: ~~~UInt8.ofNat (i + 1) ::
      (blockPayload sender.blksize file i ++
        checkBytes sender.crc16 sender.usesCrc (blockPayload sender.blksize file i)) := by
    rw [LxmodemReceiveState.body, h.crc16 compatible, h.hasCrc compatible, h.number]
    rfl
  have overflow : s.pThis.ramfile.maxSize.toNat ≤
      s.pThis.ramfile.writeOffset.toNat + (blockPayload sender.blksize file i).length := by
    rw [payloadsBefore_succ, List.length_append] at full
    rw [h.ramfile, appended_writeOffset writable.size before, appended_maxSize]
    omega
  have performs := (ReceiveTurn.full _ _ kind overflow).performs (h.writable writable before)
  rw [body] at performs
  exact ⟨_, performs, rfl, rfl, h.setup.trans ⟨rfl, rfl, rfl, rfl, rfl, rfl⟩, h.ramfile⟩

variable {sendState : LxmodeSendState}

theorem SendHead.cancelled {k c : ℕ} (head : SendHead sender file k sendState)
    (hfile : file.length < 2147483648) (retry : sendState.retry = c) (hc : c < 10) (fuel : ℕ) :
    ∃ (s' : LxmodeSendState) (rounds : List (List UInt8 × List UInt8)) (rest : List UInt8),
      Performs (lxmodeSendLoop (fuel + 3) sendState)
        (rounds.flatMap fun x => [.sent x.1, .received x.2]) (.done s') ∧
      (rounds.map Prod.snd).flatten ++ rest = [CAN, CAN] ∧ s'.emittedBytes = -1 := by
  obtain ⟨s₁, first, answered⟩ := head.performs hfile (fuel + 2) CAN
  cases answered with
  | gaveUp ha hg hf he =>
    have ended : lxmodeSendLoop (fuel + 2) s₁ = .done s₁ := whileLoop_false _ (by simp [hf])
    rw [ended] at first
    exact ⟨s₁, [(fileFrame sender file k, [CAN])], [CAN], first, rfl, he⟩
  | again ha hg head' hr =>
    obtain ⟨s₂, second, answered'⟩ := head'.performs hfile (fuel + 1) CAN
    cases answered' with
    | again ha' hg' head'' hr' =>
      refine absurd (Or.inr ⟨by simp, by decide, ?_⟩) hg'
      omega
    | gaveUp ha' hg' hf he =>
      have ended : lxmodeSendLoop (fuel + 1) s₂ = .done s₂ := whileLoop_false _ (by simp [hf])
      rw [ended] at second
      exact ⟨s₂, [(fileFrame sender file k, [CAN]), (fileFrame sender file k, [CAN])], [], first.trans second,
        rfl, he⟩

end Refusal

structure TurnedAway (sender receiver : ModemContext) (file : List UInt8) (k : ℕ) (s : LxmodeSendState)
    (r : LxmodemReceiveState) : Prop where
  emitted : s.emittedBytes = -1
  received : r.receivedBytes = -1
  setup : SameSetup receiver r.pThis
  ramfile : r.pThis.ramfile = receiver.ramfile.appended (payloadsBefore sender.blksize file k)

section Transfer

variable {α : Type} {schedule : Schedule} {sender receiver : ModemContext} {file : List UInt8}
  {forward backward : Wire UInt8} {At : ℕ → ℕ → List (Label UInt8) → List (Label UInt8) → Prop}
  {afterSend : LxmodeSendState → Program UInt8 α} {afterReceive : LxmodemReceiveState → Program UInt8 α}
  {k c sendFuel receiveFuel : ℕ} {sendState : LxmodeSendState} {receiveState : LxmodemReceiveState}
  {leftLog rightLog : List (Label UInt8)}

theorem SendHead.goesOn (recoverable : Recoverable sender file schedule) (hfile : file.length < 2147483648)
    (channel : Channel forward backward schedule At) (head : SendHead sender file k sendState)
    (retry : sendState.retry = c) (faults : c ≤ schedule.faultsBefore k c) (copies : c < 10)
    (place : At k c leftLog rightLog) (hk : k < blockCount sender.blksize file) (fuel : ℕ) :
    ∃ x s' k' c', (schedule k c).onAnswer [ACK] = [x] ∧
      Performs (lxmodeSendLoop (fuel + 1) sendState) [.sent (fileFrame sender file k), .received [x]]
        (lxmodeSendLoop fuel s') ∧
      SendHead sender file k' s' ∧ s'.retry = c' ∧ c' < 10 ∧
      ∀ frame arrived (reads : List (List UInt8)) answer,
        At k' c' (leftLog ++ [.write frame arrived, .read [x]])
          (rightLog ++ reads.map .read ++ [.write answer [x]]) := by
  cases refused : (schedule k c).refused with
  | false =>
    obtain ⟨s', sends, answered⟩ := head.performs hfile fuel ACK
    cases answered with
    | finished hi hf he setup' => omega
    | again ha hg head' hr => exact absurd rfl ha
    | gaveUp ha hg hf he => exact absurd rfl ha
    | next hi head' hretry =>
      exact ⟨ACK, s', k + 1, 0, by simp [Impairment.onAnswer, refused], sends, head', hretry, by decide,
        channel.acknowledged place⟩
  | true =>
    have fault : 1 ≤ (schedule k c).faults := by simp [Impairment.faults, refused]
    have budget := recoverable.before k (show c + 1 ≤ 10 from copies)
    rw [Schedule.faultsBefore_succ] at budget
    obtain ⟨s', sends, answered⟩ := head.performs hfile fuel NAK
    cases answered with
    | gaveUp ha hg hf he =>
      rcases hg with hten | ⟨_, hne, _⟩
      · omega
      · exact absurd rfl hne
    | again ha hg head' hretry =>
      exact ⟨NAK, s', k, c + 1, by simp [Impairment.onAnswer, refused], sends, head', by omega, by omega,
        channel.refused place⟩

theorem SendHead.refused (recoverable : Recoverable sender file schedule) (compatible : Compatible sender receiver)
    (writable : receiver.ramfile.Writable)
    (before : receiver.ramfile.writeOffset.toNat + (payloadsBefore sender.blksize file k).length ≤
      receiver.ramfile.maxSize.toNat)
    (full : receiver.ramfile.maxSize.toNat ≤
      receiver.ramfile.writeOffset.toNat + (payloadsBefore sender.blksize file (k + 1)).length)
    (hfile : file.length < 2147483648) (channel : Channel forward backward schedule At)
    (head : SendHead sender file k sendState) (retry : sendState.retry = c)
    (receiving : Receiving sender receiver file k receiveState)
    (retries : receiveState.nbRetry ≤ schedule.faultsEarlier k + schedule.faultsBefore k c)
    (faults : c ≤ schedule.faultsBefore k c) (copies : c < 10) (place : At k c leftLog rightLog)
    (hk : k < blockCount sender.blksize file) (hs : 13 ≤ sendFuel + c) (hr : 11 ≤ receiveFuel + c) :
    ∃ s r toLeft toRight l' r', Steps (.ofWires forward backward)
        ⟨lxmodeSendLoop sendFuel sendState >>= afterSend,
          lxmodemReceiveLoop receiveFuel receiveState >>= afterReceive, [], [], leftLog, rightLog⟩
        ⟨afterSend s, afterReceive r, toLeft, toRight, l', r'⟩ ∧
      TurnedAway sender receiver file k s r := by
  induction sendFuel generalizing c sendState receiveState leftLog rightLog receiveFuel with
  | zero => omega
  | succ sendFuel ih =>
    obtain ⟨receiveFuel, rfl⟩ : ∃ n, receiveFuel = n + 1 := ⟨receiveFuel - 1, by omega⟩
    obtain ⟨bytes, arrives, size, intact⟩ := recoverable.arrives hk c
    have budget := recoverable.before k (show c + 1 ≤ 10 from copies)
    rw [Schedule.faultsBefore_succ] at budget
    have frame : forward leftLog (fileFrame sender file k) =
        [[frameHeader (blockPayload sender.blksize file k)],
          UInt8.ofNat (k + 1) :: ~~~UInt8.ofNat (k + 1) :: bytes].flatten := by
      rw [channel.sends place, arrives]
      simp
    rcases intact with rfl | ⟨spoils, fault⟩
    · obtain ⟨r, performs, finished, lost, setup, ramfile⟩ := receiving.overflows compatible writable before full
      have ended : lxmodemReceiveLoop receiveFuel r = .done r := by
        obtain ⟨receiveFuel, rfl⟩ : ∃ n, receiveFuel = n + 1 := ⟨receiveFuel - 1, by omega⟩
        exact whileLoop_false _ (by simp [finished])
      have receives := lxmodemReceiveLoop_performs performs receiving.running receiveFuel
      rw [ended] at receives
      obtain ⟨x, s₁, k', c', answer, sends, head', retry', copies', place'⟩ :=
        @SendHead.goesOn schedule sender file forward backward At k c sendState leftLog rightLog recoverable hfile
          channel head retry faults copies place hk sendFuel
      obtain ⟨sendFuel, rfl⟩ : ∃ n, sendFuel = n + 3 := ⟨sendFuel - 3, by omega⟩
      obtain ⟨s₂, rounds, rest, performs', cans, cancelled⟩ := head'.cancelled hfile retry' copies' sendFuel
      obtain ⟨waiting, writes, waits⟩ := @Performs.of_append _ _ _ _ [.sent (fileFrame sender file k)]
        [.received [x]] (sends.bind afterSend)
      obtain ⟨reads, hreads⟩ : ∃ reads, reads = [[frameHeader (blockPayload sender.blksize file k)],
        UInt8.ofNat (k + 1) :: ~~~UInt8.ofNat (k + 1) :: (blockPayload sender.blksize file k ++
          checkBytes sender.crc16 sender.usesCrc (blockPayload sender.blksize file k))] := ⟨_, rfl⟩
      rw [← hreads] at frame
      have answers : Performs (lxmodemReceiveLoop (receiveFuel + 1) receiveState)
          (reads.map .received ++ [.sent [ACK], .sent [CAN, CAN]]) (.done r) := by
        rw [hreads]
        exact receives
      have cancel : backward (rightLog ++ reads.map .read ++ [.write [ACK] [x]]) [CAN, CAN] = [CAN, CAN] := by
        have carried := channel.answers (place' [] [] reads [ACK]) [] [CAN, CAN]
        rw [List.map_nil, List.append_nil] at carried
        rw [carried]
        simp [Impairment.onAnswer]
      have told := steps_answersTwice writes (answers.bind afterReceive) frame
        ((channel.answers place reads [ACK]).trans answer) cancel
      have heard := @steps_leftReads _ _ forward backward _ _ (afterReceive r) [CAN, CAN] []
        (leftLog ++ [.write (fileFrame sender file k) reads.flatten])
        (rightLog ++ reads.map .read ++ [.write [ACK] [x]] ++ [.write [CAN, CAN] [CAN, CAN]]) [[x]] waits
      obtain ⟨toRight, l', alone, _⟩ := @steps_leftRounds _ _ forward backward _ _ (afterReceive r) rest [] _ _ rounds
        (performs'.bind afterSend)
      rw [cans] at alone
      exact ⟨s₂, r, rest, toRight, l', _, (told.trans heard).trans alone, cancelled, lost, setup, ramfile⟩
    · obtain ⟨r, performs, receiving', hn⟩ := receiving.refuses compatible spoils (by omega)
      have receives := lxmodemReceiveLoop_performs performs receiving.running receiveFuel
      obtain ⟨s₁, sends, answered⟩ := head.performs hfile sendFuel NAK
      cases answered with
      | gaveUp ha hg hf he =>
        rcases hg with hten | ⟨_, hne, _⟩
        · omega
        · exact absurd rfl hne
      | again ha hg head' hretry =>
        have exchange := steps_exchange (sends.bind afterSend) (receives.bind afterReceive) frame
          ((channel.answers place _ [NAK]).trans (by simp [Impairment.onAnswer]))
        obtain ⟨s, r', toLeft, toRight, l', r'', rest, refused⟩ := ih head' (by omega) receiving'
          (by rw [Schedule.faultsBefore_succ]; omega) (by rw [Schedule.faultsBefore_succ]; omega) (by omega)
          (channel.refused place _ _ _ _) (by omega) (show 11 ≤ receiveFuel + (c + 1) by omega)
        exact ⟨s, r', toLeft, toRight, l', r'', exchange.trans rest, refused⟩

structure Agreed (sender receiver : ModemContext) (file : List UInt8) (n : Int32) (receiver' : ModemContext) :
    Prop where
  result : n.toInt = if blocksThatFit receiver sender.blksize file = blockCount sender.blksize file then
    ((paddedFile sender.blksize file).length : ℤ) else -1
  setup : SameSetup receiver receiver'
  ramfile : receiver'.ramfile = receiver.ramfile.appended
    (payloadsBefore sender.blksize file (blocksThatFit receiver sender.blksize file))

variable {afterEmit afterReception : Int32 × ModemContext → Program UInt8 α}

theorem Compatible.settles (compatible : Compatible sender receiver) (writable : receiver.ramfile.Writable)
    (loaded : sender.ramfile.Loaded file) (recoverable : Recoverable sender file schedule)
    (channel : Channel forward backward schedule At)
    (place : ∀ p, At 0 0 (leftLog ++ [.read [p]]) (rightLog ++ [.write [p] [p]]))
    (carried : ∀ p, backward rightLog [p] = [p])
    (hs : 11 * blockCount sender.blksize file + 13 ≤ sendFuel)
    (hr : 11 * blockCount sender.blksize file + 13 ≤ receiveFuel) :
    ∃ n sender' receiver' toLeft toRight l' r', Steps (.ofWires forward backward)
        ⟨lxmodemEmit sendFuel sender >>= afterEmit, lxmodemReceive receiveFuel receiver >>= afterReception,
          [], [], leftLog, rightLog⟩
        ⟨afterEmit (n, sender'), afterReception (n, receiver'), toLeft, toRight, l', r'⟩ ∧
      Agreed sender receiver file n receiver' := by
  have hfile := loaded.length_lt
  have fitting := @blocksThatFit_before receiver sender.blksize file writable
  have hk := @blocksThatFit_le receiver sender.blksize file
  obtain ⟨sendFuel', receiveFuel', s, r, l', r', reached, before, hs', hr'⟩ := @Compatible.reaches α schedule sender
    receiver file forward backward At sendFuel receiveFuel leftLog rightLog afterEmit afterReception _ compatible
    writable blocksThatFit_room loaded recoverable channel place carried hk (by omega) (by omega)
  rcases Nat.lt_or_eq_of_le hk with short | all
  · obtain ⟨s', r'', toLeft, toRight, l'', rlog, ended, refused⟩ := @SendHead.refused α schedule sender receiver file
      forward backward At (fun s => afterEmit (s.emittedBytes.toInt32, s.pThis))
      (fun s => afterReception (s.receivedBytes.toInt32, s.pThis)) _ 0 sendFuel' receiveFuel' s r l' r' recoverable
      compatible writable fitting (blocksThatFit_full short) hfile channel before.head before.retry before.receiving
      before.retries (Nat.zero_le _) (by decide) before.place short (by omega) (by omega)
    have steps := reached.trans ended
    rw [refused.emitted, refused.received] at steps
    refine ⟨-1, s'.pThis, r''.pThis, toLeft, toRight, l'', rlog, steps, ?_, refused.setup, refused.ramfile⟩
    rw [if_neg short.ne]
    rfl
  · rw [all] at before fitting
    obtain ⟨n, sender', receiver', l'', rlog, ended, delivered, _⟩ := @Before.finishes α schedule sender receiver file
      forward backward At sendFuel' receiveFuel' s r l' r' afterEmit afterReception before hfile recoverable channel
      writable fitting (by omega) (by omega)
    refine ⟨n, sender', receiver', [], [], l'', rlog, reached.trans ended, ?_, delivered.received, ?_⟩
    · rw [if_pos all]
      exact delivered.result
    · rw [all]
      exact delivered.ramfile

end Transfer

theorem xmodem_agrees (sender receiver : ModemContext) (file : List UInt8) (schedule : Schedule)
    (loaded : sender.ramfile.Loaded file) (crc16 : receiver.crc16 = sender.crc16)
    (configured : receiver.Configured)
    (opts : sender.opts = receiver.opts ∨
      sender.opts = .lxmodem128WithCrc ∧ receiver.opts = .lxmodem1k)
    (writable : receiver.ramfile.Writable)
    (recoverable : Recoverable { sender with protocol := .xmodem } file schedule) :
    ∃ fuel₀, ∀ fuel ≥ fuel₀, Inevitable (Step (.ofWires schedule.forward schedule.backward))
      (fun s => ∃ (n : Int32) (sender' receiver' : ModemContext), s.Returned (n, sender') (n, receiver') ∧
        Agreed { sender with protocol := .xmodem } { receiver with protocol := .xmodem } file n receiver')
      (.start (lmodemEmit .xmodem fuel sender) (lmodemReceive .xmodem fuel receiver)) := by
  refine ⟨11 * blockCount { sender with protocol := .xmodem }.blksize file + 13, fun fuel hfuel => ?_⟩
  have compatible : Compatible { sender with protocol := .xmodem } { receiver with protocol := .xmodem } :=
    compatible_xmodem rfl rfl crc16 configured opts
  obtain ⟨n, sender', receiver', toLeft, toRight, l', r', steps, agreed⟩ :=
    @Compatible.settles (Int32 × ModemContext) schedule { sender with protocol := .xmodem }
      { receiver with protocol := .xmodem } file schedule.forward schedule.backward AtPlace fuel fuel [] []
      .done .done compatible writable loaded recoverable schedule.channel
      (fun p => ⟨p, [], rfl, rfl, rfl⟩) (fun p => rfl) hfuel hfuel
  rw [Program.bind_done, Program.bind_done] at steps
  refine Inevitable.of_steps (diamond_ofWires _ _) ?_ steps (.now ⟨n, sender', receiver', ⟨rfl, rfl⟩, agreed⟩)
  rintro s ⟨n, sender', receiver', returned, _⟩ s'
  exact returned.no_step

def secondRefused : Schedule := fun i c => if i = 1 ∧ c = 0 then ⟨none, true⟩ else .none

theorem secondRefused_recoverable (sender : ModemContext) (file : List UInt8)
    (blocks : 2 ≤ blockCount sender.blksize file) : Recoverable sender file secondRefused where
  spared := by
    intro i c hi
    have : i ≠ 1 := by omega
    simp [secondRefused, this]
  spoils := by
    intro i c bytes h
    unfold secondRefused at h
    split at h <;> cases h
  consecutive := by
    intro i
    have single (j : ℕ) : secondRefused.faultsOn j ≤ 1 := by
      by_cases hj : j = 1
      · rw [hj]
        decide
      · simp [Schedule.faultsOn, Schedule.faultsBefore, secondRefused, Impairment.faults, Impairment.none, hj]
    have := single i
    have := single (i + 1)
    omega

theorem xmodem_agrees_full :
    ∃ fuel₀, ∀ fuel ≥ fuel₀, Inevitable (Step (.ofWires secondRefused.forward secondRefused.backward))
      (fun s => ∃ (sender' receiver' : ModemContext), s.Returned (-1, sender') (-1, receiver') ∧
        receiver'.ramfile.writeOffset = 128)
      (.start (lmodemEmit .xmodem fuel (checksumSender (List.replicate 129 7)))
        (lmodemReceive .xmodem fuel smallReceiver)) := by
  obtain ⟨fuel₀, h⟩ := xmodem_agrees (checksumSender (List.replicate 129 7)) smallReceiver (List.replicate 129 7)
    secondRefused ⟨⟨by decide +kernel, by decide +kernel⟩, by decide +kernel⟩ rfl rfl (Or.inl rfl)
    ⟨by decide, by decide⟩ (secondRefused_recoverable _ _ (by decide +kernel))
  refine ⟨fuel₀, fun fuel hfuel => (h fuel hfuel).mono ?_⟩
  rintro s ⟨n, sender', receiver', returned, agreed⟩
  have fits : blocksThatFit { smallReceiver with protocol := .xmodem }
      { checksumSender (List.replicate 129 7) with protocol := .xmodem }.blksize (List.replicate 129 7) = 1 := by
    decide +kernel
  have result := agreed.result
  have ramfile := agreed.ramfile
  rw [fits] at result ramfile
  have lost : n = -1 := Int32.toInt_inj.mp (by rw [result]; decide +kernel)
  rw [lost] at returned
  refine ⟨sender', receiver', returned, ?_⟩
  rw [ramfile]
  decide +kernel

end LightModem
