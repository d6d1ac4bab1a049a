import LightModem.Confluence
import LightModem.Storage
import LightModem.Transmission

set_option autoImplicit false

namespace LightModem

open Interaction

/-- What becomes of one copy of a block, and of the answer to it. -/
structure Impairment where
  damage : Option (List UInt8)
  refused : Bool
  deriving DecidableEq

namespace Impairment

def none : Impairment := ⟨.none, false⟩

def onFrame (x : Impairment) (frame : List UInt8) : List UInt8 :=
  match x.damage with
  | .none => frame
  | .some bytes => frame.take 3 ++ bytes

def onAnswer (x : Impairment) (answer : List UInt8) : List UInt8 :=
  if x.refused ∧ answer = [ACK] then [NAK] else answer

def faults (x : Impairment) : ℕ := (if x.damage.isSome then 1 else 0) + (if x.refused then 1 else 0)

end Impairment

abbrev Schedule := ℕ → ℕ → Impairment

namespace Schedule

def faultsBefore (schedule : Schedule) (i c : ℕ) : ℕ := ((List.range c).map (fun k => (schedule i k).faults)).sum

def faultsOn (schedule : Schedule) (i : ℕ) : ℕ := schedule.faultsBefore i 10

def faultsEarlier (schedule : Schedule) : ℕ → ℕ
  | 0 => 0
  | i + 1 => schedule.faultsOn i

variable {schedule : Schedule}

theorem faultsBefore_succ (schedule : Schedule) (i c : ℕ) :
    schedule.faultsBefore i (c + 1) = schedule.faultsBefore i c + (schedule i c).faults := by
  simp [faultsBefore, List.range_succ]

theorem faultsBefore_le (i : ℕ) {c c' : ℕ} (h : c ≤ c') :
    schedule.faultsBefore i c ≤ schedule.faultsBefore i c' := by
  induction h with
  | refl => exact Nat.le_refl _
  | step h ih =>
    rw [faultsBefore_succ]
    omega

end Schedule

def Spoils (sender : ModemContext) (payload bytes : List UInt8) : Prop :=
  bytes.length = payload.length + checkSize sender.usesCrc ∧
    bytes.drop payload.length ≠ checkBytes sender.crc16 sender.usesCrc (bytes.take payload.length)

/-- The retries of both parties can make up for the impairments. The end of the file is spared. -/
structure Recoverable (sender : ModemContext) (file : List UInt8) (schedule : Schedule) : Prop where
  spared : ∀ i c, blockCount sender.blksize file ≤ i → schedule i c = .none
  spoils : ∀ i c bytes, (schedule i c).damage = some bytes →
    Spoils sender (blockPayload sender.blksize file i) bytes
  consecutive : ∀ i, schedule.faultsOn i + schedule.faultsOn (i + 1) ≤ 9

structure Compatible (sender receiver : ModemContext) : Prop where
  crc16 : receiver.crc16 = sender.crc16
  hasCrc : ∀ header blksize, FrameKind receiver header blksize →
    lxmodemBlockHasCrc receiver blksize = sender.usesCrc
  blksize : sender.blksize ≤ receiver.blksize
  preambule : ∃ p, lxmodemBuildAndSendPreambule receiver = putchars [p] ∧
    lxmodemDecodePreambule sender p = true

structure Receiving (sender receiver : ModemContext) (file : List UInt8) (j : ℕ)
    (s : LxmodemReceiveState) : Prop where
  setup : SameSetup receiver s.pThis
  running : s.bFinished = false
  number : s.expectedBlkNumber = UInt8.ofNat (j + 1)
  ramfile : s.pThis.ramfile = receiver.ramfile.appended (payloadsBefore sender.blksize file j)
  bytes : s.receivedBytes.toNat = (payloadsBefore sender.blksize file j).length

structure Room (sender receiver : ModemContext) (file : List UInt8) : Prop where
  writable : receiver.ramfile.Writable
  fits : receiver.ramfile.writeOffset.toNat + (paddedFile sender.blksize file).length <
    receiver.ramfile.maxSize.toNat

section Receive

variable {sender receiver : ModemContext} {file : List UInt8} {i : ℕ} {s : LxmodemReceiveState}

theorem Room.before (h : Room sender receiver file) (hi : i ≤ blockCount sender.blksize file) :
    receiver.ramfile.writeOffset.toNat + (payloadsBefore sender.blksize file i).length <
      receiver.ramfile.maxSize.toNat := by
  have hle := (@payloadsBefore_le sender.blksize file _ _ hi).length_le
  have := h.fits
  rw [paddedFile] at this
  omega

theorem Receiving.writable (h : Receiving sender receiver file i s) (writable : receiver.ramfile.Writable)
    (before : receiver.ramfile.writeOffset.toNat + (payloadsBefore sender.blksize file i).length ≤
      receiver.ramfile.maxSize.toNat) : s.pThis.ramfile.Writable := by
  rw [h.ramfile]
  exact appended_writable writable.size before

theorem Compatible.frameKind (h : Compatible sender receiver) (file : List UInt8) (i : ℕ) :
    FrameKind receiver (frameHeader (blockPayload sender.blksize file i))
      (blockPayload sender.blksize file i).length := by
  have hb := blksize_eq sender
  have hlen := blockPayload_length sender.blksize file i (by rcases hb with h | h <;> omega)
  rcases blockSize_eq (min sender.blksize (file.length - i * sender.blksize)) with hsize | hsize
  · rw [hlen, hsize, frameHeader, hlen, hsize]
    exact Or.inl ⟨rfl, rfl⟩
  · have hlarge : receiver.blksize = 1024 := by
      have hle := h.blksize
      have hr := blksize_eq receiver
      unfold blockSize at hsize
      split at hsize
      · cases hsize
      · omega
    rw [hlen, hsize, frameHeader, hlen, hsize]
    refine Or.inr ⟨rfl, rfl, ?_⟩
    unfold ModemContext.blksize at hlarge
    split at hlarge
    · assumption
    · cases hlarge

theorem Receiving.kind (h : Receiving sender receiver file i s) (compatible : Compatible sender receiver)
    (j : ℕ) : FrameKind s.pThis (frameHeader (blockPayload sender.blksize file j))
      (blockPayload sender.blksize file j).length :=
  h.setup.frameKind.mp (compatible.frameKind file j)

theorem Receiving.hasCrc (h : Receiving sender receiver file i s) (compatible : Compatible sender receiver)
    (j : ℕ) : lxmodemBlockHasCrc s.pThis (blockPayload sender.blksize file j).length = sender.usesCrc := by
  rw [← h.setup.blockHasCrc]
  exact compatible.hasCrc _ _ (compatible.frameKind file j)

theorem Receiving.crc16 (h : Receiving sender receiver file i s) (compatible : Compatible sender receiver) :
    s.pThis.crc16 = sender.crc16 := by
  rw [← h.setup.crc16, compatible.crc16]

theorem Receiving.failed (h : Receiving sender receiver file i s) {t : List (Event UInt8)}
    {s' : LxmodemReceiveState} (hf : ReceiveFailure s t s') (running : s'.bFinished = false)
    (budget : s.nbRetry + 1 < 10) :
    ∃ s'', Performs (lxmodemReceiveTurn s) t (.done s'') ∧ Receiving sender receiver file i s'' ∧
      s''.nbRetry = s.nbRetry + 1 := by
  have hn := hf.nbRetry
  have hu := hf.untouched
  have early : s'.nbRetry + 1 < 10 := by omega
  have performs := hf.performs.trans (performs_retry s')
  rw [retryEvents_early early, List.append_nil, retried_early early] at performs
  refine ⟨_, performs, ⟨h.setup.trans hu.setup, running, hu.blkNumber.trans h.number,
    hu.ramfile.trans h.ramfile, ?_⟩, by simp [hn]⟩
  rcases hu.result with ⟨_, hb⟩ | ⟨hb, _⟩
  · exact (congrArg UInt32.toNat hb).trans h.bytes
  · rw [hb] at running
    cases running

theorem Receiving.stored (h : Receiving sender receiver file i s) (writable : receiver.ramfile.Writable)
    (after : receiver.ramfile.writeOffset.toNat + (payloadsBefore sender.blksize file (i + 1)).length ≤
      receiver.ramfile.maxSize.toNat) (body : List UInt8) :
    Receiving sender receiver file (i + 1) ((s.filled body).stored (blockPayload sender.blksize file i)) := by
  have size := writable.size
  rw [payloadsBefore_succ, List.length_append] at after
  refine ⟨h.setup.trans ⟨rfl, rfl, rfl, rfl, rfl, rfl⟩, h.running, s.stored_number body _ h.number, ?_, ?_⟩
  · rw [payloadsBefore_succ]
    exact s.stored_ramfile body size (by omega) h.ramfile
  · rw [payloadsBefore_succ]
    exact s.stored_bytes body (by omega) h.bytes

theorem Receiving.stores (h : Receiving sender receiver file i s) (compatible : Compatible sender receiver)
    (writable : receiver.ramfile.Writable)
    (after : receiver.ramfile.writeOffset.toNat + (payloadsBefore sender.blksize file (i + 1)).length <
      receiver.ramfile.maxSize.toNat) :
    ∃ s', Performs (lxmodemReceiveTurn s) [.received [frameHeader (blockPayload sender.blksize file i)],
        .received (frameBody sender.crc16 sender.usesCrc (UInt8.ofNat (i + 1))
          (blockPayload sender.blksize file i)), .sent [ACK]] (.done s') ∧
      Receiving sender receiver file (i + 1) s' ∧ s'.nbRetry = 0 := by
  have kind := h.kind compatible i
  have size := writable.size
  have before : receiver.ramfile.writeOffset.toNat + (payloadsBefore sender.blksize file i).length ≤
      receiver.ramfile.maxSize.toNat := by
    rw [payloadsBefore_succ, List.length_append] at after
    omega
  have body : s.body (blockPayload sender.blksize file i) = frameBody sender.crc16 sender.usesCrc
      (UInt8.ofNat (i + 1)) (blockPayload sender.blksize file i) := by
    rw [LxmodemReceiveState.body, h.crc16 compatible, h.hasCrc compatible, h.number]
  have fits : s.pThis.ramfile.writeOffset.toNat + (blockPayload sender.blksize file i).length <
      s.pThis.ramfile.maxSize.toNat := by
    rw [payloadsBefore_succ, List.length_append] at after
    rw [h.ramfile, appended_writeOffset size before, appended_maxSize]
    omega
  have performs := (ReceiveTurn.stored _ _ kind fits).performs (h.writable writable before)
  rw [body] at performs
  exact ⟨_, performs, h.stored writable after.le _, rfl⟩

theorem Spoils.check {pThis : ModemContext} {payload bytes : List UInt8} (spoils : Spoils sender payload bytes)
    (n : UInt8) (hcrc : lxmodemBlockHasCrc pThis payload.length = sender.usesCrc)
    (crc16 : pThis.crc16 = sender.crc16) :
    lxmodemCheckBlockNoAndCrc (pThis.fill (n :: ~~~n :: bytes)) n payload.length = .recvError := by
  obtain ⟨hlen, hcheck⟩ := spoils
  have hdata : (bytes.take payload.length).length = payload.length := by
    rw [List.length_take]
    omega
  have hrest : (bytes.drop payload.length).length = checkSize (lxmodemBlockHasCrc pThis payload.length) := by
    rw [List.length_drop, hcrc]
    omega
  have parts := lxmodemCheckBlockNoAndCrc_fill pThis n n (~~~n) hdata hrest
  rw [List.take_append_drop] at parts
  rw [parts, if_pos ⟨rfl, rfl⟩, hcrc, crc16, if_neg hcheck]

theorem Receiving.refuses (h : Receiving sender receiver file i s) (compatible : Compatible sender receiver)
    {bytes : List UInt8} (spoils : Spoils sender (blockPayload sender.blksize file i) bytes)
    (budget : s.nbRetry + 1 < 10) :
    ∃ s', Performs (lxmodemReceiveTurn s) [.received [frameHeader (blockPayload sender.blksize file i)],
        .received (UInt8.ofNat (i + 1) :: ~~~UInt8.ofNat (i + 1) :: bytes), .sent [NAK]] (.done s') ∧
      Receiving sender receiver file i s' ∧ s'.nbRetry = s.nbRetry + 1 := by
  have kind := h.kind compatible i
  have hcrc := h.hasCrc compatible i
  have hlen := spoils.1
  have status := spoils.check (UInt8.ofNat (i + 1)) hcrc (h.crc16 compatible)
  rw [← h.number] at status ⊢
  exact h.failed (.bad _ _ _ kind (by simp only [List.length_cons, bodySize, hcrc]; omega) status)
    h.running budget

theorem Receiving.repeats (h : Receiving sender receiver file (i + 1) s)
    (compatible : Compatible sender receiver) {bytes : List UInt8}
    (size : bytes.length = (blockPayload sender.blksize file i).length + checkSize sender.usesCrc)
    (budget : s.nbRetry + 1 < 10) :
    ∃ s', Performs (lxmodemReceiveTurn s) [.received [frameHeader (blockPayload sender.blksize file i)],
        .received (UInt8.ofNat (i + 1) :: ~~~UInt8.ofNat (i + 1) :: bytes), .sent [ACK]] (.done s') ∧
      Receiving sender receiver file (i + 1) s' ∧ s'.nbRetry = s.nbRetry + 1 := by
  have kind := h.kind compatible i
  have hcrc := h.hasCrc compatible i
  have hsize : (UInt8.ofNat (i + 1) :: ~~~UInt8.ofNat (i + 1) :: bytes).length =
      bodySize s.pThis (blockPayload sender.blksize file i).length := by
    simp only [List.length_cons, bodySize, hcrc]
    omega
  have previous : s.expectedBlkNumber - 1 = UInt8.ofNat (i + 1) := by
    rw [h.number, UInt8.ofNat_add (i + 1) 1]
    exact UInt8.add_sub_cancel _ _
  have status := (lxmodemCheckBlockNoAndCrc_previous s.pThis s.expectedBlkNumber hsize).mpr
    (by rw [previous]; rfl)
  exact h.failed (.repeated _ _ _ kind hsize status) h.running budget

theorem Receiving.ends (h : Receiving sender receiver file i s) (writable : receiver.ramfile.Writable)
    (before : receiver.ramfile.writeOffset.toNat + (payloadsBefore sender.blksize file i).length ≤
      receiver.ramfile.maxSize.toNat) :
    ∃ s', Performs (lxmodemReceiveTurn s) [.received [EOT], .sent [ACK]] (.done s') ∧
      s'.bFinished = true ∧ SameSetup receiver s'.pThis ∧
      s'.pThis.ramfile = receiver.ramfile.appended (payloadsBefore sender.blksize file i) ∧
      s'.receivedBytes.toNat = (payloadsBefore sender.blksize file i).length :=
  ⟨_, ReceiveTurn.endOfFile.performs (h.writable writable before), rfl, h.setup, h.ramfile, h.bytes⟩

end Receive

inductive Progress (schedule : Schedule) (sender receiver : ModemContext) (file : List UInt8) (i c : ℕ)
    (s : LxmodemReceiveState) : Prop
  | waiting (receiving : Receiving sender receiver file i s)
      (retries : s.nbRetry ≤ schedule.faultsEarlier i + schedule.faultsBefore i c)
  | stored (receiving : Receiving sender receiver file (i + 1) s)
      (retries : s.nbRetry + 1 ≤ schedule.faultsBefore i c)

section Round

variable {schedule : Schedule} {sender receiver : ModemContext} {file : List UInt8} {i c : ℕ}
  {s : LxmodemReceiveState}

theorem Recoverable.earlier (h : Recoverable sender file schedule) (i : ℕ) :
    schedule.faultsEarlier i + schedule.faultsOn i ≤ 9 := by
  cases i with
  | zero =>
    have := h.consecutive 0
    change 0 + _ ≤ 9
    omega
  | succ i => exact h.consecutive i

theorem Recoverable.before (h : Recoverable sender file schedule) (i : ℕ) (hc : c ≤ 10) :
    schedule.faultsEarlier i + schedule.faultsBefore i c ≤ 9 := by
  have := h.earlier i
  have := @Schedule.faultsBefore_le schedule i c 10 hc
  rw [Schedule.faultsOn] at *
  omega

theorem Recoverable.arrives (h : Recoverable sender file schedule) (hi : i < blockCount sender.blksize file)
    (c : ℕ) :
    ∃ bytes, (schedule i c).onFrame (fileFrame sender file i) =
        frameHeader (blockPayload sender.blksize file i) :: UInt8.ofNat (i + 1) ::
          ~~~UInt8.ofNat (i + 1) :: bytes ∧
      bytes.length = (blockPayload sender.blksize file i).length + checkSize sender.usesCrc ∧
      (bytes = blockPayload sender.blksize file i ++
          checkBytes sender.crc16 sender.usesCrc (blockPayload sender.blksize file i) ∨
        Spoils sender (blockPayload sender.blksize file i) bytes ∧ 1 ≤ (schedule i c).faults) := by
  rw [fileFrame, if_pos hi, Impairment.onFrame, Impairment.faults]
  cases hd : (schedule i c).damage with
  | none => exact ⟨_, rfl, by simp, Or.inl rfl⟩
  | some bytes =>
    have spoils := h.spoils i c bytes hd
    exact ⟨bytes, rfl, spoils.1, Or.inr ⟨spoils, by simp⟩⟩

theorem Progress.round (h : Progress schedule sender receiver file i c s)
    (recoverable : Recoverable sender file schedule) (compatible : Compatible sender receiver)
    (writable : receiver.ramfile.Writable)
    (after : receiver.ramfile.writeOffset.toNat + (payloadsBefore sender.blksize file (i + 1)).length <
      receiver.ramfile.maxSize.toNat) (hi : i < blockCount sender.blksize file) (hc : c < 10) :
    ∃ (reads : List (List UInt8)) (a : List UInt8) (s' : LxmodemReceiveState),
      (schedule i c).onFrame (fileFrame sender file i) = reads.flatten ∧
      Performs (lxmodemReceiveTurn s) (reads.map .received ++ [.sent a]) (.done s') ∧
      ((schedule i c).onAnswer a = [ACK] ∧ Progress schedule sender receiver file (i + 1) 0 s' ∨
        (schedule i c).onAnswer a = [NAK] ∧ Progress schedule sender receiver file i (c + 1) s' ∧
          1 ≤ (schedule i c).faults) := by
  obtain ⟨bytes, arrives, size, intact⟩ := recoverable.arrives hi c
  have before := recoverable.before i (show c + 1 ≤ 10 from hc)
  have whole := @Schedule.faultsBefore_le schedule i c 10 hc.le
  rw [Schedule.faultsBefore_succ] at before
  have frame : (schedule i c).onFrame (fileFrame sender file i) =
      [[frameHeader (blockPayload sender.blksize file i)],
        UInt8.ofNat (i + 1) :: ~~~UInt8.ofNat (i + 1) :: bytes].flatten := by
    rw [arrives]
    simp
  cases h with
  | stored receiving retries =>
    obtain ⟨s', performs, receiving', hn⟩ := receiving.repeats compatible size (by omega)
    refine ⟨_, [ACK], s', frame, performs, ?_⟩
    cases hr : (schedule i c).refused with
    | false =>
      refine Or.inl ⟨by simp [Impairment.onAnswer, hr], .waiting receiving' ?_⟩
      change s'.nbRetry ≤ schedule.faultsBefore i 10 + 0
      omega
    | true =>
      have fault : 1 ≤ (schedule i c).faults := by simp [Impairment.faults, hr]
      refine Or.inr ⟨by simp [Impairment.onAnswer, hr], .stored receiving' ?_, fault⟩
      rw [Schedule.faultsBefore_succ]
      omega
  | waiting receiving retries =>
    rcases intact with rfl | ⟨spoils, fault⟩
    · obtain ⟨s', performs, receiving', hn⟩ := receiving.stores compatible writable after
      refine ⟨_, [ACK], s', frame, performs, ?_⟩
      cases hr : (schedule i c).refused with
      | false => exact Or.inl ⟨by simp [Impairment.onAnswer, hr], .waiting receiving' (by omega)⟩
      | true =>
        have fault : 1 ≤ (schedule i c).faults := by simp [Impairment.faults, hr]
        refine Or.inr ⟨by simp [Impairment.onAnswer, hr], .stored receiving' ?_, fault⟩
        rw [Schedule.faultsBefore_succ]
        omega
    · obtain ⟨s', performs, receiving', hn⟩ := receiving.refuses compatible spoils (by omega)
      refine ⟨_, [NAK], s', frame, performs, Or.inr ⟨by simp [Impairment.onAnswer], ?_, fault⟩⟩
      apply Progress.waiting receiving'
      rw [Schedule.faultsBefore_succ]
      omega

end Round

structure Channel (forward backward : Wire UInt8) (schedule : Schedule)
    (At : ℕ → ℕ → List (Label UInt8) → List (Label UInt8) → Prop) : Prop where
  sends : ∀ {i c l r}, At i c l r → ∀ frame, forward l frame = (schedule i c).onFrame frame
  answers : ∀ {i c l r}, At i c l r → ∀ (reads : List (List UInt8)) answer,
    backward (r ++ reads.map .read) answer = (schedule i c).onAnswer answer
  acknowledged : ∀ {i c l r}, At i c l r → ∀ frame arrived (reads : List (List UInt8)) answer,
    At (i + 1) 0 (l ++ [.write frame arrived, .read [ACK]]) (r ++ reads.map .read ++ [.write answer [ACK]])
  refused : ∀ {i c l r}, At i c l r → ∀ frame arrived (reads : List (List UInt8)) answer,
    At i (c + 1) (l ++ [.write frame arrived, .read [NAK]]) (r ++ reads.map .read ++ [.write answer [NAK]])

structure Sent (sender : ModemContext) (file : List UInt8) (s : LxmodeSendState) : Prop where
  setup : SameSetup sender s.pThis
  bytes : s.emittedBytes.toNat = (paddedFile sender.blksize file).length

structure Received (sender receiver : ModemContext) (file : List UInt8) (s : LxmodemReceiveState) :
    Prop where
  setup : SameSetup receiver s.pThis
  ramfile : s.pThis.ramfile = receiver.ramfile.appended (paddedFile sender.blksize file)
  bytes : s.receivedBytes.toNat = (paddedFile sender.blksize file).length

section Transfer

variable {α : Type} {schedule : Schedule} {sender receiver : ModemContext} {file : List UInt8}
  {forward backward : Wire UInt8} {At : ℕ → ℕ → List (Label UInt8) → List (Label UInt8) → Prop}
  {afterSend : LxmodeSendState → Program UInt8 α} {afterReceive : LxmodemReceiveState → Program UInt8 α}
  {i c sendFuel receiveFuel : ℕ} {sendState : LxmodeSendState} {receiveState : LxmodemReceiveState}
  {leftLog rightLog : List (Label UInt8)}

theorem SendHead.performs (head : SendHead sender file i sendState) (hfile : file.length < 2147483648)
    (fuel : ℕ) (b : UInt8) :
    ∃ s', Performs (lxmodeSendLoop (fuel + 1) sendState) [.sent (fileFrame sender file i), .received [b]]
        (lxmodeSendLoop fuel s') ∧ Answered sender file i sendState.retry (some b) s' := by
  obtain ⟨s', performs, answered⟩ := lxmodeSendTurn_performs hfile head (.came b rfl)
  exact ⟨s', performs.whileLoop (by simp [head.running]) fuel, answered⟩

theorem lxmodemReceiveLoop_performs {s s' : LxmodemReceiveState} {t : List (Event UInt8)}
    (h : Performs (lxmodemReceiveTurn s) t (.done s')) (running : s.bFinished = false) (fuel : ℕ) :
    Performs (lxmodemReceiveLoop (fuel + 1) s) t (lxmodemReceiveLoop fuel s') :=
  h.whileLoop (by simp [running]) fuel

theorem Progress.running (h : Progress schedule sender receiver file i c receiveState) :
    receiveState.bFinished = false := by
  cases h with
  | waiting receiving retries => exact receiving.running
  | stored receiving retries => exact receiving.running

theorem SendHead.finishes (head : SendHead sender file i sendState) (hfile : file.length < 2147483648)
    (last : i = blockCount sender.blksize file) (recoverable : Recoverable sender file schedule)
    (channel : Channel forward backward schedule At) (place : At i c leftLog rightLog)
    (writable : receiver.ramfile.Writable)
    (fits : receiver.ramfile.writeOffset.toNat + (paddedFile sender.blksize file).length ≤
      receiver.ramfile.maxSize.toNat) (receiving : Receiving sender receiver file i receiveState) :
    ∃ s r l' r', Steps (.ofWires forward backward)
        ⟨lxmodeSendLoop (sendFuel + 2) sendState >>= afterSend,
          lxmodemReceiveLoop (receiveFuel + 2) receiveState >>= afterReceive, [], [], leftLog, rightLog⟩
        ⟨afterSend s, afterReceive r, [], [], l', r'⟩ ∧
      Sent sender file s ∧ Received sender receiver file r ∧
      At (blockCount sender.blksize file + 1) 0 l' r' := by
  obtain ⟨s', sends, answered⟩ := head.performs hfile (sendFuel + 1) ACK
  obtain ⟨r', receives, finished, setup, ramfile, bytes⟩ := receiving.ends writable (by rw [last]; exact fits)
  have spared := recoverable.spared i c last.ge
  have frame : fileFrame sender file i = [EOT] := fileFrame_eq_EOT.mpr (by omega)
  rw [frame] at sends
  rw [last, ← paddedFile] at ramfile bytes
  cases answered with
  | next hi head' hr => omega
  | again ha hg head' hr => exact absurd rfl ha
  | gaveUp ha hg hf he => exact absurd rfl ha
  | finished hi hf he setup' =>
    have left : lxmodeSendLoop (sendFuel + 1) s' = .done s' := whileLoop_false _ (by simp [hf])
    have right : lxmodemReceiveLoop (receiveFuel + 1) r' = .done r' := whileLoop_false _ (by simp [finished])
    have receives' := lxmodemReceiveLoop_performs receives receiving.running (receiveFuel + 1)
    rw [left] at sends
    rw [right] at receives'
    refine ⟨s', r', _, _, @steps_exchange _ _ forward backward _ _ _ _ leftLog rightLog [EOT] [ACK] [ACK]
      [[EOT]] (sends.bind afterSend) (receives'.bind afterReceive) ?_ ?_, ⟨setup', he⟩,
      ⟨setup, ramfile, bytes⟩, last ▸ channel.acknowledged place _ _ _ _⟩
    · rw [channel.sends place, spared]
      rfl
    · rw [channel.answers place, spared]
      rfl

theorem Progress.reaches {k : ℕ} (recoverable : Recoverable sender file schedule)
    (compatible : Compatible sender receiver) (writable : receiver.ramfile.Writable)
    (fits : 0 < k → receiver.ramfile.writeOffset.toNat + (payloadsBefore sender.blksize file k).length <
      receiver.ramfile.maxSize.toNat) (hfile : file.length < 2147483648)
    (channel : Channel forward backward schedule At)
    (h : Progress schedule sender receiver file i c receiveState) (head : SendHead sender file i sendState)
    (retry : sendState.retry = c) (faults : c ≤ schedule.faultsBefore i c) (copies : c < 10)
    (place : At i c leftLog rightLog) (hk : k ≤ blockCount sender.blksize file) (hi : i ≤ k) (hc : i = k → c = 0)
    (hs : 11 * (k - i) + (11 - c) ≤ sendFuel) (hr : 11 * (k - i) + (11 - c) ≤ receiveFuel) :
    ∃ sendFuel' receiveFuel' s r l' r', Steps (.ofWires forward backward)
        ⟨lxmodeSendLoop sendFuel sendState >>= afterSend,
          lxmodemReceiveLoop receiveFuel receiveState >>= afterReceive, [], [], leftLog, rightLog⟩
        ⟨lxmodeSendLoop sendFuel' s >>= afterSend, lxmodemReceiveLoop receiveFuel' r >>= afterReceive, [], [],
          l', r'⟩ ∧
      SendHead sender file k s ∧ s.retry = 0 ∧ Receiving sender receiver file k r ∧
      r.nbRetry ≤ schedule.faultsEarlier k ∧ At k 0 l' r' ∧
      sendFuel + 11 ≤ sendFuel' + (11 * (k - i) + (11 - c)) ∧
      receiveFuel + 11 ≤ receiveFuel' + (11 * (k - i) + (11 - c)) := by
  induction sendFuel generalizing i c sendState receiveState leftLog rightLog receiveFuel with
  | zero => omega
  | succ sendFuel ih =>
    rcases Nat.lt_or_eq_of_le hi with before | rfl
    · obtain ⟨receiveFuel, rfl⟩ : ∃ n, receiveFuel = n + 1 := ⟨receiveFuel - 1, by omega⟩
      have after : receiver.ramfile.writeOffset.toNat + (payloadsBefore sender.blksize file (i + 1)).length <
          receiver.ramfile.maxSize.toNat := by
        have hle := (@payloadsBefore_le sender.blksize file (i + 1) k before).length_le
        have := fits (by omega)
        omega
      obtain ⟨reads, a, r, arrives, receives, outcome⟩ :=
        h.round recoverable compatible writable after (by omega) copies
      have receives' := lxmodemReceiveLoop_performs receives h.running receiveFuel
      have carried : forward leftLog (fileFrame sender file i) = reads.flatten := by
        rw [channel.sends place, arrives]
      rcases outcome with ⟨answer, progress⟩ | ⟨answer, progress, fault⟩
      · obtain ⟨s', sends, answered⟩ := head.performs hfile sendFuel ACK
        cases answered with
        | finished hi' hf he setup' => omega
        | again ha hg head' hr => exact absurd rfl ha
        | gaveUp ha hg hf he => exact absurd rfl ha
        | next hi' head' hretry =>
          have exchange := steps_exchange (sends.bind afterSend) (receives'.bind afterReceive) carried
            ((channel.answers place reads a).trans answer)
          obtain ⟨sendFuel', receiveFuel', s, r', l', r'', rest, reached⟩ := ih progress head' hretry
            (Nat.zero_le _) (by omega) (channel.acknowledged place _ _ _ _) before (fun _ => rfl) (by omega)
            (show 11 * (k - (i + 1)) + (11 - 0) ≤ receiveFuel by omega)
          obtain ⟨head'', hretry', receiving, retries, place', hs', hr'⟩ := reached
          exact ⟨sendFuel', receiveFuel', s, r', l', r'', exchange.trans rest, head'', hretry', receiving, retries,
            place', by omega, by omega⟩
      · obtain ⟨s', sends, answered⟩ := head.performs hfile sendFuel NAK
        have budget := recoverable.before i (show c + 1 ≤ 10 from copies)
        rw [Schedule.faultsBefore_succ] at budget
        cases answered with
        | gaveUp ha hg hf he =>
          rcases hg with hten | ⟨_, hne, _⟩
          · omega
          · exact absurd rfl hne
        | again ha hg head' hretry =>
          have exchange := steps_exchange (sends.bind afterSend) (receives'.bind afterReceive) carried
            ((channel.answers place reads a).trans answer)
          obtain ⟨sendFuel', receiveFuel', s, r', l', r'', rest, reached⟩ := ih progress head' (by omega)
            (by rw [Schedule.faultsBefore_succ]; omega) (by omega) (channel.refused place _ _ _ _) hi
            (fun last => by omega) (by omega)
            (show 11 * (k - i) + (11 - (c + 1)) ≤ receiveFuel by omega)
          obtain ⟨head'', hretry', receiving, retries, place', hs', hr'⟩ := reached
          exact ⟨sendFuel', receiveFuel', s, r', l', r'', exchange.trans rest, head'', hretry', receiving, retries,
            place', by omega, by omega⟩
    · obtain rfl := hc rfl
      cases h with
      | waiting receiving retries =>
        exact ⟨_, _, sendState, receiveState, leftLog, rightLog, .refl, head, retry, receiving, retries, place,
          by omega, by omega⟩
      | stored receiving retries =>
        have none : schedule.faultsBefore i 0 = 0 := rfl
        omega

structure Delivered (sender receiver : ModemContext) (file : List UInt8) (n : Int32)
    (sender' receiver' : ModemContext) : Prop where
  result : n.toInt = (paddedFile sender.blksize file).length
  emitted : SameSetup sender sender'
  received : SameSetup receiver receiver'
  ramfile : receiver'.ramfile = receiver.ramfile.appended (paddedFile sender.blksize file)

variable {afterEmit afterReception : Int32 × ModemContext → Program UInt8 α}

theorem receiving_initial (sender receiver : ModemContext) (file : List UInt8) :
    Receiving sender receiver file 0 (.initial receiver) where
  setup := .refl _
  running := rfl
  number := rfl
  ramfile := (appended_nil _).symm
  bytes := rfl

theorem Compatible.begins (compatible : Compatible sender receiver) (carried : ∀ p, backward rightLog [p] = [p]) :
    ∃ p, Steps (.ofWires forward backward)
      ⟨lxmodemEmit sendFuel sender >>= afterEmit, lxmodemReceive receiveFuel receiver >>= afterReception,
        [], [], leftLog, rightLog⟩
      ⟨lxmodeSendLoop sendFuel (.initial sender) >>= fun s => afterEmit (s.emittedBytes.toInt32, s.pThis),
        lxmodemReceiveLoop receiveFuel (.initial receiver) >>=
          fun s => afterReception (s.receivedBytes.toInt32, s.pThis), [], [],
        leftLog ++ [.read [p]], rightLog ++ [.write [p] [p]]⟩ := by
  obtain ⟨p, sends, decodes⟩ := compatible.preambule
  have asks : Performs (lxmodemReceive receiveFuel receiver) [.sent [p]]
      (lxmodemReceiveLoop receiveFuel (.initial receiver) >>=
        fun s => .done (s.receivedBytes.toInt32, s.pThis)) := by
    rw [lxmodemReceive, sends]
    exact .write (.refl _)
  have asked : Performs (lxmodemEmit sendFuel sender) [.received [p]]
      (lxmodeSendLoop sendFuel (.initial sender) >>= fun s => .done (s.emittedBytes.toInt32, s.pThis)) := by
    have wait : Awaits (fun _ => true) 10 [.received [p]] (some p) := .came p rfl
    have performs := wait.performs.bind (emitAfter sendFuel sender)
    rw [Program.done_bind, emitAfter, decodes] at performs
    rw [lxmodemEmit_eq]
    exact performs
  have begins := @steps_leftwards _ _ forward backward _ _ _ _ [] leftLog rightLog [p] [[p]]
    (asks.bind afterReception) (asked.bind afterEmit) (by rw [carried]; rfl)
  rw [bind_assoc, bind_assoc] at begins
  exact ⟨p, begins⟩

structure Before (schedule : Schedule) (At : ℕ → ℕ → List (Label UInt8) → List (Label UInt8) → Prop)
    (sender receiver : ModemContext) (file : List UInt8) (k : ℕ) (s : LxmodeSendState) (r : LxmodemReceiveState)
    (leftLog rightLog : List (Label UInt8)) : Prop where
  head : SendHead sender file k s
  retry : s.retry = 0
  receiving : Receiving sender receiver file k r
  retries : r.nbRetry ≤ schedule.faultsEarlier k
  place : At k 0 leftLog rightLog

theorem Compatible.reaches {k : ℕ} (compatible : Compatible sender receiver) (writable : receiver.ramfile.Writable)
    (fits : 0 < k → receiver.ramfile.writeOffset.toNat + (payloadsBefore sender.blksize file k).length <
      receiver.ramfile.maxSize.toNat) (loaded : sender.ramfile.Loaded file)
    (recoverable : Recoverable sender file schedule) (channel : Channel forward backward schedule At)
    (place : ∀ p, At 0 0 (leftLog ++ [.read [p]]) (rightLog ++ [.write [p] [p]]))
    (carried : ∀ p, backward rightLog [p] = [p]) (hk : k ≤ blockCount sender.blksize file)
    (hs : 11 * k + 11 ≤ sendFuel) (hr : 11 * k + 11 ≤ receiveFuel) :
    ∃ sendFuel' receiveFuel' s r l' r', Steps (.ofWires forward backward)
        ⟨lxmodemEmit sendFuel sender >>= afterEmit, lxmodemReceive receiveFuel receiver >>= afterReception,
          [], [], leftLog, rightLog⟩
        ⟨lxmodeSendLoop sendFuel' s >>= fun s => afterEmit (s.emittedBytes.toInt32, s.pThis),
          lxmodemReceiveLoop receiveFuel' r >>= fun s => afterReception (s.receivedBytes.toInt32, s.pThis), [], [],
          l', r'⟩ ∧
      Before schedule At sender receiver file k s r l' r' ∧ sendFuel ≤ sendFuel' + 11 * k ∧
      receiveFuel ≤ receiveFuel' + 11 * k := by
  obtain ⟨p, begins⟩ := @Compatible.begins α sender receiver forward backward sendFuel receiveFuel leftLog
    rightLog afterEmit afterReception compatible carried
  obtain ⟨sendFuel', receiveFuel', s, r, l', r', reached, head, retry, receiving, retries, place', hs', hr'⟩ :=
    @Progress.reaches α schedule sender receiver file forward backward At
      (fun s => afterEmit (s.emittedBytes.toInt32, s.pThis))
      (fun s => afterReception (s.receivedBytes.toInt32, s.pThis)) 0 0 sendFuel receiveFuel (.initial sender)
      (.initial receiver) _ _ k recoverable compatible writable fits loaded.length_lt channel
      (.waiting (receiving_initial sender receiver file) (Nat.zero_le _)) (sendHead_initial loaded) rfl
      (Nat.zero_le _) (by omega) (place p) hk (Nat.zero_le _) (fun _ => rfl) (by omega) (by omega)
  exact ⟨sendFuel', receiveFuel', s, r, l', r', begins.trans reached, ⟨head, retry, receiving, retries, place'⟩,
    by omega, by omega⟩

theorem Before.finishes (before : Before schedule At sender receiver file (blockCount sender.blksize file)
      sendState receiveState leftLog rightLog) (hfile : file.length < 2147483648)
    (recoverable : Recoverable sender file schedule) (channel : Channel forward backward schedule At)
    (writable : receiver.ramfile.Writable)
    (fits : receiver.ramfile.writeOffset.toNat + (paddedFile sender.blksize file).length ≤
      receiver.ramfile.maxSize.toNat) (hs : 2 ≤ sendFuel) (hr : 2 ≤ receiveFuel) :
    ∃ n sender' receiver' l' r', Steps (.ofWires forward backward)
        ⟨lxmodeSendLoop sendFuel sendState >>= fun s => afterEmit (s.emittedBytes.toInt32, s.pThis),
          lxmodemReceiveLoop receiveFuel receiveState >>=
            fun s => afterReception (s.receivedBytes.toInt32, s.pThis), [], [], leftLog, rightLog⟩
        ⟨afterEmit (n, sender'), afterReception (n, receiver'), [], [], l', r'⟩ ∧
      Delivered sender receiver file n sender' receiver' ∧ At (blockCount sender.blksize file + 1) 0 l' r' := by
  obtain ⟨sendFuel, rfl⟩ := Nat.exists_eq_add_of_le' hs
  obtain ⟨receiveFuel, rfl⟩ := Nat.exists_eq_add_of_le' hr
  obtain ⟨s, r, l', r', ended, sent, received, place⟩ := @SendHead.finishes α schedule sender receiver file forward
    backward At (fun s => afterEmit (s.emittedBytes.toInt32, s.pThis))
    (fun s => afterReception (s.receivedBytes.toInt32, s.pThis)) _ 0 sendFuel receiveFuel sendState receiveState
    leftLog rightLog before.head hfile rfl recoverable channel before.place writable fits before.receiving
  have same : s.emittedBytes = r.receivedBytes := UInt32.toNat_inj.mp (sent.bytes.trans received.bytes.symm)
  rw [same] at ended
  have := writable.size
  refine ⟨r.receivedBytes.toInt32, s.pThis, r.pThis, l', r', ended, ⟨?_, sent.setup, received.setup,
    received.ramfile⟩, place⟩
  rw [toInt_toInt32 (by rw [received.bytes]; omega), received.bytes]

theorem Compatible.delivers (compatible : Compatible sender receiver) (room : Room sender receiver file)
    (loaded : sender.ramfile.Loaded file) (recoverable : Recoverable sender file schedule)
    (channel : Channel forward backward schedule At)
    (place : ∀ p, At 0 0 (leftLog ++ [.read [p]]) (rightLog ++ [.write [p] [p]]))
    (carried : ∀ p, backward rightLog [p] = [p])
    (hs : 11 * blockCount sender.blksize file + 11 < sendFuel)
    (hr : 11 * blockCount sender.blksize file + 11 < receiveFuel) :
    ∃ n sender' receiver' l' r', Steps (.ofWires forward backward)
        ⟨lxmodemEmit sendFuel sender >>= afterEmit, lxmodemReceive receiveFuel receiver >>= afterReception,
          [], [], leftLog, rightLog⟩
        ⟨afterEmit (n, sender'), afterReception (n, receiver'), [], [], l', r'⟩ ∧
      Delivered sender receiver file n sender' receiver' := by
  obtain ⟨sendFuel', receiveFuel', s, r, l', r', reached, before, hs', hr'⟩ := @Compatible.reaches α schedule sender
    receiver file forward backward At sendFuel receiveFuel leftLog rightLog afterEmit afterReception _ compatible
    room.writable (fun _ => room.fits) loaded recoverable channel place carried (Nat.le_refl _) (by omega) (by omega)
  obtain ⟨n, sender', receiver', l'', r'', ended, delivered, _⟩ := @Before.finishes α schedule sender receiver file
    forward backward At sendFuel' receiveFuel' s r l' r' afterEmit afterReception before loaded.length_lt recoverable
    channel room.writable room.fits.le (by omega) (by omega)
  exact ⟨n, sender', receiver', l'', r'', reached.trans ended, delivered⟩

end Transfer

end LightModem
