import LightModem.Delivery
import LightModem.Timeouts

set_option autoImplicit false

namespace LightModem

open Interaction

inductive SenderPhase
  | asking (attempts : ℕ)
  | cancelling
  | sending (i c : ℕ)
  | waiting (i c attempts : ℕ)
  | stopped

def sendResult (s : LxmodeSendState) : Int32 × ModemContext := (s.emittedBytes.toInt32, s.pThis)

inductive SenderAt (sender : ModemContext) (file : List UInt8) :
    SenderPhase → Program UInt8 (Int32 × ModemContext) → Prop
  | asking (fuel attempts : ℕ) : SenderAt sender file (.asking (attempts + 1))
      (getcharWithin (fun _ => true) (attempts + 1) >>= emitAfter fuel sender)
  | cancelling : SenderAt sender file .cancelling (.write [CAN, CAN] (.done (-1, sender)))
  | sending (fuel : ℕ) {i : ℕ} {s : LxmodeSendState} (head : SendHead sender file i s) :
      SenderAt sender file (.sending i s.retry) (lxmodeSendLoop fuel s >>= fun s => .done (sendResult s))
  | waiting (fuel attempts : ℕ) {i c : ℕ} {answered : Option UInt8 → LxmodeSendState}
      (h : ∀ a, Answered sender file i c a (answered a)) :
      SenderAt sender file (.waiting i c (attempts + 1)) (getcharWithin (fun _ => true) (attempts + 1) >>=
        fun a => lxmodeSendLoop fuel (answered a) >>= fun s => .done (sendResult s))
  | stopped {p : Program UInt8 (Int32 × ModemContext)} (h : p = .outOfFuel ∨ ∃ r, p = .done r) :
      SenderAt sender file .stopped p

inductive SenderStep (sender : ModemContext) (file : List UInt8) :
    SenderPhase → Label UInt8 → SenderPhase → Prop
  | asksAgain (attempts : ℕ) :
      SenderStep sender file (.asking (attempts + 2)) (.timeOut 1) (.asking (attempts + 1))
  | unasked : SenderStep sender file (.asking 1) (.timeOut 1) .stopped
  | decodes (attempts : ℕ) (p : UInt8) (h : lxmodemDecodePreambule sender p = true) :
      SenderStep sender file (.asking (attempts + 1)) (.read [p]) (.sending 0 0)
  | rejects (attempts : ℕ) (p : UInt8) (h : lxmodemDecodePreambule sender p = false) :
      SenderStep sender file (.asking (attempts + 1)) (.read [p]) .cancelling
  | cancels (d : List UInt8) : SenderStep sender file .cancelling (.write [CAN, CAN] d) .stopped
  | sends (i c : ℕ) (d : List UInt8) (hi : i ≤ blockCount sender.blksize file) :
      SenderStep sender file (.sending i c) (.write (fileFrame sender file i) d) (.waiting i c 10)
  | waits (i c attempts : ℕ) :
      SenderStep sender file (.waiting i c (attempts + 2)) (.timeOut 1) (.waiting i c (attempts + 1))
  | runsOut (i c : ℕ) : SenderStep sender file (.waiting i c 1) (.timeOut 1) (.sending i (c + 1))
  | next (i c attempts : ℕ) (hi : i < blockCount sender.blksize file) :
      SenderStep sender file (.waiting i c (attempts + 1)) (.read [ACK]) (.sending (i + 1) 0)
  | finishes (i c attempts : ℕ) (hi : i = blockCount sender.blksize file) :
      SenderStep sender file (.waiting i c (attempts + 1)) (.read [ACK]) .stopped
  | again (i c attempts : ℕ) (b : UInt8) (hb : b ≠ ACK) :
      SenderStep sender file (.waiting i c (attempts + 1)) (.read [b]) (.sending i (c + 1))
  | gaveUp (i c attempts : ℕ) (b : UInt8) (hb : b ≠ ACK) :
      SenderStep sender file (.waiting i c (attempts + 1)) (.read [b]) .stopped
  | ranOut (i c : ℕ) : SenderStep sender file (.waiting i c 1) (.timeOut 1) .stopped

section Sender

variable {sender : ModemContext} {file : List UInt8} {α : Type} {i c fuel : ℕ} {s : LxmodeSendState}
  {a : Option UInt8}

theorem getcharWithin_succ_bind (attempts : ℕ) (f : Option UInt8 → Program UInt8 α) :
    (getcharWithin (fun _ => true) (attempts + 1) >>= f) = .read 1 (fun r => match r with
      | .received data _ => f (some (data.headD 0))
      | .timedOut _ _ => getcharWithin (fun _ => true) attempts >>= f) := by
  rw [getcharWithin, getchars_bind, Program.read_bind]
  congr 1
  funext r
  cases r <;> rfl

theorem moves_readOne {next : Reply UInt8 1 → Program UInt8 α} {q q' : List UInt8} {ℓ : Label UInt8}
    {p' : Program UInt8 α} (h : Moves (.read 1 next) q ℓ p' q') :
    (∃ b, ℓ = .read [b] ∧ p' = next (.received [b] rfl)) ∨
      ℓ = .timeOut 1 ∧ p' = next (.timedOut [] (Nat.zero_le 1)) := by
  cases h with
  | read data size =>
    obtain ⟨b, rfl⟩ := List.length_eq_one_iff.mp size
    exact Or.inl ⟨b, rfl, rfl⟩
  | timeOut => exact Or.inr ⟨rfl, rfl⟩

theorem lxmodeSendLoop_finished (fuel : ℕ) (h : s.bFinished = true) :
    SenderAt sender file .stopped (lxmodeSendLoop fuel s >>= fun s => .done (sendResult s)) := by
  cases fuel with
  | zero => exact .stopped (Or.inl rfl)
  | succ fuel =>
    have left : lxmodeSendLoop (fuel + 1) s = .done s := whileLoop_false _ (by simp [h])
    rw [left]
    exact .stopped (Or.inr ⟨_, rfl⟩)

theorem SenderAt.asked (fuel : ℕ) (sender : ModemContext) {p : UInt8} {file : List UInt8}
    (loaded : sender.ramfile.Loaded file) (decodes : lxmodemDecodePreambule sender p = true) :
    SenderAt sender file (.sending 0 0) (emitAfter fuel sender (some p)) := by
  simp only [emitAfter, decodes, Bool.true_eq_false, ↓reduceIte]
  exact .sending fuel (sendHead_initial loaded)

theorem SenderAt.follows {phase : SenderPhase} {p p' : Program UInt8 (Int32 × ModemContext)}
    {q q' : List UInt8} {ℓ : Label UInt8} (loaded : sender.ramfile.Loaded file)
    (h : SenderAt sender file phase p) (hm : Moves p q ℓ p' q') :
    ∃ phase', SenderStep sender file phase ℓ phase' ∧ SenderAt sender file phase' p' := by
  cases h with
  | asking fuel attempts =>
    rw [getcharWithin_succ_bind] at hm
    rcases moves_readOne hm with ⟨b, rfl, rfl⟩ | ⟨rfl, rfl⟩
    · cases hb : lxmodemDecodePreambule sender b with
      | true => exact ⟨_, .decodes attempts b hb, .asked fuel sender loaded hb⟩
      | false =>
        refine ⟨_, .rejects attempts b hb, ?_⟩
        simp only [emitAfter, List.headD_cons, hb, ↓reduceIte]
        exact .cancelling
    · cases attempts with
      | zero => exact ⟨_, .unasked, .stopped (Or.inr ⟨_, rfl⟩)⟩
      | succ attempts => exact ⟨_, .asksAgain attempts, .asking fuel attempts⟩
  | cancelling =>
    cases hm with
    | write written delivered => exact ⟨_, .cancels delivered, .stopped (Or.inr ⟨_, rfl⟩)⟩
  | @sending fuel i s head =>
    cases fuel with
    | zero => cases hm
    | succ fuel =>
      obtain ⟨answered, hturn, hanswered⟩ := lxmodeSendTurn_eq loaded.length_lt head
      have turn : (lxmodeSendLoop (fuel + 1) s >>= fun s => .done (sendResult s)) =
          .write (fileFrame sender file i) (getcharWithin (fun _ => true) 10 >>=
            fun a => lxmodeSendLoop fuel (answered a) >>= fun s => .done (sendResult s)) := by
        have loop : lxmodeSendLoop (fuel + 1) s = lxmodeSendTurn s >>= lxmodeSendLoop fuel :=
          whileLoop_true fuel (by simp [head.running])
        rw [loop, hturn, Program.write_bind, Program.write_bind, bind_assoc, bind_assoc]
        rfl
      rw [turn] at hm
      cases hm with
      | write written delivered =>
        exact ⟨_, .sends i s.retry delivered head.place, .waiting fuel 9 hanswered⟩
  | @waiting fuel attempts i c answered h =>
    have settled (a : Option UInt8) (ha : a ≠ some ACK) :
        SenderAt sender file (.sending i (c + 1))
            (lxmodeSendLoop fuel (answered a) >>= fun s => .done (sendResult s)) ∨
          SenderAt sender file .stopped
            (lxmodeSendLoop fuel (answered a) >>= fun s => .done (sendResult s)) := by
      have ha' := h a
      generalize answered a = s at ha'
      cases ha' with
      | next hi head hr => exact absurd rfl ha
      | finished hi hf he setup => exact absurd rfl ha
      | again _ hg head hr => exact Or.inl (hr ▸ .sending fuel head)
      | gaveUp _ hg hf he => exact Or.inr (lxmodeSendLoop_finished fuel hf)
    rw [getcharWithin_succ_bind] at hm
    rcases moves_readOne hm with ⟨b, rfl, rfl⟩ | ⟨rfl, rfl⟩
    · by_cases hb : b = ACK
      · subst hb
        have hack := h (some ACK)
        change ∃ phase', _ ∧ SenderAt sender file phase' (lxmodeSendLoop fuel (answered (some ACK)) >>= _)
        generalize answered (some ACK) = s at hack
        cases hack with
        | next hi head hr => exact ⟨_, .next i c attempts hi, hr ▸ .sending fuel head⟩
        | finished hi hf he setup => exact ⟨_, .finishes i c attempts hi, lxmodeSendLoop_finished fuel hf⟩
        | again ha hg head hr => exact absurd rfl ha
        | gaveUp ha hg hf he => exact absurd rfl ha
      · rcases settled (some b) (by simpa using hb) with hat | hat
        · exact ⟨_, .again i c attempts b hb, hat⟩
        · exact ⟨_, .gaveUp i c attempts b hb, hat⟩
    · cases attempts with
      | zero =>
        rcases settled none (by simp) with hat | hat
        · exact ⟨_, .runsOut i c, hat⟩
        · exact ⟨_, .ranOut i c, hat⟩
      | succ attempts => exact ⟨_, .waits i c attempts, .waiting fuel attempts h⟩
  | stopped h =>
    rcases h with rfl | ⟨r, rfl⟩ <;> cases hm

theorem SenderAt.hears {i c attempts : ℕ} {p : Program UInt8 (Int32 × ModemContext)}
    (h : SenderAt sender file (.waiting i c attempts) p) (b : UInt8) (q : List UInt8) :
    ∃ p', Moves p (b :: q) (.read [b]) p' q := by
  cases h with
  | waiting fuel attempts h =>
    rw [getcharWithin_succ_bind]
    exact ⟨_, .read [b] rfl⟩

def senderDescription (loaded : sender.ramfile.Loaded file) :
    Description SenderPhase UInt8 (Int32 × ModemContext) where
  At := SenderAt sender file
  Step := SenderStep sender file
  follows := SenderAt.follows loaded

end Sender

def lastWritten (log : List (Label UInt8)) : Option (List UInt8) :=
  (log.filterMap (fun ℓ => match ℓ with
    | .write w _ => some w
    | .read _ => none
    | .timeOut _ => none)).getLast?

def Traced (sender : ModemContext) (file : List UInt8) : SenderPhase → List (Label UInt8) → Prop
  | .asking _, log => lastWritten log = none
  | .sending i 0, log => lastWritten log ≠ some (fileFrame sender file i)
  | .waiting i _ attempts, log => lastWritten log = some (fileFrame sender file i) ∧ attempts ≤ 10 ∧
      List.replicate (10 - attempts) (.timeOut 1) <:+ log
  | .sending _ (_ + 1), _ => True
  | .cancelling, _ => True
  | .stopped, _ => True

section Trace

variable {sender : ModemContext} {file : List UInt8} {left left' : SenderPhase} {log : List (Label UInt8)}
  {ℓ : Label UInt8} {i : ℕ}

theorem lastWritten_read (log : List (Label UInt8)) (data : List UInt8) :
    lastWritten (log ++ [.read data]) = lastWritten log := by
  simp [lastWritten]

theorem lastWritten_timeOut (log : List (Label UInt8)) (n : ℕ) :
    lastWritten (log ++ [.timeOut n]) = lastWritten log := by
  simp [lastWritten]

theorem lastWritten_write (log : List (Label UInt8)) (w d : List UInt8) :
    lastWritten (log ++ [.write w d]) = some w := by
  simp [lastWritten]

theorem fileFrame_ne_succ (hi : i < blockCount sender.blksize file) :
    fileFrame sender file i ≠ fileFrame sender file (i + 1) := by
  intro h
  by_cases hlt : i + 1 < blockCount sender.blksize file
  · rw [fileFrame, if_pos hi, fileFrame, if_pos hlt] at h
    simp only [dataFrame, frameBody, List.cons.injEq] at h
    have hnum := h.2.1
    rw [UInt8.ofNat_add (i + 1) 1] at hnum
    generalize UInt8.ofNat (i + 1) = n at hnum
    have hone : UInt8.ofNat 1 = 1 := rfl
    rw [hone] at hnum
    grind
  · rw [fileFrame_eq_EOT.mpr hlt] at h
    exact fileFrame_eq_EOT.mp h hi

theorem timeOuts_concat {attempts : ℕ} (hle : attempts + 1 ≤ 10)
    (h : List.replicate (10 - (attempts + 1)) (.timeOut 1) <:+ log) :
    List.replicate (10 - attempts) (.timeOut 1) <:+ log ++ [.timeOut 1] := by
  obtain ⟨l, rfl⟩ := h
  have hn : 10 - attempts = 10 - (attempts + 1) + 1 := by omega
  rw [hn, List.replicate_succ']
  exact ⟨l, by rw [List.append_assoc]⟩

theorem Traced.step (h : Traced sender file left log) (step : SenderStep sender file left ℓ left') :
    Traced sender file left' (log ++ [ℓ]) := by
  cases step with
  | asksAgain => exact (lastWritten_timeOut _ _).trans h
  | unasked => trivial
  | decodes attempts p hp =>
    change lastWritten _ ≠ _
    rw [lastWritten_read, show lastWritten log = none from h]
    simp
  | rejects => trivial
  | cancels => trivial
  | sends i c d hi => exact ⟨lastWritten_write _ _ _, Nat.le_refl _, List.nil_suffix⟩
  | waits i c attempts =>
    obtain ⟨last, hle, outs⟩ := h
    exact ⟨(lastWritten_timeOut _ _).trans last, by omega, timeOuts_concat hle outs⟩
  | runsOut => trivial
  | next i c attempts hi =>
    change lastWritten _ ≠ _
    rw [lastWritten_read, h.1]
    exact fun he => fileFrame_ne_succ hi (Option.some.inj he)
  | finishes => trivial
  | again => trivial
  | gaveUp => trivial
  | ranOut => trivial

end Trace

inductive ReceiverPhase
  | asking
  | writing (pending : List (List UInt8)) (s : LxmodemReceiveState)
  | filling (s : LxmodemReceiveState) (header : UInt8) (blksize : ℕ)
  | lost

def receiveResult (s : LxmodemReceiveState) : Int32 × ModemContext := (s.receivedBytes.toInt32, s.pThis)

inductive ReceiverAt (receiver : ModemContext) : ReceiverPhase → Program UInt8 (Int32 × ModemContext) → Prop
  | asking (fuel : ℕ) : ReceiverAt receiver .asking (lxmodemReceive fuel receiver)
  | writing (fuel : ℕ) (pending : List (List UInt8)) {s : LxmodemReceiveState}
      (writable : s.pThis.ramfile.Writable) : ReceiverAt receiver (.writing pending s)
      (.writing pending (.done s) >>= fun s => lxmodemReceiveLoop (fuel + 1) s >>= fun s => .done (receiveResult s))
  | filling (fuel : ℕ) {s : LxmodemReceiveState} {header : UInt8} {blksize : ℕ}
      (writable : s.pThis.ramfile.Writable) (kind : FrameKind s.pThis header blksize) :
      ReceiverAt receiver (.filling s header blksize)
        (lxmodemReceiveChar s header >>= lxmodemReceiveLoop fuel >>= fun s => .done (receiveResult s))
  | lost {p : Program UInt8 (Int32 × ModemContext)} (h : p.Ensures (fun _ _ => False)) :
      ReceiverAt receiver .lost p

inductive ReceiverStep (receiver : ModemContext) : ReceiverPhase → Label UInt8 → ReceiverPhase → Prop
  | asks (p : UInt8) (d : List UInt8) (h : lxmodemBuildAndSendPreambule receiver = putchars [p]) :
      ReceiverStep receiver .asking (.write [p] d) (.writing [] (.initial receiver))
  | writes (w d : List UInt8) (pending : List (List UInt8)) (s : LxmodemReceiveState) :
      ReceiverStep receiver (.writing (w :: pending) s) (.write w d) (.writing pending s)
  | expires {s s' : LxmodemReceiveState} {pending : List (List UInt8)} (running : s.bFinished = false)
      (turn : ReceiveTurn s (.timedOut 1 :: pending.map .sent) s') :
      ReceiverStep receiver (.writing [] s) (.timeOut 1) (.writing pending s')
  | char {s s' : LxmodemReceiveState} {header : UInt8} {pending : List (List UInt8)}
      (running : s.bFinished = false) (other : ∀ blksize, ¬ FrameKind s.pThis header blksize) (turn : ReceiveTurn s (.received [header] :: pending.map .sent) s') :
      ReceiverStep receiver (.writing [] s) (.read [header]) (.writing pending s')
  | header {s : LxmodemReceiveState} {header : UInt8} {blksize : ℕ} (running : s.bFinished = false)
      (kind : FrameKind s.pThis header blksize) :
      ReceiverStep receiver (.writing [] s) (.read [header]) (.filling s header blksize)
  | block {s s' : LxmodemReceiveState} {header : UInt8} {blksize : ℕ} {body : List UInt8}
      {pending : List (List UInt8)} (size : body.length = bodySize s.pThis blksize)
      (turn : ReceiveTurn s (.received [header] :: .received body :: pending.map .sent) s') :
      ReceiverStep receiver (.filling s header blksize) (.read body) (.writing pending s')
  | breaks {s s' : LxmodemReceiveState} {header : UInt8} {blksize : ℕ} {pending : List (List UInt8)}
      (turn : ReceiveTurn s
        (.received [header] :: .timedOut (bodySize s.pThis blksize) :: pending.map .sent) s') :
      ReceiverStep receiver (.filling s header blksize) (.timeOut (bodySize s.pThis blksize))
        (.writing pending s')
  | loses (phase : ReceiverPhase) (ℓ : Label UInt8) : ReceiverStep receiver phase ℓ .lost

section Receiver

variable {receiver : ModemContext} {s s' : LxmodemReceiveState} {t : List (Event UInt8)}
  {header : UInt8} {blksize : ℕ}

theorem writesOnly_retry (s : LxmodemReceiveState) : (lxmodemReceiveRetry s).WritesOnly := by
  rw [lxmodemReceiveRetry_eq]
  split
  · exact .write _ (.done _)
  · exact .done _

theorem writesOnly_store (s : LxmodemReceiveState) (blksize : ℕ) :
    (lxmodemReceiveStore s blksize).WritesOnly := by
  simp only [lxmodemReceiveStore]
  split
  · exact .write _ (.done _)
  · exact .done _

theorem writesOnly_checked (s : LxmodemReceiveState) (blksize : ℕ) (status : LxmodemReceptionStatus) :
    (lxmodemReceiveChecked s blksize status).WritesOnly := by
  apply Program.WritesOnly.write
  split
  · exact writesOnly_store _ _
  · exact writesOnly_retry _

theorem writesOnly_char (h : ∀ blksize, ¬ FrameKind s.pThis header blksize) :
    (lxmodemReceiveChar s header).WritesOnly := by
  by_cases hsoh : header = SOH
  · exact absurd (Or.inl ⟨hsoh, rfl⟩) (h 128)
  by_cases hstx : header = STX
  · subst hstx
    have hopts : ¬ (s.pThis.opts = .lxmodem1k ∨ s.pThis.protocol = .ymodem) :=
      fun hopts => h 1024 (Or.inr ⟨rfl, rfl, hopts⟩)
    rw [lxmodemReceiveChar_unsupported hopts]
    exact .write _ (writesOnly_retry _)
  by_cases heot : header = EOT
  · subst heot
    rw [lxmodemReceiveChar_endOfFile]
    exact .write _ (.done _)
  by_cases hcan : header = CAN
  · subst hcan
    rw [lxmodemReceiveChar_cancel]
    exact .write _ (writesOnly_retry _)
  · rw [lxmodemReceiveChar_noise (by simp [hsoh, hstx, heot, hcan])]
    exact .write _ (writesOnly_retry _)

theorem ReceiveTurn.writable (hs : s.pThis.ramfile.Writable) (h : ReceiveTurn s t s') :
    s'.pThis.ramfile.Writable := by
  cases h with
  | @failure t s₀ h => rw [(retried_untouched s₀).ramfile, h.untouched.ramfile]; exact hs
  | stored header payload kind fits => exact appended_writable hs.size fits.le
  | full header payload kind full => exact hs
  | endOfFile => exact hs

theorem receiverAt_turned (fuel : ℕ) {pending : List (List UInt8)} (writable : s'.pThis.ramfile.Writable) :
    ∃ phase, (phase = .writing pending s' ∨ phase = .lost) ∧ ReceiverAt receiver phase
      (.writing pending (.done s') >>= lxmodemReceiveLoop fuel >>= fun s => .done (receiveResult s)) := by
  rw [bind_assoc]
  cases fuel with
  | zero =>
    have loop : lxmodemReceiveLoop 0 = fun _ => .outOfFuel := rfl
    refine ⟨_, Or.inr rfl, .lost ?_⟩
    rw [loop, Program.ensures_bind, Program.ensures_writing]
    trivial
  | succ fuel => exact ⟨_, Or.inl rfl, .writing fuel pending writable⟩

theorem receiverAt_rest (fuel : ℕ) {past : List (Event UInt8)} {p : Program UInt8 LxmodemReceiveState}
    (hs : s.pThis.ramfile.Writable) (only : p.WritesOnly)
    (turn : p.Ensures (fun t s' => ReceiveTurn s (past ++ t) s')) :
    ∃ pending s' phase, ReceiveTurn s (past ++ pending.map .sent) s' ∧
      (phase = .writing pending s' ∨ phase = .lost) ∧
      ReceiverAt receiver phase (p >>= lxmodemReceiveLoop fuel >>= fun s => .done (receiveResult s)) := by
  obtain ⟨pending, s', rfl⟩ := only.eq_writing
  have turn' := (Program.ensures_writing pending s').mp turn
  obtain ⟨phase, hphase, hat⟩ := @receiverAt_turned receiver s' fuel pending (turn'.writable hs)
  exact ⟨pending, s', phase, turn', hphase, hat⟩

theorem lxmodemReceive_eq (fuel : ℕ) (receiver : ModemContext) :
    ∃ p, lxmodemBuildAndSendPreambule receiver = putchars [p] ∧
      lxmodemReceive fuel receiver = .write [p] (lxmodemReceiveLoop fuel (.initial receiver) >>=
        fun s => .done (receiveResult s)) :=
  ⟨_, rfl, rfl⟩

theorem ReceiverAt.follows {phase : ReceiverPhase} {p p' : Program UInt8 (Int32 × ModemContext)}
    {q q' : List UInt8} {ℓ : Label UInt8} (writable : receiver.ramfile.Writable)
    (h : ReceiverAt receiver phase p) (hm : Moves p q ℓ p' q') :
    ∃ phase', ReceiverStep receiver phase ℓ phase' ∧ ReceiverAt receiver phase' p' := by
  cases h with
  | asking fuel =>
    obtain ⟨p, sends, receives⟩ := lxmodemReceive_eq fuel receiver
    rw [receives] at hm
    cases hm with
    | write written delivered =>
      obtain ⟨phase, hphase, hat⟩ := @receiverAt_turned receiver (.initial receiver) fuel [] writable
      rcases hphase with rfl | rfl
      · exact ⟨_, .asks p delivered sends, hat⟩
      · exact ⟨_, .loses _ _, hat⟩
  | @writing fuel pending s hs =>
    cases pending with
    | cons w pending =>
      change Moves (.write w (.writing pending (.done s) >>= _)) q ℓ p' q' at hm
      cases hm with
      | write written delivered => exact ⟨_, .writes w delivered pending s, .writing fuel pending hs⟩
    | nil =>
      change Moves (lxmodemReceiveLoop (fuel + 1) s >>= _) q ℓ p' q' at hm
      cases hf : s.bFinished with
      | true =>
        have left : lxmodemReceiveLoop (fuel + 1) s = .done s := whileLoop_false _ (by simp [hf])
        rw [left] at hm
        cases hm
      | false =>
        have loop : lxmodemReceiveLoop (fuel + 1) s = lxmodemReceiveTurn s >>= lxmodemReceiveLoop fuel :=
          whileLoop_true fuel (by simp [hf])
        have ensures := lxmodemReceiveTurn_ensures hs
        rw [lxmodemReceiveTurn_eq] at ensures
        rw [loop, lxmodemReceiveTurn_eq, Program.read_bind, Program.read_bind] at hm
        rcases moves_readOne hm with ⟨header, rfl, rfl⟩ | ⟨rfl, rfl⟩
        · by_cases kind : ∃ blksize, FrameKind s.pThis header blksize
          · obtain ⟨blksize, kind⟩ := kind
            exact ⟨_, .header hf kind, .filling fuel hs kind⟩
          · have other : ∀ blksize, ¬ FrameKind s.pThis header blksize := fun blksize hk => kind ⟨blksize, hk⟩
            obtain ⟨pending, s', phase, turn, hphase, hat⟩ := @receiverAt_rest receiver s fuel
              [.received [header]] _ hs (writesOnly_char other) (ensures (.received [header] rfl))
            rcases hphase with rfl | rfl
            · exact ⟨_, .char hf other turn, hat⟩
            · exact ⟨_, .loses _ _, hat⟩
        · obtain ⟨pending, s', phase, turn, hphase, hat⟩ := @receiverAt_rest receiver s fuel
            [.timedOut 1] _ hs (writesOnly_retry s) (ensures (.timedOut [] (Nat.zero_le 1)))
          rcases hphase with rfl | rfl
          · exact ⟨_, .expires hf turn, hat⟩
          · exact ⟨_, .loses _ _, hat⟩
  | @filling fuel s header blksize hs kind =>
    have ensures := lxmodemReceiveTurn_ensures hs
    rw [lxmodemReceiveTurn_eq] at ensures
    have ensures' := ensures (.received [header] rfl)
    change (lxmodemReceiveChar s header).Ensures
      (fun t s' => ReceiveTurn s (.received [header] :: t) s') at ensures'
    rw [lxmodemReceiveChar_block kind] at hm ensures'
    cases hm with
    | read body size =>
      obtain ⟨pending, s', phase, turn, hphase, hat⟩ := @receiverAt_rest receiver s fuel
        [.received [header], .received body] _ hs (writesOnly_checked _ _ _) (ensures' (.received body size))
      rcases hphase with rfl | rfl
      · exact ⟨_, .block size turn, hat⟩
      · exact ⟨_, .loses _ _, hat⟩
    | timeOut =>
      obtain ⟨pending, s', phase, turn, hphase, hat⟩ := @receiverAt_rest receiver s fuel
        [.received [header], .timedOut (bodySize s.pThis blksize)] _ hs (writesOnly_checked _ _ _)
        (ensures' (.timedOut [] (Nat.zero_le _)))
      rcases hphase with rfl | rfl
      · exact ⟨_, .breaks turn, hat⟩
      · exact ⟨_, .loses _ _, hat⟩
  | lost h => exact ⟨_, .loses _ _, .lost (hm.ensures h)⟩

theorem ReceiverAt.answers {pending : List (List UInt8)} {w : List UInt8}
    {p : Program UInt8 (Int32 × ModemContext)} (h : ReceiverAt receiver (.writing (w :: pending) s) p)
    (d q : List UInt8) : ∃ p', Moves p q (.write w d) p' q := by
  cases h with
  | writing fuel _ hs => exact ⟨_, .write w d⟩

theorem ReceiverAt.reads {p : Program UInt8 (Int32 × ModemContext)}
    (h : ReceiverAt receiver (.writing [] s) p) (running : s.bFinished = false) (b : UInt8) (q : List UInt8) :
    ∃ p', Moves p (b :: q) (.read [b]) p' q := by
  cases h with
  | writing fuel _ hs =>
    change ∃ p', Moves (lxmodemReceiveLoop (fuel + 1) s >>= _) (b :: q) (.read [b]) p' q
    have loop : lxmodemReceiveLoop (fuel + 1) s = lxmodemReceiveTurn s >>= lxmodemReceiveLoop fuel :=
      whileLoop_true fuel (by simp [running])
    rw [loop, lxmodemReceiveTurn_eq, Program.read_bind, Program.read_bind]
    exact ⟨_, .read [b] rfl⟩

theorem ReceiverAt.fills {p : Program UInt8 (Int32 × ModemContext)} {body : List UInt8}
    (h : ReceiverAt receiver (.filling s header blksize) p) (size : body.length = bodySize s.pThis blksize)
    (q : List UInt8) : ∃ p', Moves p (body ++ q) (.read body) p' q := by
  cases h with
  | filling fuel hs kind =>
    rw [lxmodemReceiveChar_block kind]
    exact ⟨_, .read body size⟩

theorem ReceiverAt.returned {phase : ReceiverPhase} {n : Int32} {pThis : ModemContext}
    (h : ReceiverAt receiver phase (.done (n, pThis))) :
    ∃ s, phase = .writing [] s ∧ s.bFinished = true ∧ n = s.receivedBytes.toInt32 ∧ pThis = s.pThis := by
  generalize hp : (.done (n, pThis) : Program UInt8 (Int32 × ModemContext)) = p at h
  cases h with
  | asking fuel => cases hp
  | @writing fuel pending s hs =>
    cases pending with
    | cons w pending => cases hp
    | nil =>
      change .done (n, pThis) = lxmodemReceiveLoop (fuel + 1) s >>= _ at hp
      cases hf : s.bFinished with
      | true =>
        have left : lxmodemReceiveLoop (fuel + 1) s = .done s := whileLoop_false _ (by simp [hf])
        rw [left] at hp
        cases hp
        exact ⟨s, rfl, hf, rfl, rfl⟩
      | false =>
        have loop : lxmodemReceiveLoop (fuel + 1) s = lxmodemReceiveTurn s >>= lxmodemReceiveLoop fuel :=
          whileLoop_true fuel (by simp [hf])
        rw [loop, lxmodemReceiveTurn_eq] at hp
        cases hp
  | filling fuel hs kind =>
    rw [lxmodemReceiveChar_block kind] at hp
    cases hp
  | lost h =>
    subst hp
    exact h.elim

def receiverDescription (writable : receiver.ramfile.Writable) :
    Description ReceiverPhase UInt8 (Int32 × ModemContext) where
  At := ReceiverAt receiver
  Step := ReceiverStep receiver
  follows := ReceiverAt.follows writable

end Receiver

theorem describes_start {sender receiver : ModemContext} {file : List UInt8}
    (loaded : sender.ramfile.Loaded file) (writable : receiver.ramfile.Writable) (fuel fuel' : ℕ) :
    (⟨.asking 10, .asking, [], [], [], []⟩ : Situation SenderPhase ReceiverPhase UInt8).Describes
      (senderDescription loaded) (receiverDescription writable)
      (.start (lxmodemEmit fuel sender) (lxmodemReceive fuel' receiver)) := by
  refine ⟨?_, .asking fuel', rfl, rfl, rfl, rfl⟩
  change SenderAt sender file (.asking 10) (lxmodemEmit fuel sender)
  rw [lxmodemEmit_eq]
  exact .asking fuel 9

end LightModem
