import LightModem.Pipeline
import LightModem.Recovery

set_option autoImplicit false

/-!
XMODEM over lines on which bytes may be late. Acknowledgements carry no number: when a reply has come
after the sender has stopped waiting for it, its copy answers a later block.
-/

namespace LightModem

open Interaction

def Spoiled (sender : ModemContext) (w d : List UInt8) : Prop :=
  ∃ n payload bytes, w = dataFrame sender.crc16 sender.usesCrc n payload ∧ Spoils sender payload bytes ∧
    d = frameHeader payload :: n :: ~~~n :: bytes

def anyDelay (sender : ModemContext) : Medium UInt8 where
  left _
    | .write w d => d = w ∨ Spoiled sender w d
    | .read _ => True
    | .timeOut _ => True
  right _
    | .write w d => d = w
    | .read _ => True
    | .timeOut _ => True

def RanOut (log : List (Label UInt8)) : Prop := List.replicate 10 (.timeOut 1) <:+: log

/-- Any read of one byte may time out, but not the read of a block. Any block may be damaged, but once a
wait for a reply has run out, only when it is sent again. -/
def lateReplies (sender : ModemContext) : Medium UInt8 where
  left log
    | .write w d => d = w ∨ Spoiled sender w d ∧ (¬ RanOut log ∨ lastWritten log = some w)
    | .read _ => True
    | .timeOut _ => True
  right _
    | .write w d => d = w
    | .read _ => True
    | .timeOut n => n = 1

theorem step_lateReplies {α : Type} (sender : ModemContext) {s s' : Network UInt8 α}
    (h : Step (.leftDelayed .perfect .perfect) s s') : Step (lateReplies sender) s s' := by
  apply h.mono
  · intro log ℓ allowed
    cases ℓ with
    | write w d => exact Or.inl allowed
    | read data => trivial
    | timeOut n => trivial
  · intro log ℓ allowed
    cases ℓ with
    | write w d => exact allowed
    | read data => trivial
    | timeOut n => exact allowed.elim

section Trace

variable {sender : ModemContext} {file : List UInt8} {left left' : SenderPhase} {log : List (Label UInt8)}
  {ℓ : Label UInt8} {i : ℕ}

theorem RanOut.append (h : RanOut log) (ℓ : Label UInt8) : RanOut (log ++ [ℓ]) :=
  h.trans (List.infix_append' [] log [ℓ])

theorem Traced.ranOut {c : ℕ} (h : Traced sender file (.waiting i c 1) log) : RanOut (log ++ [.timeOut 1]) :=
  (timeOuts_concat (show 0 + 1 ≤ 10 by decide) h.2.2).isInfix

end Trace

inductive Late (sender receiver : ModemContext) (file : List UInt8)
    (s : Situation SenderPhase ReceiverPhase UInt8) : Prop
  | opening (h : Opening sender receiver file s.left s.right s.toLeft s.toRight)
  | live {j k : ℕ} {pending : List (List UInt8)} {flight : List (ℕ × Bool)}
      (h : Live sender receiver file s.left s.right s.toLeft s.toRight j k pending flight)
      (lockstep : ¬ RanOut s.leftLog → Lockstep s.left (tokens s.toLeft pending flight))
  | ended (h : Over sender receiver file s.right)

section Late

variable {sender receiver : ModemContext} {file : List UInt8} {i c j k : ℕ} {w d : List UInt8}
  {pending : List (List UInt8)} {flight : List (ℕ × Bool)} {toLeft toRight q : List UInt8}
  {right : ReceiverPhase} {left left' : SenderPhase} {log : List (Label UInt8)} {ℓ : Label UInt8}

theorem Spoiled.arrives (h : Spoiled sender (fileFrame sender file i) d) : Arrives sender file i false d := by
  obtain ⟨n, payload, bytes, frame, spoils, rfl⟩ := h
  by_cases hi : i < blockCount sender.blksize file
  · rw [fileFrame, if_pos hi] at frame
    simp only [dataFrame, frameBody, List.cons.injEq] at frame
    obtain ⟨_, rfl, _, hrest⟩ := frame
    have hlen := congrArg List.length hrest
    simp only [List.length_append, checkBytes_length] at hlen
    obtain ⟨rfl, _⟩ := List.append_inj hrest (by omega)
    exact .spoiled hi bytes spoils
  · rw [fileFrame_eq_EOT.mpr hi] at frame
    exact absurd frame.symm (dataFrame_ne_EOT _ _ _ _)

theorem Late.sends (h : Live sender receiver file (.sending i c) right toLeft toRight j k pending flight)
    (traced : Traced sender file (.sending i c) log)
    (lockstep : ¬ RanOut log → Lockstep (.sending i c) (tokens toLeft pending flight))
    (hi : i ≤ blockCount sender.blksize file)
    (allowed : (lateReplies sender).left log (.write (fileFrame sender file i) d)) :
    ∃ k' flight', Live sender receiver file (.waiting i c 10) right toLeft (toRight ++ d) j k' pending flight' ∧
      tokens toLeft pending flight' = tokens toLeft pending flight + 1 := by
  have counted (intact : Bool) : tokens toLeft pending (flight ++ [(i, intact)]) =
      tokens toLeft pending flight + 1 := by
    simp only [tokens, List.length_append, List.length_singleton]
    omega
  rcases allowed with rfl | ⟨spoiled, spared⟩
  · obtain ⟨k', live⟩ := h.sends (.intact hi) (Or.inl rfl)
    exact ⟨k', _, live, counted true⟩
  · have careful : 0 < c ∨ Quiet toLeft pending flight j := by
      rcases spared with notYet | repeated
      · exact Or.inr (quiet_of_lockstep (lockstep notYet))
      · cases c with
        | zero => exact absurd repeated traced
        | succ c => exact Or.inl (Nat.succ_pos c)
    obtain ⟨k', live⟩ := h.sends spoiled.arrives (Or.inr careful)
    exact ⟨k', _, live, counted false⟩

theorem lockstep_hears (step : SenderStep sender file left ℓ left') (queue : toLeft = ℓ.consumed ++ q)
    (reads : ∀ w d, ℓ ≠ .write w d) (traced : Traced sender file left log)
    (lockstep : ¬ RanOut log → Lockstep left (tokens toLeft pending flight))
    (h : Live sender receiver file left right toLeft toRight j k pending flight) :
    ¬ RanOut (log ++ [ℓ]) → Lockstep left' (tokens q pending flight) := by
  intro notYet
  apply h.lockstep_hears step queue reads _ (lockstep fun ranOut => notYet (ranOut.append ℓ))
  rintro i c rfl rfl
  exact notYet traced.ranOut

theorem Late.step {s s' : Situation SenderPhase ReceiverPhase UInt8} (h : Late sender receiver file s)
    (traced : Traced sender file s.left s.leftLog) (loaded : sender.ramfile.Loaded file)
    (writable : receiver.ramfile.Writable) (compatible : Compatible sender receiver)
    (step : s.Step (senderDescription loaded) (receiverDescription writable) (lateReplies sender) s') :
    Late sender receiver file s' := by
  cases step with
  | @left ℓ left' q hstep queue allowed =>
    cases h with
    | opening opening =>
      rcases opening.hears hstep queue with opening' | ⟨rfl, hd, live, rfl⟩
      · exact .opening opening'
      · exact .live (by rw [hd, List.append_nil]; exact live) fun _ => (rfl : tokens [] [] [] = 0)
    | @live j k pending flight live lockstep =>
      by_cases reads : ∀ w d, ℓ ≠ .write w d
      · have hd := Label.delivered_of_reads reads
        apply Late.live (by rw [hd, List.append_nil]; exact live.hears hstep queue reads)
        exact lockstep_hears hstep queue reads traced lockstep live
      · obtain ⟨w, d, rfl⟩ : ∃ w d, ℓ = .write w d := by simpa using reads
        obtain ⟨left, right, toLeft, toRight, leftLog, rightLog⟩ := s
        obtain rfl : toLeft = q := queue
        cases hstep with
        | sends i c _ hi =>
          obtain ⟨k', flight', live', count⟩ := Late.sends live traced lockstep hi allowed
          apply Late.live live'
          intro notYet
          have before : tokens toLeft pending flight = 0 := lockstep fun ranOut => notYet (ranOut.append _)
          exact count.trans (by rw [before])
        | cancels => cases live.paired
    | ended ended => exact .ended ended
  | @right ℓ right' q hstep queue allowed =>
    have carried : ∀ w d, ℓ = .write w d → d = w := by
      rintro w d rfl
      exact allowed
    have whole : ∀ n, ℓ = .timeOut n → n = 1 := by
      rintro n rfl
      exact allowed
    cases h with
    | opening opening =>
      rcases opening.receives writable compatible hstep queue carried with opening' | ended
      · exact .opening opening'
      · exact .ended ended
    | live live lockstep =>
      rcases live.receives writable compatible hstep queue carried whole with
        ended | ⟨j', pending', flight', live', count⟩
      · exact .ended ended
      · exact .live live' (by rw [count]; exact lockstep)
    | ended ended => exact .ended (ended.step hstep)

theorem Late.finished {s : Situation SenderPhase ReceiverPhase UInt8} {r : LxmodemReceiveState}
    (h : Late sender receiver file s) (hr : s.right = .writing pending r) (finished : r.bFinished = true) :
    Over sender receiver file (.writing pending r) := by
  obtain ⟨left, right, toLeft, toRight, leftLog, rightLog⟩ := s
  subst hr
  cases h with
  | opening opening => rw [opening.running] at finished; cases finished
  | live live lockstep => rw [live.running] at finished; cases finished
  | ended ended => exact ended

end Late

/-- In every run in which no read of a block times out, and no block is damaged for the first time once a
wait for a reply has run out, two parties that succeed have the same file. -/
theorem xmodem_late (sender receiver : ModemContext) (file : List UInt8)
    (loaded : sender.ramfile.Loaded file) (crc16 : receiver.crc16 = sender.crc16)
    (configured : receiver.Configured)
    (opts : sender.opts = receiver.opts ∨
      sender.opts = .lxmodem128WithCrc ∧ receiver.opts = .lxmodem1k)
    (fresh : receiver.ramfile.writeOffset = 0) (capacity : receiver.ramfile.maxSize.toNat < 2147483648)
    (fuel fuel' : ℕ) (s : Network UInt8 (Int32 × ModemContext))
    (run : Steps (lateReplies { sender with protocol := .xmodem })
      (.start (lmodemEmit .xmodem fuel sender) (lmodemReceive .xmodem fuel' receiver)) s)
    (m n : Int32) (sender' receiver' : ModemContext) (returned : s.Returned (m, sender') (n, receiver'))
    (_ : 0 ≤ m) (hn : 0 ≤ n) :
    receiver'.ramfile.writeOffset.toNat = (paddedFile { sender with protocol := .xmodem }.blksize file).length ∧
      receiver'.ramfile.buffer.load 0 (paddedFile { sender with protocol := .xmodem }.blksize file).length =
        paddedFile { sender with protocol := .xmodem }.blksize file := by
  have writable : receiver.ramfile.Writable := ⟨by rw [fresh]; exact Nat.zero_le _, capacity⟩
  have compatible : Compatible { sender with protocol := .xmodem } { receiver with protocol := .xmodem } :=
    compatible_xmodem rfl rfl crc16 configured opts
  have loaded' : { sender with protocol := .xmodem }.ramfile.Loaded file := loaded
  have writable' : { receiver with protocol := .xmodem }.ramfile.Writable := writable
  obtain ⟨c, describes, late, _⟩ := @Situation.invariant UInt8 (Int32 × ModemContext) SenderPhase ReceiverPhase
    (senderDescription loaded') (receiverDescription writable') _
    (fun c => Late { sender with protocol := .xmodem } { receiver with protocol := .xmodem } file c ∧
      Traced { sender with protocol := .xmodem } file c.left c.leftLog) (fun _ => _) _ _ _
    (fun _ _ h => h)
    (fun c c' _ _ _ _ hc hstep => ⟨hc.1.step hc.2 loaded' writable' compatible hstep, by
      cases hstep with
      | left hstep queue allowed => exact hc.2.step hstep
      | right hstep queue allowed => exact hc.2⟩)
    run (describes_start loaded' writable' fuel fuel')
    ⟨.opening (.silent (Or.inl ⟨_, rfl⟩)), rfl⟩
  have right := describes.right
  rw [returned.2] at right
  obtain ⟨r, hr, finished, rfl, rfl⟩ := ReceiverAt.returned right
  exact ((late.finished hr finished).returned hn).holds capacity fresh

def lateFile : List UInt8 := List.replicate 128 7 ++ [EOT]

def lateReceiver : ModemContext := { smallReceiver with ramfile := lmodemBufferInit (.fresh 0) 512 }

open Choice in
def lateAcknowledgement : List Choice :=
  [rightMoves, leftMoves, leftMoves] ++ List.replicate 10 leftExpires ++ [leftMoves] ++
    List.replicate 6 rightMoves ++ List.replicate 4 leftMoves ++ List.replicate 5 rightMoves ++
    List.replicate 3 leftMoves

theorem xmodem_late_twoBlocks :
    ∃ s m n sender' receiver', Steps (lateReplies { checksumSender lateFile with protocol := .xmodem })
        (.start (lmodemEmit .xmodem 10 (checksumSender lateFile)) (lmodemReceive .xmodem 10 lateReceiver)) s ∧
      s.Returned (m, sender') (n, receiver') ∧ receiver'.ramfile.writeOffset.toNat = 256 := by
  have run := @Network.steps_chooseAll_left _ _ .perfect .perfect lateAcknowledgement
    (by simp [lateAcknowledgement]) (.start (lmodemEmit .xmodem 10 (checksumSender lateFile)) (lmodemReceive .xmodem 10 lateReceiver))
  obtain ⟨⟨m, sender'⟩, ⟨n, receiver'⟩, returned, rfl, rfl⟩ := @Network.returned_of_results _ _ _ _
    ((Network.start (lmodemEmit .xmodem 10 (checksumSender lateFile))
      (lmodemReceive .xmodem 10 lateReceiver)).chooseAll .perfect .perfect lateAcknowledgement)
    Prod.fst Prod.fst 256 256 (by decide +kernel)
  have late := steps_mono (fun _ _ => step_lateReplies { checksumSender lateFile with protocol := .xmodem }) run
  have holds := xmodem_late (checksumSender lateFile) lateReceiver lateFile
    ⟨⟨by decide +kernel, by decide +kernel⟩, by decide +kernel⟩ rfl rfl (Or.inl rfl) rfl (by decide) 10 10 _ late _ _ sender' receiver' returned (by decide) (by decide)
  have size : (paddedFile { checksumSender lateFile with protocol := .xmodem }.blksize lateFile).length = 256 := by decide +kernel
  exact ⟨_, _, _, sender', receiver', late, returned, holds.1.trans size⟩

def lateWire : Wire UInt8 := fun _ frame =>
  if frame = fileFrame (checksumSender lateFile) lateFile 1 then frame.take 131 ++ [0] else frame

open Choice in
def lateBlock : List Choice :=
  [rightMoves, leftMoves, leftMoves] ++ List.replicate 10 leftExpires ++ [leftMoves] ++
    List.replicate 6 rightMoves ++ List.replicate 2 leftMoves ++ [rightMoves, rightExpires, rightMoves] ++
    List.replicate 2 leftMoves ++ List.replicate 6 rightMoves ++ List.replicate 7 leftMoves

theorem spoiled_lateWire (log : List (Label UInt8)) (frame : List UInt8) :
    lateWire log frame = frame ∨ Spoiled (checksumSender lateFile) frame (lateWire log frame) := by
  unfold lateWire
  split
  · rename_i h
    refine Or.inr ⟨2, blockPayload 128 lateFile 1, blockPayload 128 lateFile 1 ++ [0], ?_, ?_, ?_⟩
    · rw [h]
      decide +kernel
    · exact ⟨by decide +kernel, by decide +kernel⟩
    · rw [h]
      decide +kernel
  · exact Or.inl rfl

theorem step_anyDelay {α : Type} {forward : Wire UInt8} (sender : ModemContext)
    (spoils : ∀ log frame, forward log frame = frame ∨ Spoiled sender frame (forward log frame))
    {s s' : Network UInt8 α} (h : Step (.delayed forward .perfect) s s') : Step (anyDelay sender) s s' := by
  apply h.mono
  · intro log ℓ allowed
    cases ℓ with
    | write w d =>
      obtain rfl : d = forward log w := allowed
      exact spoils log w
    | read data => trivial
    | timeOut n => trivial
  · intro log ℓ allowed
    cases ℓ with
    | write w d => exact allowed
    | read data => trivial
    | timeOut n => trivial

theorem short_of_results {s : Network UInt8 (Int32 × ModemContext)}
    (h : (s.left.result?.map Prod.fst, s.right.result?.map fun r => (r.1, r.2.ramfile.writeOffset)) =
      (some 256, some (128, 128))) :
    ∃ m n sender' receiver', s.Returned (m, sender') (n, receiver') ∧ 0 ≤ m ∧ 0 ≤ n ∧
      receiver'.ramfile.writeOffset ≠
        (paddedFile (checksumSender lateFile).blksize lateFile).length.toUInt32 := by
  obtain ⟨⟨m, sender'⟩, ⟨n, receiver'⟩, returned, hm, hr⟩ := Network.returned_of_results h
  obtain ⟨hn, hw⟩ := Prod.mk.inj hr
  obtain rfl : m = 256 := hm
  obtain rfl : n = 128 := hn
  have hw' : receiver'.ramfile.writeOffset = 128 := hw
  have size : (paddedFile (checksumSender lateFile).blksize lateFile).length = 256 := by decide +kernel
  exact ⟨256, 128, sender', receiver', returned, by decide, by decide, by rw [hw', size]; decide⟩

/-- Both parties return a size, and the receiver has the first of two blocks: once because the second one
is damaged, and once without any damage, because a read of it times out. -/
theorem xmodem_anyDelay_loses :
    (∃ s m n sender' receiver', Steps (anyDelay (checksumSender lateFile))
        (.start (lmodemEmit .xmodem 10 (checksumSender lateFile)) (lmodemReceive .xmodem 10 lateReceiver)) s ∧
      s.Returned (m, sender') (n, receiver') ∧ 0 ≤ m ∧ 0 ≤ n ∧ receiver'.ramfile.writeOffset ≠
        (paddedFile (checksumSender lateFile).blksize lateFile).length.toUInt32) ∧
    ∃ s m n sender' receiver', Steps (.delayed .perfect .perfect)
        (.start (lmodemEmit .xmodem 10 (checksumSender lateFile)) (lmodemReceive .xmodem 10 lateReceiver)) s ∧
      s.Returned (m, sender') (n, receiver') ∧ 0 ≤ m ∧ 0 ≤ n ∧ receiver'.ramfile.writeOffset ≠
        (paddedFile (checksumSender lateFile).blksize lateFile).length.toUInt32 := by
  constructor
  · have run := @Network.steps_chooseAll _ _ lateWire .perfect lateAcknowledgement
      (.start (lmodemEmit .xmodem 10 (checksumSender lateFile)) (lmodemReceive .xmodem 10 lateReceiver))
    have late := steps_mono (fun _ _ => step_anyDelay (checksumSender lateFile) spoiled_lateWire) run
    obtain ⟨m, n, sender', receiver', short⟩ := @short_of_results
      ((Network.start (lmodemEmit .xmodem 10 (checksumSender lateFile))
        (lmodemReceive .xmodem 10 lateReceiver)).chooseAll lateWire .perfect lateAcknowledgement)
      (by decide +kernel)
    exact ⟨_, m, n, sender', receiver', late, short⟩
  · have late := @Network.steps_chooseAll _ _ .perfect .perfect lateBlock
      (.start (lmodemEmit .xmodem 10 (checksumSender lateFile)) (lmodemReceive .xmodem 10 lateReceiver))
    obtain ⟨m, n, sender', receiver', short⟩ := @short_of_results
      ((Network.start (lmodemEmit .xmodem 10 (checksumSender lateFile))
        (lmodemReceive .xmodem 10 lateReceiver)).chooseAll .perfect .perfect lateBlock)
      (by decide +kernel)
    exact ⟨_, m, n, sender', receiver', late, short⟩

end LightModem
