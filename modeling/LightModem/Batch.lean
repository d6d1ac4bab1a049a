import LightModem.Block0
import LightModem.Delivery
import LightModem.HeaderBlock
import LightModem.Success

set_option autoImplicit false

namespace LightModem

open Interaction

section Sender

variable {pThis : ModemContext} {s : LymodemHandshakeState}

theorem lymodemHandshakeTurn_performs {b : UInt8} (hb : b ≠ NAK) :
    Performs (lymodemHandshakeTurn pThis s) [.received [b]] (.done (s.replied b)) := by
  have wait : Awaits (fun _ => true) 10 [.received [b]] (some b) := .came b rfl
  rw [lymodemHandshakeTurn_eq]
  have performs := wait.performs.bind fun a : Option UInt8 =>
    if a.getD s.receivedChar = NAK then
      .write (pThis.blkBuffer.buffer.load 0 pThis.blkBuffer.currentSize)
        (.done (s.replied (a.getD s.receivedChar)))
    else .done (s.replied (a.getD s.receivedChar))
  rw [Program.done_bind, Option.getD_some, if_neg hb] at performs
  exact performs

theorem lymodemHandshake_acknowledged (pThis : ModemContext) (v : UInt8) (bOk : Bool) (fuel : ℕ) :
    Performs (lymodemHandshake (fuel + 2) pThis v bOk) [.received [ACK]] (.done ⟨ACK, true, true, 0⟩) := by
  have turn := @lymodemHandshakeTurn_performs pThis ⟨v, bOk, false, 0⟩ ACK (by decide)
  have round := @Performs.whileLoop _ _ _
    (fun s : LymodemHandshakeState => !s.bDone && s.retry < 10) (lymodemHandshakeTurn pThis) _ _ turn rfl
    (fuel + 1)
  exact round

theorem lymodemHandshake_asked (pThis : ModemContext) (v : UInt8) (bOk : Bool) (fuel : ℕ) :
    Performs (lymodemHandshake (fuel + 3) pThis v bOk) [.received [charC], .received [ACK]]
      (.done ⟨ACK, true, true, 0⟩) := by
  have turn := @lymodemHandshakeTurn_performs pThis ⟨v, bOk, false, 0⟩ charC (by decide)
  have round := @Performs.whileLoop _ _ _
    (fun s : LymodemHandshakeState => !s.bDone && s.retry < 10) (lymodemHandshakeTurn pThis) _ _ turn rfl
    (fuel + 2)
  exact round.trans (lymodemHandshake_acknowledged pThis charC bOk fuel)

theorem lmodemWaitReceptionOf_performs (c : UInt8) :
    Performs (lmodemWaitReceptionOf c) [.received [c]] (.done true) := by
  have wait : Awaits (fun b => b = c) 10 [.received [c]] (some c) := .came c (by simp)
  exact wait.performs.bind _

theorem lymodemEmitBlock0_performs {frame : List UInt8} {pThis' : ModemContext}
    (build : lymodemBuildAndSendBlock0 pThis = .write frame (.done pThis')) (fuel : ℕ) :
    Performs (lymodemEmitBlock0 (fuel + 2) pThis)
      [.received [charC], .sent frame, .received [ACK]] (.done (true, ACK, pThis')) := by
  have wait : Awaits (fun b => b = charC) 10 [.received [charC]] (some charC) := .came charC (by simp)
  rw [lymodemEmitBlock0_eq]
  apply (wait.performs.bind (emitBlock0After (fuel + 2) pThis)).trans
  rw [Program.done_bind, emitBlock0After, build]
  exact .write ((lymodemHandshake_acknowledged pThis' 0 true fuel).bind _)

end Sender

section Receiver

variable {pThis : ModemContext} {blksize fuel : ℕ} {payload : List UInt8}

theorem lymodemReceiveBlock0_performs (hp : pThis.protocol = .ymodem) (size : payload.length = blksize) :
    Performs (lymodemReceiveBlock0 (fuel + 2) pThis blksize)
      [.received (frameBody pThis.crc16 true 0 payload), .sent [ACK]]
      (.done (.recvOk, pThis.fill (frameBody pThis.crc16 true 0 payload))) := by
  have hlen : (frameBody pThis.crc16 true 0 payload).length = 2 + blksize + 2 := by
    rw [frameBody_length, size, checkSize, if_pos rfl]
    omega
  have ok := (@isBlock0_iff blksize ⟨pThis, false, .recvError, 0⟩ hp _ hlen).mp ⟨payload, size, rfl⟩
  have turn : Performs (lymodemReceiveBlock0Turn blksize ⟨pThis, false, .recvError, 0⟩)
      [.received (frameBody pThis.crc16 true 0 payload), .sent [ACK]]
      (.done ⟨pThis.fill (frameBody pThis.crc16 true 0 payload), true, .recvOk, 0⟩) := by
    rw [lymodemReceiveBlock0Turn, getchars_bind]
    apply Performs.read (.received _ hlen)
    simp only [ok, lxmodemBuildAndSendReply, putchars_bind]
    exact .write (.refl _)
  have round := @Performs.whileLoop _ _ _ (fun s : LymodemBlock0State => !s.bFinished)
    (lymodemReceiveBlock0Turn blksize) _ _ turn rfl (fuel + 1)
  exact round.bind _

theorem lymodemWaitBlock0_performs (hp : pThis.protocol = .ymodem)
    (size : payload.length = 128 ∨ payload.length = 1024) (attempts : ℕ) :
    Performs (lymodemWaitBlock0 (fuel + 2) pThis (attempts + 1))
      [.received [frameHeader payload], .received (frameBody pThis.crc16 true 0 payload), .sent [ACK]]
      (.done (.recvOk, pThis.fill (frameBody pThis.crc16 true 0 payload))) := by
  rw [lymodemWaitBlock0, getchars_bind]
  apply Performs.read (.received [frameHeader payload] rfl)
  rcases size with h | h
  · have header : frameHeader payload = SOH := by rw [frameHeader, h]; rfl
    simp only [header, List.headD_cons, ↓reduceIte]
    exact lymodemReceiveBlock0_performs hp h
  · have header : frameHeader payload = STX := by rw [frameHeader, h]; rfl
    simp only [header, List.headD_cons, show STX ≠ SOH by decide, ↓reduceIte]
    exact lymodemReceiveBlock0_performs hp h

theorem lymodemBlockNextFile_performs (hp : pThis.protocol = .ymodem) (crc16 : Crc16Context) :
    Performs (lymodemBlockNextFile pThis)
      [.sent [charC], .received [SOH], .received (frameBody crc16 true 0 (List.replicate 128 0)),
        .sent [ACK]]
      (.done (pThis.fill (frameBody crc16 true 0 (List.replicate 128 0)))) := by
  have preambule : lxmodemBuildAndSendPreambule pThis = putchars [charC] := by
    rw [lxmodemBuildAndSendPreambule, hp]
  have first : (pThis.fill (frameBody crc16 true 0 (List.replicate 128 0))).blkBuffer.buffer 2 = 0 := by
    have size : 2 < (frameBody crc16 true 0 (List.replicate 128 0)).length := by
      rw [frameBody_length, List.length_replicate]
      omega
    rw [fill_buffer, Memory.store_zero _ size]
    rfl
  have hlen : (frameBody crc16 true 0 (List.replicate 128 0)).length = 128 + 2 + 2 := by
    rw [frameBody_length, List.length_replicate]
    rfl
  rw [lymodemBlockNextFile, preambule, putchars_bind]
  apply Performs.write
  rw [lymodemWaitNextFile, getchars_bind]
  apply Performs.read (.received [SOH] rfl)
  simp only [List.headD_cons, ↓reduceIte, true_or, getchars_bind]
  apply Performs.read (.received _ hlen)
  simp only [lymodemAnswerNextFile, first, ↓reduceIte, lxmodemBuildAndSendReply, putchars_bind]
  exact .write (.refl _)

end Receiver

def afterData (fuel : ℕ) (x : Int32 × ModemContext) : Program UInt8 (Int32 × ModemContext) :=
  (if x.1.toUInt32 > 0 then
    lmodemWaitReceptionOf charC >>= fun bOk => .done (bOk, x.1.toUInt32, x.2)
  else .done (true, x.1.toUInt32, x.2)) >>= fun y =>
    lymodemEmitEndOfBach fuel y.2.2 y.1 ACK y.2.1 >>= fun z => .done (z.1.toInt32, z.2)

def afterReception (x : Int32 × ModemContext) : Program UInt8 (Int32 × ModemContext) :=
  lymodemBlockNextFile x.2 >>= fun pThis => .done (x.1.toUInt32.toInt32, lymodemTrim x.1.toUInt32 pThis)

section End

variable {sender receiver : ModemContext} {n : Int32} {fuel : ℕ} {l r : List (Label UInt8)}

theorem lymodemEmitEndOfBach_performs {frame : List UInt8} {sender' : ModemContext}
    (build : lymodemSendEndOfBach sender = .write frame (.done sender')) (v : UInt8) (nbEmitted : UInt32) :
    Performs (lymodemEmitEndOfBach (fuel + 2) sender true v nbEmitted) [.sent frame, .received [ACK]]
      (.done (nbEmitted, sender')) := by
  rw [lymodemEmitEndOfBach_eq, build]
  exact .write ((lymodemHandshake_acknowledged sender' v true fuel).bind _)

theorem lymodemEmitEndOfBach_asked {frame : List UInt8} {sender' : ModemContext}
    (build : lymodemSendEndOfBach sender = .write frame (.done sender')) (v : UInt8) (nbEmitted : UInt32) :
    Performs (lymodemEmitEndOfBach (fuel + 3) sender true v nbEmitted)
      [.sent frame, .received [charC], .received [ACK]] (.done (nbEmitted, sender')) := by
  rw [lymodemEmitEndOfBach_eq, build]
  exact .write ((lymodemHandshake_asked sender' v true fuel).bind _)

theorem steps_endOfBatch (size : 131 ≤ sender.blkBuffer.maxSize.toNat)
    (hp : receiver.protocol = .ymodem) :
    ∃ sender' l' r', Steps Medium.perfect
      ⟨afterData (fuel + 3) (n, sender), afterReception (n, receiver), [], [], l, r⟩
      ⟨.done (n, sender'), .done (n, lymodemTrim n.toUInt32
        (receiver.fill (frameBody sender.crc16 true 0 (List.replicate 128 0)))), [], [], l', r'⟩ := by
  obtain ⟨sender', build, _⟩ := lymodemSendEndOfBach_eq size
  have frame : endOfBatch sender.crc16 =
      [[SOH], frameBody sender.crc16 true 0 (List.replicate 128 0)].flatten := by
    rw [endOfBatch, dataFrame, frameHeader, List.length_replicate, if_pos (Nat.le_refl _)]
    simp
  have answers := (@lymodemBlockNextFile_performs receiver hp sender.crc16).bind
    (fun pThis => .done (n.toUInt32.toInt32, lymodemTrim n.toUInt32 pThis))
  rw [Program.done_bind, Int32.toInt32_toUInt32] at answers
  obtain ⟨q, asks, replies⟩ := @Performs.of_append _ _ _ _ [.sent [charC]] [.received [SOH],
    .received (frameBody sender.crc16 true 0 (List.replicate 128 0)), .sent [ACK]] answers
  by_cases hn : n.toUInt32 > 0
  · have asked : Performs (afterData (fuel + 3) (n, sender)) [.received [charC]]
        (lymodemEmitEndOfBach (fuel + 3) sender true ACK n.toUInt32 >>= fun z => .done (z.1.toInt32, z.2)) := by
      rw [afterData, if_pos hn]
      exact ((lmodemWaitReceptionOf_performs charC).bind _).bind _
    have ends := (@lymodemEmitEndOfBach_performs sender (fuel + 1) _ _ build ACK n.toUInt32).bind
      (fun z => .done (z.1.toInt32, z.2))
    rw [Program.done_bind, Int32.toInt32_toUInt32] at ends
    have first := @steps_leftwards _ _ .perfect .perfect _ _ _ _ [] l r [charC] [[charC]] asks asked rfl
    have second := @steps_exchange _ _ .perfect .perfect _ _ _ _ (l ++ [.read [charC]])
      (r ++ [.write [charC] [charC]]) _ [ACK] [ACK]
      [[SOH], frameBody sender.crc16 true 0 (List.replicate 128 0)] ends replies frame rfl
    exact ⟨_, _, _, first.trans second⟩
  · have ends : Performs (afterData (fuel + 3) (n, sender)) [.sent (endOfBatch sender.crc16),
        .received [charC], .received [ACK]] (.done (n, sender')) := by
      rw [afterData, if_neg hn, Program.done_bind]
      have ends := (@lymodemEmitEndOfBach_asked sender fuel _ _ build ACK n.toUInt32).bind
        (fun z => .done (z.1.toInt32, z.2))
      rw [Program.done_bind, Int32.toInt32_toUInt32] at ends
      exact ends
    -- the request for another file crosses the end of the batch
    obtain ⟨waiting, hwaiting, waits⟩ := ends.of_sent
    obtain ⟨asked, requested, acknowledged⟩ := @Performs.of_append _ _ _ _ [.received [charC]]
      [.received [ACK]] waits
    obtain ⟨answered, reads, answer⟩ := @Performs.of_append _ _ _ _ [.received [SOH],
      .received (frameBody sender.crc16 true 0 (List.replicate 128 0))] [.sent [ACK]] replies
    have first := @step_leftWrites _ _ .perfect .perfect waiting (afterReception (n, receiver)) [] [] l r
      (endOfBatch sender.crc16)
    have second := @steps_leftwards _ _ .perfect .perfect _ _ _ _ (endOfBatch sender.crc16)
      (l ++ [.write (endOfBatch sender.crc16) (endOfBatch sender.crc16)]) r [charC] [[charC]] asks
      requested rfl
    have third := @steps_rightReads _ _ .perfect .perfect asked q answered [] []
      (l ++ [.write (endOfBatch sender.crc16) (endOfBatch sender.crc16)] ++ [.read [charC]])
      (r ++ [.write [charC] [charC]])
      [[SOH], frameBody sender.crc16 true 0 (List.replicate 128 0)] reads
    have fourth := @steps_leftwards _ _ .perfect .perfect _ _ _ _ []
      (l ++ [.write (endOfBatch sender.crc16) (endOfBatch sender.crc16)] ++ [.read [charC]])
      (r ++ [.write [charC] [charC]] ++ [.read [SOH],
        .read (frameBody sender.crc16 true 0 (List.replicate 128 0))]) [ACK] [[ACK]] answer acknowledged rfl
    rw [List.append_nil, ← frame] at third
    rw [hwaiting]
    exact ⟨_, _, _, .head first ((second.trans third).trans fourth)⟩

end End

def noFaults : Schedule := fun _ _ => .none

theorem noFaults_recoverable (sender : ModemContext) (file : List UInt8) :
    Recoverable sender file noFaults where
  spared := fun _ _ _ => rfl
  spoils := fun _ _ _ h => by cases h
  consecutive := fun i => by
    have none (j : ℕ) : noFaults.faultsOn j = 0 := rfl
    rw [none, none]
    omega

theorem channel_perfect : Channel .perfect .perfect noFaults (fun _ _ _ _ => True) where
  sends := fun _ _ => rfl
  answers := fun _ _ answer => by simp [Wire.perfect, Impairment.onAnswer, noFaults, Impairment.none]
  acknowledged := fun _ _ _ _ _ => trivial
  refused := fun _ _ _ _ _ => trivial

section Session

variable {sender receiver : ModemContext}

theorem compatible_ymodem (hs : sender.protocol = .ymodem) (hr : receiver.protocol = .ymodem)
    (crc16 : receiver.crc16 = sender.crc16) : Compatible sender receiver where
  crc16 := crc16
  hasCrc := fun header blksize _ => by simp [lxmodemBlockHasCrc, ModemContext.usesCrc, hs, hr]
  blksize := by simp [ModemContext.blksize, hs, hr]
  preambule := by
    refine ⟨charC, ?_, ?_⟩
    · rw [lxmodemBuildAndSendPreambule, hr]
    · simp [lxmodemDecodePreambule, hs, show charC ≠ NAK by decide]

structure ModemContext.Offers (sender : ModemContext) (file name : List UInt8) : Prop where
  loaded : sender.ramfile.Loaded file
  named : sender.fileData.isValid lmodemMetadataFilenameValid = true
  sized : sender.fileData.isValid lmodemMetadataFilesizeValid = true
  size : sender.fileData.size.toNat = file.length
  filename : ∃ source, sender.fileData.filename = some source ∧ source.Holds 0 (name ++ [0])
  nonempty : name ≠ []
  plain : 0 ∉ name
  length : name.length ≤ 979
  line : lymodemBufferMinSize ≤ sender.blkBuffer.maxSize.toNat

structure ModemContext.Expects (receiver : ModemContext) (name : List UInt8) : Prop where
  filename : ∃ dest, receiver.fileData.filename = some dest
  room : name.length < receiver.fileData.filenameSize.toNat
  line : lymodemBufferMinSize ≤ receiver.blkBuffer.maxSize.toNat

variable {file name : List UInt8} {fuel : ℕ}

theorem lymodemEmit_afterData (fuel : ℕ) (sender : ModemContext) :
    (lymodemEmitData fuel sender true >>= fun y =>
      lymodemEmitEndOfBach fuel y.2.2 y.1 ACK y.2.1 >>= fun z => .done (z.1.toInt32, z.2)) =
    lxmodemEmit fuel sender >>= afterData fuel := by
  rw [lymodemEmitData, if_pos rfl, bind_assoc]
  congr 1

theorem lymodemReceive_afterReception (fuel : ℕ) {receiver receiver' : ModemContext}
    (decoded : lymodemDecodeBlock0 receiver = (receiver', true)) :
    (lymodemReceiveData fuel .recvOk receiver >>= fun y => .done (y.1.toInt32, lymodemTrim y.1 y.2)) =
      lxmodemReceive fuel receiver' >>= afterReception := by
  rw [lymodemReceiveData_eq, if_pos rfl, decoded, if_pos rfl, bind_assoc]
  congr 1
  funext x
  rw [bind_assoc]
  rfl

theorem ModemContext.Offers.opens (offers : sender.Offers file name) (expects : receiver.Expects name)
    (hr : receiver.protocol = .ymodem) (crc16 : receiver.crc16 = sender.crc16) :
    ∃ sender' buffer dest l r, Steps Medium.perfect
        (.start (lymodemEmit (fuel + 2) sender) (lymodemReceive (fuel + 2) receiver))
        ⟨lxmodemEmit (fuel + 2) sender' >>= afterData (fuel + 2),
          lxmodemReceive (fuel + 2) (receiver.withMetadata buffer dest sender.fileData.fields) >>=
            afterReception, [], [], l, r⟩ ∧
      l.flatMap Label.consumed = [charC, ACK] ∧ r.flatMap Label.delivered = [charC, ACK] ∧
      cString dest receiver.fileData.filenameSize.toNat = name ∧
      SameSetup sender sender' ∧ sender'.ramfile = sender.ramfile := by
  obtain ⟨source, filename, content⟩ := offers.filename
  obtain ⟨dest, hdest⟩ := expects.filename
  have text := metadataText_length sender.fileData
  have fits := block0_fits offers.length sender.fileData
  obtain ⟨sender', build, setup, ramfile⟩ := lymodemBuildAndSendBlock0_eq offers.named
    (lymodemNbMetaData_pos offers.sized) filename content offers.plain fits offers.line
  have size : (block0Payload name sender.fileData.fields).length = 128 ∨
      (block0Payload name sender.fileData.fields).length = 1024 := by
    rw [block0Payload_length fits, block0Size]
    split <;> simp
  have line : 1029 ≤ receiver.blkBuffer.maxSize.toNat := expects.line
  obtain ⟨text', fields, hfields⟩ := fields_eq_cons (lymodemNbMetaData_pos offers.sized)
  obtain ⟨buffer, dest', string, decoded⟩ := @lymodemDecodeBlock0_text
    (receiver.fill (frameBody receiver.crc16 true 0 (block0Payload name sender.fileData.fields))) name
    sender.fileData.fields dest hdest offers.nonempty offers.plain expects.room
    (metadataFields_fields _) (by rw [hfields]; simp) (fields_length_le _)
    (holds_block0 receiver.blkBuffer.buffer receiver.crc16 fits)
    (show _ < receiver.blkBuffer.maxSize.toNat by omega)
  have emits := (lymodemEmitBlock0_performs build fuel).bind fun x =>
    lymodemEmitData (fuel + 2) x.2.2 x.1 >>= fun y =>
      lymodemEmitEndOfBach (fuel + 2) y.2.2 y.1 x.2.1 y.2.1 >>= fun z => .done (z.1.toInt32, z.2)
  rw [Program.done_bind, lymodemEmit_afterData] at emits
  have waits := (@lymodemWaitBlock0_performs receiver fuel _ hr size 9).bind fun x =>
    lymodemReceiveData (fuel + 2) x.1 x.2 >>= fun y => .done (y.1.toInt32, lymodemTrim y.1 y.2)
  rw [Program.done_bind, lymodemReceive_afterReception (fuel + 2) decoded] at waits
  obtain ⟨asked, requested, exchanges⟩ := @Performs.of_append _ _ _ _ [.received [charC]] _ emits
  have preambule : lxmodemBuildAndSendPreambule receiver = putchars [charC] := by
    rw [lxmodemBuildAndSendPreambule, hr]
  have asks : Performs (lymodemReceive (fuel + 2) receiver) [.sent [charC]]
      (lymodemWaitBlock0 (fuel + 2) receiver 10 >>= fun x =>
        lymodemReceiveData (fuel + 2) x.1 x.2 >>= fun y => .done (y.1.toInt32, lymodemTrim y.1 y.2)) := by
    rw [lymodemReceive, preambule]
    exact .write (.refl _)
  have first := @steps_leftwards _ _ .perfect .perfect _ _ _ _ [] [] [] [charC] [[charC]] asks requested rfl
  have second := @steps_exchange _ _ .perfect .perfect _ _ _ _ [.read [charC]] [.write [charC] [charC]] _
    [ACK] [ACK] [[frameHeader (block0Payload name sender.fileData.fields)],
      frameBody receiver.crc16 true 0 (block0Payload name sender.fileData.fields)] exchanges waits
    (by rw [crc16]; simp [Wire.perfect, dataFrame]) rfl
  exact ⟨sender', buffer, dest', _, _, first.trans second, rfl, rfl, string, setup, ramfile⟩

theorem ModemContext.Offers.block0 (offers : sender.Offers file name) (expects : receiver.Expects name)
    (hr : receiver.protocol = .ymodem) (crc16 : receiver.crc16 = sender.crc16) :
    ∃ sender' buffer dest l r, Steps Medium.perfect
        (.start (lymodemEmit (fuel + 2) sender) (lymodemReceive (fuel + 2) receiver))
        ⟨lxmodemEmit (fuel + 2) sender' >>= afterData (fuel + 2),
          lxmodemReceive (fuel + 2) (receiver.withMetadata buffer dest sender.fileData.fields) >>=
            afterReception, [], [], l, r⟩ ∧
      SameSetup sender sender' ∧ sender'.ramfile = sender.ramfile := by
  obtain ⟨sender', buffer, dest, l, r, steps, _, _, _, setup, ramfile⟩ :=
    @ModemContext.Offers.opens sender receiver file name fuel offers expects hr crc16
  exact ⟨sender', buffer, dest, l, r, steps, setup, ramfile⟩

end Session

theorem lymodemTrim_file {receiver : ModemContext} {b : LmodemBuffer} {file : List UInt8} {n : Int32} {pad : ℕ}
    (result : n.toInt = (file ++ List.replicate pad SUB).length)
    (ramfile : receiver.ramfile = b.appended (file ++ List.replicate pad SUB)) (fresh : b.writeOffset = 0)
    (capacity : b.maxSize.toNat < 2147483648)
    (room : (file ++ List.replicate pad SUB).length < b.maxSize.toNat)
    (size : receiver.fileData.size.toNat = file.length)
    (sized : receiver.fileData.isValid lmodemMetadataFilesizeValid = true) :
    (lymodemTrim n.toUInt32 receiver).ramfile.writeOffset.toNat = file.length ∧
      (lymodemTrim n.toUInt32 receiver).ramfile.buffer.load 0 file.length = file := by
  have hw : b.writeOffset.toNat = 0 := by rw [fresh]; rfl
  have written := @appended_writeOffset b (file ++ List.replicate pad SUB) capacity (by omega)
  have content : receiver.ramfile.buffer.Holds 0 (file ++ List.replicate pad SUB) := by
    rw [ramfile, LmodemBuffer.appended, hw]
    exact Memory.holds_store _ _ _
  have longer : file.length ≤ (file ++ List.replicate pad SUB).length := by
    rw [List.length_append]
    omega
  have here : receiver.ramfile.buffer.load 0 file.length = file := (Memory.holds_append.mp content).1
  rw [LmodemFileCharacteristics.isValid, decide_eq_true_eq] at sized
  rw [lymodemTrim]
  split
  · have allowed : receiver.fileData.size ≤ receiver.ramfile.maxSize := by
      rw [UInt32.le_iff_toNat_le, size, ramfile, appended_maxSize]
      omega
    simp only [lmodemBufferSetWriteOffset, allowed, ↓reduceIte]
    exact ⟨size, here⟩
  · rename_i untrimmed
    have none : (file ++ List.replicate pad SUB).length = 0 := by
      have zero : ¬ n.toUInt32 > 0 := fun h => untrimmed ⟨h, sized⟩
      rw [gt_iff_lt, UInt32.lt_iff_toNat_lt] at zero
      have hn : n.toUInt32 = 0 := UInt32.toNat_inj.mp (by simpa using zero)
      have hn' : n = 0 := by rw [← Int32.toInt32_toUInt32 n, hn]; rfl
      rw [hn'] at result
      exact Int.natCast_eq_zero.mp result.symm
    have hlen : file.length = 0 := by omega
    rw [ramfile, written, hw, none, hlen]
    exact ⟨rfl, (List.length_eq_zero_iff.mp hlen).symm⟩

theorem ymodem_delivers (sender receiver : ModemContext) (file name : List UInt8)
    (offers : sender.Offers file name) (expects : receiver.Expects name)
    (crc16 : receiver.crc16 = sender.crc16) (fresh : receiver.ramfile.writeOffset = 0)
    (capacity : receiver.ramfile.maxSize.toNat < 2147483648)
    (room : (paddedFile 1024 file).length < receiver.ramfile.maxSize.toNat) :
    ∃ fuel₀, ∀ fuel ≥ fuel₀, Inevitable (Step .perfect)
      (fun s => ∃ (n : Int32) (sender' receiver' : ModemContext), s.Returned (n, sender') (n, receiver') ∧
        n.toInt = (paddedFile 1024 file).length ∧
        receiver'.ramfile.writeOffset.toNat = file.length ∧
        receiver'.ramfile.buffer.load 0 file.length = file)
      (.start (lmodemEmit .ymodem fuel sender) (lmodemReceive .ymodem fuel receiver)) := by
  refine ⟨11 * blockCount 1024 file + 15, fun fuel hfuel => ?_⟩
  obtain ⟨fuel, rfl⟩ := Nat.exists_eq_add_of_le' (show 3 ≤ fuel by omega)
  obtain ⟨sender₁, buffer, dest, l₁, r₁, steps₁, setup₁, ramfile₁⟩ :=
    @ModemContext.Offers.block0 { sender with protocol := .ymodem } { receiver with protocol := .ymodem }
      file name (fuel + 1) ⟨offers.loaded, offers.named, offers.sized, offers.size, offers.filename,
        offers.nonempty, offers.plain, offers.length, offers.line⟩
      ⟨expects.filename, expects.room, expects.line⟩ rfl crc16
  obtain ⟨receiver₁, hreceiver₁⟩ : ∃ x, x =
    { receiver with protocol := .ymodem }.withMetadata buffer dest sender.fileData.fields := ⟨_, rfl⟩
  have hp : sender₁.protocol = .ymodem := setup₁.protocol.symm
  have hp' : receiver₁.protocol = .ymodem := by rw [hreceiver₁]; rfl
  have ramfile : receiver₁.ramfile = receiver.ramfile := by rw [hreceiver₁]; rfl
  have blksize : sender₁.blksize = 1024 := by simp [ModemContext.blksize, hp]
  have hw : receiver.ramfile.writeOffset.toNat = 0 := by rw [fresh]; rfl
  have compatible := compatible_ymodem hp hp' (by rw [hreceiver₁, ← setup₁.crc16]; exact crc16)
  have hroom : Room sender₁ receiver₁ file := by
    refine ⟨?_, ?_⟩
    · rw [ramfile]
      exact ⟨by omega, capacity⟩
    · rw [ramfile, blksize]
      omega
  rw [← hreceiver₁] at steps₁
  obtain ⟨n, sender₂, receiver₂, l₂, r₂, steps₂, delivered⟩ :=
    @Compatible.delivers (Int32 × ModemContext) noFaults sender₁ receiver₁ file .perfect .perfect
      (fun _ _ _ _ => True) (fuel + 3) (fuel + 3) l₁ r₁ (afterData (fuel + 3)) afterReception compatible
      hroom (by rw [ramfile₁]; exact offers.loaded) (noFaults_recoverable _ _) channel_perfect
      (fun _ => trivial) (fun _ => rfl) (by rw [blksize]; omega) (by rw [blksize]; omega)
  have line : 1029 ≤ sender.blkBuffer.maxSize.toNat := offers.line
  obtain ⟨sender₃, l₃, r₃, steps₃⟩ := @steps_endOfBatch sender₂ receiver₂ n fuel l₂ r₂
    (by rw [← delivered.emitted.lineSize, ← setup₁.lineSize]; exact Nat.le_trans (by decide) line)
    (delivered.received.protocol.symm.trans hp')
  obtain ⟨pad, _, padded⟩ := @paddedFile_eq 1024 file (Or.inr rfl)
  have result := delivered.result
  have stored := delivered.ramfile
  rw [blksize, padded] at result stored
  rw [padded] at room
  obtain ⟨size, sized⟩ := setFields_fields offers.sized { lmodemMetadataClean receiver.fileData with
    filename := some dest, valid := lmodemMetadataFilenameValid }
  have fileData : receiver₂.fileData = setFields { lmodemMetadataClean receiver.fileData with
      filename := some dest, valid := lmodemMetadataFilenameValid } 0 sender.fileData.fields := by
    rw [← delivered.received.fileData, hreceiver₁]
    rfl
  rw [← fileData] at size sized
  have trimmed := @lymodemTrim_file
    (receiver₂.fill (frameBody sender₂.crc16 true 0 (List.replicate 128 0))) receiver.ramfile file n pad
    result (by rw [← ramfile]; exact stored) fresh capacity room
    ((congrArg UInt32.toNat size).trans offers.size) sized
  rw [padded]
  refine Inevitable.of_steps (diamond_ofWires _ _) ?_ ((steps₁.trans steps₂).trans steps₃)
    (.now ⟨n, sender₃, _, ⟨rfl, rfl⟩, result, trimmed⟩)
  rintro s ⟨n, sender', receiver', returned, _⟩ s'
  exact returned.no_step

theorem ymodem_delivers_short :
    ∃ fuel₀, ∀ fuel ≥ fuel₀, Inevitable (Step .perfect)
      (fun s => ∃ (n : Int32) (sender' receiver' : ModemContext), s.Returned (n, sender') (n, receiver') ∧
        n.toInt = (paddedFile 1024 [1, 2, 3]).length ∧
        receiver'.ramfile.writeOffset.toNat = ([1, 2, 3] : List UInt8).length ∧
        receiver'.ramfile.buffer.load 0 ([1, 2, 3] : List UInt8).length = [1, 2, 3])
      (.start (lmodemEmit .ymodem fuel (ymodemSender [1, 2, 3])) (lmodemReceive .ymodem fuel ymodemReceiver)) :=
  ymodem_delivers (ymodemSender [1, 2, 3]) ymodemReceiver [1, 2, 3] [97]
    { loaded := ⟨⟨by decide, by decide⟩, rfl⟩
      named := by decide
      sized := by decide
      size := by decide
      filename := ⟨_, rfl, by decide +kernel⟩
      nonempty := by decide
      plain := by decide
      length := by decide
      line := by decide }
    { filename := ⟨_, rfl⟩
      room := by decide
      line := by decide } rfl rfl (by decide) (by decide +kernel)

end LightModem
