import LightModem.RoundTrip
import LightModem.YmodemRefusal

set_option autoImplicit false

namespace LightModem

open Interaction

/-- The line to the receiver. The first `opening` bytes that the sender reads are not answers to data
blocks, and nothing is damaged before it has read them. -/
def Schedule.forwardFrom (schedule : Schedule) (opening : ℕ) : Wire UInt8 := fun log frame =>
  let answers := log.flatMap Label.consumed
  if answers.length < opening then frame
  else
    let place := placeAfter (answers.drop opening)
    (schedule place.1 place.2).onFrame frame

def Schedule.backwardFrom (schedule : Schedule) (opening : ℕ) : Wire UInt8 := fun log answer =>
  let answers := log.flatMap Label.delivered
  if answers.length < opening then answer
  else
    let place := placeAfter (answers.drop opening)
    (schedule place.1 place.2).onAnswer answer

def AtPlaceFrom (opening i c : ℕ) (l r : List (Label UInt8)) : Prop :=
  ∃ first answers, first.length = opening ∧ l.flatMap Label.consumed = first ++ answers ∧
    r.flatMap Label.delivered = first ++ answers ∧ placeAfter answers = (i, c)

section Place

variable {schedule : Schedule} {opening i c : ℕ} {l r : List (Label UInt8)}

theorem placeAfter_le (answers more : List UInt8) : (placeAfter answers).1 ≤ (placeAfter (answers ++ more)).1 := by
  induction more using List.reverseRecOn with
  | nil => rw [List.append_nil]
  | append_singleton more a ih =>
    rw [← List.append_assoc, placeAfter_concat]
    split
    · exact Nat.le_succ_of_le ih
    · exact ih

theorem forwardFrom_after {first answers : List UInt8} (size : first.length = opening)
    (heard : l.flatMap Label.consumed = first ++ answers) (frame : List UInt8) :
    schedule.forwardFrom opening l frame =
      (schedule (placeAfter answers).1 (placeAfter answers).2).onFrame frame := by
  have drop : (first ++ answers).drop opening = answers := List.drop_left' size
  have long : ¬ (first ++ answers).length < opening := by
    rw [List.length_append]
    omega
  simp only [Schedule.forwardFrom, heard, long, drop, ↓reduceIte]

theorem backwardFrom_after {first answers : List UInt8} (size : first.length = opening)
    (answered : r.flatMap Label.delivered = first ++ answers) (answer : List UInt8) :
    schedule.backwardFrom opening r answer =
      (schedule (placeAfter answers).1 (placeAfter answers).2).onAnswer answer := by
  have drop : (first ++ answers).drop opening = answers := List.drop_left' size
  have long : ¬ (first ++ answers).length < opening := by
    rw [List.length_append]
    omega
  simp only [Schedule.backwardFrom, answered, long, drop, ↓reduceIte]

theorem AtPlaceFrom.answered (h : AtPlaceFrom opening i c l r) (frame arrived answer : List UInt8)
    (reads : List (List UInt8)) (a : UInt8) {i' c' : ℕ}
    (next : (if a = ACK then (i + 1, 0) else (i, c + 1)) = (i', c')) :
    AtPlaceFrom opening i' c' (l ++ [.write frame arrived, .read [a]])
      (r ++ reads.map .read ++ [.write answer [a]]) := by
  obtain ⟨first, answers, size, hl, hr, place⟩ := h
  refine ⟨first, answers ++ [a], size, ?_, ?_, ?_⟩
  · simp [hl, Label.consumed]
  · rw [List.flatMap_append, List.flatMap_append, hr, delivered_reads]
    simp [Label.delivered]
  · rw [placeAfter_concat, place, next]

theorem Schedule.channelFrom (schedule : Schedule) (opening : ℕ) :
    Channel (schedule.forwardFrom opening) (schedule.backwardFrom opening) schedule (AtPlaceFrom opening) where
  sends := by
    rintro i c l r ⟨first, answers, size, hl, hr, place⟩ frame
    rw [forwardFrom_after size hl, place]
  answers := by
    rintro i c l r ⟨first, answers, size, hl, hr, place⟩ reads answer
    rw [@backwardFrom_after schedule opening _ first answers size
      (by rw [List.flatMap_append, hr, delivered_reads, List.append_nil]), place]
  acknowledged := fun h frame arrived reads answer => h.answered frame arrived answer reads ACK rfl
  refused := fun h frame arrived reads answer => h.answered frame arrived answer reads NAK rfl

theorem AtPlaceFrom.spared {last : ℕ} (h : AtPlaceFrom opening i c l r) (hi : last ≤ i)
    (spared : ∀ i c, last ≤ i → schedule i c = .none) :
    (∀ log, l <+: log → ∀ frame, schedule.forwardFrom opening log frame = frame) ∧
      ∀ log, r <+: log → ∀ answer, schedule.backwardFrom opening log answer = answer := by
  obtain ⟨first, answers, size, hl, hr, place⟩ := h
  have later (more : List UInt8) (c' : ℕ) : schedule (placeAfter (answers ++ more)).1 c' = .none := by
    apply spared
    have hle := placeAfter_le answers more
    rw [place] at hle
    exact hi.trans hle
  constructor
  · rintro _ ⟨more, rfl⟩ frame
    rw [forwardFrom_after size (by rw [List.flatMap_append, hl, List.append_assoc]), later]
    rfl
  · rintro _ ⟨more, rfl⟩ answer
    rw [backwardFrom_after size (by rw [List.flatMap_append, hr, List.append_assoc]), later]
    simp [Impairment.onAnswer, Impairment.none]

theorem forwardFrom_before {log : List (Label UInt8)} (hlog : log <+: l)
    (few : (l.flatMap Label.consumed).length < opening) (frame : List UInt8) :
    schedule.forwardFrom opening log frame = frame := by
  obtain ⟨more, rfl⟩ := hlog
  rw [List.flatMap_append, List.length_append] at few
  exact if_pos (by omega)

theorem backwardFrom_before {log : List (Label UInt8)} (hlog : log <+: r)
    (few : (r.flatMap Label.delivered).length < opening) (answer : List UInt8) :
    schedule.backwardFrom opening log answer = answer := by
  obtain ⟨more, rfl⟩ := hlog
  rw [List.flatMap_append, List.length_append] at few
  exact if_pos (by omega)

end Place

/-- What a receiver has of a file and of its metadata after a session, with room for the file or without. The
write offset goes to the size that has been announced, whatever has been stored. -/
structure BatchSettled (sender receiver : ModemContext) (file name : List UInt8) (n : Int32) (receiver' : ModemContext) :
    Prop where
  result : n.toInt = if blocksThatFit receiver 1024 file = blockCount 1024 file then
    ((paddedFile 1024 file).length : ℤ) else -1
  size : receiver'.ramfile.writeOffset.toNat = if file.length ≤ receiver.ramfile.maxSize.toNat then file.length
    else (payloadsBefore 1024 file (blocksThatFit receiver 1024 file)).length
  content : receiver'.ramfile.buffer.load 0 (payloadsBefore 1024 file (blocksThatFit receiver 1024 file)).length =
    payloadsBefore 1024 file (blocksThatFit receiver 1024 file)
  readOffset : receiver'.ramfile.readOffset = receiver.ramfile.readOffset
  crc16 : receiver'.crc16 = receiver.crc16
  lineSize : receiver'.blkBuffer.maxSize = receiver.blkBuffer.maxSize
  metadata : ∃ dest, cString dest receiver.fileData.filenameSize.toNat = name ∧
    receiver'.fileData = setFields { lmodemMetadataClean receiver.fileData with
      filename := some dest, valid := lmodemMetadataFilenameValid } 0 sender.fileData.fields

structure Batched (sender receiver : ModemContext) (file name : List UInt8) (n : Int32)
    (receiver' : ModemContext) : Prop where
  result : n.toInt = (paddedFile 1024 file).length
  size : receiver'.ramfile.writeOffset.toNat = file.length
  content : receiver'.ramfile.buffer.load 0 file.length = file
  readOffset : receiver'.ramfile.readOffset = receiver.ramfile.readOffset
  crc16 : receiver'.crc16 = receiver.crc16
  lineSize : receiver'.blkBuffer.maxSize = receiver.blkBuffer.maxSize
  metadata : ∃ dest, cString dest receiver.fileData.filenameSize.toNat = name ∧
    receiver'.fileData = setFields { lmodemMetadataClean receiver.fileData with
      filename := some dest, valid := lmodemMetadataFilenameValid } 0 sender.fileData.fields

theorem lymodemTrim_keeps (receivedBytes : UInt32) (pThis : ModemContext) :
    (lymodemTrim receivedBytes pThis).ramfile.readOffset = pThis.ramfile.readOffset ∧
      SameSetup pThis (lymodemTrim receivedBytes pThis) := by
  rw [lymodemTrim]
  split
  · rw [lmodemBufferSetWriteOffset]
    split
    · exact ⟨rfl, rfl, rfl, rfl, rfl, rfl, rfl⟩
    · exact ⟨rfl, .refl _⟩
  · exact ⟨rfl, .refl _⟩

theorem lymodemTrim_moves {receivedBytes : UInt32} {pThis : ModemContext}
    (sized : pThis.fileData.isValid lmodemMetadataFilesizeValid = true)
    (empty : receivedBytes = 0 → pThis.fileData.size = pThis.ramfile.writeOffset) :
    (lymodemTrim receivedBytes pThis).ramfile.buffer = pThis.ramfile.buffer ∧
      (lymodemTrim receivedBytes pThis).ramfile.writeOffset =
        if pThis.fileData.size ≤ pThis.ramfile.maxSize then pThis.fileData.size else pThis.ramfile.writeOffset := by
  rw [LmodemFileCharacteristics.isValid, decide_eq_true_eq] at sized
  rw [lymodemTrim]
  split
  · rw [lmodemBufferSetWriteOffset]
    split <;> exact ⟨rfl, rfl⟩
  · next untrimmed =>
    have none : receivedBytes = 0 := by
      by_contra some
      exact untrimmed ⟨UInt32.pos_iff_ne_zero.mpr some, sized⟩
    rw [empty none, ite_self]
    exact ⟨rfl, rfl⟩

section Session

variable {schedule : Schedule} {sender receiver : ModemContext} {file name : List UInt8} {fuel : ℕ}

theorem Recoverable.ymodem {sender' : ModemContext} (h : Recoverable sender file schedule)
    (hs : sender.protocol = .ymodem) (hs' : sender'.protocol = .ymodem) (crc16 : sender.crc16 = sender'.crc16) :
    Recoverable sender' file schedule := by
  have same : sender'.blksize = sender.blksize := by simp [ModemContext.blksize, hs, hs']
  have checks : sender'.usesCrc = sender.usesCrc := by simp [ModemContext.usesCrc, hs, hs']
  refine ⟨?_, ?_, h.consecutive⟩
  · rw [same]
    exact h.spared
  · rw [same]
    intro i c bytes damage
    obtain ⟨size, spoilt⟩ := h.spoils i c bytes damage
    exact ⟨by rw [checks]; exact size, by rw [checks, ← crc16]; exact spoilt⟩

theorem ModemContext.Offers.emitting (h : sender.Offers file name) (protocol : LmodemProtocol) :
    { sender with protocol := protocol }.Offers file name :=
  ⟨h.loaded, h.named, h.sized, h.size, h.filename, h.nonempty, h.plain, h.length, h.line⟩

theorem ModemContext.Expects.receiving (h : receiver.Expects name) (protocol : LmodemProtocol) :
    { receiver with protocol := protocol }.Expects name :=
  ⟨h.filename, h.room, h.line⟩

structure Opened (sender receiver : ModemContext) (name : List UInt8) (sender' receiver' : ModemContext) : Prop where
  emitting : SameSetup sender sender'
  file : sender'.ramfile = sender.ramfile
  receiving : ∃ buffer dest, cString dest receiver.fileData.filenameSize.toNat = name ∧
    receiver' = receiver.withMetadata buffer dest sender.fileData.fields

theorem ModemContext.Offers.opensOver (offers : sender.Offers file name) (expects : receiver.Expects name)
    (hr : receiver.protocol = .ymodem) (crc16 : receiver.crc16 = sender.crc16) (schedule : Schedule) (fuel : ℕ) :
    ∃ sender' receiver' l r, Steps (.ofWires (schedule.forwardFrom 3) (schedule.backwardFrom 3))
        (.start (lymodemEmit (fuel + 2) sender) (lymodemReceive (fuel + 2) receiver))
        ⟨lxmodemEmit (fuel + 2) sender' >>= afterData (fuel + 2),
          lxmodemReceive (fuel + 2) receiver' >>= afterReception, [], [], l, r⟩ ∧
      (∀ p, AtPlaceFrom 3 0 0 (l ++ [.read [p]]) (r ++ [.write [p] [p]])) ∧
      (∀ p, schedule.backwardFrom 3 r [p] = [p]) ∧ Opened sender receiver name sender' receiver' := by
  obtain ⟨sender', buffer, dest, l, r, steps, consumed, delivered, string, setup, ramfile⟩ :=
    @ModemContext.Offers.opens sender receiver file name fuel offers expects hr crc16
  refine ⟨sender', _, l, r, steps_rewire steps ?_ ?_, ?_, ?_, setup, ramfile, buffer, dest, string, rfl⟩
  · intro log _ hlog frame
    exact (@forwardFrom_before schedule 3 _ log hlog (by rw [consumed]; decide) frame).symm
  · intro log _ hlog answer
    exact (@backwardFrom_before schedule 3 _ log hlog (by rw [delivered]; decide) answer).symm
  · intro p
    exact ⟨[charC, ACK, p], [], rfl, by simp [consumed, Label.consumed], by simp [delivered, Label.delivered], rfl⟩
  · intro p
    exact @backwardFrom_before schedule 3 _ r List.prefix_rfl (by rw [delivered]; decide) [p]

theorem settles_afterOpening {sender receiver : ModemContext} {l r : List (Label UInt8)}
    (hs : sender.protocol = .ymodem) (hr : receiver.protocol = .ymodem) (crc16 : receiver.crc16 = sender.crc16)
    (loaded : sender.ramfile.Loaded file) (line : 131 ≤ sender.blkBuffer.maxSize.toNat)
    (writable : receiver.ramfile.Writable) (recoverable : Recoverable sender file schedule)
    (spared : ∀ i c, blocksThatFit receiver 1024 file ≤ i → schedule i c = .none)
    (place : ∀ p, AtPlaceFrom 3 0 0 (l ++ [.read [p]]) (r ++ [.write [p] [p]]))
    (carried : ∀ p, schedule.backwardFrom 3 r [p] = [p]) (hfuel : 11 * blockCount 1024 file + 13 ≤ fuel + 3) :
    ∃ n sender' receiver' toLeft toRight l' r',
      Steps (.ofWires (schedule.forwardFrom 3) (schedule.backwardFrom 3))
        ⟨lxmodemEmit (fuel + 3) sender >>= afterData (fuel + 3), lxmodemReceive (fuel + 3) receiver >>= afterReception,
          [], [], l, r⟩
        ⟨.done (n, sender'), .done (n, lymodemTrim n.toUInt32 receiver'), toLeft, toRight, l', r'⟩ ∧
      Agreed sender receiver file n receiver' := by
  have blksize : sender.blksize = 1024 := by simp [ModemContext.blksize, hs]
  have fitting := @blocksThatFit_before receiver sender.blksize file writable
  have hk := @blocksThatFit_le receiver sender.blksize file
  have count : blockCount sender.blksize file = blockCount 1024 file := by rw [blksize]
  obtain ⟨sendFuel, receiveFuel, s, r₁, l₁, rlog₁, filled, before, hs', hr'⟩ :=
    @Compatible.reaches (Int32 × ModemContext) schedule sender receiver file (schedule.forwardFrom 3)
      (schedule.backwardFrom 3) (AtPlaceFrom 3) (fuel + 3) (fuel + 3) l r (afterData (fuel + 3)) afterReception _
      (compatible_ymodem hs hr crc16) writable blocksThatFit_room loaded recoverable (schedule.channelFrom 3) place
      carried hk (by omega) (by omega)
  rcases Nat.lt_or_eq_of_le hk with short | all
  · obtain ⟨s', r₂, l₂, rlog₂, refused, turnedAway⟩ := @steps_turnedAway (Int32 × ModemContext) sender receiver file
      _ sendFuel receiveFuel s r₁ l₁ rlog₁ (fun s => afterData (fuel + 3) (s.emittedBytes.toInt32, s.pThis))
      (fun s => afterReception (s.receivedBytes.toInt32, s.pThis)) (compatible_ymodem hs hr crc16) writable fitting
      (blocksThatFit_full short) loaded.length_lt short before.head before.receiving (by omega) (by omega)
    rw [turnedAway.emitted, turnedAway.received] at refused
    obtain ⟨sender', receiver', toLeft, toRight, l₃, rlog₃, ended, setup, ramfile⟩ := @steps_refusedBatch sender
      r₂.pThis file _ (fuel + 1) l₂ rlog₂ hs (turnedAway.setup.protocol.symm.trans hr) _ s'.pThis
    obtain ⟨sends, answers⟩ := before.place.spared (Nat.le_refl _) (by rw [blksize]; exact spared)
    have rest := steps_rewire (refused.trans ended) (fun log hlog _ frame => (sends log hlog frame).symm)
      (fun log hlog _ answer => (answers log hlog answer).symm)
    refine ⟨-1, sender', receiver', toLeft, toRight, l₃, rlog₃, filled.trans rest, ?_, turnedAway.setup.trans setup,
      ramfile.trans turnedAway.ramfile⟩
    rw [if_neg short.ne]
    rfl
  · rw [all] at before fitting
    obtain ⟨n, sender', receiver', l₂, rlog₂, finished, delivered, place'⟩ := @Before.finishes (Int32 × ModemContext)
      schedule sender receiver file (schedule.forwardFrom 3) (schedule.backwardFrom 3) (AtPlaceFrom 3) sendFuel
      receiveFuel s r₁ l₁ rlog₁ (afterData (fuel + 3)) afterReception before loaded.length_lt recoverable
      (schedule.channelFrom 3) writable fitting (by omega) (by omega)
    obtain ⟨sender₃, l₃, rlog₃, ended⟩ := @steps_endOfBatch sender' receiver' n fuel l₂ rlog₂
      (by rw [← delivered.emitted.lineSize]; exact line) (delivered.received.protocol.symm.trans hr)
    obtain ⟨sends, answers⟩ := place'.spared (Nat.le_succ _) recoverable.spared
    have rest := steps_rewire ended (fun log hlog _ frame => (sends log hlog frame).symm)
      (fun log hlog _ answer => (answers log hlog answer).symm)
    refine ⟨n, sender₃, receiver'.fill (frameBody sender'.crc16 true 0 (List.replicate 128 0)), [], [], l₃, rlog₃,
      (filled.trans finished).trans rest, ?_, delivered.received.trans ⟨rfl, rfl, rfl, rfl, rfl, rfl⟩, ?_⟩
    · rw [if_pos all]
      exact delivered.result
    · rw [all]
      exact delivered.ramfile

theorem ModemContext.Offers.settles (offers : sender.Offers file name) (expects : receiver.Expects name)
    (hs : sender.protocol = .ymodem) (hr : receiver.protocol = .ymodem) (crc16 : receiver.crc16 = sender.crc16)
    (fresh : receiver.ramfile.writeOffset = 0) (capacity : receiver.ramfile.maxSize.toNat < 2147483648)
    (recoverable : Recoverable sender file schedule)
    (spared : ∀ i c, blocksThatFit receiver 1024 file ≤ i → schedule i c = .none)
    (hfuel : 11 * blockCount 1024 file + 15 ≤ fuel) :
    ∃ n sender' receiver' toLeft toRight l r,
      Steps (.ofWires (schedule.forwardFrom 3) (schedule.backwardFrom 3))
        (.start (lymodemEmit fuel sender) (lymodemReceive fuel receiver))
        ⟨.done (n, sender'), .done (n, receiver'), toLeft, toRight, l, r⟩ ∧
      BatchSettled sender receiver file name n receiver' := by
  obtain ⟨fuel, rfl⟩ := Nat.exists_eq_add_of_le' (show 3 ≤ fuel by omega)
  obtain ⟨sender₁, receiver₁, l₁, r₁, opening, place, carried, opened⟩ :=
    offers.opensOver expects hr crc16 schedule (fuel + 1)
  obtain ⟨buffer, dest, string, hreceiver₁⟩ := opened.receiving
  have hp : sender₁.protocol = .ymodem := opened.emitting.protocol.symm.trans hs
  have hp' : receiver₁.protocol = .ymodem := by rw [hreceiver₁]; exact hr
  have ramfile : receiver₁.ramfile = receiver.ramfile := by rw [hreceiver₁]; rfl
  have blksize : sender₁.blksize = 1024 := by simp [ModemContext.blksize, hp]
  have hw : receiver.ramfile.writeOffset.toNat = 0 := by rw [fresh]; rfl
  have writable : receiver.ramfile.Writable := ⟨by omega, capacity⟩
  have same : blocksThatFit receiver₁ 1024 file = blocksThatFit receiver 1024 file := by
    rw [hreceiver₁]
    rfl
  have line : 1029 ≤ sender.blkBuffer.maxSize.toNat := offers.line
  obtain ⟨n, sender₂, receiver₂, toLeft, toRight, l₂, r₂, steps, agreed⟩ :=
    @settles_afterOpening schedule file fuel sender₁ receiver₁ l₁ r₁ hp hp'
      (by rw [hreceiver₁, ← opened.emitting.crc16]; exact crc16) (by rw [opened.file]; exact offers.loaded)
      (by rw [← opened.emitting.lineSize]; exact Nat.le_trans (by decide) line) (by rw [ramfile]; exact writable)
      (recoverable.ymodem hs hp opened.emitting.crc16) (by rw [same]; exact spared) place carried (by omega)
  have result := agreed.result
  have stored := agreed.ramfile
  rw [blksize, same] at result stored
  rw [ramfile] at stored
  have fitting := @blocksThatFit_before receiver 1024 file writable
  have written := @appended_writeOffset receiver.ramfile
    (payloadsBefore 1024 file (blocksThatFit receiver 1024 file)) capacity fitting
  rw [hw, Nat.zero_add, ← stored] at written
  rw [hw, Nat.zero_add] at fitting
  obtain ⟨size, sized⟩ := setFields_fields offers.sized { lmodemMetadataClean receiver.fileData with
    filename := some dest, valid := lmodemMetadataFilenameValid }
  have fileData : receiver₂.fileData = setFields { lmodemMetadataClean receiver.fileData with
      filename := some dest, valid := lmodemMetadataFilenameValid } 0 sender.fileData.fields := by
    rw [← agreed.setup.fileData, hreceiver₁]
    rfl
  rw [← fileData] at size sized
  have announced : receiver₂.fileData.size.toNat = file.length := (congrArg UInt32.toNat size).trans offers.size
  have capacity' : receiver₂.ramfile.maxSize = receiver.ramfile.maxSize := by rw [stored]; rfl
  have nothing (none : n.toUInt32 = 0) : receiver₂.fileData.size = receiver₂.ramfile.writeOffset := by
    have zero : n = 0 := by rw [← Int32.toInt32_toUInt32 n, none]; rfl
    rw [zero] at result
    have all : blocksThatFit receiver 1024 file = blockCount 1024 file := by
      by_contra missing
      rw [if_neg missing] at result
      exact absurd result (by decide)
    rw [if_pos all] at result
    obtain ⟨pad, _, padded⟩ := @paddedFile_eq 1024 file (Or.inr rfl)
    have empty : (paddedFile 1024 file).length = 0 := Int.natCast_eq_zero.mp result.symm
    rw [all, ← paddedFile, empty] at written
    rw [padded, List.length_append] at empty
    exact UInt32.toNat_inj.mp (by omega)
  obtain ⟨content, moved⟩ := lymodemTrim_moves sized nothing
  obtain ⟨unread, trims⟩ := lymodemTrim_keeps n.toUInt32 receiver₂
  refine ⟨n, sender₂, _, toLeft, toRight, l₂, r₂, opening.trans steps, result, ?_, ?_, ?_, ?_, ?_, dest, string, ?_⟩
  · rw [moved, capacity', apply_ite UInt32.toNat, announced, written]
    simp only [UInt32.le_iff_toNat_le, announced]
  · rw [content, stored, LmodemBuffer.appended, hw]
    exact Memory.load_store _ _ _
  · rw [unread, stored]
    rfl
  · rw [← trims.crc16, ← agreed.setup.crc16, hreceiver₁]
    rfl
  · rw [← trims.lineSize, ← agreed.setup.lineSize, hreceiver₁]
    rfl
  · rw [← fileData]
    exact trims.fileData.symm

theorem blocksThatFit_all (room : receiver.ramfile.writeOffset.toNat + (paddedFile 1024 file).length <
    receiver.ramfile.maxSize.toNat) : blocksThatFit receiver 1024 file = blockCount 1024 file :=
  Nat.findGreatest_eq room

theorem ModemContext.Offers.delivers (offers : sender.Offers file name) (expects : receiver.Expects name)
    (hs : sender.protocol = .ymodem) (hr : receiver.protocol = .ymodem) (crc16 : receiver.crc16 = sender.crc16)
    (fresh : receiver.ramfile.writeOffset = 0) (capacity : receiver.ramfile.maxSize.toNat < 2147483648)
    (room : (paddedFile 1024 file).length < receiver.ramfile.maxSize.toNat)
    (recoverable : Recoverable sender file schedule) (hfuel : 11 * blockCount 1024 file + 15 ≤ fuel) :
    ∃ n sender' receiver' toLeft toRight l r,
      Steps (.ofWires (schedule.forwardFrom 3) (schedule.backwardFrom 3))
        (.start (lymodemEmit fuel sender) (lymodemReceive fuel receiver))
        ⟨.done (n, sender'), .done (n, receiver'), toLeft, toRight, l, r⟩ ∧
      Batched sender receiver file name n receiver' := by
  have blksize : sender.blksize = 1024 := by simp [ModemContext.blksize, hs]
  have all := @blocksThatFit_all receiver file (by rw [fresh]; simpa using room)
  obtain ⟨n, sender', receiver', toLeft, toRight, l, r, steps, settled⟩ :=
    offers.settles expects hs hr crc16 fresh capacity recoverable
      (by rw [all, ← blksize]; exact recoverable.spared) hfuel
  obtain ⟨pad, _, padded⟩ := @paddedFile_eq 1024 file (Or.inr rfl)
  have result := settled.result
  have size := settled.size
  have content := settled.content
  rw [all, ← paddedFile, padded] at content
  rw [if_pos all] at result
  rw [padded, List.length_append] at room
  rw [if_pos (by omega)] at size
  refine ⟨n, sender', receiver', toLeft, toRight, l, r, steps, result, size, ?_, settled.readOffset, settled.crc16,
    settled.lineSize, settled.metadata⟩
  have cut := congrArg (List.take file.length) content
  rw [List.take_left' rfl, Memory.load_take _ (by rw [List.length_append]; omega)] at cut
  exact cut

end Session

theorem ymodemSender_offers {file : List UInt8} (short : file.length < 2147483648) :
    (ymodemSender file).Offers file [97] := by
  have size : file.length.toUInt32.toNat = file.length :=
    UInt32.toNat_ofNat_of_lt' (show file.length < 4294967296 by omega)
  have ramfile : (ymodemSender file).ramfile =
      ⟨.holding file 0, 0, file.length.toUInt32, file.length.toUInt32⟩ :=
    congrArg Prod.fst (if_pos (UInt32.le_refl _))
  have filename : (ymodemSender file).fileData.filename =
      some ((strncpy (.fresh 0) 0 (.holding [97] 0) 16).store 15 [0]) := by
    simp only [ymodemSender, lmodemMetadataSetFilesize, lmodemMetadataSetFilename, lmodemSetFilenameBuffer]
    rfl
  have valid : (ymodemSender file).fileData.valid = lmodemMetadataFilenameValid ||| lmodemMetadataFilesizeValid := by
    simp only [ymodemSender, lmodemMetadataSetFilesize, lmodemMetadataSetFilename, lmodemSetFilenameBuffer]
    show (0 ||| lmodemMetadataFilenameValid ||| lmodemMetadataFilesizeValid : UInt32) = _
    decide
  have string : ((strncpy (.fresh 0) 0 (.holding [97] 0) 16).store 15 [0]).Holds 0 ([97] ++ [0]) := by
    decide +kernel
  refine ⟨⟨?_, ?_⟩, by rw [LmodemFileCharacteristics.isValid, valid]; decide, by rw [LmodemFileCharacteristics.isValid, valid]; decide,
    size, ⟨_, filename, string⟩, by decide, by decide, by decide, ?_⟩
  · rw [ramfile]
    exact ⟨UInt32.zero_le, by rw [size]; exact short⟩
  · rw [ramfile, LmodemBuffer.unread]
    show (Memory.holding file 0).load 0 file.length.toUInt32.toNat = file
    rw [size]
    exact (Memory.holds_append.mp (Memory.holding_ended file 0)).1
  · show lymodemBufferMinSize ≤ 1029
    decide

theorem ymodemReceiver_expects : ymodemReceiver.Expects [97] where
  filename := ⟨_, rfl⟩
  room := by decide
  line := by decide

def batchFaults : Schedule := fun i c =>
  if i = 0 ∧ c = 0 then ⟨some (List.replicate 128 0 ++ [1, 0]), false⟩
  else if i = 0 ∧ c = 1 then ⟨none, true⟩
  else .none

theorem batchFaults_recoverable :
    Recoverable { ymodemSender [1, 2, 3] with protocol := .ymodem } [1, 2, 3] batchFaults where
  spared := by
    intro i c hi
    have count : blockCount ({ ymodemSender [1, 2, 3] with protocol := .ymodem } : ModemContext).blksize [1, 2, 3] = 1 := by
      decide
    have : i ≠ 0 := by omega
    simp [batchFaults, this]
  spoils := by
    intro i c bytes h
    unfold batchFaults at h
    split at h
    · rename_i place
      obtain ⟨rfl, rfl⟩ := place
      cases h
      exact ⟨by decide +kernel, by decide +kernel⟩
    · split at h <;> cases h
  consecutive := by
    intro i
    have later (j : ℕ) : batchFaults.faultsOn (j + 1) = 0 := by
      simp [Schedule.faultsOn, Schedule.faultsBefore, batchFaults, Impairment.faults, Impairment.none]
    cases i with
    | zero => decide
    | succ i => rw [later, later]; omega

/-- In every run of a YMODEM session whose faults are in blocks that the receiver has room for, both parties
return the same result, with room for the file or without: the size of the blocks if all of them fit, and -1 if
not. The receiver has the blocks that fit and the metadata, and its write offset is the announced size, if the
buffer is as large, even after a failure. -/
theorem ymodem_agrees (sender receiver : ModemContext) (file name : List UInt8) (schedule : Schedule)
    (offers : sender.Offers file name) (expects : receiver.Expects name) (crc16 : receiver.crc16 = sender.crc16)
    (fresh : receiver.ramfile.writeOffset = 0) (capacity : receiver.ramfile.maxSize.toNat < 2147483648)
    (recoverable : Recoverable { sender with protocol := .ymodem } file schedule)
    (spared : ∀ i c, blocksThatFit receiver 1024 file ≤ i → schedule i c = .none) :
    ∃ fuel₀, ∀ fuel ≥ fuel₀, Inevitable (Step (.ofWires (schedule.forwardFrom 3) (schedule.backwardFrom 3)))
      (fun s => ∃ (n : Int32) (sender' receiver' : ModemContext), s.Returned (n, sender') (n, receiver') ∧
        BatchSettled sender receiver file name n receiver')
      (.start (lmodemEmit .ymodem fuel sender) (lmodemReceive .ymodem fuel receiver)) := by
  refine ⟨11 * blockCount 1024 file + 15, fun fuel hfuel => ?_⟩
  obtain ⟨n, sender', receiver', toLeft, toRight, l, r, steps, settled⟩ :=
    @ModemContext.Offers.settles schedule { sender with protocol := .ymodem } { receiver with protocol := .ymodem }
      file name fuel (offers.emitting .ymodem) (expects.receiving .ymodem) rfl rfl crc16 fresh capacity recoverable
      spared hfuel
  refine Inevitable.of_steps (diamond_ofWires _ _) ?_ steps (.now ⟨n, sender', receiver', ⟨rfl, rfl⟩,
    settled.result, settled.size, settled.content, settled.readOffset, settled.crc16, settled.lineSize,
    settled.metadata⟩)
  rintro s ⟨n, sender', receiver', returned, _⟩ s'
  exact returned.no_step

theorem ymodem_agrees_full :
    ∃ fuel₀, ∀ fuel ≥ fuel₀, Inevitable (Step (.ofWires (noFaults.forwardFrom 3) (noFaults.backwardFrom 3)))
      (fun s => ∃ (sender' receiver' : ModemContext), s.Returned (-1, sender') (-1, receiver') ∧
        receiver'.ramfile.writeOffset = 129)
      (.start (lmodemEmit .ymodem fuel (ymodemSender (List.replicate 129 7)))
        (lmodemReceive .ymodem fuel (lmodemSetFileBuffer ymodemReceiver (.fresh 0) 200))) := by
  obtain ⟨fuel₀, h⟩ := ymodem_agrees (ymodemSender (List.replicate 129 7))
    (lmodemSetFileBuffer ymodemReceiver (.fresh 0) 200) (List.replicate 129 7) [97] noFaults
    (ymodemSender_offers (by simp))
    ⟨⟨_, rfl⟩, ymodemReceiver_expects.room, ymodemReceiver_expects.line⟩ rfl rfl (by decide)
    (noFaults_recoverable _ _) (fun _ _ _ => rfl)
  refine ⟨fuel₀, fun fuel hfuel => (h fuel hfuel).mono ?_⟩
  rintro s ⟨n, sender', receiver', returned, settled⟩
  have fits : blocksThatFit (lmodemSetFileBuffer ymodemReceiver (.fresh 0) 200) 1024 (List.replicate 129 7) = 0 := by
    decide +kernel
  have result := settled.result
  rw [fits] at result
  have lost : n = -1 := Int32.toInt_inj.mp (by rw [result]; decide +kernel)
  rw [lost] at returned
  exact ⟨sender', receiver', returned, UInt32.toNat_inj.mp (by rw [settled.size]; decide +kernel)⟩

end LightModem
