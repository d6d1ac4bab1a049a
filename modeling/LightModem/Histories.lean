import LightModem.BufferCalls
import LightModem.Capacity
import LightModem.MetadataStore
import LightModem.YmodemRecovery

set_option autoImplicit false

namespace LightModem

open Interaction

structure Robust (I : ModemContext → Prop) : Prop where
  protocol : ∀ pThis protocol, I pThis → I { pThis with protocol := protocol }
  line : ∀ pThis buffer currentSize, I pThis →
    I { pThis with blkBuffer := { pThis.blkBuffer with buffer := buffer, currentSize := currentSize } }
  writes : ∀ pThis buffer size, size.toNat < 2147483648 → I pThis →
    I { pThis with ramfile := (lmodemBufferWrite pThis.ramfile buffer size).1 }
  reads : ∀ pThis buffer offset size, I pThis →
    I { pThis with ramfile := (lmodemBufferRead pThis.ramfile buffer offset size).1 }
  decodes : ∀ pThis, pThis.fileData.filename.isSome = true → I pThis → I (lymodemDecodeBlock0 pThis).1
  trims : ∀ pThis receivedBytes, I pThis → I (lymodemTrim receivedBytes pThis)

namespace Robust

variable {I : ModemContext → Prop} {pThis : ModemContext}

section Emission

theorem buildBlock (robust : Robust I) (h : I pThis) (blkNo : UInt8) (defaultBlksize : ℕ) (withCrc : Bool) :
    (lxmodeBuildAndSendOneDataBlock pThis blkNo defaultBlksize withCrc).Ensures (fun _ x => I x.1) := by
  have read := robust.reads pThis pThis.blkBuffer.buffer 3
    (min defaultBlksize (lmodemBufferGetSize pThis.ramfile).toUInt32.toNat).toUInt32 h
  simp only [lxmodeBuildAndSendOneDataBlock]
  split
  · exact robust.line _ _ _ h
  · exact robust.line _ _ _ read

theorem sendTurn (robust : Robust I) {s : LxmodeSendState} (h : I s.pThis) :
    (lxmodeSendTurn s).Ensures (fun _ s' => I s'.pThis) := by
  have block : (lxmodeSendBlock s).Ensures (fun _ s' => I s'.pThis) := by
    rw [lxmodeSendBlock]
    split
    · rw [Program.ensures_bind]
      exact (robust.buildBlock h _ _ _).mono fun _ _ h' => h'
    · exact h
  rw [lxmodeSendTurn, Program.ensures_bind]
  apply block.mono
  intro _ s' h'
  rw [Program.ensures_bind]
  apply (Program.ensures_true _).mono
  intro _ a _
  rw [Program.pure_eq, Program.ensures_done, lxmodeHandleAnswer_pThis]
  exact h'

theorem lxmodemEmit (robust : Robust I) (h : I pThis) (fuel : ℕ) :
    (LightModem.lxmodemEmit fuel pThis).Ensures (fun _ x => I x.2) := by
  rw [lxmodemEmit_eq, Program.ensures_bind]
  apply (Program.ensures_true _).mono
  intro _ a _
  cases a with
  | none => exact h
  | some preambule =>
    rw [emitAfter]
    split
    · exact h
    · rw [lxmodeSendDataBlocks, Program.ensures_bind]
      exact (ensures_whileLoop (fun _ (s : LxmodeSendState) => I s.pThis) (fun _ _ hs _ => robust.sendTurn hs)
        fuel h).mono fun _ _ hs => hs.1

theorem buildBlock0 (robust : Robust I) (h : I pThis) :
    (lymodemBuildAndSendBlock0 pThis).Ensures (fun _ pThis' => I pThis') := by
  simp only [lymodemBuildAndSendBlock0]
  split
  · exact robust.line _ _ _ h
  · exact robust.line _ _ _ h

theorem lymodemEmit (robust : Robust I) (h : I pThis) (fuel : ℕ) :
    (LightModem.lymodemEmit fuel pThis).Ensures (fun _ x => I x.2) := by
  have block0 : (lymodemEmitBlock0 fuel pThis).Ensures (fun _ x => I x.2.2) := by
    rw [lymodemEmitBlock0_eq, Program.ensures_bind]
    apply (Program.ensures_true _).mono
    intro _ a _
    cases a with
    | none => exact h
    | some c =>
      rw [emitBlock0After, Program.ensures_bind]
      apply (robust.buildBlock0 h).mono
      intro _ pThis' h'
      rw [Program.ensures_bind]
      exact (Program.ensures_true _).mono fun _ _ _ => h'
  have data {p : ModemContext} (h : I p) (bOk : Bool) :
      (lymodemEmitData fuel p bOk).Ensures (fun _ x => I x.2.2) := by
    rw [lymodemEmitData]
    split
    · rw [Program.ensures_bind]
      apply (robust.lxmodemEmit h fuel).mono
      intro _ x h'
      simp only
      split
      · rw [Program.ensures_bind]
        exact (Program.ensures_true _).mono fun _ _ _ => h'
      · exact h'
    · exact h
  have endOfBatch {p : ModemContext} (h : I p) (bOk : Bool) (c : UInt8) (nbEmitted : UInt32) :
      (lymodemEmitEndOfBach fuel p bOk c nbEmitted).Ensures (fun _ x => I x.2) := by
    cases bOk with
    | false => exact h
    | true =>
      rw [lymodemEmitEndOfBach_eq, Program.ensures_bind]
      have sent : (lymodemSendEndOfBach p).Ensures (fun _ p' => I p') := robust.line _ _ _ h
      apply sent.mono
      intro _ p' h'
      rw [Program.ensures_bind]
      exact (Program.ensures_true _).mono fun _ _ _ => h'
  rw [LightModem.lymodemEmit, Program.ensures_bind]
  apply block0.mono
  intro _ x hx
  rw [Program.ensures_bind]
  apply (data hx x.1).mono
  intro _ y hy
  rw [Program.ensures_bind]
  exact (endOfBatch hy y.1 x.2.1 y.2.1).mono fun _ _ hz => hz

theorem emit (robust : Robust I) (h : I pThis) (protocol : LmodemProtocol) (fuel : ℕ) :
    (lmodemEmit protocol fuel pThis).Ensures (fun _ x => I x.2) := by
  cases protocol with
  | xmodem => exact robust.lxmodemEmit (robust.protocol _ .xmodem h) fuel
  | ymodem => exact robust.lymodemEmit (robust.protocol _ .ymodem h) fuel

end Emission

section Reception

theorem fills (robust : Robust I) (pThis : ModemContext) (data : List UInt8) (h : I pThis) : I (pThis.fill data) :=
  robust.line pThis (pThis.blkBuffer.buffer.store 0 data) pThis.blkBuffer.currentSize h

theorem receiveTurn (robust : Robust I) {s : LxmodemReceiveState} (h : I s.pThis) :
    (lxmodemReceiveTurn s).Ensures (fun _ s' => I s'.pThis) := by
  have retry {s : LxmodemReceiveState} (h : I s.pThis) :
      (lxmodemReceiveRetry s).Ensures (fun _ s' => I s'.pThis) := by
    rw [ensures_retry, LxmodemReceiveState.retried]
    split <;> exact h
  have store {s : LxmodemReceiveState} (h : I s.pThis) {blksize : ℕ} (hb : blksize ≤ 1024) :
      (lxmodemReceiveStore s blksize).Ensures (fun _ s' => I s'.pThis) := by
    have written := robust.writes s.pThis (s.pThis.blkBuffer.buffer.shift 2) blksize.toUInt32
      (by rw [Nat.toUInt32, UInt32.toNat_ofNat_of_lt' (show blksize < 4294967296 by omega)]; omega) h
    simp only [lxmodemReceiveStore]
    split <;> exact written
  have block {s : LxmodemReceiveState} (h : I s.pThis) (blksize : ℕ) :
      (lxmodemReceiveBlock s.pThis s.expectedBlkNumber blksize).Ensures (fun _ x => I x.2) := by
    rw [lxmodemReceiveBlock, getchars_bind]
    intro r
    cases r <;> exact robust.fills _ _ h
  have header (c : UInt8) : (lxmodemReceiveHeader s c).Ensures (fun _ x => I x.1.pThis ∧ x.2.2 ≤ 1024) := by
    simp only [lxmodemReceiveHeader]
    split_ifs
    · rw [Program.ensures_bind]
      exact (block h 128).mono fun _ _ h' => ⟨h', show 128 ≤ 1024 by decide⟩
    · rw [Program.ensures_bind]
      exact (block h 1024).mono fun _ _ h' => ⟨h', le_rfl⟩
    all_goals exact ⟨h, Nat.zero_le _⟩
  rw [lxmodemReceiveTurn_eq]
  intro r
  cases r with
  | timedOut written size => exact retry h
  | received data size =>
    change (lxmodemReceiveHeader s (data.headD 0) >>= fun x => _).Ensures _
    rw [Program.ensures_bind]
    apply (header _).mono
    rintro _ x ⟨h', hb⟩
    change (Program.write _ (ite _ _ _)).Ensures _
    rw [Program.ensures_write]
    split
    · exact (store h' hb).mono fun _ _ h'' => h''
    · exact (retry h').mono fun _ _ h'' => h''

theorem lxmodemReceive (robust : Robust I) (h : I pThis) (fuel : ℕ) :
    (LightModem.lxmodemReceive fuel pThis).Ensures (fun _ x => I x.2) := by
  rw [LightModem.lxmodemReceive, lxmodemBuildAndSendPreambule, putchars_bind, Program.ensures_write,
    Program.ensures_bind]
  exact (ensures_whileLoop (fun _ (s : LxmodemReceiveState) => I s.pThis) (fun _ _ hs _ => robust.receiveTurn hs)
    fuel h).mono fun _ _ hs => hs.1

theorem lymodemReceive (robust : Robust I) (named : ∀ p, I p → p.fileData.filename.isSome = true) (h : I pThis)
    (fuel : ℕ) :
    (LightModem.lymodemReceive fuel pThis).Ensures (fun _ x => I x.2) := by
  have data {p : ModemContext} (h : I p) (status : LxmodemReceptionStatus) :
      (lymodemReceiveData fuel status p).Ensures (fun _ x => I x.2) := by
    rw [lymodemReceiveData_eq]
    split
    · have decoded := robust.decodes p (named p h) h
      split
      · rw [Program.ensures_bind]
        apply (robust.lxmodemReceive decoded fuel).mono
        intro _ x hx
        rw [Program.ensures_bind, lymodemBlockNextFile, lxmodemBuildAndSendPreambule, putchars_bind,
          Program.ensures_write]
        exact (lymodemWaitNextFile_keeps robust.fills hx 10).mono fun _ _ h' => h'
      · exact decoded
    · exact h
  rw [LightModem.lymodemReceive, lxmodemBuildAndSendPreambule, putchars_bind, Program.ensures_write,
    Program.ensures_bind]
  apply (lymodemWaitBlock0_keeps robust.fills h fuel 10).mono
  intro _ x hx
  rw [Program.ensures_bind]
  exact (data hx x.1).mono fun _ y hy => robust.trims _ _ hy

theorem and {J : ModemContext → Prop} (hI : Robust I) (hJ : Robust J) : Robust (fun p => I p ∧ J p) where
  protocol := fun p protocol h => ⟨hI.protocol p protocol h.1, hJ.protocol p protocol h.2⟩
  line := fun p buffer size h => ⟨hI.line p buffer size h.1, hJ.line p buffer size h.2⟩
  writes := fun p buffer size small h => ⟨hI.writes p buffer size small h.1, hJ.writes p buffer size small h.2⟩
  reads := fun p buffer offset size h => ⟨hI.reads p buffer offset size h.1, hJ.reads p buffer offset size h.2⟩
  decodes := fun p named h => ⟨hI.decodes p named h.1, hJ.decodes p named h.2⟩
  trims := fun p n h => ⟨hI.trims p n h.1, hJ.trims p n h.2⟩

theorem filename : Robust (fun p => p.fileData.filename.isSome = true) where
  protocol := fun _ _ h => h
  line := fun _ _ _ h => h
  writes := fun _ _ _ _ h => h
  reads := fun _ _ _ _ h => h
  decodes := by
    intro pThis named _
    obtain ⟨name, hname⟩ := Option.isSome_iff_exists.mp named
    rw [lymodemDecodeBlock0]
    split
    · simp [lmodemMetadataClean, hname]
    · rw [lymodemGetMetaData_eq rfl, setFields_filename]
      simp [lmodemMetadataClean, hname]
  trims := by
    intro pThis n h
    rw [← (lymodemTrim_keeps n pThis).2.fileData]
    exact h

theorem receive (robust : Robust I) (h : I pThis) (protocol : LmodemProtocol)
    (buffer : protocol = .ymodem → pThis.fileData.filename.isSome = true) (fuel : ℕ) :
    (lmodemReceive protocol fuel pThis).Ensures (fun _ x => I x.2) := by
  cases protocol with
  | xmodem => exact robust.lxmodemReceive (robust.protocol _ .xmodem h) fuel
  | ymodem =>
    exact ((robust.and filename).lymodemReceive (fun _ h => h.2) ⟨robust.protocol _ .ymodem h, buffer rfl⟩ fuel).mono
      fun _ _ h => h.1

end Reception

end Robust

/-- One call of the library, with any peer where it is a transfer. A file buffer is smaller than 2 GiB and
has not been stored to behind its end, and a YMODEM reception needs a filename buffer. -/
inductive LibraryStep : ModemContext → ModemContext → Prop
  | setLineBuffer {pThis : ModemContext} (buffer : Memory UInt8) (size : UInt32) :
      LibraryStep pThis (lmodemSetLineBuffer pThis buffer size).1
  | setFileBuffer {pThis : ModemContext} (buffer : Memory UInt8) (size : UInt32) (small : size.toNat < 2147483648)
      (inside : buffer.extent ≤ size.toNat) : LibraryStep pThis (lmodemSetFileBuffer pThis buffer size)
  | useFileBuffer {pThis : ModemContext} (call : BufferCall) (small : call.Small) :
      LibraryStep pThis { pThis with ramfile := call.perform pThis.ramfile }
  | setFilenameBuffer {pThis : ModemContext} (buffer : Memory UInt8) (size : UInt32) :
      LibraryStep pThis (lmodemSetFilenameBuffer pThis buffer size)
  | setMetadata {pThis : ModemContext} (call : MetadataCall) : LibraryStep pThis (call.run pThis)
  | emit {pThis pThis' : ModemContext} (protocol : LmodemProtocol) (o : Peer UInt8) {fuel i : ℕ}
      {t : List (Event UInt8)} {n : Int32}
      (run : (lmodemEmit protocol fuel pThis).run o i = (t, some (n, pThis'))) : LibraryStep pThis pThis'
  | receive {pThis pThis' : ModemContext} (protocol : LmodemProtocol)
      (buffer : protocol = .ymodem → pThis.fileData.filename.isSome = true) (o : Peer UInt8) {fuel i : ℕ}
      {t : List (Event UInt8)} {n : Int32}
      (run : (lmodemReceive protocol fuel pThis).run o i = (t, some (n, pThis'))) : LibraryStep pThis pThis'

abbrev LibrarySteps : ModemContext → ModemContext → Prop := Relation.ReflTransGen LibraryStep

structure LmodemBuffer.Bounded (b : LmodemBuffer) : Prop extends b.Writable where
  extent : b.buffer.extent ≤ b.maxSize.toNat

structure WellFormed (opts : LxmodemOpts) (pThis : ModemContext) : Prop where
  configured : pThis.opts = opts
  crc16 : pThis.crc16 = crc16Init lxmodemCrc16CcittPolynome
  line : pThis.blkBuffer.maxSize = 0 ∨
    opts.expectedSize.1 ≤ pThis.blkBuffer.maxSize.toNat ∧ pThis.withCrc = opts.expectedSize.2
  file : pThis.ramfile.Bounded
  named : pThis.fileData.isValid lmodemMetadataFilenameValid = true → pThis.fileData.filename.isSome = true

section WellFormed

variable {opts : LxmodemOpts} {pThis pThis' : ModemContext} {b : LmodemBuffer}

theorem bounded_perform (h : b.Bounded) {call : BufferCall} (small : call.Small) : (call.perform b).Bounded := by
  cases call with
  | write buffer size =>
    rcases @lmodemBufferWrite_all_or_nothing b buffer size h.toWritable small with ⟨fits, written⟩ | refused
    · rw [BufferCall.perform, written]
      refine ⟨appended_writable h.size (by rw [Memory.load_length]; exact fits.le), ?_⟩
      rw [LmodemBuffer.appended, Memory.store_extent_le _ h.write, Memory.load_length]
      exact ⟨h.extent, fits.le⟩
    · rw [BufferCall.perform, refused]
      exact h
  | read buffer offset size => exact ⟨⟨h.write, h.size⟩, h.extent⟩
  | setWriteOffset newWriteOffset =>
    rw [BufferCall.perform, lmodemBufferSetWriteOffset]
    split
    · next inside => exact ⟨⟨UInt32.le_iff_toNat_le.mp inside, h.size⟩, h.extent⟩
    · exact h

theorem wellFormed_initial (opts : LxmodemOpts) : WellFormed opts (lmodemInit opts) where
  configured := rfl
  crc16 := rfl
  line := Or.inl rfl
  file := ⟨⟨Nat.le_refl 0, show 0 < 2147483648 by decide⟩, Nat.le_refl 0⟩
  named := by
    intro valid
    change decide ((0 : UInt32) &&& 0x01 = 0x01) = true at valid
    cases valid

theorem isValid_marked {d : LmodemFileCharacteristics} {f : UInt32} (other : f &&& lmodemMetadataFilenameValid = 0)
    (marked : decide ((d.valid ||| f) &&& lmodemMetadataFilenameValid = lmodemMetadataFilenameValid) = true) :
    d.isValid lmodemMetadataFilenameValid = true := by
  have distrib : (d.valid ||| f) &&& lmodemMetadataFilenameValid =
      (d.valid &&& lmodemMetadataFilenameValid) ||| (f &&& lmodemMetadataFilenameValid) :=
    UInt32.toBitVec_inj.mp BitVec.and_or_distrib_right
  rw [distrib, other, UInt32.or_zero] at marked
  exact marked

theorem WellFormed.setMetadata (h : WellFormed opts pThis) (call : MetadataCall) :
    WellFormed opts (call.run pThis) := by
  cases call with
  | setFilename filename =>
    rw [MetadataCall.run, lmodemMetadataSetFilename]
    split
    · exact h
    · exact ⟨h.configured, h.crc16, h.line, h.file, fun _ => rfl⟩
  | setFilesize size =>
    exact ⟨h.configured, h.crc16, h.line, h.file, fun marked => h.named (isValid_marked (by decide) marked)⟩
  | setModifTime modifDate =>
    exact ⟨h.configured, h.crc16, h.line, h.file, fun marked => h.named (isValid_marked (by decide) marked)⟩
  | setPermission perm =>
    exact ⟨h.configured, h.crc16, h.line, h.file, fun marked => h.named (isValid_marked (by decide) marked)⟩
  | setSerial serial =>
    exact ⟨h.configured, h.crc16, h.line, h.file, fun marked => h.named (isValid_marked (by decide) marked)⟩

theorem wellFormed_robust (opts : LxmodemOpts) : Robust (WellFormed opts) where
  protocol := fun _ _ h => ⟨h.configured, h.crc16, h.line, h.file, h.named⟩
  line := fun _ _ _ h => ⟨h.configured, h.crc16, h.line, h.file, h.named⟩
  writes := fun p buffer size small h =>
    ⟨h.configured, h.crc16, h.line, @bounded_perform p.ramfile h.file (.write buffer size) small, h.named⟩
  reads := fun p buffer offset size h =>
    ⟨h.configured, h.crc16, h.line, ⟨⟨h.file.write, h.file.size⟩, h.file.extent⟩, h.named⟩
  decodes := by
    intro p named h
    have decoded := Robust.filename.decodes p named named
    obtain ⟨buffer, fileData, changes⟩ := lymodemDecodeBlock0_changes p
    rw [changes] at decoded ⊢
    exact ⟨h.configured, h.crc16, h.line, h.file, fun _ => decoded⟩
  trims := by
    intro p n h
    obtain ⟨_, setup⟩ := lymodemTrim_keeps n p
    refine ⟨setup.opts.symm.trans h.configured, setup.crc16.symm.trans h.crc16, ?_, ?_, ?_⟩
    · rw [← setup.lineSize, ← setup.withCrc]
      exact h.line
    · rw [lymodemTrim]
      split
      · exact @bounded_perform p.ramfile h.file (.setWriteOffset p.fileData.size) trivial
      · exact h.file
    · rw [← setup.fileData]
      exact h.named

theorem WellFormed.step (h : WellFormed opts pThis) (step : LibraryStep pThis pThis') : WellFormed opts pThis' := by
  cases step with
  | setLineBuffer buffer size =>
    have configured : pThis.opts.expectedSize.2 = opts.expectedSize.2 := by rw [h.configured]
    rw [lmodemSetLineBuffer]
    split
    · next large =>
      rw [h.configured] at large
      exact ⟨h.configured, h.crc16, Or.inr ⟨large, configured⟩, h.file, h.named⟩
    · refine ⟨h.configured, h.crc16, ?_, h.file, h.named⟩
      rcases h.line with none | ⟨large, _⟩
      · exact Or.inl none
      · exact Or.inr ⟨large, configured⟩
  | setFileBuffer buffer size small inside =>
    exact ⟨h.configured, h.crc16, h.line, ⟨⟨Nat.zero_le _, small⟩, inside⟩, h.named⟩
  | useFileBuffer call small => exact ⟨h.configured, h.crc16, h.line, bounded_perform h.file small, h.named⟩
  | setFilenameBuffer buffer size => exact ⟨h.configured, h.crc16, h.line, h.file, fun _ => rfl⟩
  | setMetadata call => exact h.setMetadata call
  | emit protocol o run => exact ((wellFormed_robust opts).emit h protocol _).run run
  | receive protocol buffer o run => exact ((wellFormed_robust opts).receive h protocol buffer _).run run

theorem LibrarySteps.wellFormed (steps : LibrarySteps (lmodemInit opts) pThis) : WellFormed opts pThis := by
  induction steps with
  | refl => exact wellFormed_initial opts
  | tail _ step ih => exact ih.step step

theorem WellFormed.requests (h : WellFormed opts pThis) (buffer : pThis.blkBuffer.maxSize ≠ 0) (fuel : ℕ) :
    (lmodemReceive .xmodem fuel pThis).Requests (fun n => n ≤ pThis.blkBuffer.maxSize.toNat) := by
  obtain ⟨large, withCrc⟩ := h.line.resolve_left buffer
  rw [← h.configured] at large withCrc
  have header : 1 ≤ pThis.opts.expectedSize.1 := by cases pThis.opts <;> decide
  apply lxmodemReceive_requests
  · exact @fits_accepted { pThis with protocol := .xmodem } _ withCrc rfl large
  · exact header.trans large

end WellFormed

theorem library_wellFormed (opts : LxmodemOpts) (pThis : ModemContext)
    (steps : LibrarySteps (lmodemInit opts) pThis) :
    WellFormed opts pThis ∧ (pThis.blkBuffer.maxSize ≠ 0 → ∀ fuel,
      (lmodemReceive .xmodem fuel pThis).Requests (fun n => n ≤ pThis.blkBuffer.maxSize.toNat)) :=
  ⟨steps.wellFormed, steps.wellFormed.requests⟩

theorem library_wellFormed_silence :
    ∃ fuel t n pThis', (lmodemReceive .ymodem fuel ymodemReceiver).run (.scripted []) 0 = (t, some (n, pThis')) ∧
      WellFormed .lxmodem1k (lmodemMetadataSetFilename pThis' (.holding [97] 0)) := by
  have run : ((lmodemReceive .ymodem 1 ymodemReceiver).run (.scripted []) 0).2.map Prod.fst = some (-1) := by
    decide +kernel
  obtain ⟨⟨n, pThis'⟩, ⟨fuel, h⟩, _⟩ :=
    @returns_of_run _ _ _ (fun fuel => lmodemReceive .ymodem fuel ymodemReceiver) _ _ _ 1 run
  refine ⟨fuel, _, n, pThis', h, (library_wellFormed .lxmodem1k _ ?_).1⟩
  have line : LibrarySteps (lmodemInit .lxmodem1k) (lmodemSetLineBuffer (lmodemInit .lxmodem1k) (.fresh 0) 1029).1 :=
    .single (.setLineBuffer (.fresh 0) 1029)
  have file := line.tail (.setFileBuffer (.fresh 0) 4096 (by decide) (by decide))
  have filename := file.tail (.setFilenameBuffer (.fresh 0) 64)
  have received := filename.tail (.receive .ymodem (fun _ => rfl) _ h)
  exact received.tail (.setMetadata (.setFilename (.holding [97] 0)))

end LightModem
