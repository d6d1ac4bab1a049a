import LightModem.RzszSession
import LightModem.Trim

set_option autoImplicit false

namespace LightModem

open Interaction

def extendTo {β : Type} (n : ℕ) (a : β) (data : List β) : List β :=
  data.take n ++ List.replicate (n - data.length) a

theorem extendTo_length {β : Type} (a : β) (data : List β) : extendTo data.length a data = data := by
  simp [extendTo]

theorem load_fresh_store {β : Type} (a : β) (data : List β) (n : ℕ) :
    ((Memory.fresh a).store 0 data).load 0 n = extendTo n a data := by
  apply List.ext_getElem
  · rw [Memory.load_length, extendTo, List.length_append, List.length_take, List.length_replicate]
    omega
  · intro i h h'
    rw [Memory.load_length] at h
    rw [Memory.load_getElem, Nat.zero_add]
    rcases Nat.lt_or_ge i data.length with hi | hi
    · simp [extendTo, Memory.store_zero _ hi, h, hi]
    · rw [Memory.store_of_ge _ (by omega)]
      simp [extendTo, Memory.fresh, hi]

section Named

variable {d : LmodemFileCharacteristics}

theorem setFields_named (h : d.isValid lmodemMetadataFilenameValid = true) (nbFields : ℕ)
    (fields : List (List UInt8 × UInt32)) :
    (setFields d nbFields fields).isValid lmodemMetadataFilenameValid = true := by
  induction fields generalizing d nbFields with
  | nil => exact h
  | cons field fields ih =>
    apply ih
    have flag (f : UInt32) :
        decide ((d.valid ||| f) &&& lmodemMetadataFilenameValid = lmodemMetadataFilenameValid) = true := by
      rw [LmodemFileCharacteristics.isValid, decide_eq_true_eq] at h
      exact decide_eq_true (or_and_of_and h)
    obtain _ | _ | _ | _ | n := nbFields
    · exact flag _
    · exact flag _
    · exact flag _
    · exact flag _
    · exact h

theorem lymodemDecodeBlock0_named {pThis : ModemContext} (accepted : (lymodemDecodeBlock0 pThis).2 = true) :
    (lymodemDecodeBlock0 pThis).1.fileData.isValid lmodemMetadataFilenameValid = true := by
  rw [lymodemDecodeBlock0] at accepted ⊢
  split at accepted
  · cases accepted
  · next started =>
    rw [if_neg started, lymodemGetMetaData_eq rfl]
    apply setFields_named
    change decide (((0 : UInt32) ||| lmodemMetadataFilenameValid) &&& lmodemMetadataFilenameValid = _) = true
    decide

end Named

structure FileReceived (pThis : ModemContext) (t : List (Event UInt8)) (receivedBytes : UInt32)
    (before : ModemContext) : Prop where
  ended : .received [EOT] ∈ t
  bytes : pThis.ramfile.writeOffset.toNat + receivedBytes.toNat = before.ramfile.writeOffset.toNat
  named : before.fileData.isValid lmodemMetadataFilenameValid = true

section Reception

variable {pThis : ModemContext}

theorem lymodemReceiveData_received (hs : pThis.ramfile.Writable) (configured : pThis.Configured)
    {p : ModemContext} (h : SameTransfer pThis p) (fuel : ℕ) (rxStatus : LxmodemReceptionStatus) :
    (lymodemReceiveData fuel rxStatus p).Ensures (fun t x => x.1 = -1 ∨ FileReceived pThis t x.1 x.2) := by
  rw [lymodemReceiveData_eq]
  split
  · split
    · next accepted =>
      have named := lymodemDecodeBlock0_named accepted
      obtain ⟨buffer, fileData, hdecode⟩ := lymodemDecodeBlock0_changes p
      rw [hdecode] at named ⊢
      rw [Program.ensures_bind]
      refine (lxmodemReceive_ensures (by change p.ramfile.Writable; rw [h.ramfile]; exact hs)
        (by change p.withCrc = p.opts.expectedSize.2; rw [h.withCrc, h.opts]; exact configured) fuel).mono ?_
      rintro _ _ ⟨c, l, s, blocks, rfl, stores, finished, rfl⟩
      rw [Program.ensures_bind, lymodemBlockNextFile, lxmodemBuildAndSendPreambule, putchars_bind,
        Program.ensures_write]
      refine (@lymodemWaitNextFile_keeps
        (fun p => p.ramfile = s.pThis.ramfile ∧ p.fileData = s.pThis.fileData) (fun _ _ h => h) _ ⟨rfl, rfl⟩ 10).mono ?_
      rintro t p' ⟨ramfile, metadata⟩
      have bytes : s.receivedBytes.toInt32.toUInt32 = s.receivedBytes := UInt32.toUInt32_toInt32 _
      rcases stores.finished finished with failed | ⟨received, l', rfl⟩
      · exact Or.inl (by rw [bytes, failed])
      · refine Or.inr ⟨by simp, ?_, ?_⟩
        · have fits := stores.fits
          rw [h.ramfile] at fits
          rw [bytes, received, ramfile, stores.ramfile, h.ramfile, appended_writeOffset hs.size fits]
        · rw [metadata, ← stores.setup.fileData]
          exact named
    · exact Or.inl rfl
  · exact Or.inl rfl

theorem lymodemReceiveFile_received (hs : pThis.ramfile.Writable) (configured : pThis.Configured) (fuel : ℕ) :
    (lymodemReceiveFile fuel pThis).Ensures (fun t x => x.1 = -1 ∨ FileReceived pThis t x.1 x.2) := by
  rw [lymodemReceiveFile, lxmodemBuildAndSendPreambule, putchars_bind, Program.ensures_write,
    Program.ensures_bind]
  refine (@lymodemWaitBlock0_keeps (SameTransfer pThis)
    (fun _ _ h => ⟨h.protocol, h.opts, h.crc16, h.withCrc, h.ramfile⟩) pThis ⟨rfl, rfl, rfl, rfl, rfl⟩ fuel 10).mono ?_
  intro t x hx
  refine (lymodemReceiveData_received hs configured hx fuel x.1).mono ?_
  rintro t' y (failed | received)
  · exact Or.inl failed
  · exact Or.inr ⟨List.mem_cons_of_mem _ (List.mem_append_right _ received.ended), received.bytes, received.named⟩

end Reception

def RzszWrites (outcome : RzszOutcome) (data : List UInt8) : Prop :=
  outcome.output = some data ∨
    data ≠ [] ∧ ∃ report size, outcome.report = some report ∧ report.size = some size ∧
      size.toNat ≤ bufferFileSize ∧ outcome.output = some (extendTo size.toNat 0 data)

section Outcome

variable {options : Options} {n : Int32} {pThis : ModemContext} {data : List UInt8}

theorem rzszReceived_failure (h : ¬ n ≥ 0) :
    (rzszReceived options n pThis).exitCode = .failure ∧ (rzszReceived options n pThis).output = some [] := by
  simp [rzszReceived, h]

theorem rzszReceived_success (h : n ≥ 0) :
    (rzszReceived options n pThis).exitCode = .success ∧ (rzszReceived options n pThis).output =
      some (pThis.ramfile.buffer.load 0 pThis.ramfile.writeOffset.toNat) := by
  simp [rzszReceived, h]

theorem rzszReceiver_writable (options : Options) : (rzszReceiver options).ramfile.Writable := by
  have written : (rzszReceiver options).ramfile.writeOffset.toNat = 0 := rfl
  have size : (rzszReceiver options).ramfile.maxSize.toNat = 1048576 := rfl
  exact ⟨by omega, by omega⟩

theorem rzszReceiver_appended (h : pThis.ramfile = (rzszReceiver options).ramfile.appended data)
    (fits : data.length ≤ bufferFileSize) :
    pThis.ramfile.writeOffset.toNat = data.length ∧ pThis.ramfile.maxSize.toNat = bufferFileSize ∧
      ∀ n, pThis.ramfile.buffer.load 0 n = extendTo n 0 data := by
  have written : (rzszReceiver options).ramfile.writeOffset.toNat = 0 := rfl
  have size : (rzszReceiver options).ramfile.maxSize.toNat = bufferFileSize := rfl
  refine ⟨?_, ?_, ?_⟩
  · rw [h, appended_writeOffset (rzszReceiver_writable options).size (by omega), written, Nat.zero_add]
  · rw [h, appended_maxSize, size]
  · rw [h]
    exact load_fresh_store 0 data

theorem rzszReceived_writes (success : n ≥ 0) (h : pThis.ramfile = (rzszReceiver options).ramfile.appended data)
    (fits : data.length ≤ bufferFileSize) : RzszWrites (rzszReceived options n pThis) data := by
  obtain ⟨offset, _, content⟩ := rzszReceiver_appended h fits
  refine Or.inl ?_
  rw [(rzszReceived_success success).2, content, offset, extendTo_length]

theorem rzszReceived_trims (ymodem : options.protocol = 1) (success : n ≥ 0)
    (h : pThis.ramfile = (rzszReceiver options).ramfile.appended data) (fits : data.length ≤ bufferFileSize)
    {receivedBytes : UInt32} (bytes : receivedBytes.toNat = data.length)
    (named : pThis.fileData.isValid lmodemMetadataFilenameValid = true) :
    RzszWrites (rzszReceived options n (lymodemTrim receivedBytes pThis)) data := by
  obtain ⟨offset, size, content⟩ := rzszReceiver_appended h fits
  rw [lymodemTrim]
  split
  · next cut =>
    rw [lmodemBufferSetWriteOffset]
    split
    · next allowed =>
      have received : 0 < receivedBytes.toNat := UInt32.lt_iff_toNat_lt.mp cut.1
      refine Or.inr ⟨fun empty => by rw [empty] at bytes; exact absurd bytes (by simpa using received.ne'), ?_⟩
      have reported : (fileReport { pThis with
          ramfile := { pThis.ramfile with writeOffset := pThis.fileData.size } }).size = some pThis.fileData.size := by
        have valid := of_decide_eq_true named
        simp only [fileReport, lmodemMetadataGetFilesize, lmodemMetadataGet, obtained, valid, ↓reduceIte]
      refine ⟨_, _, if_pos ymodem, reported, ?_, ?_⟩
      · rw [← size]
        exact UInt32.le_iff_toNat_le.mp allowed
      · rw [(rzszReceived_success success).2]
        exact congrArg some (content _)
    · exact rzszReceived_writes success h fits
  · exact rzszReceived_writes success h fits

end Outcome

/-- A reception that fails leaves an empty file; one that succeeds has been ended by the peer, and leaves the
data of blocks that were read, intact, in order and numbered without a gap. -/
def RzszLeaves (options : Options) (t : List (Event UInt8)) (outcome : RzszOutcome) : Prop :=
  outcome.exitCode = .failure ∧ outcome.output = some [] ∨
    outcome.exitCode = .success ∧ .received [EOT] ∈ t ∧ ∃ blocks : List (UInt8 × List UInt8),
      (∀ b ∈ blocks, FrameKind (rzszReceiver options) b.1 b.2.length) ∧
      (blocks.mapIdx fun j b => (b.1, frameBody (rzszReceiver options).crc16 (rzszReceiver options).usesCrc
        (UInt8.ofNat (j + 1)) b.2)).Sublist (framesRead t) ∧
      RzszWrites outcome (blocks.flatMap Prod.snd)

section Leaves

variable {system : System} {argv : List Found} {options : Options}

theorem result_negative {receivedBytes : UInt32} (failed : receivedBytes = -1) : ¬ receivedBytes.toInt32 ≥ 0 := by
  rw [failed]
  decide

theorem result_nonnegative {receivedBytes : UInt32} (small : receivedBytes.toNat < 2147483648) :
    receivedBytes.toInt32 ≥ 0 := by
  rw [ge_iff_le, Int32.le_iff_toInt_le, toInt_toInt32 small]
  exact Int.natCast_nonneg _

theorem RzszReceives.protocol (receives : RzszReceives system argv options) :
    options.protocol = 0 ∨ options.protocol = 1 := by
  obtain ⟨rfl, bOk⟩ := parsed_given receives.parsed
  exact ((given_bOk argv).mp bOk).1

theorem RzszReceives.leaves (receives : RzszReceives system argv options) (fuel : ℕ) :
    (rzsz fuel system argv).Ensures (RzszLeaves options) := by
  have writable := rzszReceiver_writable options
  have configured : (rzszReceiver options).Configured := rzszReady_configured options
  have written : (rzszReceiver options).ramfile.writeOffset.toNat = 0 := rfl
  have size : (rzszReceiver options).ramfile.maxSize.toNat = bufferFileSize := rfl
  have capacity : bufferFileSize = 1048576 := rfl
  rcases receives.protocol with xmodem | ymodem
  · rw [receives.xmodem xmodem, Program.ensures_bind]
    refine (lxmodemReceive_ensures writable configured fuel).mono ?_
    rintro _ _ ⟨p, l, s, blocks, rfl, stores, finished, rfl⟩
    rw [Program.ensures_done, List.append_nil]
    have fits := stores.fits
    rw [written, size, Nat.zero_add] at fits
    rcases stores.finished finished with failed | ⟨received, l', rfl⟩
    · exact Or.inl (rzszReceived_failure (result_negative failed))
    · have success := @result_nonnegative s.receivedBytes (by omega)
      exact Or.inr ⟨(rzszReceived_success success).1, by simp, blocks, stores.kinds, stores.read,
        rzszReceived_writes success stores.ramfile fits⟩
  · rw [receives.ymodem ymodem, lymodemReceive_eq, bind_assoc, Program.ensures_bind]
    refine ((lymodemReceiveFile_stored writable configured fuel).and
      (lymodemReceiveFile_received writable configured fuel)).mono ?_
    rintro t ⟨receivedBytes, before⟩ ⟨⟨blocks, stored⟩, reception⟩
    rw [Program.done_bind, Program.ensures_done, List.append_nil]
    have fits := stored.fits
    rw [written, size, Nat.zero_add] at fits
    rcases reception with failed | received
    · exact Or.inl (rzszReceived_failure (result_negative failed))
    · have bytes : _ + receivedBytes.toNat = _ := received.bytes
      rw [written, (rzszReceiver_appended stored.ramfile fits).1, Nat.zero_add] at bytes
      have success := @result_nonnegative receivedBytes (by omega)
      exact Or.inr ⟨(rzszReceived_success success).1, received.ended, blocks, stored.kinds, stored.read,
        rzszReceived_trims ymodem success stored.ramfile fits bytes received.named⟩

end Leaves

theorem rzsz_receives (system : System) (argv : List Found) (options : Options)
    (receives : RzszReceives system argv options) (o : Peer UInt8) {t : List (Event UInt8)}
    {outcome : RzszOutcome} (h : Returns (fun fuel => rzsz fuel system argv) o t outcome) :
    RzszLeaves options t outcome :=
  h.ensures receives.leaves

theorem rzsz_receives_oneBlock :
    ∃ t outcome, Returns (fun fuel => rzsz fuel (sampleSystem []) (xmodemArgv .rx)) (.scripted oneBlock) t outcome ∧
      outcome.exitCode = .success ∧ .received [EOT] ∈ t := by
  have run : ((rzsz 3 (sampleSystem []) (xmodemArgv .rx)).run (.scripted oneBlock) 0).2.map RzszOutcome.exitCode =
      some .success := by decide +kernel
  obtain ⟨outcome, h, success⟩ := @returns_of_run _ _ _ (fun fuel => rzsz fuel (sampleSystem []) (xmodemArgv .rx)) _ _ _
    3 run
  rcases rzsz_receives (sampleSystem []) (xmodemArgv .rx) (.given (xmodemArgv .rx))
    (sampleSystem_receives (by decide) (by decide)) (.scripted oneBlock) h with ⟨failure, _⟩ | ⟨_, ended, _⟩
  · rw [success] at failure
    cases failure
  · exact ⟨_, outcome, h, success, ended⟩

end LightModem
