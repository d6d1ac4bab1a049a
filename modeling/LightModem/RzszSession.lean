import LightModem.Agreement
import LightModem.Rzsz
import LightModem.YmodemRecovery

set_option autoImplicit false

namespace LightModem

open Interaction

structure RzszSends (system : System) (argv : List Found) (options : Options) (fileStat : FileStat)
    (datafile : Memory UInt8) (file : List UInt8) : Prop where
  parsed : parseOptions argv = some options
  tx : options.tx ≠ 0
  device : 0 ≤ system.serialSetup (options.device.getD []) options.speed options.parity options.ctrlFlow
    options.nbStop
  stat : system.stat (options.filename.getD []) = some fileStat
  opened : system.fread (options.filename.getD []) = some datafile
  size : fileStat.stSize.toNat = file.length
  content : datafile.Holds 0 file

structure RzszReceives (system : System) (argv : List Found) (options : Options) : Prop where
  parsed : parseOptions argv = some options
  rx : options.rx ≠ 0
  device : 0 ≤ system.serialSetup (options.device.getD []) options.speed options.parity options.ctrlFlow
    options.nbStop
  writable : system.writable (options.filename.getD []) = true

theorem appended_content {b : LmodemBuffer} {data : List UInt8} (empty : b.writeOffset.toNat = 0)
    (fits : data.length ≤ b.maxSize.toNat) (capacity : b.maxSize.toNat < 2147483648) :
    (b.appended data).buffer.load 0 (b.appended data).writeOffset.toNat = data := by
  rw [appended_writeOffset capacity (by omega), empty, Nat.zero_add, LmodemBuffer.appended, empty]
  exact Memory.load_store _ _ _

section Run

variable {system : System} {argv : List Found} {options : Options} {fileStat : FileStat} {datafile : Memory UInt8}
  {file name : List UInt8} {fuel : ℕ}

theorem parsed_oneDirection (parsed : parseOptions argv = some options) : options.tx ≠ 0 ↔ options.rx = 0 := by
  obtain ⟨rfl, bOk⟩ := parsed_given parsed
  obtain ⟨_, _, _, direction⟩ := (given_bOk argv).mp bOk
  rw [← lastArgument_isSome, ← lastArgument_isSome, ← givenFlag_ne_zero, ← givenFlag_ne_zero, not_ne_iff]
    at direction
  exact direction

theorem rzszBuffer_suffices (options : Options) :
    (rzszBuffer options).1.expectedSize.1 ≤ (rzszBuffer options).2.toNat := by
  unfold rzszBuffer
  split_ifs <;> decide

theorem rzszContext_eq (options : Options) :
    rzszContext options =
      ({ lmodemInit (rzszBuffer options).1 with
          blkBuffer := ⟨.fresh 0, 0, (rzszBuffer options).2⟩
          fileData := ⟨0, some (.fresh 0), bufferFilenameSize.toUInt32, 0, 0, 0, 0⟩
          withCrc := (rzszBuffer options).1.expectedSize.2 }, true) := by
  have large : (rzszBuffer options).2.toNat ≥ (lmodemInit (rzszBuffer options).1).opts.expectedSize.1 :=
    rzszBuffer_suffices options
  simp only [rzszContext, lmodemSetLineBuffer, large, ↓reduceIte, lmodemSetFilenameBuffer]
  rfl

theorem rzszContext_ok (options : Options) : (rzszContext options).2 = true := by
  rw [rzszContext_eq]

def rzszReady (options : Options) : ModemContext :=
  { (rzszContext options).1 with protocol := options.lmodemProtocol }

theorem rzszReady_crc16 (options options' : Options) : (rzszReady options').crc16 = (rzszReady options).crc16 := by
  simp only [rzszReady, rzszContext_eq]
  rfl

theorem rzszReady_opts (options : Options) : (rzszReady options).opts = (rzszBuffer options).1 := by
  simp only [rzszReady, rzszContext_eq]
  rfl

theorem rzszReady_configured (options : Options) : (rzszReady options).Configured := by
  simp only [ModemContext.Configured, rzszReady, rzszContext_eq]
  rfl

def rzszFile (fileStat : FileStat) (datafile : Memory UInt8) : LmodemBuffer :=
  { lmodemBufferInit datafile fileStat.stSize.toUInt32 with writeOffset := fileStat.stSize.toUInt32 }

theorem RzszSends.size_eq (sends : RzszSends system argv options fileStat datafile file)
    (short : file.length < 2147483648) : fileStat.stSize.toUInt32.toNat = file.length := by
  have size := sends.size
  rw [UInt64.toNat_toUInt32]
  omega

theorem RzszSends.loaded (sends : RzszSends system argv options fileStat datafile file)
    (short : file.length < 2147483648) : (rzszFile fileStat datafile).Loaded file := by
  have size := sends.size_eq short
  have read : (rzszFile fileStat datafile).readOffset.toNat = 0 := rfl
  have written : (rzszFile fileStat datafile).writeOffset.toNat = file.length := size
  refine ⟨⟨by omega, by omega⟩, ?_⟩
  rw [LmodemBuffer.unread, read, written]
  exact sends.content

def rzszFileData (name : List UInt8) (fileStat : FileStat) : LmodemFileCharacteristics where
  valid := metadataMask 4
  filename := some ((strncpy (.fresh 0) 0 (.holding name 0) 256).store 255 [0])
  filenameSize := 256
  size := fileStat.stSize.toUInt32
  modifDate := fileStat.stMtime.toUInt32
  permission := fileStat.stMode.toUInt16
  serialNumber := 0

def rzszXmodemSender (options : Options) (fileStat : FileStat) (datafile : Memory UInt8) : ModemContext :=
  { rzszReady options with ramfile := rzszFile fileStat datafile }

def rzszYmodemSender (options : Options) (fileStat : FileStat) (datafile : Memory UInt8) (name : List UInt8) :
    ModemContext :=
  { rzszReady options with ramfile := rzszFile fileStat datafile, fileData := rzszFileData name fileStat }

def rzszReceiver (options : Options) : ModemContext :=
  { rzszReady options with ramfile := lmodemBufferInit (.fresh 0) bufferFileSize.toUInt32 }

def rzszSent (nbBytesEmitted : Int32) : RzszOutcome :=
  ⟨if nbBytesEmitted ≥ 0 then .success else .failure, none, none⟩

theorem rzszFile_set (fileStat : FileStat) (datafile : Memory UInt8) :
    lmodemBufferSetWriteOffset (lmodemBufferInit datafile fileStat.stSize.toUInt32) fileStat.stSize.toUInt32 =
      (rzszFile fileStat datafile, true) :=
  if_pos (Nat.le_refl _)

theorem transmissionContext_xmodem (protocol : options.protocol ≠ 1) (xmodemCtx : ModemContext)
    (path : List UInt8) (fileStat : FileStat) (datafile : Memory UInt8) :
    transmissionContext options xmodemCtx path fileStat datafile =
      some { xmodemCtx with ramfile := rzszFile fileStat datafile } := by
  simp only [transmissionContext, lmodemSetFileBuffer, rzszFile_set, protocol, ↓reduceIte]

theorem transmissionContext_ymodem (protocol : options.protocol = 1) {path : List UInt8}
    (named : afterStrrchr path slash = some name) (fileStat : FileStat) (datafile : Memory UInt8) :
    transmissionContext options (rzszContext options).1 path fileStat datafile =
      some { (rzszContext options).1 with
        ramfile := rzszFile fileStat datafile, fileData := rzszFileData name fileStat } := by
  have mask : (0 : UInt32) ||| lmodemMetadataFilenameValid ||| lmodemMetadataFilesizeValid |||
      lmodemMetadataModifdateValid ||| lmodemMetadataPermissionValid ||| lmodemMetadataSerialValid =
        metadataMask 4 := by decide
  have all : bufferFilenameSize.toUInt32.toNat = 256 := rfl
  have last : (bufferFilenameSize.toUInt32 - 1).toNat = 255 := rfl
  simp only [transmissionContext, lmodemSetFileBuffer, rzszFile_set, protocol, ↓reduceIte, rzszMetadata, named,
    rzszContext_eq, lmodemMetadataSetFilename, lmodemMetadataSetFilesize, lmodemMetadataSetModifTime,
    lmodemMetadataSetPermission, lmodemMetadataSetSerial, rzszFileData, mask, all, last]
  rfl

theorem RzszSends.run (sends : RzszSends system argv options fileStat datafile file) {sender : ModemContext}
    (prepared : transmissionContext options (rzszContext options).1 (options.filename.getD []) fileStat datafile =
      some sender) :
    rzsz fuel system argv = lmodemEmit options.lmodemProtocol fuel sender >>= fun x => .done (rzszSent x.1) := by
  have direction := parsed_oneDirection sends.parsed
  have device : ¬ system.serialSetup (options.device.getD []) options.speed options.parity options.ctrlFlow
      options.nbStop < 0 := Int32.not_lt.mpr sends.device
  simp only [rzsz, sends.parsed, rzszRun, device, rzszContext_ok, direction.mp sends.tx, sends.tx, ne_eq,
    not_true_eq_false, not_false_eq_true, ↓reduceIte, Program.done_bind, doFileTransmission, sends.stat, sends.opened,
    prepared, bind_assoc]
  rfl

theorem RzszReceives.run (receives : RzszReceives system argv options) :
    rzsz fuel system argv = lmodemReceive options.lmodemProtocol fuel (rzszReceiver options) >>= fun x =>
      .done (rzszReceived options x.1 x.2) := by
  have direction := parsed_oneDirection receives.parsed
  have tx : options.tx = 0 := by
    by_contra h
    exact receives.rx (direction.mp h)
  have device : ¬ system.serialSetup (options.device.getD []) options.speed options.parity options.ctrlFlow
      options.nbStop < 0 := Int32.not_lt.mpr receives.device
  simp only [rzsz, receives.parsed, rzszRun, device, rzszContext_ok, receives.rx, tx, ne_eq,
    not_true_eq_false, not_false_eq_true, ↓reduceIte, doFileReception, receives.writable, bind_assoc,
    Program.done_bind]
  rfl

theorem Options.lmodemProtocol_xmodem (xmodem : options.protocol = 0) : options.lmodemProtocol = .xmodem :=
  if_pos xmodem

theorem Options.lmodemProtocol_ymodem (ymodem : options.protocol = 1) : options.lmodemProtocol = .ymodem := by
  rw [Options.lmodemProtocol, ymodem]
  rfl

theorem RzszSends.xmodem (sends : RzszSends system argv options fileStat datafile file)
    (xmodem : options.protocol = 0) :
    rzsz fuel system argv = lxmodemEmit fuel (rzszXmodemSender options fileStat datafile) >>= fun x =>
      .done (rzszSent x.1) := by
  have other : options.protocol ≠ 1 := by
    rw [xmodem]
    decide
  rw [sends.run (transmissionContext_xmodem other _ _ _ _), Options.lmodemProtocol_xmodem xmodem, rzszXmodemSender,
    rzszReady, Options.lmodemProtocol_xmodem xmodem]
  rfl

theorem RzszSends.ymodem (sends : RzszSends system argv options fileStat datafile file)
    (ymodem : options.protocol = 1) (named : afterStrrchr (options.filename.getD []) slash = some name) :
    rzsz fuel system argv = lymodemEmit fuel (rzszYmodemSender options fileStat datafile name) >>= fun x =>
      .done (rzszSent x.1) := by
  rw [sends.run (transmissionContext_ymodem ymodem named _ _), Options.lmodemProtocol_ymodem ymodem,
    rzszYmodemSender, rzszReady, Options.lmodemProtocol_ymodem ymodem]
  rfl

theorem RzszReceives.xmodem (receives : RzszReceives system argv options) (xmodem : options.protocol = 0) :
    rzsz fuel system argv = lxmodemReceive fuel (rzszReceiver options) >>= fun x =>
      .done (rzszReceived options x.1 x.2) := by
  rw [receives.run, rzszReceiver, rzszReady, Options.lmodemProtocol_xmodem xmodem]
  rfl

theorem RzszReceives.ymodem (receives : RzszReceives system argv options) (ymodem : options.protocol = 1) :
    rzsz fuel system argv = lymodemReceive fuel (rzszReceiver options) >>= fun x =>
      .done (rzszReceived options x.1 x.2) := by
  rw [receives.run, rzszReceiver, rzszReady, Options.lmodemProtocol_ymodem ymodem]
  rfl

theorem rzszXmodem_compatible {options' : Options} (xmodem : options.protocol = 0) (xmodem' : options'.protocol = 0)
    (opts : (rzszBuffer options).1 = (rzszBuffer options').1 ∨
      (rzszBuffer options).1 = .lxmodem128WithCrc ∧ (rzszBuffer options').1 = .lxmodem1k) :
    Compatible (rzszXmodemSender options fileStat datafile) (rzszReceiver options') :=
  compatible_xmodem (Options.lmodemProtocol_xmodem xmodem) (Options.lmodemProtocol_xmodem xmodem')
    (rzszReady_crc16 options options') (rzszReady_configured options') (by
      change (rzszReady options).opts = (rzszReady options').opts ∨
        (rzszReady options).opts = _ ∧ (rzszReady options').opts = _
      rw [rzszReady_opts, rzszReady_opts]
      exact opts)

end Run

theorem rzsz_xmodem (system system' : System) (argv argv' : List Found) (options options' : Options)
    (fileStat : FileStat) (datafile : Memory UInt8) (file : List UInt8) (schedule : Schedule)
    (sends : RzszSends system argv options fileStat datafile file)
    (receives : RzszReceives system' argv' options') (xmodem : options.protocol = 0)
    (xmodem' : options'.protocol = 0)
    (opts : (rzszBuffer options).1 = (rzszBuffer options').1 ∨
      (rzszBuffer options).1 = .lxmodem128WithCrc ∧ (rzszBuffer options').1 = .lxmodem1k)
    (room : (paddedFile (rzszReady options).blksize file).length < bufferFileSize)
    (recoverable : Recoverable (rzszReady options) file schedule) :
    ∃ pad < 1024, paddedFile (rzszReady options).blksize file = file ++ List.replicate pad SUB ∧
      ∃ fuel₀, ∀ fuel ≥ fuel₀, Inevitable (Step (.ofWires schedule.forward schedule.backward))
        (fun s => s.Returned ⟨.success, none, none⟩ ⟨.success, some (file ++ List.replicate pad SUB), none⟩)
        (.start (rzsz fuel system argv) (rzsz fuel system' argv')) := by
  obtain ⟨pad, hpad, padded⟩ := @paddedFile_eq _ file (blksize_eq (rzszReady options))
  refine ⟨pad, hpad, padded, 11 * blockCount (rzszReady options).blksize file + 12, fun fuel hfuel => ?_⟩
  have hcapacity : bufferFileSize = 1048576 := rfl
  have short : file.length < 2147483648 := by
    rw [padded, List.length_append] at room
    omega
  have compatible : Compatible (rzszXmodemSender options fileStat datafile) (rzszReceiver options') :=
    rzszXmodem_compatible xmodem xmodem' opts
  have written : (rzszReceiver options').ramfile.writeOffset.toNat = 0 := rfl
  have size : (rzszReceiver options').ramfile.maxSize.toNat = bufferFileSize := rfl
  have blksize : (rzszXmodemSender options fileStat datafile).blksize = (rzszReady options).blksize := rfl
  have hroom : Room (rzszXmodemSender options fileStat datafile) (rzszReceiver options') file := by
    refine ⟨⟨by omega, by omega⟩, ?_⟩
    rw [blksize, written, size]
    omega
  obtain ⟨n, sender', receiver', l', r', steps, delivered⟩ :=
    @Compatible.delivers RzszOutcome schedule (rzszXmodemSender options fileStat datafile) (rzszReceiver options') file
      schedule.forward schedule.backward AtPlace fuel fuel [] [] (fun x => .done (rzszSent x.1))
      (fun x => .done (rzszReceived options' x.1 x.2)) compatible hroom (sends.loaded short)
      ⟨recoverable.spared, recoverable.spoils, recoverable.consecutive⟩ schedule.channel
      (fun p => ⟨p, [], rfl, rfl, rfl⟩) (fun p => rfl) (by rw [blksize]; omega) (by rw [blksize]; omega)
  have success : n ≥ 0 := by
    rw [ge_iff_le, Int32.le_iff_toInt_le, delivered.result]
    exact Int.natCast_nonneg _
  have content : receiver'.ramfile.buffer.load 0 receiver'.ramfile.writeOffset.toNat =
      file ++ List.replicate pad SUB := by
    rw [delivered.ramfile, blksize, padded]
    rw [padded] at room
    exact appended_content written (by omega) (by omega)
  have noReport : options'.protocol ≠ 1 := by
    rw [xmodem']
    decide
  rw [sends.xmodem xmodem, receives.xmodem xmodem']
  refine Inevitable.of_steps (diamond_ofWires _ _) (fun s returned s' => returned.no_step) steps (.now ⟨?_, ?_⟩)
  · simp only [rzszSent, success, ↓reduceIte]
  · simp only [rzszReceived, success, noReport, content, ↓reduceIte]

def sampleSystem (file : List UInt8) : System where
  serialSetup := fun _ _ _ _ _ => 3
  stat := fun _ => some ⟨file.length.toUInt64, 1000000000, 33188⟩
  fread := fun _ => some (.holding file 0)
  writable := fun _ => true

theorem sampleSystem_sends {file : List UInt8} {argv : List Found} {size : UInt64}
    (length : file.length.toUInt64 = size) (small : size.toNat = file.length)
    (parsed : parseOptions argv = some (.given argv)) (tx : (Options.given argv).tx ≠ 0) :
    RzszSends (sampleSystem file) argv (.given argv) ⟨size, 1000000000, 33188⟩ (.holding file 0) file where
  parsed := parsed
  tx := tx
  device := show (0 : Int32) ≤ 3 by decide
  stat := by
    rw [← length]
    rfl
  opened := rfl
  size := small
  content := (Memory.holds_append.mp (Memory.holding_ended file 0)).1

theorem sampleSystem_receives {file : List UInt8} {argv : List Found}
    (parsed : parseOptions argv = some (.given argv)) (rx : (Options.given argv).rx ≠ 0) :
    RzszReceives (sampleSystem file) argv (.given argv) where
  parsed := parsed
  rx := rx
  device := show (0 : Int32) ≤ 3 by decide
  writable := rfl

def xmodemArgv (direction : Opts) : List Found :=
  [⟨.protocol, [48]⟩, ⟨.device, [47, 100]⟩, ⟨.file, [47, 102]⟩, ⟨direction, []⟩]

theorem rzsz_xmodem_oneByte :
    ∃ pad < 1024, ∃ fuel₀, ∀ fuel ≥ fuel₀, Inevitable (Step (.ofWires twoFaults.forward twoFaults.backward))
      (fun s => s.Returned ⟨.success, none, none⟩ ⟨.success, some ([7] ++ List.replicate pad SUB), none⟩)
      (.start (rzsz fuel (sampleSystem [7]) (xmodemArgv .tx)) (rzsz fuel (sampleSystem []) (xmodemArgv .rx))) := by
  obtain ⟨pad, hpad, _, session⟩ := rzsz_xmodem (sampleSystem [7]) (sampleSystem []) (xmodemArgv .tx) (xmodemArgv .rx)
    (.given (xmodemArgv .tx)) (.given (xmodemArgv .rx)) ⟨1, 1000000000, 33188⟩ (.holding [7] 0) [7] twoFaults
    (sampleSystem_sends rfl rfl (by decide) (by decide))
    (sampleSystem_receives (by decide) (by decide)) (by decide) (by decide) (Or.inl (by decide)) (by decide +kernel)
    ⟨twoFaults_recoverable.spared, twoFaults_recoverable.spoils, twoFaults_recoverable.consecutive⟩
  exact ⟨pad, hpad, session⟩

theorem rzszReceiver_full (options : Options) {blksize : ℕ} {file : List UInt8}
    (tooLarge : bufferFileSize ≤ (paddedFile blksize file).length) :
    blocksThatFit (rzszReceiver options) blksize file ≠ blockCount blksize file := by
  intro all
  have written : (rzszReceiver options).ramfile.writeOffset.toNat = 0 := rfl
  have size : (rzszReceiver options).ramfile.maxSize.toNat = bufferFileSize := rfl
  have some : 0 < blockCount blksize file := by
    by_contra none
    have empty : blockCount blksize file = 0 := by omega
    rw [paddedFile, empty, payloadsBefore_zero] at tooLarge
    cases tooLarge
  have room := @blocksThatFit_room (rzszReceiver options) blksize file (by omega)
  rw [HasRoom, all, ← paddedFile, written, size] at room
  omega

theorem rzsz_xmodem_tooLarge (system system' : System) (argv argv' : List Found) (options options' : Options)
    (fileStat : FileStat) (datafile : Memory UInt8) (file : List UInt8) (schedule : Schedule)
    (sends : RzszSends system argv options fileStat datafile file)
    (receives : RzszReceives system' argv' options') (xmodem : options.protocol = 0)
    (xmodem' : options'.protocol = 0)
    (opts : (rzszBuffer options).1 = (rzszBuffer options').1 ∨
      (rzszBuffer options).1 = .lxmodem128WithCrc ∧ (rzszBuffer options').1 = .lxmodem1k)
    (tooLarge : bufferFileSize ≤ (paddedFile (rzszReady options).blksize file).length)
    (short : file.length < 2147483648) (recoverable : Recoverable (rzszReady options) file schedule) :
    ∃ fuel₀, ∀ fuel ≥ fuel₀, Inevitable (Step (.ofWires schedule.forward schedule.backward))
      (fun s => s.Returned ⟨.failure, none, none⟩ ⟨.failure, some [], none⟩)
      (.start (rzsz fuel system argv) (rzsz fuel system' argv')) := by
  refine ⟨11 * blockCount (rzszReady options).blksize file + 13, fun fuel hfuel => ?_⟩
  have hcapacity : bufferFileSize = 1048576 := rfl
  have written : (rzszReceiver options').ramfile.writeOffset.toNat = 0 := rfl
  have size : (rzszReceiver options').ramfile.maxSize.toNat = bufferFileSize := rfl
  have blksize : (rzszXmodemSender options fileStat datafile).blksize = (rzszReady options).blksize := rfl
  obtain ⟨n, sender', receiver', toLeft, toRight, l', r', steps, agreed⟩ :=
    @Compatible.settles RzszOutcome schedule (rzszXmodemSender options fileStat datafile) (rzszReceiver options') file
      schedule.forward schedule.backward AtPlace fuel fuel [] [] (fun x => .done (rzszSent x.1))
      (fun x => .done (rzszReceived options' x.1 x.2)) (rzszXmodem_compatible xmodem xmodem' opts)
      ⟨by omega, by omega⟩ (sends.loaded short) ⟨recoverable.spared, recoverable.spoils, recoverable.consecutive⟩
      schedule.channel (fun p => ⟨p, [], rfl, rfl, rfl⟩) (fun p => rfl) hfuel hfuel
  have result := agreed.result
  rw [blksize, if_neg (rzszReceiver_full options' tooLarge)] at result
  have failure : ¬ n ≥ 0 := by
    rw [ge_iff_le, Int32.le_iff_toInt_le, result]
    decide
  have noReport : options'.protocol ≠ 1 := by
    rw [xmodem']
    decide
  rw [sends.xmodem xmodem, receives.xmodem xmodem']
  refine Inevitable.of_steps (diamond_ofWires _ _) (fun s returned s' => returned.no_step) steps (.now ⟨?_, ?_⟩)
  · simp only [rzszSent, failure, ↓reduceIte]
  · simp only [rzszReceived, failure, noReport, ↓reduceIte]

theorem rzsz_xmodem_tooLarge_mebibyte :
    ∃ fuel₀, ∀ fuel ≥ fuel₀, Inevitable (Step (.ofWires noFaults.forward noFaults.backward))
      (fun s => s.Returned ⟨.failure, none, none⟩ ⟨.failure, some [], none⟩)
      (.start (rzsz fuel (sampleSystem (List.replicate 1048576 7)) (xmodemArgv .tx))
        (rzsz fuel (sampleSystem []) (xmodemArgv .rx))) := by
  have length : (List.replicate 1048576 (7 : UInt8)).length = 1048576 := List.length_replicate
  obtain ⟨pad, _, padded⟩ := @paddedFile_eq _ (List.replicate 1048576 7)
    (blksize_eq (rzszReady (.given (xmodemArgv .tx))))
  apply rzsz_xmodem_tooLarge (sampleSystem (List.replicate 1048576 7)) (sampleSystem []) (xmodemArgv .tx)
    (xmodemArgv .rx) (.given (xmodemArgv .tx)) (.given (xmodemArgv .rx)) ⟨1048576, 1000000000, 33188⟩
    (.holding (List.replicate 1048576 7) 0) (List.replicate 1048576 7) noFaults
    (sampleSystem_sends (congrArg Nat.toUInt64 length) length.symm (by decide) (by decide))
    (sampleSystem_receives (by decide) (by decide)) (by decide) (by decide) (Or.inl (by decide))
  · rw [padded, List.length_append, length]
    exact Nat.le_add_right _ _
  · rw [length]
    decide
  · exact noFaults_recoverable _ _

section Ymodem

variable {system : System} {argv : List Found} {options : Options} {fileStat : FileStat} {datafile : Memory UInt8}
  {file name : List UInt8}

theorem rzszFileData_filename {name : List UInt8} (plain : 0 ∉ name) (fileStat : FileStat) :
    ∃ source, (rzszFileData name fileStat).filename = some source ∧ source.Holds 0 (name.take 255 ++ [0]) := by
  refine ⟨_, rfl, ?_⟩
  rw [strncpy_last]
  have cut := strncpy_cut (.fresh 0) plain (Memory.holding_ended name 0) 0 255
  rwa [Nat.zero_add] at cut

theorem rzszBuffer_ymodem (ymodem : options.protocol = 1) :
    rzszBuffer options = (.lxmodem128WithChksum, lymodemBufferMinSize.toUInt32) := by
  rw [rzszBuffer, ymodem]
  rfl

theorem RzszSends.offers (sends : RzszSends system argv options fileStat datafile file)
    (ymodem : options.protocol = 1) (nonempty : name ≠ []) (plain : 0 ∉ name) (short : file.length < 2147483648) :
    (rzszYmodemSender options fileStat datafile name).Offers file (name.take 255) where
  loaded := sends.loaded short
  named := (isValid_metadataMask rfl (Nat.le_refl 4)).1
  sized := by
    rw [LmodemFileCharacteristics.isValid]
    change decide (metadataMask 4 &&& lmodemMetadataFilesizeValid = lmodemMetadataFilesizeValid) = true
    decide
  size := sends.size_eq short
  filename := rzszFileData_filename plain fileStat
  nonempty := by simpa using nonempty
  plain := fun h => plain (List.mem_of_mem_take h)
  length := (List.length_take_le 255 name).trans (by decide)
  line := by
    simp only [rzszYmodemSender, rzszReady, rzszContext_eq, rzszBuffer_ymodem ymodem]
    exact Nat.le_refl 1029

theorem rzszReceiver_expects (ymodem : options.protocol = 1) (name : List UInt8) :
    (rzszReceiver options).Expects (name.take 255) := by
  simp only [rzszReceiver, rzszReady, rzszContext_eq, rzszBuffer_ymodem ymodem]
  exact ⟨⟨_, rfl⟩, Nat.lt_of_le_of_lt (List.length_take_le 255 name) (Nat.lt_succ_self 255), Nat.le_refl 1029⟩

theorem cString_short {m : Memory UInt8} {n : ℕ} {s : List UInt8} (string : cString m (n + 1) = s)
    (short : s.length ≤ n) : cString m n = s := by
  rw [cString_succ] at string
  split at string
  · rename_i full
    rw [← string, List.length_append, full.1, List.length_singleton] at short
    omega
  · exact string

theorem fileReport_known {pThis : ModemContext} {dest : Memory UInt8} {name : List UInt8}
    (valid : pThis.fileData.valid = metadataMask 4) (filename : pThis.fileData.filename = some dest)
    (string : cString dest 256 = name) (short : name.length ≤ 255) :
    fileReport pThis = ⟨some name, some pThis.fileData.size, some pThis.fileData.modifDate,
      some pThis.fileData.permission.toUInt32, some pThis.fileData.serialNumber⟩ := by
  have named : pThis.fileData.valid &&& lmodemMetadataFilenameValid = lmodemMetadataFilenameValid := by
    rw [valid]
    decide
  have all : bufferFilenameSize.toUInt32.toNat = 255 + 1 := rfl
  have last : (bufferFilenameSize.toUInt32 - 1).toNat = 255 := rfl
  have copied := cString_copied (.fresh 0) dest 255
  rw [cString_short string short] at copied
  simp only [fileReport, lmodemMetadataGetFilename, lmodemMetadataGetFilesize, lmodemMetadataGetModifTime,
    lmodemMetadataGetPermission, lmodemMetadataGetSerial, lmodemMetadataGet, obtained, named, filename, all, last,
    ↓reduceIte, Option.map_some, copied]

theorem fileReport_received {options' : Options} {receiver' : ModemContext}
    (metadata : ∃ dest, cString dest (rzszReceiver options').fileData.filenameSize.toNat = name.take 255 ∧
      receiver'.fileData = setFields { lmodemMetadataClean (rzszReceiver options').fileData with
        filename := some dest, valid := lmodemMetadataFilenameValid } 0 (rzszFileData name fileStat).fields) :
    fileReport receiver' = ⟨some (name.take 255), some fileStat.stSize.toUInt32, some fileStat.stMtime.toUInt32,
      some (fileStat.stMode.toUInt16 &&& 0x7FFF).toUInt32, some 0⟩ := by
  obtain ⟨dest, string, fileData⟩ := metadata
  obtain ⟨valid, size, modifDate, permission, serial⟩ := @setFields_fields_mask (rzszFileData name fileStat)
    { lmodemMetadataClean (rzszReceiver options').fileData with
      filename := some dest, valid := lmodemMetadataFilenameValid } 4
    (isValid_metadataMask rfl (Nat.le_refl 4)).2 (Nat.le_refl 4) rfl
  have filename := setFields_filename { lmodemMetadataClean (rzszReceiver options').fileData with
    filename := some dest, valid := lmodemMetadataFilenameValid } 0 (rzszFileData name fileStat).fields
  have filenameSize : (rzszReceiver options').fileData.filenameSize.toNat = 256 := by
    simp only [rzszReceiver, rzszReady, rzszContext_eq]
    rfl
  rw [filenameSize] at string
  rw [← fileData] at valid size modifDate permission serial filename
  rw [fileReport_known valid filename string (List.length_take_le 255 name), size (by decide), modifDate (by decide),
    permission (by decide), serial (by decide)]
  rfl

theorem rzsz_ymodem (system system' : System) (argv argv' : List Found) (options options' : Options)
    (fileStat : FileStat) (datafile : Memory UInt8) (file name : List UInt8) (schedule : Schedule)
    (sends : RzszSends system argv options fileStat datafile file)
    (receives : RzszReceives system' argv' options') (ymodem : options.protocol = 1)
    (ymodem' : options'.protocol = 1) (named : afterStrrchr (options.filename.getD []) slash = some name)
    (nonempty : name ≠ []) (plain : 0 ∉ name)
    (room : (paddedFile 1024 file).length < bufferFileSize)
    (recoverable : Recoverable (rzszReady options) file schedule) :
    ∃ fuel₀, ∀ fuel ≥ fuel₀, Inevitable (Step (.ofWires (schedule.forwardFrom 3) (schedule.backwardFrom 3)))
      (fun s => s.Returned ⟨.success, none, none⟩ ⟨.success, some file,
        some ⟨some (name.take 255), some fileStat.stSize.toUInt32, some fileStat.stMtime.toUInt32,
          some (fileStat.stMode.toUInt16 &&& 0x7FFF).toUInt32, some 0⟩⟩)
      (.start (rzsz fuel system argv) (rzsz fuel system' argv')) := by
  refine ⟨11 * blockCount 1024 file + 15, fun fuel hfuel => ?_⟩
  obtain ⟨pad, _, padded⟩ := @paddedFile_eq 1024 file (Or.inr rfl)
  have hcapacity : bufferFileSize = 1048576 := rfl
  have short : file.length < 2147483648 := by
    rw [padded, List.length_append] at room
    omega
  obtain ⟨n, sender', receiver', toLeft, toRight, l, r, steps, batched⟩ :=
    @ModemContext.Offers.delivers schedule (rzszYmodemSender options fileStat datafile name) (rzszReceiver options')
      file (name.take 255) fuel (sends.offers ymodem nonempty plain short) (rzszReceiver_expects ymodem' name)
      (Options.lmodemProtocol_ymodem ymodem) (Options.lmodemProtocol_ymodem ymodem')
      (rzszReady_crc16 options options') rfl (by change bufferFileSize < _; omega) room
      ⟨recoverable.spared, recoverable.spoils, recoverable.consecutive⟩ hfuel
  have success : n ≥ 0 := by
    rw [ge_iff_le, Int32.le_iff_toInt_le, batched.result]
    exact Int.natCast_nonneg _
  have report := fileReport_received batched.metadata
  have content := batched.content
  rw [← batched.size] at content
  rw [sends.ymodem ymodem named, receives.ymodem ymodem']
  refine Inevitable.of_steps (diamond_ofWires _ _) (fun s returned s' => returned.no_step)
    (steps_bind steps (fun x => .done (rzszSent x.1)) (fun x => .done (rzszReceived options' x.1 x.2)))
    (.now ⟨?_, ?_⟩)
  · simp only [Network.bind, Program.done_bind, rzszSent, success, ↓reduceIte]
  · simp only [Network.bind, Program.done_bind, rzszReceived, success, ymodem', content, report, ↓reduceIte]

def ymodemArgv (direction : Opts) : List Found :=
  [⟨.protocol, [49]⟩, ⟨.device, [47, 100]⟩, ⟨.file, [47, 102]⟩, ⟨direction, []⟩]

theorem rzsz_ymodem_threeBytes :
    ∃ fuel₀, ∀ fuel ≥ fuel₀, Inevitable (Step (.ofWires (batchFaults.forwardFrom 3) (batchFaults.backwardFrom 3)))
      (fun s => s.Returned ⟨.success, none, none⟩
        ⟨.success, some [1, 2, 3], some ⟨some [102], some 3, some 1000000000, some 420, some 0⟩⟩)
      (.start (rzsz fuel (sampleSystem [1, 2, 3]) (ymodemArgv .tx))
        (rzsz fuel (sampleSystem []) (ymodemArgv .rx))) :=
  rzsz_ymodem (sampleSystem [1, 2, 3]) (sampleSystem []) (ymodemArgv .tx) (ymodemArgv .rx)
    (.given (ymodemArgv .tx)) (.given (ymodemArgv .rx)) ⟨3, 1000000000, 33188⟩ (.holding [1, 2, 3] 0) [1, 2, 3]
    [102] batchFaults
    (sampleSystem_sends rfl rfl (by decide) (by decide))
    (sampleSystem_receives (by decide) (by decide)) (by decide) (by decide) (by decide) (by decide) (by decide) (by decide +kernel)
    ⟨batchFaults_recoverable.spared, batchFaults_recoverable.spoils, batchFaults_recoverable.consecutive⟩

theorem rzsz_ymodem_tooLarge (system system' : System) (argv argv' : List Found) (options options' : Options)
    (fileStat : FileStat) (datafile : Memory UInt8) (file name : List UInt8) (schedule : Schedule)
    (sends : RzszSends system argv options fileStat datafile file)
    (receives : RzszReceives system' argv' options') (ymodem : options.protocol = 1)
    (ymodem' : options'.protocol = 1) (named : afterStrrchr (options.filename.getD []) slash = some name)
    (nonempty : name ≠ []) (plain : 0 ∉ name) (tooLarge : bufferFileSize ≤ (paddedFile 1024 file).length)
    (short : file.length < 2147483648) (recoverable : Recoverable (rzszReady options) file schedule)
    (spared : ∀ i c, 1023 ≤ i → schedule i c = .none) :
    ∃ fuel₀, ∀ fuel ≥ fuel₀, Inevitable (Step (.ofWires (schedule.forwardFrom 3) (schedule.backwardFrom 3)))
      (fun s => s.Returned ⟨.failure, none, none⟩ ⟨.failure, some [],
        some ⟨some (name.take 255), some fileStat.stSize.toUInt32, some fileStat.stMtime.toUInt32,
          some (fileStat.stMode.toUInt16 &&& 0x7FFF).toUInt32, some 0⟩⟩)
      (.start (rzsz fuel system argv) (rzsz fuel system' argv')) := by
  refine ⟨11 * blockCount 1024 file + 15, fun fuel hfuel => ?_⟩
  have hcapacity : bufferFileSize = 1048576 := rfl
  have written : (rzszReceiver options').ramfile.writeOffset.toNat = 0 := rfl
  have size : (rzszReceiver options').ramfile.maxSize.toNat = bufferFileSize := rfl
  have all := @payloadsBefore_length_le 1024 file (Nat.le_refl 1024) (blockCount 1024 file)
  have some := @payloadsBefore_length_le 1024 file (Nat.le_refl 1024) 1023
  rw [← paddedFile] at all
  have fit : 1023 ≤ blocksThatFit (rzszReceiver options') 1024 file := by
    apply Nat.le_findGreatest
    · omega
    · rw [HasRoom, written, size]
      omega
  obtain ⟨n, sender', receiver', toLeft, toRight, l, r, steps, settled⟩ :=
    @ModemContext.Offers.settles schedule (rzszYmodemSender options fileStat datafile name) (rzszReceiver options')
      file (name.take 255) fuel (sends.offers ymodem nonempty plain short) (rzszReceiver_expects ymodem' name)
      (Options.lmodemProtocol_ymodem ymodem) (Options.lmodemProtocol_ymodem ymodem')
      (rzszReady_crc16 options options') rfl (by change bufferFileSize < _; omega)
      ⟨recoverable.spared, recoverable.spoils, recoverable.consecutive⟩ (fun i c hi => spared i c (fit.trans hi)) hfuel
  have result := settled.result
  rw [if_neg (rzszReceiver_full options' tooLarge)] at result
  have failure : ¬ n ≥ 0 := by
    rw [ge_iff_le, Int32.le_iff_toInt_le, result]
    decide
  have report := fileReport_received settled.metadata
  rw [sends.ymodem ymodem named, receives.ymodem ymodem']
  refine Inevitable.of_steps (diamond_ofWires _ _) (fun s returned s' => returned.no_step)
    (steps_bind steps (fun x => .done (rzszSent x.1)) (fun x => .done (rzszReceived options' x.1 x.2)))
    (.now ⟨?_, ?_⟩)
  · simp only [Network.bind, Program.done_bind, rzszSent, failure, ↓reduceIte]
  · simp only [Network.bind, Program.done_bind, rzszReceived, failure, ymodem', report, ↓reduceIte]

theorem rzsz_ymodem_tooLarge_mebibyte :
    ∃ fuel₀, ∀ fuel ≥ fuel₀, Inevitable (Step (.ofWires (noFaults.forwardFrom 3) (noFaults.backwardFrom 3)))
      (fun s => s.Returned ⟨.failure, none, none⟩
        ⟨.failure, some [], some ⟨some [102], some 1048576, some 1000000000, some 420, some 0⟩⟩)
      (.start (rzsz fuel (sampleSystem (List.replicate 1048576 7)) (ymodemArgv .tx))
        (rzsz fuel (sampleSystem []) (ymodemArgv .rx))) := by
  have length : (List.replicate 1048576 (7 : UInt8)).length = 1048576 := List.length_replicate
  obtain ⟨pad, _, padded⟩ := @paddedFile_eq 1024 (List.replicate 1048576 7) (Or.inr rfl)
  apply rzsz_ymodem_tooLarge (sampleSystem (List.replicate 1048576 7)) (sampleSystem []) (ymodemArgv .tx)
    (ymodemArgv .rx) (.given (ymodemArgv .tx)) (.given (ymodemArgv .rx)) ⟨1048576, 1000000000, 33188⟩
    (.holding (List.replicate 1048576 7) 0) (List.replicate 1048576 7) [102] noFaults
    (sampleSystem_sends (congrArg Nat.toUInt64 length) length.symm (by decide) (by decide))
    (sampleSystem_receives (by decide) (by decide)) (by decide) (by decide) (by decide) (by decide) (by decide)
  · rw [padded, List.length_append, length]
    exact Nat.le_add_right _ _
  · rw [length]
    decide
  · exact noFaults_recoverable _ _
  · exact fun _ _ _ => rfl

end Ymodem

end LightModem
