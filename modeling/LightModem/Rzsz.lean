import LightModem.YmodemReceiver
import LightModem.YmodemSender

set_option autoImplicit false

/-!
`rzsz.c`, the program that sends or receives one file over a serial device. What it prints is left out,
except what it tells of a received file.
-/

namespace LightModem

open Interaction

abbrev bufferFileSize : ℕ := 1024 * 1024
abbrev bufferFilenameSize : ℕ := 256

/-- `unknown` is what `getopt_long` makes of an option that is not in the table, and of one without the
argument that it needs. -/
inductive Opts
  | protocol
  | device
  | speed
  | parity
  | ctrlFlow
  | nbStop
  | crc
  | oneK
  | tx
  | rx
  | file
  | unknown
  deriving DecidableEq

structure Found where
  c : Opts
  optarg : List UInt8
  deriving DecidableEq

structure Options where
  protocol : UInt32
  device : Option (List UInt8)
  speed : UInt32
  parity : UInt32
  ctrlFlow : UInt32
  nbStop : UInt32
  crc : UInt32
  xmodemBlksize : UInt32
  tx : UInt32
  rx : UInt32
  filename : Option (List UInt8)
  deriving DecidableEq

def digitOf (c : UInt8) : ℕ :=
  if 48 ≤ c ∧ c ≤ 57 then c.toNat - 48
  else if 65 ≤ c ∧ c ≤ 90 then c.toNat - 55
  else if 97 ≤ c ∧ c ≤ 122 then c.toNat - 87
  else 36

def announcedBase : List UInt8 → ℕ × List UInt8
  | 48 :: x :: c :: rest => if (x = 120 ∨ x = 88) ∧ digitOf c < 16 then (16, c :: rest) else (8, 48 :: x :: c :: rest)
  | 48 :: rest => (8, 48 :: rest)
  | number => (10, number)

def strtoulAnyBase (s : List UInt8) : ℕ :=
  let unsigned := s.dropWhile isspace
  let negative := unsigned.head? = some 45
  let number := if negative ∨ unsigned.head? = some 43 then unsigned.tail else unsigned
  let (base, number) := announcedBase number
  let n := (number.takeWhile (digitOf · < base)).foldl (fun n c => n * base + digitOf c) 0
  if n > ulongMax then ulongMax
  else if negative then (ulongMax + 1 - n) % (ulongMax + 1)
  else n

namespace Options

def cleared : Options where
  protocol := 0
  device := none
  speed := 0
  parity := 0
  ctrlFlow := 0
  nbStop := 0
  crc := 0
  xmodemBlksize := 0
  tx := 0
  rx := 0
  filename := none

def set (options : Options) (found : Found) : Option Options :=
  match found.c with
  | .protocol => some { options with protocol := (strtoulAnyBase found.optarg).toUInt32 }
  | .device => some { options with device := some found.optarg }
  | .speed => some { options with speed := (strtoulAnyBase found.optarg).toUInt32 }
  | .parity => some { options with parity := (strtoulAnyBase found.optarg).toUInt32 }
  | .ctrlFlow => some { options with ctrlFlow := (strtoulAnyBase found.optarg).toUInt32 }
  | .nbStop => some { options with nbStop := (strtoulAnyBase found.optarg).toUInt32 }
  | .crc => some { options with crc := 1 }
  | .oneK => some { options with xmodemBlksize := 1 }
  | .tx => some { options with tx := 1 }
  | .rx => some { options with rx := 1 }
  | .file => some { options with filename := some found.optarg }
  | .unknown => none

def bOk (options : Options) : Bool :=
  (options.protocol = 0 || options.protocol = 1) && options.device.isSome && options.tx ^^^ options.rx ≠ 0 &&
    options.filename.isSome

def lmodemProtocol (options : Options) : LmodemProtocol :=
  if options.protocol = 0 then .xmodem else .ymodem

end Options

def parseOptions (argv : List Found) : Option Options :=
  match argv.foldlM Options.set .cleared with
  | none => none
  | some options => if options.bOk then some options else none

section CommandLine

def lastArgument (argv : List Found) (c : Opts) : Option (List UInt8) :=
  argv.foldl (fun last found => if found.c = c then some found.optarg else last) none

def givenNumber (argv : List Found) (c : Opts) : UInt32 :=
  ((lastArgument argv c).map fun optarg => (strtoulAnyBase optarg).toUInt32).getD 0

def givenFlag (argv : List Found) (c : Opts) : UInt32 := if (lastArgument argv c).isSome then 1 else 0

def Options.given (argv : List Found) : Options where
  protocol := givenNumber argv .protocol
  device := lastArgument argv .device
  speed := givenNumber argv .speed
  parity := givenNumber argv .parity
  ctrlFlow := givenNumber argv .ctrlFlow
  nbStop := givenNumber argv .nbStop
  crc := givenFlag argv .crc
  xmodemBlksize := givenFlag argv .oneK
  tx := givenFlag argv .tx
  rx := givenFlag argv .rx
  filename := lastArgument argv .file

variable {argv : List Found} {found : Found} {c : Opts}

theorem lastArgument_concat (argv : List Found) (found : Found) (c : Opts) :
    lastArgument (argv ++ [found]) c = if found.c = c then some found.optarg else lastArgument argv c := by
  simp [lastArgument]

theorem lastArgument_isSome : (lastArgument argv c).isSome ↔ ∃ found ∈ argv, found.c = c := by
  induction argv using List.reverseRecOn with
  | nil => simp [lastArgument]
  | append_singleton argv found ih =>
    rw [lastArgument_concat]
    split
    · rename_i h
      simp [h]
    · rename_i h
      simp [ih, h]

theorem givenFlag_ne_zero : givenFlag argv c ≠ 0 ↔ (lastArgument argv c).isSome := by
  rw [givenFlag]
  split
  · rename_i h
    exact iff_of_true (by decide) h
  · rename_i h
    exact iff_of_false (fun h => h rfl) h

theorem givenFlags_differ {c c' : Opts} :
    givenFlag argv c ^^^ givenFlag argv c' ≠ 0 ↔ ((lastArgument argv c).isSome ↔ ¬ (lastArgument argv c').isSome) := by
  rw [givenFlag, givenFlag]
  cases (lastArgument argv c).isSome <;> cases (lastArgument argv c').isSome <;> decide

theorem set_given (argv : List Found) (found : Found) :
    (Options.given argv).set found = if found.c = .unknown then none else some (.given (argv ++ [found])) := by
  obtain ⟨c, optarg⟩ := found
  cases c <;> simp [Options.set, Options.given, givenNumber, givenFlag, lastArgument_concat]

theorem foldlM_set (argv : List Found) :
    argv.foldlM Options.set .cleared = if ∃ found ∈ argv, found.c = .unknown then none else some (.given argv) := by
  induction argv using List.reverseRecOn with
  | nil => rfl
  | append_singleton argv found ih =>
    rw [List.foldlM_append, ih]
    by_cases h : ∃ found ∈ argv, found.c = .unknown
    · have later : ∃ x ∈ argv ++ [found], x.c = .unknown := by
        obtain ⟨x, hx, unknown⟩ := h
        exact ⟨x, List.mem_append_left _ hx, unknown⟩
      rw [if_pos h, if_pos later]
      rfl
    · rw [if_neg h]
      have next := set_given argv found
      by_cases unknown : found.c = .unknown
      · rw [if_pos ⟨found, by simp, unknown⟩]
        simp [next, unknown]
      · have none : ¬ ∃ x ∈ argv ++ [found], x.c = .unknown := by
          rintro ⟨x, hx, hu⟩
          rcases List.mem_append.mp hx with hx | hx
          · exact h ⟨x, hx, hu⟩
          · rw [List.mem_singleton.mp hx] at hu
            exact unknown hu
        rw [if_neg none]
        simp [next, unknown]

theorem given_bOk (argv : List Found) :
    (Options.given argv).bOk = true ↔ (givenNumber argv .protocol = 0 ∨ givenNumber argv .protocol = 1) ∧
      (∃ found ∈ argv, found.c = .device) ∧ (∃ found ∈ argv, found.c = .file) ∧
      ((∃ found ∈ argv, found.c = .tx) ↔ ¬ ∃ found ∈ argv, found.c = .rx) := by
  simp only [← lastArgument_isSome]
  rw [← givenFlags_differ]
  simp only [Options.bOk, Bool.and_eq_true, Bool.or_eq_true, decide_eq_true_eq, and_assoc]
  exact and_congr_right fun _ => and_congr_right fun _ => And.comm

theorem parseOptions_eq (argv : List Found) :
    parseOptions argv = if ∃ found ∈ argv, found.c = .unknown then none
      else if (Options.given argv).bOk then some (.given argv) else none := by
  rw [parseOptions, foldlM_set]
  by_cases h : ∃ found ∈ argv, found.c = .unknown
  · rw [if_pos h, if_pos h]
  · rw [if_neg h, if_neg h]

theorem parsed_given {options : Options} (parsed : parseOptions argv = some options) :
    options = .given argv ∧ (Options.given argv).bOk = true := by
  rw [parseOptions_eq] at parsed
  split_ifs at parsed with unknown bOk
  exact ⟨(Option.some.inj parsed).symm, bOk⟩

theorem parseOptions_eq_some_iff (argv : List Found) (options : Options) :
    parseOptions argv = some options ↔
      (∀ found ∈ argv, found.c ≠ .unknown) ∧ options = .given argv ∧
      (givenNumber argv .protocol = 0 ∨ givenNumber argv .protocol = 1) ∧
      (∃ found ∈ argv, found.c = .device) ∧ (∃ found ∈ argv, found.c = .file) ∧
      ((∃ found ∈ argv, found.c = .tx) ↔ ¬ ∃ found ∈ argv, found.c = .rx) := by
  rw [← given_bOk]
  constructor
  · intro parsed
    refine ⟨fun found hfound unknown => ?_, parsed_given parsed⟩
    rw [parseOptions_eq, if_pos ⟨found, hfound, unknown⟩] at parsed
    cases parsed
  · rintro ⟨known, rfl, bOk⟩
    have none : ¬ ∃ found ∈ argv, found.c = .unknown := fun ⟨found, hfound, unknown⟩ => known found hfound unknown
    rw [parseOptions_eq, if_neg none, if_pos bOk]

end CommandLine

structure FileStat where
  stSize : UInt64
  stMtime : UInt64
  stMode : UInt32

/-- What the calls to the system bring: the descriptor of the device, and for a path its status, what
`fread` makes of it, `none` if it does not open, and whether it opens to be written. -/
structure System where
  serialSetup : List UInt8 → UInt32 → UInt32 → UInt32 → UInt32 → Int32
  stat : List UInt8 → Option FileStat
  fread : List UInt8 → Option (Memory UInt8)
  writable : List UInt8 → Bool

inductive ExitCode
  | success
  | failure
  deriving DecidableEq

structure FileReport where
  filename : Option (List UInt8)
  size : Option UInt32
  modifTime : Option UInt32
  mode : Option UInt32
  serial : Option UInt32
  deriving DecidableEq

structure RzszOutcome where
  exitCode : ExitCode
  output : Option (List UInt8)
  report : Option FileReport
  deriving DecidableEq

def RzszOutcome.failed : RzszOutcome := ⟨.failure, none, none⟩

def rzszBuffer (options : Options) : LxmodemOpts × UInt32 :=
  if options.protocol = 0 then
    if options.xmodemBlksize > 0 then (.lxmodem1k, lxmodem1kBufferMinSize.toUInt32)
    else if options.crc > 0 then (.lxmodem128WithCrc, lxmodem128CrcBufferMinSize.toUInt32)
    else (.lxmodem128WithChksum, lxmodem128ChksumBufferMinSize.toUInt32)
  else (.lxmodem128WithChksum, lymodemBufferMinSize.toUInt32)

def rzszContext (options : Options) : ModemContext × Bool :=
  let (xmodemOpts, xmodemBufferSize) := rzszBuffer options
  let (xmodemCtx, bOk) := lmodemSetLineBuffer (lmodemInit xmodemOpts) (.fresh 0) xmodemBufferSize
  (lmodemSetFilenameBuffer xmodemCtx (.fresh 0) bufferFilenameSize.toUInt32, bOk)

def afterStrrchr (s : List UInt8) (c : UInt8) : Option (List UInt8) :=
  if c ∈ s then some (s.reverse.takeWhile (· ≠ c)).reverse else none

abbrev slash : UInt8 := 0x2F

/-- The metadata of a file to be sent by YMODEM; `none` where `strrchr` has no slash to find, and its
null pointer is read. -/
def rzszMetadata (xmodemCtx : ModemContext) (path : List UInt8) (fileStat : FileStat) : Option ModemContext :=
  match afterStrrchr path slash with
  | none => none
  | some name =>
    let xmodemCtx := lmodemMetadataSetFilename xmodemCtx (.holding name 0)
    let xmodemCtx := lmodemMetadataSetFilesize xmodemCtx fileStat.stSize.toUInt32
    let xmodemCtx := lmodemMetadataSetModifTime xmodemCtx fileStat.stMtime.toUInt32
    let xmodemCtx := lmodemMetadataSetPermission xmodemCtx fileStat.stMode
    some (lmodemMetadataSetSerial xmodemCtx 0)

def transmissionContext (options : Options) (xmodemCtx : ModemContext) (path : List UInt8) (fileStat : FileStat)
    (datafile : Memory UInt8) : Option ModemContext :=
  let xmodemCtx := lmodemSetFileBuffer xmodemCtx datafile fileStat.stSize.toUInt32
  let (ramfile, b) := lmodemBufferSetWriteOffset xmodemCtx.ramfile fileStat.stSize.toUInt32
  let xmodemCtx := { xmodemCtx with ramfile := ramfile }
  if b then
    if options.protocol = 1 then rzszMetadata xmodemCtx path fileStat else some xmodemCtx
  else none

def doFileTransmission (fuel : ℕ) (system : System) (options : Options) (xmodemCtx : ModemContext) :
    Program UInt8 ExitCode :=
  let path := options.filename.getD []
  match system.stat path with
  | none => .done .failure
  | some fileStat =>
    match system.fread path with
    | none => .done .failure
    | some datafile =>
      match transmissionContext options xmodemCtx path fileStat datafile with
      | none => .outOfFuel
      | some xmodemCtx => do
        let (nbBytesEmitted, _) ← lmodemEmit options.lmodemProtocol fuel xmodemCtx
        .done (if nbBytesEmitted ≥ 0 then .success else .failure)

def obtained (result : Option UInt32 × Bool) : Option UInt32 := if result.2 then result.1 else none

def fileReport (xmodemCtx : ModemContext) : FileReport where
  filename :=
    let (filename, bOk) := lmodemMetadataGetFilename xmodemCtx (some (.fresh 0)) bufferFilenameSize.toUInt32
    if bOk then filename.map (cString · bufferFilenameSize) else none
  size := obtained (lmodemMetadataGetFilesize xmodemCtx (some 0))
  modifTime := obtained (lmodemMetadataGetModifTime xmodemCtx (some 0))
  mode := obtained (lmodemMetadataGetPermission xmodemCtx (some 0))
  serial := obtained (lmodemMetadataGetSerial xmodemCtx (some 0))

def rzszReceived (options : Options) (nbBytesReceived : Int32) (xmodemCtx : ModemContext) : RzszOutcome where
  exitCode := if nbBytesReceived ≥ 0 then .success else .failure
  output := some (if nbBytesReceived ≥ 0 then
    xmodemCtx.ramfile.buffer.load 0 xmodemCtx.ramfile.writeOffset.toNat else [])
  report := if options.protocol = 1 then some (fileReport xmodemCtx) else none

def doFileReception (fuel : ℕ) (system : System) (options : Options) (xmodemCtx : ModemContext) :
    Program UInt8 (RzszOutcome × ModemContext) :=
  let xmodemCtx := lmodemSetFileBuffer xmodemCtx (.fresh 0) bufferFileSize.toUInt32
  if system.writable (options.filename.getD []) then do
    let (nbBytesReceived, xmodemCtx) ← lmodemReceive options.lmodemProtocol fuel xmodemCtx
    .done (rzszReceived options nbBytesReceived xmodemCtx, xmodemCtx)
  else .done (.failed, xmodemCtx)

def rzszRun (fuel : ℕ) (system : System) (options : Options) : Program UInt8 RzszOutcome :=
  let serialFd := system.serialSetup (options.device.getD []) options.speed options.parity options.ctrlFlow
    options.nbStop
  let (xmodemCtx, bOk) := rzszContext options
  if serialFd < 0 then .done .failed
  else if bOk then do
    let (outcome, xmodemCtx) ←
      if options.rx ≠ 0 then doFileReception fuel system options xmodemCtx else .done (.failed, xmodemCtx)
    if options.tx ≠ 0 then do
      let exitCode ← doFileTransmission fuel system options xmodemCtx
      .done { outcome with exitCode := exitCode }
    else .done outcome
  else .done .failed

def rzsz (fuel : ℕ) (system : System) (argv : List Found) : Program UInt8 RzszOutcome :=
  match parseOptions argv with
  | none => .done .failed
  | some options => rzszRun fuel system options

end LightModem
