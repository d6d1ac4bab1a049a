import LightModem.Answers

set_option autoImplicit false

namespace LightModem

open Interaction

def lymodemEmitFile (fuel : ℕ) (pThis : ModemContext) :
    Program UInt8 (Bool × UInt8 × UInt32 × ModemContext) := do
  let (bOk, receivedChar, pThis) ← lymodemEmitBlock0 fuel pThis
  let (bOk, nbEmitted, pThis) ← lymodemEmitData fuel pThis bOk
  pure (bOk, receivedChar, nbEmitted, pThis)

theorem lymodemEmit_eq (fuel : ℕ) (pThis : ModemContext) :
    lymodemEmit fuel pThis = lymodemEmitFile fuel pThis >>= fun x =>
      lymodemEmitEndOfBach fuel x.2.2.2 x.1 x.2.1 x.2.2.1 >>= fun y => .done (y.1.toInt32, y.2) := by
  simp only [lymodemEmit, lymodemEmitFile, bind_assoc, Program.pure_eq, Program.done_bind]

section Block0

variable {pThis : ModemContext} {o : Peer UInt8}

theorem lymodemBuildAndSendBlock0_terminates (pThis : ModemContext) :
    (lymodemBuildAndSendBlock0 pThis).Terminates := by
  simp only [lymodemBuildAndSendBlock0]
  split <;> trivial

theorem lymodemBuildAndSendBlock0_ensures (pThis : ModemContext) :
    (lymodemBuildAndSendBlock0 pThis).Ensures (fun t pThis' =>
      reads t = 0 ∧ SameSetup pThis pThis' ∧ pThis'.ramfile = pThis.ramfile) := by
  simp only [lymodemBuildAndSendBlock0]
  split <;> exact ⟨rfl, ⟨rfl, rfl, rfl, rfl, rfl, rfl⟩, rfl⟩

theorem lymodemHandshake_run (pThis : ModemContext) (v : UInt8) (bOk : Bool) (fuel i : ℕ) :
    ((lymodemHandshake fuel pThis v bOk).run o i).2.isSome = true ↔
      HandshakeEnds o 10 (fuel - 1) (v, i) := by
  cases fuel with
  | zero => exact iff_of_false (by simp [lymodemHandshake, whileLoop]) (not_settles_zero (by decide))
  | succ fuel => exact @handshakeLoop_run o pThis ⟨v, bOk, false, 0⟩ i rfl (show 0 < 10 by decide) fuel

theorem handshakeAfter_run {build : Program UInt8 ModemContext} {γ : Type}
    {g : LymodemHandshakeState → ModemContext → γ} (hterm : build.Terminates)
    (hreads : build.Ensures (fun t _ => reads t = 0)) (v : UInt8) (bOk : Bool) (fuel i : ℕ) :
    ((build >>= fun pThis => lymodemHandshake fuel pThis v bOk >>= fun s =>
        .done (g s pThis)).run o i).2.isSome = true ↔ HandshakeEnds o 10 (fuel - 1) (v, i) := by
  obtain ⟨t, pThis, ht⟩ := @Program.Terminates.run _ _ _ o hterm i
  rw [Program.run_bind_some ht, hreads.run ht, ← lymodemHandshake_run pThis v bOk]
  exact ⟨fun h => Program.isSome_of_run_bind h, fun h => Program.run_bind_isSome h
    ((Program.ensures_true _).mono fun _ _ _ => trivial)⟩

def emitBlock0After (fuel : ℕ) (pThis : ModemContext) :
    Option UInt8 → Program UInt8 (Bool × UInt8 × ModemContext)
  | some _ =>
    lymodemBuildAndSendBlock0 pThis >>= fun pThis =>
      lymodemHandshake fuel pThis 0 true >>= fun s => .done (s.bOk, s.receivedChar, pThis)
  | none => .done (false, 0, pThis)

theorem lymodemEmitBlock0_eq (fuel : ℕ) (pThis : ModemContext) :
    lymodemEmitBlock0 fuel pThis =
      getcharWithin (fun c => c = charC) 10 >>= emitBlock0After fuel pThis := by
  rw [lymodemEmitBlock0, lmodemWaitReceptionOf, bind_assoc]
  congr 1
  funext received
  cases received <;> rfl

theorem lymodemEmitBlock0_run (pThis : ModemContext) (fuel : ℕ) :
    ((lymodemEmitBlock0 fuel pThis).run o 0).2.isSome = true ↔
      ∀ c i, awaited o (fun c => c = charC) 10 0 = (some c, i) →
        HandshakeEnds o 10 (fuel - 1) (0, i) := by
  obtain ⟨t, ht, hreads⟩ := getcharWithin_run o (fun c => c = charC) 10 0
  rw [lymodemEmitBlock0_eq, Program.run_bind_some ht, hreads]
  rcases awaited o (fun c => c = charC) 10 0 with ⟨received, i⟩
  cases received with
  | none => exact iff_of_true rfl (by simp)
  | some c =>
    rw [emitBlock0After, handshakeAfter_run (lymodemBuildAndSendBlock0_terminates pThis)
      ((lymodemBuildAndSendBlock0_ensures pThis).mono fun _ _ h => h.1)]
    constructor
    · rintro h _ _ ⟨⟩
      exact h
    · exact fun h => h c i rfl

theorem lymodemEmitBlock0_mode (fuel : ℕ) (pThis : ModemContext) :
    (lymodemEmitBlock0 fuel pThis).Ensures (fun _ r =>
      SameSetup pThis r.2.2 ∧ r.2.2.ramfile = pThis.ramfile) := by
  rw [lymodemEmitBlock0_eq, Program.ensures_bind]
  apply (Program.ensures_true _).mono
  intro _ received _
  cases received with
  | none => exact ⟨.refl _, rfl⟩
  | some c =>
    rw [emitBlock0After, Program.ensures_bind]
    apply (lymodemBuildAndSendBlock0_ensures pThis).mono
    intro _ pThis' h
    rw [Program.ensures_bind]
    exact (Program.ensures_true _).mono fun _ _ _ => h.2

end Block0

section Data

variable {pThis : ModemContext} {o : Peer UInt8} {file : List UInt8}

theorem lmodemWaitReceptionOf_terminates (c : UInt8) : (lmodemWaitReceptionOf c).Terminates :=
  (getcharWithin_terminates _ _).bind fun _ => trivial

theorem lymodemEmitData_terminates (h : pThis.ramfile.Loaded file) {fuel : ℕ}
    (hfuel : 11 * blockCount pThis.blksize file + 11 < fuel) (bOk : Bool) :
    (lymodemEmitData fuel pThis bOk).Terminates := by
  rw [lymodemEmitData]
  split
  · refine (lxmodemEmit_terminates h hfuel).bind fun ⟨nbEmitted, pThis'⟩ => ?_
    change (ite _ _ _ : Program UInt8 (Bool × UInt32 × ModemContext)).Terminates
    split
    · exact (lmodemWaitReceptionOf_terminates charC).bind fun _ => trivial
    · trivial
  · trivial

theorem lymodemEmitFile_run (h : pThis.ramfile.Loaded file) {fuel : ℕ}
    (hfuel : 11 * blockCount pThis.blksize file + 11 < fuel) :
    ((lymodemEmitFile fuel pThis).run o 0).2.isSome = true ↔
      ∀ c i, awaited o (fun c => c = charC) 10 0 = (some c, i) →
        HandshakeEnds o 10 (fuel - 1) (0, i) := by
  rw [← lymodemEmitBlock0_run pThis]
  refine ⟨fun h => Program.isSome_of_run_bind h, fun hrun => Program.run_bind_isSome hrun ?_⟩
  refine (lymodemEmitBlock0_mode fuel pThis).mono fun _ r ⟨hmode, hram⟩ => ?_
  exact (lymodemEmitData_terminates (by rw [hram]; exact h) (by rw [← hmode.blksize]; exact hfuel)
    r.1).bind fun _ => trivial

theorem growing_lymodemEmitBlock0 (pThis : ModemContext) :
    Growing (fun fuel => lymodemEmitBlock0 fuel pThis) := by
  intro fuel fuel' hle
  simp only [lymodemEmitBlock0_eq]
  apply (Program.Extends.refl _).bind
  intro received
  cases received with
  | none => exact .done _
  | some c =>
    apply (Program.Extends.refl _).bind
    intro pThis'
    exact (Program.extends_whileLoop _ _ hle _).bind fun _ => .refl _

theorem growing_lxmodemEmit (pThis : ModemContext) : Growing (fun fuel => lxmodemEmit fuel pThis) := by
  intro fuel fuel' hle
  apply (Program.Extends.refl _).bind
  intro preambule
  cases preambule with
  | none => exact .done _
  | some preambule =>
    by_cases h : lxmodemDecodePreambule pThis preambule = false
    · simp only [h, ↓reduceIte]
      exact .refl _
    · simp only [h]
      exact (Program.extends_whileLoop _ _ hle _).bind fun _ => .refl _

theorem growing_lymodemEmitFile (pThis : ModemContext) :
    Growing (fun fuel => lymodemEmitFile fuel pThis) := by
  intro fuel fuel' hle
  apply (growing_lymodemEmitBlock0 pThis fuel fuel' hle).bind
  intro r
  refine Program.Extends.bind ?_ fun _ => .refl _
  rw [lymodemEmitData, lymodemEmitData]
  split
  · exact (growing_lxmodemEmit r.2.2 fuel fuel' hle).bind fun _ => .refl _
  · exact .refl _

end Data

section Passes

variable {pThis pThis' : ModemContext} {o : Peer UInt8} {file : List UInt8} {fuel i j : ℕ} {t : List (Event UInt8)}
  {bOk : Bool} {v : UInt8} {nbEmitted : UInt32}

theorem lymodemEmitBlock0_passes (run : (lymodemEmitBlock0 fuel pThis).run o 0 = (t, some (bOk, v, pThis')))
    (y : UInt8 × ℕ) : Block0Passes o y ↔ bOk = true ∧ y = (v, reads t) := by
  rw [lymodemEmitBlock0_eq] at run
  obtain ⟨t₁, a, t₂, asked, later, rfl⟩ := Program.exists_of_run_bind run
  have first := awaited_of_run asked
  rw [Block0Passes, first]
  cases a with
  | none =>
    obtain ⟨_, hresult⟩ := Prod.mk.inj later
    cases hresult
    simp
  | some c =>
    obtain ⟨t₃, p, t₄, build, shake, rfl⟩ := Program.exists_of_run_bind later
    obtain ⟨s, loop, hresult⟩ := Program.exists_of_run_map shake
    cases hresult
    have quiet := ((lymodemBuildAndSendBlock0_ensures pThis).run build).1
    have passes := @handshakeLoop_passes o pThis' ⟨0, true, false, 0⟩ s fuel _ t₄ rfl (show 0 < 10 by decide) rfl loop y
    rw [quiet, Nat.add_zero, Nat.zero_add] at passes
    rw [reads_append, reads_append, quiet, Nat.zero_add, Nat.zero_add, ← passes]
    constructor
    · rintro ⟨c', i, h, rest⟩
      cases h
      exact rest
    · exact fun rest => ⟨c, _, rfl, rest⟩

theorem lmodemWaitReceptionOf_run {c : UInt8} (run : (lmodemWaitReceptionOf c).run o i = (t, some bOk)) :
    (∃ c', awaited o (fun x => x = c) 10 i = (some c', j)) ↔ bOk = true ∧ j = i + reads t := by
  obtain ⟨a, asked, rfl⟩ := Program.exists_of_run_map run
  rw [awaited_of_run asked]
  cases a <;> simp [eq_comm]

def sentBytes : Option ℕ → UInt32
  | some n => n.toUInt32
  | none => -1

def emitDataAfter (x : Int32 × ModemContext) : Program UInt8 (Bool × UInt32 × ModemContext) :=
  if x.1.toUInt32 > 0 then lmodemWaitReceptionOf charC >>= fun bOk => .done (bOk, x.1.toUInt32, x.2)
  else .done (true, x.1.toUInt32, x.2)

theorem lymodemEmitData_eq (fuel : ℕ) (pThis : ModemContext) :
    lymodemEmitData fuel pThis true = lxmodemEmit fuel pThis >>= emitDataAfter := rfl

theorem emitDataAfter_run {n : Int32} {p : ModemContext}
    (run : (emitDataAfter (n, p)).run o i = (t, some (bOk, nbEmitted, pThis'))) :
    nbEmitted = n.toUInt32 ∧ (n.toUInt32 = 0 → bOk = true ∧ t = []) ∧
      (n.toUInt32 ≠ 0 → ∀ j, (∃ c, awaited o (fun x => x = charC) 10 i = (some c, j)) ↔
        bOk = true ∧ j = i + reads t) := by
  have hpos : n.toUInt32 > 0 ↔ n.toUInt32 ≠ 0 := UInt32.pos_iff_ne_zero
  simp only [emitDataAfter, hpos] at run
  by_cases h : n.toUInt32 = 0
  · rw [if_neg (by simpa using h)] at run
    obtain ⟨rfl, hresult⟩ := Prod.mk.inj run
    cases hresult
    exact ⟨rfl, fun _ => ⟨rfl, rfl⟩, fun hne => absurd h hne⟩
  · rw [if_pos h] at run
    obtain ⟨b, wait, hresult⟩ := Program.exists_of_run_map run
    cases hresult
    exact ⟨rfl, fun hz => absurd hz h, fun _ j => lmodemWaitReceptionOf_run wait⟩

theorem sent_ne_zero {ok : Bool} (hfile : file.length < 2147483648) (something : ¬ (ok = true ∧ file = [])) :
    (if ok then (paddedFile 1024 file).length.toUInt32 else -1) ≠ 0 := by
  cases ok with
  | false => exact show (-1 : UInt32) ≠ 0 by decide
  | true =>
    obtain ⟨pad, hpad, hpadded⟩ := @paddedFile_eq 1024 file (Or.inr rfl)
    have bytes : 0 < file.length := List.length_pos_iff.mpr fun vacant => something ⟨rfl, vacant⟩
    have length : (paddedFile 1024 file).length = file.length + pad := by simp [hpadded]
    have value : (paddedFile 1024 file).length.toUInt32.toNat = (paddedFile 1024 file).length :=
      UInt32.toNat_ofNat_of_lt' (show _ < 4294967296 by omega)
    rw [if_pos rfl, Ne, ← UInt32.toNat_inj, value, length]
    exact show ¬ file.length + pad = 0 by omega

theorem lymodemEmitData_passes (protocol : pThis.protocol = .ymodem) (loaded : pThis.ramfile.Loaded file)
    (run : (lymodemEmitData fuel pThis true).run o i = (t, some (bOk, nbEmitted, pThis'))) :
    ∃ sent, nbEmitted = sentBytes sent ∧ ∀ sent' j, DataPasses (lxmodemDecodePreambule pThis) o file i sent' j ↔
      bOk = true ∧ sent' = sent ∧ j = i + reads t := by
  have blksize : pThis.blksize = 1024 := if_pos (Or.inr protocol)
  rw [lymodemEmitData_eq] at run
  obtain ⟨t₁, ⟨n, p⟩, t₂, data, after, rfl⟩ := Program.exists_of_run_bind run
  rw [lxmodemEmit_eq] at data
  obtain ⟨t₃, a, t₄, asked, emit, rfl⟩ := Program.exists_of_run_bind data
  have first := awaited_of_run asked
  obtain ⟨rfl, settled, asks⟩ := emitDataAfter_run after
  rw [reads_append, reads_append]
  rw [reads_append, ← Nat.add_assoc] at asks
  cases a with
  | none =>
    obtain ⟨rfl, hresult⟩ := Prod.mk.inj emit
    cases hresult
    obtain ⟨rfl, rfl⟩ := settled rfl
    have silent : (awaited o (fun _ => true) 10 i).1 = none := by rw [first]
    have read : i + reads t₃ = i + 10 := by
      have h := awaited_eq_none silent
      rwa [first] at h
    refine ⟨some 0, rfl, fun sent' j => ?_⟩
    rw [dataPasses_unrequested silent, ← read]
    exact (and_iff_right rfl).symm
  | some c =>
    rw [emitAfter] at emit
    by_cases bad : lxmodemDecodePreambule pThis c = false
    · rw [if_pos bad] at emit
      obtain ⟨rfl, hresult⟩ := Prod.mk.inj emit
      cases hresult
      refine ⟨none, rfl, fun sent' j => ?_⟩
      simp only [Program.run_done, reads_sent, reads_nil, Nat.add_zero] at asks ⊢
      rw [dataPasses_refused first bad, asks (by decide) j, ← Nat.add_assoc]
      exact and_left_comm
    · rw [if_neg bad] at emit
      have good : lxmodemDecodePreambule pThis c = true := by simpa using bad
      obtain ⟨ok, ends, result⟩ := lxmodeSendDataBlocks_answers loaded emit
      rw [blksize] at ends result
      refine ⟨if ok then some (paddedFile 1024 file).length else none, ?_, fun sent' j => ?_⟩
      · rw [result]
        cases ok <;> rfl
      rw [dataPasses_ended first good ends, ← Nat.add_assoc, ← Nat.add_assoc]
      by_cases nothing : ok = true ∧ file = []
      · obtain ⟨rfl, rfl⟩ := nothing
        obtain ⟨rfl, rfl⟩ := settled result
        rw [if_pos ⟨rfl, rfl⟩, reads_nil, Nat.add_zero]
        exact (and_iff_right rfl).symm
      · have counted : n.toUInt32 ≠ 0 := by
          rw [result]
          exact sent_ne_zero loaded.length_lt nothing
        rw [if_neg nothing, asks counted j]
        exact and_left_comm

theorem lymodemEmitFile_ends (protocol : pThis.protocol = .ymodem) (loaded : pThis.ramfile.Loaded file)
    (run : (lymodemEmitFile fuel pThis).run o 0 = (t, some (bOk, v, nbEmitted, pThis'))) :
    ∃ sent, (bOk = true → nbEmitted = sentBytes sent) ∧ ∀ v' sent' j, BatchEnds pThis o file v' sent' j ↔
      bOk = true ∧ v' = v ∧ sent' = sent ∧ j = reads t := by
  obtain ⟨t₁, ⟨ok, v₁, p₁⟩, t₂, block0, later, rfl⟩ := Program.exists_of_run_bind run
  obtain ⟨⟨ok₂, nb₂, p₂⟩, data, hresult⟩ := Program.exists_of_run_map later
  cases hresult
  have passes := lymodemEmitBlock0_passes block0
  obtain ⟨setup, ramfile⟩ := (lymodemEmitBlock0_mode fuel pThis).run block0
  cases ok with
  | false =>
    obtain ⟨_, hresult⟩ := Prod.mk.inj data
    cases hresult
    refine ⟨none, fun h => (by cases h), fun v' sent' j => ?_⟩
    refine iff_of_false ?_ (fun h => by cases h.1)
    rintro ⟨i, first, _⟩
    cases ((passes _).mp first).1
  | true =>
    rw [Nat.zero_add] at data
    obtain ⟨sent, result, ends⟩ := lymodemEmitData_passes (setup.protocol ▸ protocol)
      (show p₁.ramfile.Loaded file by rw [ramfile]; exact loaded) data
    have accepts : lxmodemDecodePreambule p₁ = lxmodemDecodePreambule pThis := by
      funext c
      rw [lxmodemDecodePreambule, lxmodemDecodePreambule, setup.protocol, setup.opts]
    rw [accepts] at ends
    refine ⟨sent, fun _ => result, fun v' sent' j => ?_⟩
    rw [reads_append]
    constructor
    · rintro ⟨i, first, rest⟩
      cases ((passes _).mp first).2
      obtain ⟨hok, rfl, rfl⟩ := (ends sent' j).mp rest
      exact ⟨hok, rfl, rfl, rfl⟩
    · rintro ⟨hok, rfl, rfl, rfl⟩
      exact ⟨reads t₁, (passes _).mpr ⟨rfl, rfl⟩, (ends _ _).mpr ⟨hok, rfl, rfl⟩⟩

end Passes

section Halts

variable {pThis : ModemContext} {o : Peer UInt8}

theorem lmodemEmit_ymodem_run (pThis : ModemContext) {fuel : ℕ} {t : List (Event UInt8)} {bOk : Bool}
    {v : UInt8} {nbEmitted : UInt32} {pThis' : ModemContext}
    (h : (lymodemEmitFile fuel { pThis with protocol := .ymodem }).run o 0 =
      (t, some (bOk, v, nbEmitted, pThis'))) :
    ((lmodemEmit .ymodem fuel pThis).run o 0).2.isSome = true ↔
      (bOk = true → HandshakeEnds o 10 (fuel - 1) (v, reads t)) := by
  change ((lymodemEmit fuel { pThis with protocol := .ymodem }).run o 0).2.isSome = true ↔ _
  rw [lymodemEmit_eq, Program.run_bind_some h, Nat.zero_add]
  cases bOk with
  | false => exact iff_of_true rfl (fun h => by cases h)
  | true =>
    have hterm : (lymodemSendEndOfBach pThis').Terminates := trivial
    rw [lymodemEmitEndOfBach, if_pos rfl]
    simp only [bind_assoc, Program.pure_eq, Program.done_bind]
    rw [handshakeAfter_run hterm rfl]
    exact ⟨fun h _ => h, fun h => h trivial⟩

end Halts

/-- YMODEM emission returns exactly when its handshakes end: the one of block 0, and the one of the end
of the batch from the reply variable and the outcome at which it begins. -/
theorem lymodemEmit_halts_iff (pThis : ModemContext) (file : List UInt8)
    (h : pThis.ramfile.Loaded file) (o : Peer UInt8) :
    Halts (fun fuel => lmodemEmit .ymodem fuel pThis) o ↔
      (∀ c i, awaited o (fun c => c = charC) 10 0 = (some c, i) → ∃ N, HandshakeEnds o 10 N (0, i)) ∧
      (∀ v sent j, BatchEnds { pThis with protocol := .ymodem } o file v sent j →
        ∃ N, HandshakeEnds o 10 N (v, j)) := by
  have growing := growing_lymodemEmitFile { pThis with protocol := .ymodem }
  have first {fuel : ℕ} := @lymodemEmitBlock0_run o { pThis with protocol := .ymodem } fuel
  rw [halts_iff]
  constructor
  · rintro ⟨fuel, hrun⟩
    have hfile : ((lymodemEmitFile fuel { pThis with protocol := .ymodem }).run o 0).2.isSome = true :=
      Program.isSome_of_run_bind (by rw [← lymodemEmit_eq]; exact hrun)
    refine ⟨fun c i hc => ⟨_, first.mp (Program.isSome_of_run_bind hfile) c i hc⟩, ?_⟩
    intro v sent j begins
    obtain ⟨t, ⟨bOk, v', nbEmitted, p⟩, ran⟩ : ∃ t a, (lymodemEmitFile fuel { pThis with protocol := .ymodem }).run o 0 =
        (t, some a) := by
      obtain ⟨a, ha⟩ := Option.isSome_iff_exists.mp hfile
      exact ⟨_, a, Prod.ext rfl ha⟩
    obtain ⟨_, _, ends⟩ :=
      @lymodemEmitFile_ends { pThis with protocol := .ymodem } p o file fuel t bOk v' nbEmitted rfl h ran
    obtain ⟨hok, rfl, _, rfl⟩ := (ends v sent j).mp begins
    have halted := (lmodemEmit_ymodem_run pThis ran).mp hrun
    exact ⟨_, halted hok⟩
  · rintro ⟨hblock0, hbatch⟩
    obtain ⟨N₁, h₁⟩ : ∃ N, ∀ c i, awaited o (fun c => c = charC) 10 0 = (some c, i) →
        HandshakeEnds o 10 N (0, i) := by
      rcases hc : awaited o (fun c => c = charC) 10 0 with ⟨received, i⟩
      cases received with
      | none => exact ⟨0, by simp⟩
      | some c =>
        obtain ⟨N, hN⟩ := hblock0 c i hc
        refine ⟨N, ?_⟩
        rintro _ _ ⟨⟩
        exact hN
    have hfile := (@lymodemEmitFile_run { pThis with protocol := .ymodem } o file h
      (N₁ + 11 * blockCount 1024 file + 12) (show 11 * blockCount (ite _ _ _) file + 11 < _ by
        rw [if_pos (Or.inr rfl)]; omega)).mpr
      fun c i hc => (h₁ c i hc).mono (by omega)
    obtain ⟨⟨bOk, v, nbEmitted, pThis'⟩, hr⟩ := Option.isSome_iff_exists.mp hfile
    obtain ⟨sent, _, ends⟩ :=
      @lymodemEmitFile_ends { pThis with protocol := .ymodem } pThis' o file _ _ bOk v nbEmitted rfl h (Prod.ext rfl hr)
    obtain ⟨N₂, h₂⟩ : ∃ N, bOk = true → HandshakeEnds o 10 N (v, reads ((lymodemEmitFile
        (N₁ + 11 * blockCount 1024 file + 12) { pThis with protocol := .ymodem }).run o 0).1) := by
      cases bOk with
      | false => exact ⟨0, by simp⟩
      | true =>
        obtain ⟨N, hN⟩ := hbatch _ _ _ ((ends _ _ _).mpr ⟨rfl, rfl, rfl, rfl⟩)
        exact ⟨N, fun _ => hN⟩
    refine ⟨N₁ + 11 * blockCount 1024 file + 12 + N₂ + 1, (lmodemEmit_ymodem_run pThis
      ((growing _ _ (by omega)).run (Prod.ext rfl hr))).mpr fun hok => (h₂ hok).mono (by omega)⟩

def ymodemSender (file : List UInt8) : ModemContext :=
  let size := file.length.toUInt32
  let pThis := lmodemSetFileBuffer (lmodemSetLineBuffer (lmodemInit .lxmodem1k) (.fresh 0) 1029).1
    (.holding file 0) size
  let pThis := { pThis with ramfile := (lmodemBufferSetWriteOffset pThis.ramfile size).1 }
  lmodemMetadataSetFilesize
    (lmodemMetadataSetFilename (lmodemSetFilenameBuffer pThis (.fresh 0) 16) (.holding [97] 0)) size

def acknowledgedFile : List (List UInt8) := [[charC], [ACK], [charC], [ACK], [ACK], [charC], [ACK]]

theorem lymodemEmit_halts_acknowledged :
    Halts (fun fuel => lmodemEmit .ymodem fuel (ymodemSender [7])) (.scripted acknowledgedFile) := by
  have loaded : (ymodemSender [7]).ramfile.Loaded [7] := ⟨⟨by decide, by decide⟩, rfl⟩
  have answered {x : UInt8 × ℕ} (h : (handshakeRound (.scripted acknowledgedFile) x).1 = ACK) :
      ∃ N, HandshakeEnds (.scripted acknowledgedFile) 10 N x := ⟨1, settles_stop (Or.inl h)⟩
  refine (lymodemEmit_halts_iff (ymodemSender [7]) [7] loaded (.scripted acknowledgedFile)).mpr ⟨?_, ?_⟩
  · intro c i first
    cases (show _ = (some charC, 1) from rfl).symm.trans first
    exact answered rfl
  · intro v sent j begins
    have run : ((lymodemEmitFile 3 { ymodemSender [7] with protocol := .ymodem }).run
        (.scripted acknowledgedFile) 0).2.map (fun r => r.2.1) = some ACK := by
      decide +kernel
    have events : reads ((lymodemEmitFile 3 { ymodemSender [7] with protocol := .ymodem }).run
        (.scripted acknowledgedFile) 0).1 = 6 := by
      decide +kernel
    obtain ⟨⟨bOk, v', nbEmitted, p⟩, hr, hv'⟩ := Option.map_eq_some_iff.mp run
    obtain ⟨_, _, ends⟩ := @lymodemEmitFile_ends { ymodemSender [7] with protocol := .ymodem } p
      (.scripted acknowledgedFile) [7] 3 _ bOk v' nbEmitted rfl loaded (Prod.ext rfl hr)
    obtain ⟨_, hv, _, hj⟩ := (ends v sent j).mp begins
    rw [hv, hj, events]
    exact answered rfl

theorem lymodemEmit_hangs :
    (ymodemSender [7]).ramfile.Loaded [7] ∧
      ¬ Halts (fun fuel => lmodemEmit .ymodem fuel (ymodemSender [7])) (.scripted [[charC]]) := by
  refine ⟨⟨⟨by decide, by decide⟩, rfl⟩, fun h => ?_⟩
  obtain ⟨fuel, h⟩ := halts_iff.mp h
  have hfile : ((lymodemEmitFile fuel { ymodemSender [7] with protocol := .ymodem }).run
      (.scripted [[charC]]) 0).2.isSome = true :=
    Program.isSome_of_run_bind (by rw [← lymodemEmit_eq]; exact h)
  have hends := (lymodemEmitBlock0_run _ fuel).mp (Program.isSome_of_run_bind hfile) charC 1 rfl
  have silent (k : ℕ) : handshakeReply (.scripted [[charC]]) (0, 1) k = 0 :=
    handshakeReply_silent (fun j hj => Peer.scripted_silent hj (by decide)) k
  rcases hends with ⟨k, _, hack | hcan⟩ | hcount
  · rw [silent] at hack
    exact absurd hack (by decide)
  · rw [silent] at hcan
    exact absurd hcan (by decide)
  · have hnone : ∀ k ∈ List.range (fuel - 1),
        ¬ decide (handshakeReply (.scripted [[charC]]) (0, 1) k = NAK) = true := by
      intro k _
      rw [silent]
      decide
    have hzero := List.countP_eq_zero.mpr hnone
    omega

end LightModem
