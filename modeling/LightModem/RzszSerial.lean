import LightModem.ReadBounds
import LightModem.RzszReception
import LightModem.Serial
import LightModem.Success

set_option autoImplicit false

namespace LightModem

open Interaction

section Sent

variable {pThis : ModemContext} {file : List UInt8} {t : List (Event UInt8)} {s : LxmodeSendState}

theorem Transmits.written (h : Transmits pThis file t s) (finished : s.bFinished = true) : writes t ≠ [] := by
  obtain ⟨i, segments, cur, rfl, _, placed⟩ := h
  have copies : Copies (fileFrame pThis file i) cur := by
    cases placed with
    | sending head _ _ _ =>
      rw [head.running] at finished
      cases finished
    | failed _ _ _ copies _ => exact copies
    | done _ _ _ copies _ => exact copies
  have sent := mem_writes.mpr (List.mem_append_right segments.flatten copies.sent)
  exact List.ne_nil_of_mem sent

theorem lxmodemEmit_tells (h : pThis.ramfile.Loaded file) (small : file.length < 2147482624) (fuel : ℕ) :
    (lxmodemEmit fuel pThis).Ensures fun t r => r.1 ≥ 0 ↔ Confirmed pThis file t ∨ writes t = [] := by
  rw [lxmodemEmit_eq, Program.ensures_bind]
  refine (getcharWithin_ensures (fun _ => true) 10).mono ?_
  intro t a awaits
  have quiet : writes t = [] := awaits.writes_eq
  have noEOT : .sent [EOT] ∉ t := by
    rw [← mem_writes, quiet]
    exact List.not_mem_nil
  cases a with
  | none =>
    change (0 : Int32) ≥ 0 ↔ _
    rw [List.append_nil]
    exact iff_of_true (by decide) (Or.inr quiet)
  | some preambule =>
    change (if lxmodemDecodePreambule pThis preambule = false then _ else _ :
      Program UInt8 (Int32 × ModemContext)).Ensures _
    split
    · change (-1 : Int32) ≥ 0 ↔ _
      refine iff_of_false (by decide) ?_
      rintro (confirmed | none)
      · have sent := confirmed.sent
        simp [noEOT] at sent
      · simp [quiet] at none
    · refine (lxmodeSendDataBlocks_ensures h fuel).mono ?_
      rintro t' _ ⟨s, transmits, finished, rfl⟩
      have written := transmits.written finished
      have padded := @paddedFile_length_lt _ file (blksize_eq pThis)
      rcases (transmits.transmitted finished).result with ⟨confirmed, bytes⟩ | ⟨unanswered, failed⟩
      · refine iff_of_true (result_nonnegative (by omega)) (Or.inl ?_)
        have whole := confirmed.append t []
        rwa [List.append_nil] at whole
      · refine iff_of_false (result_negative failed) ?_
        rintro (confirmed | none)
        · obtain ⟨l, r, split, acked⟩ := confirmed.endOfFile
          obtain ⟨l', rfl⟩ := append_cons_of_not_mem noEOT split
          exact unanswered l' r rfl acked
        · rw [writes_append, List.append_eq_nil_iff] at none
          exact written none.2

end Sent

section Serial

variable {σ : Type} {system : System} {argv : List Found} {options : Options} {fileStat : FileStat}
  {datafile : Memory UInt8} {file : List UInt8}

theorem returns_onSerial {α : Type} {p : Program UInt8 α} {Q : List (Event UInt8) → α → Prop} {bound : ℕ}
    (terminates : p.Terminates) (ensures : p.Ensures Q)
    (cost : p.Ensures fun t _ => costOf (· + 2) t ≤ bound) (fd : FileDescriptor σ) (s : σ) :
    ∃ t a s' calls, p.onDevice (serialDevice fd) s = ((t, some a), s') ∧
      p.onDevice (serialDevice fd.logged) (s, []) = ((t, some a), (s', calls)) ∧ Q t a ∧ calls.length ≤ bound := by
  obtain ⟨t, a, run⟩ := terminates.onDevice (serialDevice fd.logged) (s, [])
  have same := onDevice_logged fd p (s, [])
  have calls := onDevice_calls fd p s
  rw [run] at same calls
  exact ⟨t, a, _, _, same, Prod.ext run rfl, ensures.onDevice run, calls.trans (cost.onDevice run)⟩

theorem RzszReceives.terminates (receives : RzszReceives system argv options) (xmodem : options.protocol = 0)
    {fuel : ℕ} (hfuel : 11 * bufferFileSize + 11 < fuel) : (rzsz fuel system argv).Terminates := by
  rw [receives.xmodem xmodem]
  exact (lxmodemReceive_terminates (rzszReceiver_writable options) hfuel).bind fun _ => trivial

theorem RzszReceives.cost (receives : RzszReceives system argv options) (xmodem : options.protocol = 0) (fuel : ℕ) :
    (rzsz fuel system argv).Ensures fun t _ => costOf (· + 2) t ≤ 1033 * 81920 := by
  rw [receives.xmodem xmodem, Program.ensures_bind]
  have written : (rzszReceiver options).ramfile.writeOffset.toNat = 0 := rfl
  have size : (rzszReceiver options).ramfile.maxSize.toNat = 1048576 := rfl
  have block (n : ℕ) (hn : n ≤ 1028) : 1 + 2 + (n + 2) ≤ 1033 := by omega
  refine (@lxmodemReceive_cost (· + 2) 1033 _ (rzszReceiver_writable options) block fuel).mono ?_
  intro t x bound
  rw [written, size] at bound
  rwa [Program.ensures_done, List.append_nil]

theorem RzszSends.terminates (sends : RzszSends system argv options fileStat datafile file)
    (xmodem : options.protocol = 0) (short : file.length < 2147483648) {fuel : ℕ}
    (hfuel : 11 * blockCount (rzszReady options).blksize file + 11 < fuel) :
    (rzsz fuel system argv).Terminates := by
  rw [sends.xmodem xmodem]
  exact (@lxmodemEmit_terminates (rzszXmodemSender options fileStat datafile) _ (sends.loaded short) _ hfuel).bind
    fun _ => trivial

theorem RzszSends.cost (sends : RzszSends system argv options fileStat datafile file)
    (xmodem : options.protocol = 0) (short : file.length < 2147483648) (fuel : ℕ) :
    (rzsz fuel system argv).Ensures fun t _ =>
      costOf (· + 2) t ≤ 30 * (10 * blockCount (rzszReady options).blksize file + 11) := by
  rw [sends.xmodem xmodem, Program.ensures_bind]
  refine (@lxmodemEmit_cost (· + 2) (rzszXmodemSender options fileStat datafile) _ (sends.loaded short) fuel).mono ?_
  intro t x bound
  rwa [Program.ensures_done, List.append_nil]

theorem RzszSends.tells (sends : RzszSends system argv options fileStat datafile file)
    (xmodem : options.protocol = 0) (small : file.length < 2147482624) (fuel : ℕ) :
    (rzsz fuel system argv).Ensures fun t outcome =>
      outcome.exitCode = .success ↔ Confirmed (rzszReady options) file t ∨ writes t = [] := by
  rw [sends.xmodem xmodem, Program.ensures_bind]
  refine (@lxmodemEmit_tells (rzszXmodemSender options fileStat datafile) _ (sends.loaded (by omega)) small
    fuel).mono ?_
  rintro t ⟨n, pThis'⟩ result
  have success : (rzszSent n).exitCode = .success ↔ n ≥ 0 := by
    by_cases h : n ≥ 0 <;> simp [rzszSent, h]
  rw [Program.ensures_done, List.append_nil, success, result]
  exact or_congr_left ⟨fun h => ⟨h.blocks, h.endOfFile⟩, fun h => ⟨h.blocks, h.endOfFile⟩⟩

end Serial

theorem rzsz_serial_receives {σ : Type} (fd : FileDescriptor σ) (s : σ) (system : System) (argv : List Found)
    (options : Options) (receives : RzszReceives system argv options) (xmodem : options.protocol = 0) (fuel : ℕ)
    (hfuel : 11 * bufferFileSize + 11 < fuel) :
    ∃ t outcome s' calls, (rzsz fuel system argv).onDevice (serialDevice fd) s = ((t, some outcome), s') ∧
      (rzsz fuel system argv).onDevice (serialDevice fd.logged) (s, []) = ((t, some outcome), (s', calls)) ∧
      RzszLeaves options t outcome ∧ calls.length ≤ 1033 * 81920 :=
  returns_onSerial (receives.terminates xmodem hfuel) (receives.leaves fuel) (receives.cost xmodem fuel) fd s

def brokenLine : FileDescriptor Unit where
  read := fun s _ => (.error, s)
  write := fun s _ => (-1, s)

theorem rzsz_serial_receives_broken :
    ∃ t outcome s' calls, (rzsz (11 * bufferFileSize + 12) (sampleSystem []) (xmodemArgv .rx)).onDevice
        (serialDevice brokenLine) () = ((t, some outcome), s') ∧
      (rzsz (11 * bufferFileSize + 12) (sampleSystem []) (xmodemArgv .rx)).onDevice
        (serialDevice brokenLine.logged) ((), []) = ((t, some outcome), (s', calls)) ∧
      RzszLeaves (.given (xmodemArgv .rx)) t outcome ∧ calls.length ≤ 1033 * 81920 :=
  rzsz_serial_receives brokenLine () (sampleSystem []) (xmodemArgv .rx) (.given (xmodemArgv .rx))
    (sampleSystem_receives (by decide) (by decide)) (by decide) (11 * bufferFileSize + 12) (by decide)

theorem rzsz_serial_sends {σ : Type} (fd : FileDescriptor σ) (s : σ) (system : System) (argv : List Found)
    (options : Options) (fileStat : FileStat) (datafile : Memory UInt8) (file : List UInt8)
    (sends : RzszSends system argv options fileStat datafile file) (xmodem : options.protocol = 0)
    (small : file.length < 2147482624) (fuel : ℕ)
    (hfuel : 11 * blockCount (rzszReady options).blksize file + 11 < fuel) :
    ∃ t outcome s' calls, (rzsz fuel system argv).onDevice (serialDevice fd) s = ((t, some outcome), s') ∧
      (rzsz fuel system argv).onDevice (serialDevice fd.logged) (s, []) = ((t, some outcome), (s', calls)) ∧
      (outcome.exitCode = .success ↔ Confirmed (rzszReady options) file t ∨ writes t = []) ∧
      calls.length ≤ 30 * (10 * blockCount (rzszReady options).blksize file + 11) :=
  returns_onSerial (sends.terminates xmodem (by omega) hfuel) (sends.tells xmodem small fuel)
    (sends.cost xmodem (by omega) fuel) fd s

theorem rzsz_serial_sends_broken :
    ∃ t outcome s' calls, (rzsz 23 (sampleSystem [7]) (xmodemArgv .tx)).onDevice
        (serialDevice brokenLine) () = ((t, some outcome), s') ∧
      (rzsz 23 (sampleSystem [7]) (xmodemArgv .tx)).onDevice
        (serialDevice brokenLine.logged) ((), []) = ((t, some outcome), (s', calls)) ∧
      (outcome.exitCode = .success ↔ Confirmed (rzszReady (.given (xmodemArgv .tx))) [7] t ∨ writes t = []) ∧
      calls.length ≤ 30 * (10 * blockCount (rzszReady (.given (xmodemArgv .tx))).blksize [7] + 11) :=
  rzsz_serial_sends brokenLine () (sampleSystem [7]) (xmodemArgv .tx) (.given (xmodemArgv .tx))
    ⟨1, 1000000000, 33188⟩ (.holding [7] 0) [7]
    (sampleSystem_sends rfl rfl (by decide) (by decide)) (by decide) (by decide) 23 (by decide +kernel)

end LightModem
