import LightModem.Delivery
import LightModem.YmodemReceiver
import LightModem.YmodemSender

set_option autoImplicit false

namespace LightModem

open Interaction

def placeAfter (answers : List UInt8) : ℕ × ℕ :=
  answers.foldl (fun place a => if a = ACK then (place.1 + 1, 0) else (place.1, place.2 + 1)) (0, 0)

def Schedule.forward (schedule : Schedule) : Wire UInt8 := fun log frame =>
  let place := placeAfter (log.flatMap Label.consumed).tail
  (schedule place.1 place.2).onFrame frame

def Schedule.backward (schedule : Schedule) : Wire UInt8 := fun log answer =>
  match log.flatMap Label.delivered with
  | [] => answer
  | _ :: answers =>
    let place := placeAfter answers
    (schedule place.1 place.2).onAnswer answer

def AtPlace (i c : ℕ) (l r : List (Label UInt8)) : Prop :=
  ∃ preambule answers, l.flatMap Label.consumed = preambule :: answers ∧
    r.flatMap Label.delivered = preambule :: answers ∧ placeAfter answers = (i, c)

section Place

variable {i c : ℕ} {l r : List (Label UInt8)}

theorem placeAfter_concat (answers : List UInt8) (a : UInt8) :
    placeAfter (answers ++ [a]) = if a = ACK then ((placeAfter answers).1 + 1, 0)
      else ((placeAfter answers).1, (placeAfter answers).2 + 1) := by
  rw [placeAfter, List.foldl_append]
  rfl

theorem delivered_reads (reads : List (List UInt8)) :
    (reads.map Label.read).flatMap Label.delivered = [] := by
  simp [List.flatMap_map, Label.delivered]

theorem AtPlace.answered (h : AtPlace i c l r) (frame arrived answer : List UInt8)
    (reads : List (List UInt8)) (a : UInt8) {i' c' : ℕ}
    (next : (if a = ACK then (i + 1, 0) else (i, c + 1)) = (i', c')) :
    AtPlace i' c' (l ++ [.write frame arrived, .read [a]])
      (r ++ reads.map .read ++ [.write answer [a]]) := by
  obtain ⟨preambule, answers, hl, hr, place⟩ := h
  refine ⟨preambule, answers ++ [a], ?_, ?_, ?_⟩
  · simp [hl, Label.consumed]
  · rw [List.flatMap_append, List.flatMap_append, hr, delivered_reads]
    simp [Label.delivered]
  · rw [placeAfter_concat, place, next]

theorem Schedule.channel (schedule : Schedule) :
    Channel schedule.forward schedule.backward schedule AtPlace where
  sends := by
    rintro i c l r ⟨preambule, answers, hl, hr, place⟩ frame
    simp only [Schedule.forward, hl, List.tail_cons, place]
  answers := by
    rintro i c l r ⟨preambule, answers, hl, hr, place⟩ reads answer
    simp only [Schedule.backward, List.flatMap_append, hr, delivered_reads, List.append_nil, place]
  acknowledged := fun h frame arrived reads answer => h.answered frame arrived answer reads ACK rfl
  refused := fun h frame arrived reads answer => h.answered frame arrived answer reads NAK rfl

end Place

theorem compatible_xmodem {sender receiver : ModemContext} (hs : sender.protocol = .xmodem)
    (hr : receiver.protocol = .xmodem) (crc16 : receiver.crc16 = sender.crc16)
    (configured : receiver.Configured)
    (opts : sender.opts = receiver.opts ∨
      sender.opts = .lxmodem128WithCrc ∧ receiver.opts = .lxmodem1k) :
    Compatible sender receiver := by
  have hcrc : receiver.usesCrc = sender.usesCrc := by
    rw [ModemContext.usesCrc, ModemContext.usesCrc, hs, hr]
    rcases opts with h | ⟨h, h'⟩
    · rw [h]
    · rw [h, h']
      rfl
  refine ⟨crc16, fun header blksize kind => (hasCrc_of_kind configured kind).trans hcrc, ?_, ?_⟩
  · rw [ModemContext.blksize, ModemContext.blksize, hs, hr]
    rcases opts with h | ⟨h, h'⟩
    · rw [h]
    · rw [h, h']
      decide
  · simp only [lxmodemBuildAndSendPreambule, lxmodemDecodePreambule, hr, hs]
    rcases opts with h | ⟨h, h'⟩
    · rw [h]
      cases receiver.opts <;> exact ⟨_, rfl, by decide⟩
    · rw [h, h']
      exact ⟨_, rfl, by decide⟩

theorem xmodem_delivers (sender receiver : ModemContext) (file : List UInt8) (schedule : Schedule)
    (loaded : sender.ramfile.Loaded file) (crc16 : receiver.crc16 = sender.crc16)
    (configured : receiver.Configured)
    (opts : sender.opts = receiver.opts ∨
      sender.opts = .lxmodem128WithCrc ∧ receiver.opts = .lxmodem1k)
    (fresh : receiver.ramfile.writeOffset = 0) (capacity : receiver.ramfile.maxSize.toNat < 2147483648)
    (room : (paddedFile { sender with protocol := .xmodem }.blksize file).length <
      receiver.ramfile.maxSize.toNat)
    (recoverable : Recoverable { sender with protocol := .xmodem } file schedule) :
    ∃ pad < 1024, paddedFile { sender with protocol := .xmodem }.blksize file =
        file ++ List.replicate pad SUB ∧
      ∃ fuel₀, ∀ fuel ≥ fuel₀, Inevitable (Step (.ofWires schedule.forward schedule.backward))
        (fun s => ∃ (n : Int32) (sender' receiver' : ModemContext), s.Returned (n, sender') (n, receiver') ∧
          n.toInt = (file ++ List.replicate pad SUB).length ∧
          receiver'.ramfile.writeOffset.toNat = (file ++ List.replicate pad SUB).length ∧
          receiver'.ramfile.buffer.load 0 receiver'.ramfile.writeOffset.toNat =
            file ++ List.replicate pad SUB)
        (.start (lmodemEmit .xmodem fuel sender) (lmodemReceive .xmodem fuel receiver)) := by
  obtain ⟨pad, hpad, padded⟩ :=
    @paddedFile_eq _ file (blksize_eq { sender with protocol := .xmodem })
  refine ⟨pad, hpad, padded, 11 * blockCount { sender with protocol := .xmodem }.blksize file + 12, ?_⟩
  intro fuel hfuel
  have hw : receiver.ramfile.writeOffset.toNat = 0 := by rw [fresh]; rfl
  have writable : receiver.ramfile.Writable := ⟨by omega, capacity⟩
  have compatible : Compatible { sender with protocol := .xmodem } { receiver with protocol := .xmodem } :=
    compatible_xmodem rfl rfl crc16 configured opts
  have hroom : Room { sender with protocol := .xmodem } { receiver with protocol := .xmodem } file := by
    refine ⟨writable, ?_⟩
    change receiver.ramfile.writeOffset.toNat + _ < receiver.ramfile.maxSize.toNat
    omega
  obtain ⟨n, sender', receiver', l', r', steps, delivered⟩ :=
    @Compatible.delivers (Int32 × ModemContext) schedule { sender with protocol := .xmodem }
      { receiver with protocol := .xmodem } file schedule.forward schedule.backward AtPlace fuel fuel [] []
      .done .done compatible hroom loaded recoverable schedule.channel
      (fun p => ⟨p, [], rfl, rfl, rfl⟩) (fun p => rfl) (by omega) (by omega)
  rw [Program.bind_done, Program.bind_done] at steps
  refine Inevitable.of_steps (diamond_ofWires _ _) ?_ steps (.now ⟨n, sender', receiver', ⟨rfl, rfl⟩, ?_⟩)
  · rintro s ⟨n, sender', receiver', returned, _⟩ s'
    exact returned.no_step
  · have fits : receiver.ramfile.writeOffset.toNat +
        (paddedFile { sender with protocol := .xmodem }.blksize file).length ≤
        receiver.ramfile.maxSize.toNat := by omega
    have written := appended_writeOffset capacity fits
    have hresult := delivered.result
    rw [padded] at hresult written
    rw [delivered.ramfile, padded]
    refine ⟨hresult, by rw [written]; omega, ?_⟩
    rw [written, hw, Nat.zero_add, LmodemBuffer.appended, hw]
    exact Memory.load_store _ _ _

def twoFaults : Schedule := fun i c =>
  if i = 0 ∧ c = 0 then ⟨some (List.replicate 128 0 ++ [1]), false⟩
  else if i = 0 ∧ c = 1 then ⟨none, true⟩
  else .none

theorem twoFaults_recoverable : Recoverable (checksumSender [7]) [7] twoFaults where
  spared := by
    intro i c hi
    have count : blockCount (checksumSender [7]).blksize [7] = 1 := by decide
    have : i ≠ 0 := by omega
    simp [twoFaults, this]
  spoils := by
    intro i c bytes h
    unfold twoFaults at h
    split at h
    · rename_i place
      obtain ⟨rfl, rfl⟩ := place
      cases h
      exact ⟨by decide +kernel, by decide +kernel⟩
    · split at h <;> cases h
  consecutive := by
    intro i
    have later (j : ℕ) : twoFaults.faultsOn (j + 1) = 0 := by
      simp [Schedule.faultsOn, Schedule.faultsBefore, twoFaults, Impairment.faults, Impairment.none]
    cases i with
    | zero => decide
    | succ i => rw [later, later]; omega

theorem xmodem_delivers_twoFaults :
    ∃ fuel₀, ∀ fuel ≥ fuel₀, Inevitable (Step (.ofWires twoFaults.forward twoFaults.backward))
      (fun s => ∃ (n : Int32) (sender' receiver' : ModemContext),
        s.Returned (n, sender') (n, receiver') ∧ n.toInt = 128)
      (.start (lmodemEmit .xmodem fuel (checksumSender [7])) (lmodemReceive .xmodem fuel smallReceiver)) := by
  obtain ⟨pad, _, padded, fuel₀, h⟩ := xmodem_delivers (checksumSender [7]) smallReceiver [7] twoFaults
    ⟨⟨by decide, by decide⟩, rfl⟩ rfl rfl (Or.inl rfl) rfl (by decide) (by decide +kernel) twoFaults_recoverable
  have size : (([7] : List UInt8) ++ List.replicate pad SUB).length = 128 := by
    rw [← padded]
    decide +kernel
  refine ⟨fuel₀, fun fuel hfuel => (h fuel hfuel).mono ?_⟩
  rintro s ⟨n, sender', receiver', returned, result, _⟩
  exact ⟨n, sender', receiver', returned, by rw [result, size]; rfl⟩

end LightModem
