import LightModem.Emission

set_option autoImplicit false

namespace LightModem

open Interaction

def Acked (frame : List UInt8) (t : List (Event UInt8)) : Prop :=
  ∃ l r, t = l ++ .sent frame :: r ∧ .received [ACK] ∈ r ∧ writes r = []

def Copies (frame : List UInt8) (t : List (Event UInt8)) : Prop :=
  ∃ k, 1 ≤ k ∧ k ≤ 10 ∧ writes t = List.replicate k frame

structure Passed (pThis : ModemContext) (file : List UInt8) (i : ℕ)
    (segments : List (List (Event UInt8))) : Prop where
  length : segments.length = i
  copies : ∀ j (h : j < segments.length), Copies (fileFrame pThis file j) segments[j]
  acked : ∀ j (h : j < segments.length), Acked (fileFrame pThis file j) segments[j]

inductive Placed (pThis : ModemContext) (file : List UInt8) (i : ℕ) (t : List (Event UInt8))
    (s : LxmodeSendState) : Prop
  | sending (head : SendHead pThis file i s) (retry : s.retry < 10)
      (copies : writes t = List.replicate s.retry (fileFrame pThis file i))
      (unanswered : .received [ACK] ∉ t)
  | failed (finished : s.bFinished = true) (place : i ≤ blockCount pThis.blksize file)
      (result : s.emittedBytes = -1) (copies : Copies (fileFrame pThis file i) t)
      (unanswered : .received [ACK] ∉ t)
  | done (finished : s.bFinished = true) (place : i = blockCount pThis.blksize file)
      (result : s.emittedBytes.toNat = (paddedFile pThis.blksize file).length)
      (copies : Copies (fileFrame pThis file i) t) (acked : Acked (fileFrame pThis file i) t)

def Transmits (pThis : ModemContext) (file : List UInt8) (t : List (Event UInt8))
    (s : LxmodeSendState) : Prop :=
  ∃ i segments cur, t = segments.flatten ++ cur ∧ Passed pThis file i segments ∧
    Placed pThis file i cur s

section Transmits

variable {pThis : ModemContext} {file : List UInt8} {i : ℕ} {s s' : LxmodeSendState}
  {segments : List (List (Event UInt8))} {t t' cur : List (Event UInt8)} {a : Option UInt8}

theorem Passed.concat (h : Passed pThis file i segments) (hc : Copies (fileFrame pThis file i) t)
    (ha : Acked (fileFrame pThis file i) t) : Passed pThis file (i + 1) (segments ++ [t]) := by
  have hl := h.length
  refine ⟨by simp [hl], fun j hj => ?_, fun j hj => ?_⟩
  all_goals
    rw [List.length_append, List.length_singleton] at hj
    rcases Nat.lt_or_ge j segments.length with hlt | hge
  · rw [List.getElem_append_left hlt]
    exact h.copies j hlt
  · obtain rfl : j = i := by omega
    rw [List.getElem_append_right hge]
    simpa [hl] using hc
  · rw [List.getElem_append_left hlt]
    exact h.acked j hlt
  · obtain rfl : j = i := by omega
    rw [List.getElem_append_right hge]
    simpa [hl] using ha

theorem transmits_initial (h : pThis.ramfile.Loaded file) :
    Transmits pThis file [] (.initial pThis) :=
  ⟨0, [], [], rfl, ⟨rfl, by simp, by simp⟩,
    .sending (sendHead_initial h) (show 0 < 10 by decide) rfl (by simp)⟩

theorem acked_turn (cur : List (Event UInt8)) {frame : List UInt8}
    (ha : Awaits (fun _ => true) 10 t (some ACK)) : Acked frame (cur ++ .sent frame :: t) :=
  ⟨cur, t, rfl, (ha.received_iff ACK).mpr rfl, ha.writes_eq⟩

theorem Transmits.turn (hp : Passed pThis file i segments) (head : SendHead pThis file i s)
    (retry : s.retry < 10) (copies : writes cur = List.replicate s.retry (fileFrame pThis file i))
    (unanswered : .received [ACK] ∉ cur) (ha : Awaits (fun _ => true) 10 t a)
    (answered : Answered pThis file i s.retry a s') :
    Transmits pThis file (segments.flatten ++ cur ++ .sent (fileFrame pThis file i) :: t) s' := by
  have hwrites : writes (cur ++ .sent (fileFrame pThis file i) :: t) =
      List.replicate (s.retry + 1) (fileFrame pThis file i) := by
    rw [writes_append, writes_sent, ha.writes_eq, copies, List.replicate_succ']
  have hcopies : Copies (fileFrame pThis file i) (cur ++ .sent (fileFrame pThis file i) :: t) :=
    ⟨s.retry + 1, by omega, by omega, hwrites⟩
  have hunanswered (hne : a ≠ some ACK) :
      .received [ACK] ∉ cur ++ .sent (fileFrame pThis file i) :: t := by
    have hnot : .received [ACK] ∉ t := fun hmem => hne ((ha.received_iff ACK).mp hmem)
    simp [unanswered, hnot]
  rw [List.append_assoc]
  cases answered with
  | next hi head' hr =>
    refine ⟨i + 1, segments ++ [cur ++ .sent (fileFrame pThis file i) :: t], [], by simp,
      hp.concat hcopies (acked_turn cur ha), .sending head' (by omega) (by rw [hr]; rfl) (by simp)⟩
  | finished hi hf he _ =>
    exact ⟨i, segments, _, rfl, hp, .done hf hi he hcopies (acked_turn cur ha)⟩
  | again hne hg head' hr =>
    have hten : s.retry + 1 < 10 := by
      by_contra hge
      exact hg (Or.inl (by omega))
    exact ⟨i, segments, _, rfl, hp,
      .sending head' (by omega) (by rw [hwrites, hr]) (hunanswered hne)⟩
  | gaveUp hne hg hf he =>
    exact ⟨i, segments, _, rfl, hp, .failed hf head.place he hcopies (hunanswered hne)⟩

theorem lxmodeSendLoop_transmits (h : pThis.ramfile.Loaded file) (fuel : ℕ) :
    (lxmodeSendLoop fuel (.initial pThis)).Ensures
      (fun t s => Transmits pThis file t s ∧ s.bFinished = true) := by
  refine (ensures_whileLoop (Transmits pThis file) ?_ fuel (transmits_initial h)).mono
    fun t s ⟨ht, hf⟩ => ⟨ht, by simpa using hf⟩
  rintro t s ⟨i, segments, cur, rfl, hp, placed⟩ hrunning
  have running : s.bFinished = false := by simpa using hrunning
  cases placed with
  | sending head retry copies unanswered =>
    apply (lxmodeSendTurn_ensures h.length_lt head).mono
    rintro _ s' ⟨t', a, rfl, ha, answered⟩
    exact Transmits.turn hp head retry copies unanswered ha answered
  | failed finished _ _ _ _ => rw [running] at finished; cases finished
  | done finished _ _ _ _ => rw [running] at finished; cases finished

theorem lxmodeSendDataBlocks_ensures (h : pThis.ramfile.Loaded file) (fuel : ℕ) :
    (lxmodeSendDataBlocks fuel pThis).Ensures (fun t r => ∃ s, Transmits pThis file t s ∧
      s.bFinished = true ∧ r = (s.emittedBytes.toInt32, s.pThis)) := by
  rw [lxmodeSendDataBlocks, Program.ensures_bind]
  exact (lxmodeSendLoop_transmits h fuel).mono
    fun t s ⟨ht, hf⟩ => ⟨s, by rw [List.append_nil]; exact ht, hf, rfl⟩

theorem dataFrame_ne_EOT (crc16 : Crc16Context) (withCrc : Bool) (n : UInt8) (payload : List UInt8) :
    dataFrame crc16 withCrc n payload ≠ [EOT] := by
  intro h
  have hl := congrArg List.length h
  rw [dataFrame_length, List.length_singleton] at hl
  omega

theorem blockCount_pos (pThis : ModemContext) : 0 < blockCount pThis.blksize file ↔ file ≠ [] := by
  rw [lt_blockCount (blksize_eq pThis), Nat.zero_mul, List.length_pos_iff]

theorem fileFrame_eq_EOT : fileFrame pThis file i = [EOT] ↔ ¬ i < blockCount pThis.blksize file := by
  rw [fileFrame]
  split
  · simp [*, dataFrame_ne_EOT]
  · simp [*]

theorem Passed.no_EOT (h : Passed pThis file i segments) (hi : i ≤ blockCount pThis.blksize file) :
    .sent [EOT] ∉ segments.flatten := by
  intro hmem
  obtain ⟨segment, hsegment, hmem⟩ := List.mem_flatten.mp hmem
  obtain ⟨j, hj, rfl⟩ := List.mem_iff_getElem.mp hsegment
  obtain ⟨k, _, _, hk⟩ := h.copies j hj
  have hframe := mem_writes.mpr hmem
  rw [hk] at hframe
  have hEOT := (List.eq_of_mem_replicate hframe).symm
  have hl := h.length
  exact fileFrame_eq_EOT.mp hEOT (by omega)

theorem append_cons_of_not_mem {α : Type} {a b l r : List α} {x : α} (hx : x ∉ a)
    (h : a ++ b = l ++ x :: r) : ∃ l', b = l' ++ x :: r := by
  rcases List.append_eq_append_iff.mp h with ⟨c, _, hb⟩ | ⟨c, ha, hr⟩
  · exact ⟨c, hb⟩
  · cases c with
    | nil => exact ⟨[], hr.symm⟩
    | cons y c =>
      obtain ⟨rfl, _⟩ := List.cons.inj hr
      exact absurd (by simp [ha]) hx

theorem Copies.sent {frame : List UInt8} (h : Copies frame t) : .sent frame ∈ t := by
  obtain ⟨k, hk, _, hw⟩ := h
  apply mem_writes.mp
  rw [hw]
  exact List.mem_replicate.mpr ⟨by omega, rfl⟩

end Transmits

structure Confirmed (pThis : ModemContext) (file : List UInt8) (t : List (Event UInt8)) : Prop where
  blocks : ∀ i < blockCount pThis.blksize file, .sent (dataFrame pThis.crc16 pThis.usesCrc
    (UInt8.ofNat (i + 1)) (blockPayload pThis.blksize file i)) ∈ t
  endOfFile : ∃ l r, t = l ++ .sent [EOT] :: r ∧ .received [ACK] ∈ r

structure Transmitted (pThis : ModemContext) (file : List UInt8) (t : List (Event UInt8))
    (emittedBytes : UInt32) : Prop where
  segments : ∃ segments : List (List (Event UInt8)), t = segments.flatten ∧ segments ≠ [] ∧
    segments.length ≤ blockCount pThis.blksize file + 1 ∧
    (∀ i (h : i < segments.length), Copies (fileFrame pThis file i) segments[i]) ∧
    (∀ i (h : i + 1 < segments.length), Acked (fileFrame pThis file i) segments[i])
  result : Confirmed pThis file t ∧ emittedBytes.toNat = (paddedFile pThis.blksize file).length ∨
    (∀ l r, t = l ++ .sent [EOT] :: r → .received [ACK] ∉ r) ∧ emittedBytes = -1

theorem Transmits.transmitted {pThis : ModemContext} {file : List UInt8} {t : List (Event UInt8)}
    {s : LxmodeSendState} (h : Transmits pThis file t s) (hf : s.bFinished = true) :
    Transmitted pThis file t s.emittedBytes := by
  obtain ⟨i, segments, cur, rfl, hp, placed⟩ := h
  have hl := hp.length
  have hflat : (segments ++ [cur]).flatten = segments.flatten ++ cur := by simp
  have hcopies (hc : Copies (fileFrame pThis file i) cur) (j : ℕ) (hj : j < (segments ++ [cur]).length) :
      Copies (fileFrame pThis file j) (segments ++ [cur])[j] := by
    rw [List.length_append, List.length_singleton] at hj
    rcases Nat.lt_or_ge j segments.length with hlt | hge
    · rw [List.getElem_append_left hlt]
      exact hp.copies j hlt
    · obtain rfl : j = i := by omega
      rw [List.getElem_append_right hge]
      simpa [hl] using hc
  have hacked (j : ℕ) (hj : j + 1 < (segments ++ [cur]).length) :
      Acked (fileFrame pThis file j) (segments ++ [cur])[j] := by
    rw [List.length_append, List.length_singleton] at hj
    rw [List.getElem_append_left (by omega)]
    exact hp.acked j (by omega)
  cases placed with
  | sending head _ _ _ =>
    rw [head.running] at hf
    cases hf
  | failed finished place result copies unanswered =>
    refine ⟨⟨segments ++ [cur], hflat.symm, by simp, by simp [hl, place], hcopies copies, hacked⟩,
      Or.inr ⟨fun l r hlr hack => ?_, result⟩⟩
    obtain ⟨l', rfl⟩ := append_cons_of_not_mem (hp.no_EOT place) hlr
    exact unanswered (by simp [hack])
  | done finished place result copies acked =>
    refine ⟨⟨segments ++ [cur], hflat.symm, by simp, by simp [hl, place], hcopies copies, hacked⟩,
      Or.inl ⟨⟨fun j hj => ?_, ?_⟩, result⟩⟩
    · have hj' : j < segments.length := by omega
      have hsent := (hp.copies j hj').sent
      rw [fileFrame, if_pos hj] at hsent
      exact List.mem_append_left _ (List.mem_flatten.mpr ⟨_, List.getElem_mem hj', hsent⟩)
    · obtain ⟨l, r, rfl, hr, _⟩ := acked
      rw [fileFrame_eq_EOT.mpr (by omega)]
      exact ⟨segments.flatten ++ l, r, by simp, hr⟩

section Termination

variable {pThis : ModemContext} {file : List UInt8} {i m : ℕ} {s s' : LxmodeSendState} {a : Option UInt8}

theorem lxmodeSendTurn_terminates (hfile : file.length < 2147483648) (h : SendHead pThis file i s) :
    (lxmodeSendTurn s).Terminates := by
  obtain ⟨answered, hturn, _⟩ := lxmodeSendTurn_eq hfile h
  rw [hturn]
  exact (getcharWithin_terminates _ _).bind fun _ => trivial

def SendBound (pThis : ModemContext) (file : List UInt8) (m : ℕ) (s : LxmodeSendState) : Prop :=
  s.bFinished = true ∨ ∃ i, SendHead pThis file i s ∧
    11 * (blockCount pThis.blksize file - i) + (10 - s.retry) < m

theorem Answered.bound (h : Answered pThis file i s.retry a s')
    (hm : 11 * (blockCount pThis.blksize file - i) + (10 - s.retry) < m) :
    ∃ m' < m, SendBound pThis file m' s' := by
  cases h with
  | next hi head hr => exact ⟨m - 1, by omega, Or.inr ⟨i + 1, head, by omega⟩⟩
  | finished hi hf he _ => exact ⟨0, by omega, Or.inl hf⟩
  | again ha hg head hr =>
    have hten : s.retry + 1 < 10 := by
      by_contra hge
      exact hg (Or.inl (by omega))
    exact ⟨m - 1, by omega, Or.inr ⟨i, head, by omega⟩⟩
  | gaveUp ha hg hf he => exact ⟨0, by omega, Or.inl hf⟩

theorem lxmodeSendDataBlocks_terminates (h : pThis.ramfile.Loaded file) {fuel : ℕ}
    (hfuel : 11 * blockCount pThis.blksize file + 11 < fuel) :
    (lxmodeSendDataBlocks fuel pThis).Terminates := by
  have start : SendBound pThis file (11 * blockCount pThis.blksize file + 11) (.initial pThis) :=
    Or.inr ⟨0, sendHead_initial h, by simp [LxmodeSendState.initial]⟩
  refine (terminates_whileLoop (SendBound pThis file) ?_ ?_ start hfuel).bind fun _ => trivial
  all_goals
    intro m s hm hrunning
    have running : s.bFinished = false := by simpa using hrunning
    rcases hm with hf | ⟨i, head, hm⟩
    · rw [running] at hf
      cases hf
  · exact lxmodeSendTurn_terminates h.length_lt head
  · exact (lxmodeSendTurn_ensures h.length_lt head).mono
      fun t s' ⟨_, a, _, _, answered⟩ => answered.bound hm

end Termination

def checksumSender (file : List UInt8) : ModemContext :=
  let pThis := lmodemSetFileBuffer (lmodemSetLineBuffer (lmodemInit .lxmodem128WithChksum) (.fresh 0) 132).1
    (.holding file 0) file.length.toUInt32
  { pThis with ramfile := (lmodemBufferSetWriteOffset pThis.ramfile file.length.toUInt32).1 }

end LightModem
