import LightModem.Storage
import LightModem.YmodemReceiver

set_option autoImplicit false

namespace LightModem

open Interaction

inductive NextFileOutcome
  | nothing
  | noise (header : UInt8)
  | frame (header : UInt8) (body : List UInt8)

def nextFileSize (header : UInt8) : ℕ := if header = SOH then 128 + 2 + 2 else 1024 + 2 + 2

/-- The first byte that is not the header of a block broken off, or the first whole block, that a wait of
some attempts gets from the outcomes from the `i`-th on. -/
def nextFileOutcome (o : Peer UInt8) : ℕ → ℕ → NextFileOutcome
  | 0, _ => .nothing
  | attempts + 1, i => match (o i 1).data? with
    | none => nextFileOutcome o attempts (i + 1)
    | some data =>
      if data.headD 0 = SOH ∨ data.headD 0 = STX then
        match (o (i + 1) (nextFileSize (data.headD 0))).data? with
        | none => nextFileOutcome o attempts (i + 2)
        | some body => .frame (data.headD 0) body
      else .noise (data.headD 0)

def IsLastBlock0 (pThis : ModemContext) (body : List UInt8) : Prop :=
  ∃ payload, body = frameBody pThis.crc16 true 0 payload ∧ payload.head? = some 0

def AnswersNextFile (pThis : ModemContext) (t : List (Event UInt8)) : Prop :=
  ([ACK] ∈ writes t → ∃ f ∈ framesRead t, IsLastBlock0 pThis f.2) ∧
    ([CAN, CAN] ∈ writes t → ∃ f ∈ framesRead t, (f.2.drop 2).head? ≠ some 0)

def NextFileOutcome.Readable (pThis : ModemContext) : NextFileOutcome → Prop
  | .nothing => True
  | .noise _ => False
  | .frame _ body => (body.drop 2).head? = some 0 → IsLastBlock0 pThis body

def NextFileOutcome.Explains (t : List (Event UInt8)) : NextFileOutcome → Prop
  | .nothing => framesRead t = [] ∧ writes t = []
  | .noise _ => framesRead t = [] ∧ (writes t = [[ACK]] ∨ writes t = [[CAN, CAN]])
  | .frame header body => framesRead t = [(header, body)] ∧
      writes t = if (body.drop 2).head? = some 0 then [[ACK]] else [[CAN, CAN]]

section NextFile

variable {pThis : ModemContext} {o : Peer UInt8} {t : List (Event UInt8)}

theorem lymodemAnswerNextFile_eq (pThis : ModemContext) :
    lymodemAnswerNextFile pThis =
      .write (if pThis.blkBuffer.buffer 2 = 0 then [ACK] else [CAN, CAN]) (.done pThis) := by
  rw [lymodemAnswerNextFile]
  split <;> rfl

def lymodemNextFileChar (pThis : ModemContext) (attempts : ℕ) (header : UInt8) : Program UInt8 ModemContext :=
  if header = SOH ∨ header = STX then
    .read (nextFileSize header) (fun r => match r with
      | .received body _ => lymodemAnswerNextFile (pThis.fill body)
      | .timedOut written _ => lymodemWaitNextFile (pThis.fill written) attempts)
  else lymodemAnswerNextFile pThis

theorem lymodemWaitNextFile_succ (pThis : ModemContext) (attempts : ℕ) :
    lymodemWaitNextFile pThis (attempts + 1) = .read 1 (fun r => match r with
      | .received data _ => lymodemNextFileChar pThis attempts (data.headD 0)
      | .timedOut _ _ => lymodemWaitNextFile pThis attempts) := by
  rw [lymodemWaitNextFile, getchars_bind]
  congr 1
  funext r
  cases r with
  | timedOut written size => rfl
  | received data size =>
    change (if _ then _ else _) = lymodemNextFileChar pThis attempts (data.headD 0)
    rw [lymodemNextFileChar]
    congr 1
    rw [getchars_bind]
    congr 1
    funext r
    cases r <;> rfl

theorem NextFileOutcome.Explains.congr {outcome : NextFileOutcome} {t' : List (Event UInt8)}
    (h : outcome.Explains t) (frames : framesRead t' = framesRead t) (same : writes t' = writes t) :
    outcome.Explains t' := by
  cases outcome with
  | nothing => exact ⟨frames.trans h.1, same.trans h.2⟩
  | noise header =>
    refine ⟨frames.trans h.1, ?_⟩
    rw [same]
    exact h.2
  | frame header body => exact ⟨frames.trans h.1, same.trans h.2⟩

theorem fill_two {header : UInt8} {body : List UInt8} (size : body.length = nextFileSize header) :
    (pThis.fill body).blkBuffer.buffer 2 = 0 ↔ (body.drop 2).head? = some 0 := by
  have hlen : 2 < body.length := by
    rw [size, nextFileSize]
    split <;> omega
  have hcell : (pThis.fill body).blkBuffer.buffer 2 = body[2] := Memory.store_zero _ hlen
  rw [hcell, List.head?_drop, List.getElem?_eq_getElem hlen, Option.some.injEq]

theorem lymodemWaitNextFile_run (o : Peer UInt8) (pThis : ModemContext) (attempts i : ℕ) :
    ∃ t pThis', (lymodemWaitNextFile pThis attempts).run o i = (t, some pThis') ∧
      (nextFileOutcome o attempts i).Explains t := by
  induction attempts generalizing pThis i with
  | zero => exact ⟨[], pThis, rfl, rfl, rfl⟩
  | succ attempts ih =>
    rw [lymodemWaitNextFile_succ, Program.run_read, nextFileOutcome]
    cases o i 1 with
    | timedOut written size =>
      obtain ⟨t, pThis', run, explains⟩ := ih pThis (i + 1)
      simp only [Reply.data?, run]
      exact ⟨_, _, rfl, explains.congr rfl rfl⟩
    | received data size =>
      obtain ⟨header, rfl⟩ := List.length_eq_one_iff.mp size
      have hheader : [header].headD 0 = header := rfl
      simp only [Reply.data?, lymodemNextFileChar]
      rw [hheader]
      by_cases announces : header = SOH ∨ header = STX
      · rw [if_pos announces, if_pos announces, Program.run_read]
        cases o (i + 1) (nextFileSize header) with
        | timedOut written size' =>
          obtain ⟨t, pThis', run, explains⟩ := ih (pThis.fill written) (i + 2)
          simp only [run]
          exact ⟨_, _, rfl, explains.congr rfl rfl⟩
        | received body size' =>
          simp only [lymodemAnswerNextFile_eq, Program.run_write, Program.run_done, fill_two size']
          refine ⟨_, _, rfl, rfl, ?_⟩
          split <;> rfl
      · rw [if_neg announces, if_neg announces]
        simp only [lymodemAnswerNextFile_eq, Program.run_write, Program.run_done]
        refine ⟨_, _, rfl, rfl, ?_⟩
        split
        · exact Or.inl rfl
        · exact Or.inr rfl

theorem NextFileOutcome.Explains.answers_iff {outcome : NextFileOutcome} (h : outcome.Explains t)
    {preambule : UInt8} (hack : preambule ≠ ACK) :
    AnswersNextFile pThis (.sent [preambule] :: t) ↔ outcome.Readable pThis := by
  have frames : framesRead (.sent [preambule] :: t) = framesRead t := rfl
  rw [AnswersNextFile, frames, writes_sent]
  cases outcome with
  | nothing =>
    rw [h.1, h.2]
    simp [NextFileOutcome.Readable, Ne.symm hack]
  | noise header =>
    refine iff_of_false ?_ id
    rw [h.1]
    rintro ⟨ack, cancel⟩
    rcases h.2 with hw | hw
    · obtain ⟨f, hf, _⟩ := ack (by rw [hw]; simp)
      cases hf
    · obtain ⟨f, hf, _⟩ := cancel (by rw [hw]; simp)
      cases hf
  | frame header body =>
    rw [h.1, h.2, NextFileOutcome.Readable]
    split
    · next hzero => simp [hzero, Ne.symm hack]
    · next hzero =>
      rw [List.head?_drop] at hzero
      simp [hzero, Ne.symm hack]

end NextFile

/-- The answer at the end of a batch is right exactly when nothing comes or a whole block, which is an
intact block 0 if its data starts with NUL. -/
theorem lymodemBlockNextFile_answers_iff (pThis : ModemContext) (o : Peer UInt8) :
    ∃ t pThis', (lymodemBlockNextFile pThis).run o 0 = (t, some pThis') ∧
      (AnswersNextFile pThis t ↔ (nextFileOutcome o 10 0).Readable pThis) := by
  obtain ⟨t, pThis', run, explains⟩ := lymodemWaitNextFile_run o pThis 10 0
  obtain ⟨p, hack, hsend⟩ : ∃ p, p ≠ ACK ∧ lxmodemBuildAndSendPreambule pThis = putchars [p] := by
    rw [lxmodemBuildAndSendPreambule]
    cases pThis.protocol <;> cases pThis.opts <;> exact ⟨_, by decide, rfl⟩
  refine ⟨.sent [p] :: t, pThis', ?_, explains.answers_iff hack⟩
  rw [lymodemBlockNextFile, hsend, putchars_bind, Program.run_write, run]

theorem lymodemBlockNextFile_misanswers :
    ∃ t pThis', (lymodemBlockNextFile smallReceiver).run (.scripted [[EOT]]) 0 = (t, some pThis') ∧
      ¬ AnswersNextFile smallReceiver t := by
  have events : ((lymodemBlockNextFile smallReceiver).run (.scripted [[EOT]]) 0).1 =
      [.sent [NAK], .received [EOT], .sent [ACK]] := by
    decide +kernel
  have returns : ((lymodemBlockNextFile smallReceiver).run (.scripted [[EOT]]) 0).2.isSome = true := by
    decide +kernel
  obtain ⟨pThis', h⟩ := Option.isSome_iff_exists.mp returns
  refine ⟨_, pThis', Prod.ext events h, ?_⟩
  rintro ⟨ack, _⟩
  obtain ⟨f, hf, _⟩ := ack (by simp)
  exact absurd hf (by simp [framesRead])

end LightModem
