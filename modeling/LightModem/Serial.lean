import LightModem.Device
import Mathlib.Data.Int.Notation

set_option autoImplicit false

/-! `serial.c`: reading from and writing to a serial device, with the calls to the system as its ground. -/

namespace LightModem

open Interaction

/-- What `read` of at most `n` bytes returns. It brings no byte when the line has been silent for half a
second. -/
inductive ReadReturn (n : ℕ)
  | error
  | data (bytes : List UInt8) (size : bytes.length ≤ n)

def ReadReturn.bytes? {n : ℕ} : ReadReturn n → Option (List UInt8)
  | .error => none
  | .data bytes _ => some bytes

structure FileDescriptor (σ : Type) where
  read : σ → (n : ℕ) → ReadReturn n × σ
  write : σ → List UInt8 → ℤ × σ

section Serial

variable {σ : Type}

def serialReadLoop (fd : FileDescriptor σ) (size : ℕ) (buffer : List UInt8) (fits : buffer.length ≤ size)
    (attempt : ℕ) (s : σ) : Reply UInt8 size × σ :=
  if more : buffer.length < size then
    match fd.read s (size - buffer.length) with
    | (.error, s) => (.timedOut buffer fits, s)
    | (.data bytes hbytes, s) =>
      if silent : bytes.length = 0 then
        if _patient : attempt + 1 ≤ 2 then serialReadLoop fd size buffer fits (attempt + 1) s
        else (.timedOut buffer fits, s)
      else
        serialReadLoop fd size (buffer ++ bytes) (by rw [List.length_append]; omega) attempt s
  else (.received buffer (by omega), s)
termination_by (size - buffer.length) + (3 - attempt)
decreasing_by
  · omega
  · rw [List.length_append]
    omega

def serialRead (fd : FileDescriptor σ) (s : σ) (size : ℕ) : Reply UInt8 size × σ :=
  serialReadLoop fd size [] (Nat.zero_le size) 0 s

def serialWrite (fd : FileDescriptor σ) (s : σ) (buffer : List UInt8) : Bool × σ :=
  let (nbWritten, s) := fd.write s buffer
  if nbWritten = -1 then (false, s)
  else (decide (buffer.length = nbWritten % 4294967296), s)

/-- The callbacks `serial_getchar` and `serial_putchar` of `rzsz.c`. The second one drops the result of
`serial_write`. -/
def serialDevice (fd : FileDescriptor σ) : Device UInt8 σ where
  getchar := serialRead fd
  putchar := fun s data => (serialWrite fd s data).2

theorem serialWrite_state (fd : FileDescriptor σ) (s : σ) (buffer : List UInt8) :
    (serialWrite fd s buffer).2 = (fd.write s buffer).2 := by
  simp only [serialWrite]
  split <;> rfl

def FileDescriptor.logged (fd : FileDescriptor σ) : FileDescriptor (σ × List (Option (List UInt8))) where
  read := fun s n => ((fd.read s.1 n).1, ((fd.read s.1 n).2, s.2 ++ [(fd.read s.1 n).1.bytes?]))
  write := fun s data => ((fd.write s.1 data).1, ((fd.write s.1 data).2, s.2))

def gathered (calls : List (Option (List UInt8))) : List UInt8 := calls.flatMap fun bytes => bytes.getD []

inductive SerialCalls (size : ℕ) : List UInt8 → ℕ → List (Option (List UInt8)) → Reply UInt8 size → Prop
  | full {buffer : List UInt8} {attempt : ℕ} (h : buffer.length = size) :
      SerialCalls size buffer attempt [] (.received buffer h)
  | error {buffer : List UInt8} {attempt : ℕ} (h : buffer.length < size) :
      SerialCalls size buffer attempt [none] (.timedOut buffer (Nat.le_of_lt h))
  | silent {buffer : List UInt8} {attempt : ℕ} (h : buffer.length < size) (last : 2 < attempt + 1) :
      SerialCalls size buffer attempt [some []] (.timedOut buffer (Nat.le_of_lt h))
  | again {buffer : List UInt8} {attempt : ℕ} {calls : List (Option (List UInt8))} {r : Reply UInt8 size}
      (h : buffer.length < size) (patient : attempt + 1 ≤ 2) (rest : SerialCalls size buffer (attempt + 1) calls r) :
      SerialCalls size buffer attempt (some [] :: calls) r
  | data {buffer : List UInt8} {attempt : ℕ} {calls : List (Option (List UInt8))} {r : Reply UInt8 size}
      (bytes : List UInt8) (h : buffer.length < size) (nonempty : bytes.length ≠ 0)
      (rest : SerialCalls size (buffer ++ bytes) attempt calls r) :
      SerialCalls size buffer attempt (some bytes :: calls) r

theorem logged_read {fd : FileDescriptor σ} {s s' : σ × List (Option (List UInt8))} {n : ℕ} {r : ReadReturn n}
    (h : fd.logged.read s n = (r, s')) : fd.read s.1 n = (r, s'.1) ∧ s'.2 = s.2 ++ [r.bytes?] := by
  obtain ⟨rfl, rfl⟩ := Prod.mk.inj h
  exact ⟨rfl, rfl⟩

theorem serialReadLoop_logged (fd : FileDescriptor σ) (size : ℕ) (buffer : List UInt8) (fits : buffer.length ≤ size)
    (attempt : ℕ) (s : σ × List (Option (List UInt8))) :
    serialReadLoop fd size buffer fits attempt s.1 =
      ((serialReadLoop fd.logged size buffer fits attempt s).1,
        (serialReadLoop fd.logged size buffer fits attempt s).2.1) := by
  induction buffer, fits, attempt, s using serialReadLoop.induct fd.logged size with
  | case1 buffer fits attempt s more s' h =>
    rw [serialReadLoop, serialReadLoop, dif_pos more, dif_pos more, (logged_read h).1, h]
  | case2 buffer fits attempt s more bytes hbytes s' h silent patient ih =>
    rw [serialReadLoop, serialReadLoop, dif_pos more, dif_pos more, (logged_read h).1, h]
    simp only [silent, ↓reduceDIte, patient]
    exact ih
  | case3 buffer fits attempt s more bytes hbytes s' h silent impatient =>
    rw [serialReadLoop, serialReadLoop, dif_pos more, dif_pos more, (logged_read h).1, h]
    simp only [silent, ↓reduceDIte, impatient]
  | case4 buffer fits attempt s more bytes hbytes s' h nonempty ih =>
    rw [serialReadLoop, serialReadLoop, dif_pos more, dif_pos more, (logged_read h).1, h]
    simp only [nonempty, ↓reduceDIte]
    exact ih
  | case5 buffer fits attempt s full =>
    rw [serialReadLoop, serialReadLoop, dif_neg full, dif_neg full]

theorem serialReadLoop_calls (fd : FileDescriptor σ) (size : ℕ) (buffer : List UInt8) (fits : buffer.length ≤ size)
    (attempt : ℕ) (s : σ × List (Option (List UInt8))) :
    ∃ calls, (serialReadLoop fd.logged size buffer fits attempt s).2.2 = s.2 ++ calls ∧
      SerialCalls size buffer attempt calls (serialReadLoop fd.logged size buffer fits attempt s).1 := by
  induction buffer, fits, attempt, s using serialReadLoop.induct fd.logged size with
  | case1 buffer fits attempt s more s' h =>
    rw [serialReadLoop, dif_pos more, h]
    exact ⟨[none], (logged_read h).2, .error more⟩
  | case2 buffer fits attempt s more bytes hbytes s' h silent patient ih =>
    obtain rfl := List.eq_nil_of_length_eq_zero silent
    obtain ⟨calls, log, rest⟩ := ih
    rw [serialReadLoop, dif_pos more, h]
    simp only [List.length_nil, ↓reduceDIte, patient]
    refine ⟨some [] :: calls, ?_, .again more patient rest⟩
    rw [log, (logged_read h).2, List.append_assoc]
    rfl
  | case3 buffer fits attempt s more bytes hbytes s' h silent impatient =>
    obtain rfl := List.eq_nil_of_length_eq_zero silent
    rw [serialReadLoop, dif_pos more, h]
    simp only [List.length_nil, ↓reduceDIte, impatient]
    exact ⟨[some []], (logged_read h).2, .silent more (Nat.lt_of_not_le impatient)⟩
  | case4 buffer fits attempt s more bytes hbytes s' h nonempty ih =>
    obtain ⟨calls, log, rest⟩ := ih
    rw [serialReadLoop, dif_pos more, h]
    simp only [nonempty, ↓reduceDIte]
    refine ⟨some bytes :: calls, ?_, .data bytes more nonempty rest⟩
    rw [log, (logged_read h).2, List.append_assoc]
    rfl
  | case5 buffer fits attempt s full =>
    rw [serialReadLoop, dif_neg full]
    exact ⟨[], by rw [List.append_nil], .full (Nat.le_antisymm fits (Nat.le_of_not_lt full))⟩

def replyBytes {size : ℕ} : Reply UInt8 size → List UInt8
  | .received data _ => data
  | .timedOut written _ => written

section Calls

variable {size : ℕ} {buffer : List UInt8} {attempt : ℕ} {calls : List (Option (List UInt8))} {r : Reply UInt8 size}

theorem SerialCalls.bytes (h : SerialCalls size buffer attempt calls r) :
    replyBytes r = buffer ++ gathered calls := by
  induction h with
  | full h => exact (List.append_nil _).symm
  | error h => exact (List.append_nil _).symm
  | silent h last => exact (List.append_nil _).symm
  | again h patient rest ih => exact ih
  | data bytes h nonempty rest ih =>
    rw [ih, List.append_assoc]
    rfl

theorem SerialCalls.few (h : SerialCalls size buffer attempt calls r) (few : attempt ≤ 2) :
    calls.length + buffer.length + attempt ≤ size + 2 := by
  induction h with
  | full h => simp only [List.length_nil]; omega
  | error h => simp only [List.length_singleton]; omega
  | silent h last => simp only [List.length_singleton]; omega
  | again h patient rest ih =>
    have rest := ih patient
    rw [List.length_cons]
    omega
  | data bytes h nonempty rest ih =>
    have rest := ih few
    rw [List.length_append] at rest
    rw [List.length_cons]
    omega

theorem SerialCalls.received_iff (h : SerialCalls size buffer attempt calls r) (few : attempt ≤ 2) :
    r.data?.isSome = true ↔ none ∉ calls ∧ attempt + calls.count (some []) ≤ 2 := by
  induction h with
  | full h => exact iff_of_true rfl ⟨by simp, few⟩
  | error h => exact iff_of_false (by simp [Reply.data?]) (fun h => h.1 (by simp))
  | silent h last =>
    refine iff_of_false (by simp [Reply.data?]) (fun h => ?_)
    have count := h.2
    rw [List.count_singleton_self] at count
    omega
  | again h patient rest ih =>
    rw [ih patient, List.count_cons_self]
    simp only [List.mem_cons, reduceCtorEq, false_or]
    exact and_congr_right fun _ => by omega
  | data bytes h nonempty rest ih =>
    have other : (some bytes == some ([] : List UInt8)) = false := by
      rw [beq_eq_false_iff_ne]
      intro empty
      rw [Option.some.inj empty] at nonempty
      exact nonempty rfl
    rw [ih few, List.count_cons, other]
    simp only [List.mem_cons, reduceCtorEq, false_or, Bool.false_eq_true, ↓reduceIte, Nat.add_zero]

end Calls

theorem serialRead_calls (fd : FileDescriptor σ) (s : σ) (log : List (Option (List UInt8))) (size : ℕ) :
    ∃ r s' calls, serialRead fd s size = (r, s') ∧ serialRead fd.logged (s, log) size = (r, (s', log ++ calls)) ∧
      calls.length ≤ size + 2 ∧ replyBytes r = gathered calls ∧
      (r.data?.isSome = true ↔ none ∉ calls ∧ calls.count (some []) ≤ 2) := by
  obtain ⟨calls, hlog, h⟩ := serialReadLoop_calls fd size [] (Nat.zero_le size) 0 (s, log)
  have same := serialReadLoop_logged fd size [] (Nat.zero_le size) 0 (s, log)
  have few := h.few (by decide)
  have iff := h.received_iff (by decide)
  rw [Nat.zero_add] at iff
  exact ⟨_, _, calls, same, Prod.ext rfl (Prod.ext rfl hlog), few, h.bytes, iff⟩

theorem onDevice_logged {α : Type} (fd : FileDescriptor σ) (p : Program UInt8 α)
    (s : σ × List (Option (List UInt8))) :
    p.onDevice (serialDevice fd) s.1 =
      ((p.onDevice (serialDevice fd.logged) s).1, (p.onDevice (serialDevice fd.logged) s).2.1) := by
  refine Program.onDevice_map (fun s n => serialReadLoop_logged fd n [] (Nat.zero_le n) 0 s) ?_ p s
  intro s data
  simp only [serialDevice, serialWrite_state, FileDescriptor.logged]

theorem onDevice_calls {α : Type} (fd : FileDescriptor σ) (p : Program UInt8 α) (s : σ) :
    (p.onDevice (serialDevice fd.logged) (s, [])).2.2.length ≤
      costOf (· + 2) (p.onDevice (serialDevice fd.logged) (s, [])).1.1 := by
  have measure := @Program.onDevice_measure UInt8 α (σ × List (Option (List UInt8))) (· + 2)
    (serialDevice fd.logged) (fun s => s.2.length) ?_ ?_ p (s, [])
  · simpa using measure
  · rintro ⟨s, log⟩ n
    obtain ⟨calls, hlog, h⟩ := serialReadLoop_calls fd n [] (Nat.zero_le n) 0 (s, log)
    have few := h.few (by decide)
    change (serialReadLoop fd.logged n [] (Nat.zero_le n) 0 (s, log)).2.2.length ≤ log.length + (n + 2)
    rw [hlog]
    simpa using few
  · rintro ⟨s, log⟩ data
    simp only [serialDevice, serialWrite_state, FileDescriptor.logged]
    exact Nat.le_refl _

end Serial

end LightModem
