import LightModem.Frames
import LightModem.Receiver

set_option autoImplicit false

namespace LightModem

open Interaction

def FrameKind (pThis : ModemContext) (header : UInt8) (blksize : ℕ) : Prop :=
  header = SOH ∧ blksize = 128 ∨
    header = STX ∧ blksize = 1024 ∧ (pThis.opts = .lxmodem1k ∨ pThis.protocol = .ymodem)

def bodySize (pThis : ModemContext) (blksize : ℕ) : ℕ :=
  blksize + 2 + checkSize (lxmodemBlockHasCrc pThis blksize)

@[simp] theorem fill_crc16 (pThis : ModemContext) (data : List UInt8) :
    (pThis.fill data).crc16 = pThis.crc16 := rfl

@[simp] theorem fill_ramfile (pThis : ModemContext) (data : List UInt8) :
    (pThis.fill data).ramfile = pThis.ramfile := rfl

@[simp] theorem fill_opts (pThis : ModemContext) (data : List UInt8) :
    (pThis.fill data).opts = pThis.opts := rfl

@[simp] theorem fill_protocol (pThis : ModemContext) (data : List UInt8) :
    (pThis.fill data).protocol = pThis.protocol := rfl

@[simp] theorem fill_buffer (pThis : ModemContext) (data : List UInt8) :
    (pThis.fill data).blkBuffer.buffer = pThis.blkBuffer.buffer.store 0 data := rfl

@[simp] theorem blockHasCrc_fill (pThis : ModemContext) (data : List UInt8) (blksize : ℕ) :
    lxmodemBlockHasCrc (pThis.fill data) blksize = lxmodemBlockHasCrc pThis blksize := rfl

theorem body_parts {blksize c : ℕ} {body : List UInt8} (h : body.length = blksize + 2 + c) :
    ∃ a b payload check, body = a :: b :: (payload ++ check) ∧ payload.length = blksize ∧
      check.length = c := by
  match body, h with
  | [], h => simp only [List.length_nil] at h; omega
  | [_], h => simp only [List.length_cons, List.length_nil] at h; omega
  | a :: b :: rest, h =>
    simp only [List.length_cons] at h
    refine ⟨a, b, rest.take blksize, rest.drop blksize, by rw [List.take_append_drop], ?_, ?_⟩
    · rw [List.length_take]; omega
    · rw [List.length_drop]; omega

theorem lxmodemCheckCrc_fill (pThis : ModemContext) {blksize : ℕ} (a b : UInt8)
    {payload check : List UInt8} (hp : payload.length = blksize)
    (hc : check.length = checkSize (lxmodemBlockHasCrc pThis blksize)) :
    lxmodemCheckCrc (pThis.fill (a :: b :: (payload ++ check))) blksize =
      if check = checkBytes pThis.crc16 (lxmodemBlockHasCrc pThis blksize) payload then .recvOk
      else .recvError := by
  have hload : (pThis.blkBuffer.buffer.store 0 (a :: b :: (payload ++ check))).load 2 blksize = payload := by
    rw [Memory.load_store_zero _ (by simp only [List.length_cons, List.length_append]; omega)]
    simp [← hp]
  have hcell : ∀ i, (hi : i < check.length) →
      (pThis.blkBuffer.buffer.store 0 (a :: b :: (payload ++ check))) (2 + blksize + i) = check[i] := by
    intro i hi
    have hl : (a :: b :: payload).length = 2 + blksize := by simp only [List.length_cons]; omega
    rw [Memory.store_zero _ (by simp only [List.length_cons, List.length_append]; omega)]
    have happ := List.getElem_append_right' (a :: b :: payload) hi
    simpa only [hl, Nat.add_comm i, List.cons_append] using happ.symm
  cases hcrc : lxmodemBlockHasCrc pThis blksize with
  | true =>
    rw [hcrc] at hc
    match check, hc, hcell, hload with
    | [hi, lo], _, hcell, hload =>
      have h0 := hcell 0 (by simp)
      have h1 := hcell 1 (by simp)
      simp only [List.getElem_cons_zero, List.getElem_cons_succ, Nat.add_zero] at h0 h1
      simp only [lxmodemCheckCrc, blockHasCrc_fill, hcrc, fill_buffer, fill_crc16, hload, h0, h1,
        checkBytes, ↓reduceIte, List.cons.injEq, and_true]
      simp only [eq_comm]
  | false =>
    rw [hcrc] at hc
    match check, hc, hcell, hload with
    | [sum], _, hcell, hload =>
      have h0 := hcell 0 (by simp)
      simp only [List.getElem_cons_zero, Nat.add_zero] at h0
      rw [Nat.add_comm] at h0
      simp only [lxmodemCheckCrc, blockHasCrc_fill, hcrc, fill_buffer, hload, h0, checkBytes,
        Bool.false_eq_true, ↓reduceIte, List.cons.injEq, and_true]
      simp only [eq_comm]

theorem lxmodemCheckBlockNoAndCrc_fill (pThis : ModemContext) (n : UInt8) {blksize : ℕ} (a b : UInt8)
    {payload check : List UInt8} (hp : payload.length = blksize)
    (hc : check.length = checkSize (lxmodemBlockHasCrc pThis blksize)) :
    lxmodemCheckBlockNoAndCrc (pThis.fill (a :: b :: (payload ++ check))) n blksize =
      if a = n ∧ b = ~~~n then
        if check = checkBytes pThis.crc16 (lxmodemBlockHasCrc pThis blksize) payload then .recvOk
        else .recvError
      else if a = n - 1 ∧ b = ~~~(n - 1) then .recvPreviousBlock else .recvError := by
  have h0 : (pThis.blkBuffer.buffer.store 0 (a :: b :: (payload ++ check))) 0 = a :=
    Memory.store_zero _ (by simp)
  have h1 : (pThis.blkBuffer.buffer.store 0 (a :: b :: (payload ++ check))) 1 = b :=
    Memory.store_zero _ (by simp)
  simp only [lxmodemCheckBlockNoAndCrc, fill_buffer, h0, h1, lxmodemCheckCrc_fill pThis a b hp hc]

theorem lxmodemCheckBlockNoAndCrc_ok (pThis : ModemContext) (n : UInt8) {blksize : ℕ}
    {body : List UInt8} (h : body.length = bodySize pThis blksize) :
    lxmodemCheckBlockNoAndCrc (pThis.fill body) n blksize = .recvOk ↔
      ∃ payload, payload.length = blksize ∧
        body = frameBody pThis.crc16 (lxmodemBlockHasCrc pThis blksize) n payload := by
  obtain ⟨a, b, payload, check, rfl, hp, hc⟩ := body_parts h
  rw [lxmodemCheckBlockNoAndCrc_fill pThis n a b hp hc]
  constructor
  · intro hok
    split_ifs at hok with hn hcheck
    exact ⟨payload, hp, by rw [frameBody, hn.1, hn.2, hcheck]⟩
  · rintro ⟨payload', hp', he⟩
    simp only [frameBody, List.cons.injEq] at he
    obtain ⟨rfl, rfl, he⟩ := he
    obtain ⟨rfl, rfl⟩ := List.append_inj he (hp.trans hp'.symm)
    simp

theorem sub_one_ne (n : UInt8) : n - 1 ≠ n := by grind

theorem lxmodemCheckBlockNoAndCrc_previous (pThis : ModemContext) (n : UInt8) {blksize : ℕ}
    {body : List UInt8} (h : body.length = bodySize pThis blksize) :
    lxmodemCheckBlockNoAndCrc (pThis.fill body) n blksize = .recvPreviousBlock ↔
      body.take 2 = [n - 1, ~~~(n - 1)] := by
  obtain ⟨a, b, payload, check, rfl, hp, hc⟩ := body_parts h
  rw [lxmodemCheckBlockNoAndCrc_fill pThis n a b hp hc]
  simp only [List.take_succ_cons, List.take_zero, List.cons.injEq, and_true]
  constructor
  · intro hprev
    split_ifs at hprev with hn hcheck hm
    exact hm
  · rintro ⟨rfl, rfl⟩
    simp [sub_one_ne n]

namespace LxmodemReceiveState

def retried (s : LxmodemReceiveState) : LxmodemReceiveState :=
  if s.nbRetry + 1 ≥ 10 then { s with nbRetry := s.nbRetry + 1, receivedBytes := -1, bFinished := true }
  else { s with nbRetry := s.nbRetry + 1 }

def retryEvents (s : LxmodemReceiveState) : List (Event UInt8) :=
  if s.nbRetry + 1 ≥ 10 then [.sent [CAN, CAN]] else []

def filled (s : LxmodemReceiveState) (data : List UInt8) : LxmodemReceiveState :=
  { s with canCharReceived := 0, pThis := s.pThis.fill data }

def stored (s : LxmodemReceiveState) (payload : List UInt8) : LxmodemReceiveState :=
  { s with
    pThis := { s.pThis with ramfile := s.pThis.ramfile.appended payload }
    expectedBlkNumber := s.expectedBlkNumber + 1
    receivedBytes := s.receivedBytes + payload.length.toUInt32
    nbRetry := 0 }

def overflowed (s : LxmodemReceiveState) (blksize : ℕ) : LxmodemReceiveState :=
  { s with
    pThis := { s.pThis with
      ramfile := (lmodemBufferWrite s.pThis.ramfile (s.pThis.blkBuffer.buffer.shift 2) blksize.toUInt32).1 }
    bFinished := true
    receivedBytes := -1 }

def body (s : LxmodemReceiveState) (payload : List UInt8) : List UInt8 :=
  frameBody s.pThis.crc16 (lxmodemBlockHasCrc s.pThis payload.length) s.expectedBlkNumber payload

section Stored

variable {b : LmodemBuffer} {data payload : List UInt8} {n : ℕ}

theorem stored_number (s : LxmodemReceiveState) (read payload : List UInt8)
    (h : s.expectedBlkNumber = UInt8.ofNat (n + 1)) :
    ((s.filled read).stored payload).expectedBlkNumber = UInt8.ofNat (n + 1 + 1) := by
  change s.expectedBlkNumber + 1 = _
  rw [h, UInt8.ofNat_add (n + 1) 1]
  rfl

theorem stored_ramfile (s : LxmodemReceiveState) (read : List UInt8) (size : b.maxSize.toNat < 2147483648)
    (fits : b.writeOffset.toNat + data.length ≤ b.maxSize.toNat) (h : s.pThis.ramfile = b.appended data) :
    ((s.filled read).stored payload).pThis.ramfile = b.appended (data ++ payload) := by
  rw [← appended_append size fits, ← h]
  rfl

theorem stored_bytes (s : LxmodemReceiveState) (read : List UInt8)
    (small : data.length + payload.length < 4294967296) (h : s.receivedBytes.toNat = data.length) :
    ((s.filled read).stored payload).receivedBytes.toNat = (data ++ payload).length := by
  have hlen : payload.length.toUInt32.toNat = payload.length :=
    UInt32.toNat_ofNat_of_lt' (show payload.length < 4294967296 by omega)
  change (s.receivedBytes + payload.length.toUInt32).toNat = _
  rw [UInt32.toNat_add, h, hlen, List.length_append]
  omega

end Stored

end LxmodemReceiveState

inductive ReceiveFailure (s : LxmodemReceiveState) : List (Event UInt8) → LxmodemReceiveState → Prop
  | silence : ReceiveFailure s [.timedOut 1] s
  | noise (header : UInt8) (h : header ∉ [SOH, STX, EOT, CAN]) :
      ReceiveFailure s [.received [header], .sent [NAK]] s
  | unsupported (h : ¬ (s.pThis.opts = .lxmodem1k ∨ s.pThis.protocol = .ymodem)) :
      ReceiveFailure s [.received [STX], .sent [NAK]] { s with canCharReceived := 0 }
  | cancel (h : ¬ s.canCharReceived + 1 ≥ 2) :
      ReceiveFailure s [.received [CAN], .sent [NAK]] { s with canCharReceived := s.canCharReceived + 1 }
  | secondCancel (h : s.canCharReceived + 1 ≥ 2) :
      ReceiveFailure s [.received [CAN], .sent [NAK]]
        { s with canCharReceived := s.canCharReceived + 1, bFinished := true, receivedBytes := -1 }
  | lost (header : UInt8) (blksize : ℕ) (written : List UInt8) (kind : FrameKind s.pThis header blksize)
      (size : written.length ≤ bodySize s.pThis blksize) :
      ReceiveFailure s [.received [header], .timedOut (bodySize s.pThis blksize), .sent [NAK]]
        (s.filled written)
  | bad (header : UInt8) (blksize : ℕ) (body : List UInt8) (kind : FrameKind s.pThis header blksize)
      (size : body.length = bodySize s.pThis blksize)
      (status : lxmodemCheckBlockNoAndCrc (s.pThis.fill body) s.expectedBlkNumber blksize = .recvError) :
      ReceiveFailure s [.received [header], .received body, .sent [NAK]] (s.filled body)
  | repeated (header : UInt8) (blksize : ℕ) (body : List UInt8)
      (kind : FrameKind s.pThis header blksize) (size : body.length = bodySize s.pThis blksize)
      (status : lxmodemCheckBlockNoAndCrc (s.pThis.fill body) s.expectedBlkNumber blksize =
        .recvPreviousBlock) :
      ReceiveFailure s [.received [header], .received body, .sent [ACK]] (s.filled body)

inductive ReceiveStep (s : LxmodemReceiveState) : List (Event UInt8) → LxmodemReceiveState → Prop
  | failure {t : List (Event UInt8)} {s' : LxmodemReceiveState} (h : ReceiveFailure s t s') :
      ReceiveStep s (t ++ s'.retryEvents) s'.retried
  | stored (header : UInt8) (payload : List UInt8) (kind : FrameKind s.pThis header payload.length)
      (accepts : s.pThis.ramfile.Accepts payload.length) :
      ReceiveStep s [.received [header], .received (s.body payload), .sent [ACK]]
        ((s.filled (s.body payload)).stored payload)
  | overflowed (header : UInt8) (payload : List UInt8) (kind : FrameKind s.pThis header payload.length)
      (refuses : ¬ s.pThis.ramfile.Accepts payload.length) :
      ReceiveStep s [.received [header], .received (s.body payload), .sent [ACK], .sent [CAN, CAN]]
        ((s.filled (s.body payload)).overflowed payload.length)
  | endOfFile :
      ReceiveStep s [.received [EOT], .sent [ACK]]
        { s with bFinished := true, canCharReceived := 0, nbRetry := 0,
                 expectedBlkNumber := s.expectedBlkNumber + 1 }

inductive ReceiveTurn (s : LxmodemReceiveState) : List (Event UInt8) → LxmodemReceiveState → Prop
  | failure {t : List (Event UInt8)} {s' : LxmodemReceiveState} (h : ReceiveFailure s t s') :
      ReceiveTurn s (t ++ s'.retryEvents) s'.retried
  | stored (header : UInt8) (payload : List UInt8) (kind : FrameKind s.pThis header payload.length)
      (fits : s.pThis.ramfile.writeOffset.toNat + payload.length < s.pThis.ramfile.maxSize.toNat) :
      ReceiveTurn s [.received [header], .received (s.body payload), .sent [ACK]]
        ((s.filled (s.body payload)).stored payload)
  | full (header : UInt8) (payload : List UInt8) (kind : FrameKind s.pThis header payload.length)
      (full : s.pThis.ramfile.maxSize.toNat ≤ s.pThis.ramfile.writeOffset.toNat + payload.length) :
      ReceiveTurn s [.received [header], .received (s.body payload), .sent [ACK], .sent [CAN, CAN]]
        { s.filled (s.body payload) with bFinished := true, receivedBytes := -1 }
  | endOfFile :
      ReceiveTurn s [.received [EOT], .sent [ACK]]
        { s with bFinished := true, canCharReceived := 0, nbRetry := 0,
                 expectedBlkNumber := s.expectedBlkNumber + 1 }

section Turn

variable {s : LxmodemReceiveState} {header : UInt8} {blksize : ℕ}

theorem FrameKind.size (h : FrameKind s.pThis header blksize) : blksize = 128 ∨ blksize = 1024 := by
  rcases h with ⟨_, h⟩ | ⟨_, h, _⟩
  · exact Or.inl h
  · exact Or.inr h

theorem lxmodemReceiveRetry_eq (s : LxmodemReceiveState) :
    lxmodemReceiveRetry s =
      if s.nbRetry + 1 ≥ 10 then .write [CAN, CAN] (.done s.retried) else .done s.retried := by
  unfold lxmodemReceiveRetry LxmodemReceiveState.retried
  split <;> simp_all [lxmodemBuildAndSendCancel]

@[simp] theorem ensures_retry (s : LxmodemReceiveState)
    {Q : List (Event UInt8) → LxmodemReceiveState → Prop} :
    (lxmodemReceiveRetry s).Ensures Q ↔ Q s.retryEvents s.retried := by
  rw [lxmodemReceiveRetry_eq, LxmodemReceiveState.retryEvents]
  split <;> rfl

def lxmodemReceiveChecked (s : LxmodemReceiveState) (blksize : ℕ) (status : LxmodemReceptionStatus) :
    Program UInt8 LxmodemReceiveState :=
  .write [if status = .recvOk ∨ status = .recvPreviousBlock then ACK else NAK]
    (if status = .recvOk then lxmodemReceiveStore s blksize else lxmodemReceiveRetry s)

theorem lxmodemReceiveChar_block (kind : FrameKind s.pThis header blksize) :
    lxmodemReceiveChar s header = .read (bodySize s.pThis blksize) (fun r => match r with
      | .received data _ => lxmodemReceiveChecked (s.filled data) blksize
          (lxmodemCheckBlockNoAndCrc (s.pThis.fill data) s.expectedBlkNumber blksize)
      | .timedOut written _ => lxmodemReceiveChecked (s.filled written) blksize .recvError) := by
  rcases kind with ⟨rfl, rfl⟩ | ⟨rfl, rfl, hopts⟩
  · simp only [lxmodemReceiveChar, lxmodemReceiveHeader, lxmodemReceiveBlock, ↓reduceIte, bind_assoc,
      getchars_bind, Program.read_bind]
    congr 1
    funext r
    cases r <;> rfl
  · simp only [lxmodemReceiveChar, lxmodemReceiveHeader, lxmodemReceiveBlock, ↓reduceIte, bind_assoc,
      getchars_bind, Program.read_bind, hopts, show STX ≠ SOH by decide]
    congr 1
    funext r
    cases r <;> rfl

theorem lxmodemReceiveChar_noise (h : header ∉ [SOH, STX, EOT, CAN]) :
    lxmodemReceiveChar s header = .write [NAK] (lxmodemReceiveRetry s) := by
  simp only [List.mem_cons, List.not_mem_nil, or_false, not_or] at h
  simp only [lxmodemReceiveChar, lxmodemReceiveHeader, h]
  rfl

theorem lxmodemReceiveChar_unsupported (h : ¬ (s.pThis.opts = .lxmodem1k ∨ s.pThis.protocol = .ymodem)) :
    lxmodemReceiveChar s STX = .write [NAK] (lxmodemReceiveRetry { s with canCharReceived := 0 }) := by
  simp only [lxmodemReceiveChar, lxmodemReceiveHeader, show STX ≠ SOH by decide, h, ↓reduceIte]
  rfl

theorem lxmodemReceiveChar_cancel (s : LxmodemReceiveState) :
    lxmodemReceiveChar s CAN = .write [NAK] (lxmodemReceiveRetry
      (if s.canCharReceived + 1 ≥ 2 then
        { s with canCharReceived := s.canCharReceived + 1, bFinished := true, receivedBytes := -1 }
      else { s with canCharReceived := s.canCharReceived + 1 })) := by
  simp only [lxmodemReceiveChar, lxmodemReceiveHeader, show CAN ≠ SOH by decide,
    show CAN ≠ STX by decide, show CAN ≠ EOT by decide, ↓reduceIte]
  split <;> rfl

theorem lxmodemReceiveChar_endOfFile (s : LxmodemReceiveState) :
    lxmodemReceiveChar s EOT = .write [ACK] (.done
      { s with bFinished := true, canCharReceived := 0, nbRetry := 0,
               expectedBlkNumber := s.expectedBlkNumber + 1 }) := by
  have h0 : (0 : ℕ).toUInt32 = 0 := rfl
  have h0' : (0 : ℕ).toInt32 = 0 := rfl
  have hstore := lmodemBufferWrite_zero s.pThis.ramfile (s.pThis.blkBuffer.buffer.shift 2)
  simp only [lxmodemReceiveChar, lxmodemReceiveHeader, show EOT ≠ SOH by decide,
    show EOT ≠ STX by decide, ↓reduceIte, Program.pure_eq, Program.done_bind,
    lxmodemBuildAndSendReply, putchars_bind, lxmodemReceiveStore, h0, h0', hstore]
  simp

theorem lxmodemReceiveStore_accepts {payload : List UInt8} (hp : payload.length = blksize)
    (hb : blksize = 128 ∨ blksize = 1024) (hbuf : s.pThis.blkBuffer.buffer.load 2 blksize = payload)
    (accepts : s.pThis.ramfile.Accepts blksize) :
    lxmodemReceiveStore s blksize = .done (s.stored payload) := by
  have hsize : blksize.toUInt32.toNat = blksize := by rcases hb with rfl | rfl <;> rfl
  have hint : blksize.toUInt32.toInt32 = blksize.toInt32 := by rcases hb with rfl | rfl <;> rfl
  have hwrite := @lmodemBufferWrite_accepts s.pThis.ramfile (s.pThis.blkBuffer.buffer.shift 2)
    blksize.toUInt32 (by rw [hsize]; omega) (by rw [hsize]; exact accepts)
  simp only [lxmodemReceiveStore, hwrite, hint, hsize, Memory.load_shift, Nat.add_zero, hbuf, ne_eq,
    not_true_eq_false, ↓reduceIte, LxmodemReceiveState.stored, LmodemBuffer.appended, hp]
  rfl

theorem lxmodemReceiveStore_refuses (hb : blksize = 128 ∨ blksize = 1024)
    (refuses : ¬ s.pThis.ramfile.Accepts blksize) :
    lxmodemReceiveStore s blksize = .write [CAN, CAN] (.done (s.overflowed blksize)) := by
  have hsize : blksize.toUInt32.toNat = blksize := by rcases hb with rfl | rfl <;> rfl
  have hint : blksize.toUInt32.toInt32 = blksize.toInt32 := by rcases hb with rfl | rfl <;> rfl
  have hne := @lmodemBufferWrite_refuses s.pThis.ramfile (s.pThis.blkBuffer.buffer.shift 2)
    blksize.toUInt32 (by rw [hsize]; omega) (by rw [hsize]; omega) (by rw [hsize]; exact refuses)
  rw [hint] at hne
  simp only [lxmodemReceiveStore, hne, ne_eq, not_false_eq_true, ↓reduceIte, putchars_bind]
  rfl

theorem overflowed_eq (hs : s.pThis.ramfile.Writable) (hb : blksize = 128 ∨ blksize = 1024)
    (full : s.pThis.ramfile.maxSize.toNat ≤ s.pThis.ramfile.writeOffset.toNat + blksize) :
    s.overflowed blksize = { s with bFinished := true, receivedBytes := -1 } := by
  have hsize : blksize.toUInt32.toNat = blksize := by rcases hb with rfl | rfl <;> rfl
  have hwrite := @lmodemBufferWrite_full _ (s.pThis.blkBuffer.buffer.shift 2) _ hs
    (show blksize.toUInt32.toNat < _ by rw [hsize]; omega)
    (show _ ≤ s.pThis.ramfile.writeOffset.toNat + blksize.toUInt32.toNat by rw [hsize]; exact full)
  rw [LxmodemReceiveState.overflowed, hwrite]

theorem check_body (s : LxmodemReceiveState) (payload : List UInt8) :
    lxmodemCheckBlockNoAndCrc (s.pThis.fill (s.body payload)) s.expectedBlkNumber payload.length = .recvOk :=
  (lxmodemCheckBlockNoAndCrc_ok s.pThis s.expectedBlkNumber (by
    rw [LxmodemReceiveState.body, frameBody_length, bodySize]; omega)).mpr ⟨payload, rfl, rfl⟩

theorem body_length (s : LxmodemReceiveState) (payload : List UInt8) :
    (s.body payload).length = bodySize s.pThis payload.length := by
  rw [LxmodemReceiveState.body, frameBody_length, bodySize]
  omega

theorem load_body (s : LxmodemReceiveState) (payload : List UInt8) :
    (s.filled (s.body payload)).pThis.blkBuffer.buffer.load 2 payload.length = payload := by
  have hl := body_length s payload
  simp only [LxmodemReceiveState.filled, fill_buffer]
  rw [Memory.load_store_zero _ (by rw [hl, bodySize]; omega)]
  simp [LxmodemReceiveState.body, frameBody]

theorem lxmodemReceiveStore_body_accepts {payload : List UInt8}
    (hb : payload.length = 128 ∨ payload.length = 1024) (accepts : s.pThis.ramfile.Accepts payload.length) :
    lxmodemReceiveStore (s.filled (s.body payload)) payload.length =
      .done ((s.filled (s.body payload)).stored payload) :=
  @lxmodemReceiveStore_accepts (s.filled (s.body payload)) _ _ rfl hb (load_body s payload) accepts

theorem lxmodemReceiveStore_body_refuses {payload : List UInt8}
    (hb : payload.length = 128 ∨ payload.length = 1024) (refuses : ¬ s.pThis.ramfile.Accepts payload.length) :
    lxmodemReceiveStore (s.filled (s.body payload)) payload.length =
      .write [CAN, CAN] (.done ((s.filled (s.body payload)).overflowed payload.length)) :=
  @lxmodemReceiveStore_refuses (s.filled (s.body payload)) _ hb refuses

theorem lxmodemReceiveTurn_eq (s : LxmodemReceiveState) :
    lxmodemReceiveTurn s = .read 1 (fun r => match r with
      | .received data _ => lxmodemReceiveChar s (data.headD 0)
      | .timedOut _ _ => lxmodemReceiveRetry s) :=
  (getchars_bind 1 _).trans rfl

theorem lxmodemReceiveTurn_steps (s : LxmodemReceiveState) :
    (lxmodemReceiveTurn s).Ensures (ReceiveStep s) := by
  rw [lxmodemReceiveTurn_eq]
  intro r
  cases r with
  | timedOut written size => exact (ensures_retry s).mpr (.failure .silence)
  | received data size =>
    obtain ⟨header, rfl⟩ := List.length_eq_one_iff.mp size
    change (lxmodemReceiveChar s header).Ensures (fun t s' => ReceiveStep s (.received [header] :: t) s')
    have block {blksize : ℕ} (kind : FrameKind s.pThis header blksize) :
        (lxmodemReceiveChar s header).Ensures
          (fun t s' => ReceiveStep s (.received [header] :: t) s') := by
      rw [lxmodemReceiveChar_block kind]
      intro r
      cases r with
      | timedOut written hw =>
        exact (ensures_retry _).mpr (.failure (.lost header blksize written kind hw))
      | received body hbody =>
        change (lxmodemReceiveChecked (s.filled body) blksize
          (lxmodemCheckBlockNoAndCrc (s.pThis.fill body) s.expectedBlkNumber blksize)).Ensures _
        cases hstatus : lxmodemCheckBlockNoAndCrc (s.pThis.fill body) s.expectedBlkNumber blksize with
        | recvError =>
          exact (ensures_retry _).mpr (.failure (.bad header blksize body kind hbody hstatus))
        | recvPreviousBlock =>
          exact (ensures_retry _).mpr (.failure (.repeated header blksize body kind hbody hstatus))
        | recvOk =>
          obtain ⟨payload, rfl, rfl⟩ := (lxmodemCheckBlockNoAndCrc_ok _ _ hbody).mp hstatus
          rw [lxmodemReceiveChecked, if_pos rfl, Program.ensures_write]
          change (lxmodemReceiveStore (s.filled (s.body payload)) payload.length).Ensures _
          by_cases accepts : s.pThis.ramfile.Accepts payload.length
          · rw [lxmodemReceiveStore_body_accepts kind.size accepts]
            exact .stored header payload kind accepts
          · rw [lxmodemReceiveStore_body_refuses kind.size accepts]
            exact .overflowed header payload kind accepts
    by_cases hsoh : header = SOH
    · exact block (Or.inl ⟨hsoh, rfl⟩)
    by_cases hstx : header = STX
    · by_cases hopts : s.pThis.opts = .lxmodem1k ∨ s.pThis.protocol = .ymodem
      · exact block (Or.inr ⟨hstx, rfl, hopts⟩)
      · subst hstx
        rw [lxmodemReceiveChar_unsupported hopts]
        exact (ensures_retry _).mpr (.failure (.unsupported hopts))
    by_cases heot : header = EOT
    · subst heot
      rw [lxmodemReceiveChar_endOfFile]
      exact .endOfFile
    by_cases hcan : header = CAN
    · subst hcan
      rw [lxmodemReceiveChar_cancel]
      split_ifs with h2
      · exact (ensures_retry _).mpr (.failure (.secondCancel h2))
      · exact (ensures_retry _).mpr (.failure (.cancel h2))
    · have hnoise : header ∉ [SOH, STX, EOT, CAN] := by simp [hsoh, hstx, heot, hcan]
      rw [lxmodemReceiveChar_noise hnoise]
      exact (ensures_retry _).mpr (.failure (.noise header hnoise))

theorem ReceiveStep.turn (hs : s.pThis.ramfile.Writable) {t : List (Event UInt8)} {s' : LxmodemReceiveState}
    (h : ReceiveStep s t s') : ReceiveTurn s t s' := by
  cases h with
  | failure h => exact .failure h
  | stored header payload kind accepts => exact .stored header payload kind ((accepts_iff hs).mp accepts)
  | overflowed header payload kind refuses =>
    have full : s.pThis.ramfile.maxSize.toNat ≤ s.pThis.ramfile.writeOffset.toNat + payload.length :=
      Nat.le_of_not_lt (fun fits => refuses ((accepts_iff hs).mpr fits))
    rw [@overflowed_eq (s.filled (s.body payload)) _ hs kind.size full]
    exact .full header payload kind full
  | endOfFile => exact .endOfFile

theorem lxmodemReceiveTurn_ensures (hs : s.pThis.ramfile.Writable) :
    (lxmodemReceiveTurn s).Ensures (ReceiveTurn s) :=
  (lxmodemReceiveTurn_steps s).mono fun _ _ h => h.turn hs

theorem performs_retry (s : LxmodemReceiveState) :
    Performs (lxmodemReceiveRetry s) s.retryEvents (.done s.retried) := by
  rw [lxmodemReceiveRetry_eq, LxmodemReceiveState.retryEvents]
  split
  · exact .write (.refl _)
  · exact .refl _

theorem performs_header {t : List (Event UInt8)} {p : Program UInt8 LxmodemReceiveState}
    (h : Performs (lxmodemReceiveChar s header) t p) :
    Performs (lxmodemReceiveTurn s) (.received [header] :: t) p := by
  rw [lxmodemReceiveTurn_eq]
  exact .read (.received [header] rfl) h

theorem performs_block {t : List (Event UInt8)} {p : Program UInt8 LxmodemReceiveState}
    {body : List UInt8} (kind : FrameKind s.pThis header blksize)
    (size : body.length = bodySize s.pThis blksize)
    (h : Performs (lxmodemReceiveChecked (s.filled body) blksize
      (lxmodemCheckBlockNoAndCrc (s.pThis.fill body) s.expectedBlkNumber blksize)) t p) :
    Performs (lxmodemReceiveTurn s) (.received [header] :: .received body :: t) p := by
  apply performs_header
  rw [lxmodemReceiveChar_block kind]
  exact .read (.received body size) h

theorem ReceiveFailure.performs {t : List (Event UInt8)} {s' : LxmodemReceiveState}
    (h : ReceiveFailure s t s') : Performs (lxmodemReceiveTurn s) t (lxmodemReceiveRetry s') := by
  cases h with
  | silence =>
    rw [lxmodemReceiveTurn_eq]
    exact .read (.timedOut [] (Nat.zero_le 1)) (.refl _)
  | noise header h =>
    apply performs_header
    rw [lxmodemReceiveChar_noise h]
    exact .write (.refl _)
  | unsupported h =>
    apply performs_header
    rw [lxmodemReceiveChar_unsupported h]
    exact .write (.refl _)
  | cancel h =>
    apply performs_header
    rw [lxmodemReceiveChar_cancel, if_neg h]
    exact .write (.refl _)
  | secondCancel h =>
    apply performs_header
    rw [lxmodemReceiveChar_cancel, if_pos h]
    exact .write (.refl _)
  | lost header blksize written kind size =>
    apply performs_header
    rw [lxmodemReceiveChar_block kind]
    exact .read (.timedOut written size) (.write (.refl _))
  | bad header blksize body kind size status =>
    apply performs_block kind size
    rw [status]
    exact .write (.refl _)
  | repeated header blksize body kind size status =>
    apply performs_block kind size
    rw [status]
    exact .write (.refl _)

theorem ReceiveTurn.performs {t : List (Event UInt8)} {s' : LxmodemReceiveState}
    (hs : s.pThis.ramfile.Writable) (h : ReceiveTurn s t s') :
    Performs (lxmodemReceiveTurn s) t (.done s') := by
  cases h with
  | failure h => exact h.performs.trans (performs_retry _)
  | stored header payload kind fits =>
    apply performs_block kind (body_length s payload)
    rw [check_body]
    apply Performs.write
    rw [if_pos rfl, lxmodemReceiveStore_body_accepts kind.size ((accepts_iff hs).mpr fits)]
    exact .refl _
  | full header payload kind full =>
    apply performs_block kind (body_length s payload)
    rw [check_body]
    apply Performs.write
    have refuses : ¬ s.pThis.ramfile.Accepts payload.length := fun accepts =>
      Nat.not_lt.mpr full ((accepts_iff hs).mp accepts)
    rw [if_pos rfl, lxmodemReceiveStore_body_refuses kind.size refuses,
      @overflowed_eq (s.filled (s.body payload)) _ hs kind.size full]
    exact .write (.refl _)
  | endOfFile =>
    apply performs_header
    rw [lxmodemReceiveChar_endOfFile]
    exact .write (.refl _)

end Turn

section Failure

variable {s s' : LxmodemReceiveState} {t : List (Event UInt8)}

theorem SameSetup.frameKind {a b : ModemContext} (h : SameSetup a b) {header : UInt8} {blksize : ℕ} :
    FrameKind a header blksize ↔ FrameKind b header blksize := by
  rw [FrameKind, FrameKind, h.opts, h.protocol]

theorem SameSetup.blockHasCrc {a b : ModemContext} (h : SameSetup a b) (blksize : ℕ) :
    lxmodemBlockHasCrc a blksize = lxmodemBlockHasCrc b blksize := by
  rw [lxmodemBlockHasCrc, lxmodemBlockHasCrc, h.withCrc, h.protocol]

theorem SameSetup.fill (a : ModemContext) (data : List UInt8) : SameSetup a (a.fill data) :=
  ⟨rfl, rfl, rfl, rfl, rfl, rfl⟩

structure Untouched (s s' : LxmodemReceiveState) : Prop where
  setup : SameSetup s.pThis s'.pThis
  ramfile : s'.pThis.ramfile = s.pThis.ramfile
  blkNumber : s'.expectedBlkNumber = s.expectedBlkNumber
  result : s'.bFinished = s.bFinished ∧ s'.receivedBytes = s.receivedBytes ∨
    s'.bFinished = true ∧ s'.receivedBytes = -1

theorem ReceiveFailure.untouched (h : ReceiveFailure s t s') : Untouched s s' := by
  cases h with
  | silence => exact ⟨.refl _, rfl, rfl, Or.inl ⟨rfl, rfl⟩⟩
  | noise header h => exact ⟨.refl _, rfl, rfl, Or.inl ⟨rfl, rfl⟩⟩
  | unsupported h => exact ⟨.refl _, rfl, rfl, Or.inl ⟨rfl, rfl⟩⟩
  | cancel h => exact ⟨.refl _, rfl, rfl, Or.inl ⟨rfl, rfl⟩⟩
  | secondCancel h => exact ⟨.refl _, rfl, rfl, Or.inr ⟨rfl, rfl⟩⟩
  | lost header blksize written kind size => exact ⟨.fill _ _, rfl, rfl, Or.inl ⟨rfl, rfl⟩⟩
  | bad header blksize body kind size status => exact ⟨.fill _ _, rfl, rfl, Or.inl ⟨rfl, rfl⟩⟩
  | repeated header blksize body kind size status => exact ⟨.fill _ _, rfl, rfl, Or.inl ⟨rfl, rfl⟩⟩

theorem ReceiveFailure.nbRetry (h : ReceiveFailure s t s') : s'.nbRetry = s.nbRetry := by
  cases h <;> rfl

theorem retried_untouched (s : LxmodemReceiveState) : Untouched s s.retried := by
  unfold LxmodemReceiveState.retried
  split
  · exact ⟨.refl _, rfl, rfl, Or.inr ⟨rfl, rfl⟩⟩
  · exact ⟨.refl _, rfl, rfl, Or.inl ⟨rfl, rfl⟩⟩

@[simp] theorem retried_nbRetry (s : LxmodemReceiveState) : s.retried.nbRetry = s.nbRetry + 1 := by
  unfold LxmodemReceiveState.retried
  split <;> rfl

theorem retried_early (h : s.nbRetry + 1 < 10) : s.retried = { s with nbRetry := s.nbRetry + 1 } :=
  if_neg (Nat.not_le.mpr h)

theorem retryEvents_early (h : s.nbRetry + 1 < 10) : s.retryEvents = [] := if_neg (Nat.not_le.mpr h)

theorem retried_late (h : 10 ≤ s.nbRetry + 1) :
    s.retried = { s with nbRetry := s.nbRetry + 1, receivedBytes := -1, bFinished := true } :=
  if_pos h

theorem retryEvents_late (h : 10 ≤ s.nbRetry + 1) : s.retryEvents = [.sent [CAN, CAN]] := if_pos h

theorem retried_finished (h : 10 ≤ s.nbRetry + 1) : s.retried.bFinished = true := by
  rw [retried_late h]

theorem Untouched.trans {s'' : LxmodemReceiveState} (h : Untouched s s') (h' : Untouched s' s'') :
    Untouched s s'' := by
  refine ⟨h.setup.trans h'.setup, h'.ramfile.trans h.ramfile, h'.blkNumber.trans h.blkNumber, ?_⟩
  rcases h'.result with ⟨hf, hb⟩ | done
  · rw [hf, hb]
    exact h.result
  · exact Or.inr done

end Failure

end LightModem
