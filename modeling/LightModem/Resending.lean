import LightModem.Block0
import LightModem.Feed

set_option autoImplicit false

namespace LightModem

open Interaction

def resend (frame answer : List UInt8) : List UInt8 := if answer = [NAK] then frame else []

/-- What is left to be read when the block after the `k`-th repetition is read: the receiver has taken
one byte less than a frame for each frame that was sent. -/
def resentStream (frame : List UInt8) : ℕ → List UInt8
  | 0 => frame
  | k + 1 => (resentStream frame k).drop (frame.length - 1) ++ frame

def resentBlock (frame : List UInt8) (k : ℕ) : List UInt8 := (resentStream frame k).take (frame.length - 1)

def Refused (crc16 : Crc16Context) (blksize : ℕ) (data : List UInt8) : Prop :=
  ¬ IsBlock0 crc16 blksize data ∧ data.take 2 ≠ [255, 0]

def Recovers (frame payload : List UInt8) (blksize : ℕ) (s : LymodemBlock0State) (q : List UInt8) : Prop :=
  ∃ fuel s' rest, (whileLoop (fun s => !s.bFinished) (lymodemReceiveBlock0Turn blksize) fuel s).fed
    (resend frame) q = some (s', rest) ∧ s'.rxStatus = .recvOk ∧ s'.pThis.blkBuffer.buffer.Holds 2 payload

section Loop

variable {frame payload q : List UInt8} {blksize : ℕ} {s : LymodemBlock0State}

theorem lymodemReceiveBlock0Turn_fed (h : 2 + blksize + 2 ≤ q.length) :
    (lymodemReceiveBlock0Turn blksize s).fed (resend frame) q =
      some (block0Checked blksize s (q.take (2 + blksize + 2)), q.drop (2 + blksize + 2) ++
        if (block0Checked blksize s (q.take (2 + blksize + 2))).rxStatus = .recvError then frame else []) := by
  rw [lymodemReceiveBlock0Turn, getchars_bind, fed_read h]
  simp only [block0Checked, lxmodemBuildAndSendReply, lxmodemBuildAndSendCancel, putchars_bind, fed_write]
  obtain ⟨status, hstatus⟩ : ∃ status,
      lxmodemCheckBlockNoAndCrc (s.pThis.fill (q.take (2 + blksize + 2))) 0 blksize = status := ⟨_, rfl⟩
  have other : ACK ≠ NAK := by decide
  by_cases hten : s.retry + 1 ≥ 10
  · cases status <;> simp [hstatus, hten, resend, other]
  · cases status <;> simp [hstatus, hten, resend, other]

theorem block0Loop_fed (running : s.bFinished = false) (h : 2 + blksize + 2 ≤ q.length) (fuel : ℕ) :
    (whileLoop (fun s => !s.bFinished) (lymodemReceiveBlock0Turn blksize) (fuel + 1) s).fed (resend frame) q =
      (whileLoop (fun s => !s.bFinished) (lymodemReceiveBlock0Turn blksize) fuel
        (block0Checked blksize s (q.take (2 + blksize + 2)))).fed (resend frame) (q.drop (2 + blksize + 2) ++
          if (block0Checked blksize s (q.take (2 + blksize + 2))).rxStatus = .recvError then frame else []) := by
  rw [whileLoop_true fuel (by simpa using running), fed_bind, lymodemReceiveBlock0Turn_fed h]
  rfl

theorem not_recovers_short (running : s.bFinished = false) (h : q.length < 2 + blksize + 2) :
    ¬ Recovers frame payload blksize s q := by
  rintro ⟨fuel, s', rest, hfed, _⟩
  induction fuel generalizing s with
  | zero => cases hfed
  | succ fuel ih =>
    rw [whileLoop_true fuel (by simpa using running), fed_bind, lymodemReceiveBlock0Turn, getchars_bind,
      fed_read_short h] at hfed
    exact @ih { s with pThis := s.pThis.fill [] } running hfed

theorem recovers_finished (finished : s.bFinished = true) :
    Recovers frame payload blksize s q ↔ s.rxStatus = .recvOk ∧ s.pThis.blkBuffer.buffer.Holds 2 payload := by
  constructor
  · rintro ⟨fuel, s', rest, hfed, h⟩
    cases fuel with
    | zero => cases hfed
    | succ fuel =>
      rw [whileLoop_false fuel (by simpa using finished)] at hfed
      cases hfed
      exact h
  · intro h
    exact ⟨1, s, q, by rw [whileLoop_false 0 (by simpa using finished)]; rfl, h⟩

theorem recovers_turn (running : s.bFinished = false) (h : 2 + blksize + 2 ≤ q.length) :
    Recovers frame payload blksize s q ↔
      Recovers frame payload blksize (block0Checked blksize s (q.take (2 + blksize + 2)))
        (q.drop (2 + blksize + 2) ++
          if (block0Checked blksize s (q.take (2 + blksize + 2))).rxStatus = .recvError then frame else []) := by
  constructor
  · rintro ⟨fuel, s', rest, hfed, hs⟩
    cases fuel with
    | zero => cases hfed
    | succ fuel => exact ⟨fuel, s', rest, by rw [← block0Loop_fed running h, hfed], hs⟩
  · rintro ⟨fuel, s', rest, hfed, hs⟩
    exact ⟨fuel + 1, s', rest, by rw [block0Loop_fed running h, hfed], hs⟩

theorem recovers_intact (running : s.bFinished = false) (hp : s.pThis.protocol = .ymodem)
    (h : 2 + blksize + 2 ≤ q.length) (size : payload.length = blksize)
    (intact : IsBlock0 s.pThis.crc16 blksize (q.take (2 + blksize + 2))) :
    Recovers frame payload blksize s q ↔ q.take (2 + blksize + 2) = frameBody s.pThis.crc16 true 0 payload := by
  have hlen : (q.take (2 + blksize + 2)).length = 2 + blksize + 2 := List.length_take_of_le h
  have hok := (isBlock0_iff hp hlen).mp intact
  rw [recovers_turn running h, recovers_finished (by simp [block0Checked, hok])]
  obtain ⟨data, hdata, hframe⟩ := intact
  rw [hframe] at hok ⊢
  have held : (s.pThis.blkBuffer.buffer.store 0 (frameBody s.pThis.crc16 true 0 data)).Holds 2 data := by
    have whole := Memory.holds_store s.pThis.blkBuffer.buffer 0 (frameBody s.pThis.crc16 true 0 data)
    rw [frameBody, Memory.holds_cons, Memory.holds_cons, Memory.holds_append] at whole
    exact whole.2.2.1
  constructor
  · rintro ⟨_, hpayload⟩
    have same : data = payload := by
      rw [← held, hdata, ← size]
      exact hpayload
    rw [same]
  · intro hsame
    simp only [frameBody, List.cons.injEq, true_and] at hsame
    obtain ⟨rfl, _⟩ := List.append_inj hsame (hdata.trans size.symm)
    exact ⟨hok, held⟩

theorem recovers_refused (running : s.bFinished = false) (hp : s.pThis.protocol = .ymodem)
    (h : 2 + blksize + 2 ≤ q.length) (refused : Refused s.pThis.crc16 blksize (q.take (2 + blksize + 2))) :
    (s.retry + 1 ≥ 10 → ¬ Recovers frame payload blksize s q) ∧
      (s.retry + 1 < 10 → ∃ s' : LymodemBlock0State, s'.bFinished = false ∧ s'.pThis.protocol = .ymodem ∧
        s'.pThis.crc16 = s.pThis.crc16 ∧ s'.retry = s.retry + 1 ∧
        (Recovers frame payload blksize s q ↔
          Recovers frame payload blksize s' (q.drop (2 + blksize + 2) ++ frame))) := by
  have hlen : (q.take (2 + blksize + 2)).length = 2 + blksize + 2 := List.length_take_of_le h
  have status : lxmodemCheckBlockNoAndCrc (s.pThis.fill (q.take (2 + blksize + 2))) 0 blksize = .recvError := by
    cases hstatus : lxmodemCheckBlockNoAndCrc (s.pThis.fill (q.take (2 + blksize + 2))) 0 blksize with
    | recvError => rfl
    | recvOk => exact absurd ((isBlock0_iff hp hlen).mpr hstatus) refused.1
    | recvPreviousBlock =>
      have hcrc : lxmodemBlockHasCrc s.pThis blksize = true := by simp [lxmodemBlockHasCrc, hp]
      have hbody : (q.take (2 + blksize + 2)).length = bodySize s.pThis blksize := by
        rw [hlen, bodySize, hcrc, checkSize, if_pos rfl]
        omega
      exact absurd ((lxmodemCheckBlockNoAndCrc_previous s.pThis 0 hbody).mp hstatus) refused.2
  constructor
  · intro hten
    rw [recovers_turn running h, recovers_finished (by simp [block0Checked, hten])]
    rintro ⟨hok, _⟩
    rw [block0Checked, status] at hok
    cases hok
  · intro hten
    refine ⟨block0Checked blksize s (q.take (2 + blksize + 2)), ?_, hp, rfl, ?_, ?_⟩
    · simp [block0Checked, status, running]
      omega
    · simp [block0Checked, status]
    · have checked : (block0Checked blksize s (q.take (2 + blksize + 2))).rxStatus = .recvError := status
      rw [recovers_turn running h, if_pos checked]

theorem not_recovers_previous (running : s.bFinished = false) (hp : s.pThis.protocol = .ymodem)
    (h : 2 + blksize + 2 ≤ q.length) (short : q.length < 2 + blksize + 2 + (2 + blksize + 2))
    (previous : (q.take (2 + blksize + 2)).take 2 = [255, 0]) : ¬ Recovers frame payload blksize s q := by
  have hlen : (q.take (2 + blksize + 2)).length = 2 + blksize + 2 := List.length_take_of_le h
  have hcrc : lxmodemBlockHasCrc s.pThis blksize = true := by simp [lxmodemBlockHasCrc, hp]
  have hbody : (q.take (2 + blksize + 2)).length = bodySize s.pThis blksize := by
    rw [hlen, bodySize, hcrc, checkSize, if_pos rfl]
    omega
  have status := (lxmodemCheckBlockNoAndCrc_previous s.pThis 0 hbody).mpr previous
  have checked : (block0Checked blksize s (q.take (2 + blksize + 2))).rxStatus = .recvPreviousBlock := status
  rw [recovers_turn running h, if_neg (by rw [checked]; decide)]
  by_cases hten : s.retry + 1 ≥ 10
  · rw [recovers_finished (by simp [block0Checked, hten]), checked]
    rintro ⟨hok, _⟩
    cases hok
  · apply not_recovers_short
    · simp [block0Checked, status, running]
      omega
    · rw [List.append_nil, List.length_drop]
      omega

end Loop

section Frame

variable {pThis : ModemContext} {payload body : List UInt8} {s : LymodemBlock0State} {blksize k : ℕ}

theorem resentStream_length (frame : List UInt8) (hframe : frame ≠ []) (k : ℕ) :
    (resentStream frame k).length = frame.length + k := by
  have hpos := List.length_pos_of_ne_nil hframe
  induction k with
  | zero => rfl
  | succ k ih =>
    rw [resentStream, List.length_append, List.length_drop, ih]
    omega

theorem resentStream_eq (frame : List UInt8) {k : ℕ} (hk : k ≤ frame.length) :
    resentStream frame k = frame.drop (frame.length - k) ++ frame := by
  induction k with
  | zero => simp [resentStream]
  | succ k ih =>
    have late : (frame.drop (frame.length - k)).length = k := by
      rw [List.length_drop]
      omega
    rw [resentStream, ih (by omega), List.drop_append, List.drop_eq_nil_of_le (by omega), late, List.nil_append]
    congr 2
    omega

theorem resentBlock_periodic {frame : List UInt8} {j : ℕ} (hj : j < frame.length)
    (same : resentBlock frame j = frame.tail) {m : ℕ} (h : m + (j + 1) < frame.length) :
    frame[m + (j + 1)] = frame[m] := by
  have late : (frame.drop (frame.length - j)).length = j := by
    rw [List.length_drop]
    omega
  have hblock := congrArg (fun l => l[j + m]?) same
  simp only [resentBlock, resentStream_eq frame hj.le, List.getElem?_tail, List.getElem?_take] at hblock
  rw [if_pos (by omega), List.getElem?_append_right (by omega), late, Nat.add_sub_cancel_left,
    List.getElem?_eq_getElem (by omega), List.getElem?_eq_getElem (by omega)] at hblock
  have index : j + m + 1 = m + (j + 1) := by omega
  simp only [index] at hblock
  exact (Option.some.inj hblock).symm

theorem resentBlock_padded {crc16 : Crc16Context} (hsize : payload.length = 128 ∨ payload.length = 1024)
    (padded : ∀ i (hi : i < payload.length), payload.length ≤ i + 9 → payload[i] = 0) {j : ℕ} (hj : j < 9) :
    resentBlock (dataFrame crc16 true 0 payload) j ≠ frameBody crc16 true 0 payload := by
  intro same
  have hframe : (dataFrame crc16 true 0 payload).length = payload.length + 5 := by
    rw [dataFrame_length, checkSize, if_pos rfl]
  -- the complement of the number comes back every `j + 1` bytes
  have complement (n : ℕ) (h : 2 + n * (j + 1) < (dataFrame crc16 true 0 payload).length) :
      (dataFrame crc16 true 0 payload)[2 + n * (j + 1)]? = some 255 := by
    induction n with
    | zero =>
      rw [Nat.zero_mul]
      rfl
    | succ n ih =>
      have step : 2 + (n + 1) * (j + 1) = 2 + n * (j + 1) + (j + 1) := by
        rw [Nat.succ_mul]
        omega
      rw [step] at h ⊢
      rw [List.getElem?_eq_getElem h, resentBlock_periodic (by omega) same h, ← List.getElem?_eq_getElem]
      exact ih (by omega)
  have total := Nat.div_add_mod payload.length (j + 1)
  have rest := Nat.mod_lt payload.length (show 0 < j + 1 by omega)
  rw [Nat.mul_comm] at total
  obtain ⟨i, hi⟩ : ∃ i, payload.length / (j + 1) * (j + 1) = i + 1 :=
    ⟨payload.length / (j + 1) * (j + 1) - 1, by omega⟩
  have found := complement (payload.length / (j + 1)) (by omega)
  have parts : dataFrame crc16 true 0 payload =
      [frameHeader payload, 0, 255] ++ (payload ++ checkBytes crc16 true payload) := rfl
  rw [hi, parts, List.getElem?_append_right (by simp only [List.length_cons, List.length_nil]; omega)] at found
  simp only [List.length_cons, List.length_nil] at found
  rw [show 2 + (i + 1) - (0 + 1 + 1 + 1) = i by omega, List.getElem?_append_left (by omega),
    List.getElem?_eq_getElem (by omega), padded i (by omega) (by omega)] at found
  exact absurd (Option.some.inj found) (by decide)

theorem recovers_resent (hsize : blksize = 128 ∨ blksize = 1024) (size : payload.length = blksize)
    {frame : List UInt8} (hframe : frame.length = 2 + blksize + 2 + 1) (k : ℕ) {s : LymodemBlock0State}
    (running : s.bFinished = false) (hp : s.pThis.protocol = .ymodem) (hk : k < 9) (hretry : s.retry = k + 1) :
    Recovers frame payload blksize s (resentStream frame k) ↔
      ∃ j, k ≤ j ∧ j < 9 ∧ resentBlock frame j = frameBody s.pThis.crc16 true 0 payload ∧
        ∀ i, k ≤ i → i < j → Refused s.pThis.crc16 blksize (resentBlock frame i) := by
  have length := resentStream_length frame (by rintro rfl; simp at hframe) k
  have enough : 2 + blksize + 2 ≤ (resentStream frame k).length := by omega
  have block : (resentStream frame k).take (2 + blksize + 2) = resentBlock frame k := by
    rw [resentBlock, hframe, Nat.add_sub_cancel]
  have right (h : resentBlock frame k = frameBody s.pThis.crc16 true 0 payload) :
      IsBlock0 s.pThis.crc16 blksize (resentBlock frame k) := ⟨payload, size, h⟩
  by_cases intact : IsBlock0 s.pThis.crc16 blksize (resentBlock frame k)
  · rw [recovers_intact running hp enough size (block ▸ intact), block]
    constructor
    · intro h
      exact ⟨k, Nat.le_refl k, hk, h, fun i hi hi' => absurd hi (by omega)⟩
    · rintro ⟨j, hj, _, h, refused⟩
      rcases Nat.lt_or_eq_of_le hj with hlt | rfl
      · exact absurd intact (refused k (Nat.le_refl k) hlt).1
      · exact h
  by_cases previous : (resentBlock frame k).take 2 = [255, 0]
  · apply iff_of_false (not_recovers_previous running hp enough (by omega) (by rwa [block]))
    rintro ⟨j, hj, _, h, refused⟩
    rcases Nat.lt_or_eq_of_le hj with hlt | rfl
    · exact (refused k (Nat.le_refl k) hlt).2 previous
    · exact intact (right h)
  have refused : Refused s.pThis.crc16 blksize (resentBlock frame k) := ⟨intact, previous⟩
  obtain ⟨gaveUp, again⟩ := @recovers_refused frame payload _ _ _ running hp enough (by rwa [block])
  by_cases last : k = 8
  · apply iff_of_false (gaveUp (by omega))
    rintro ⟨j, hj, hj', h, _⟩
    obtain rfl : j = k := by omega
    exact intact (right h)
  · obtain ⟨s', running', hp', hcrc, hretry', hiff⟩ := again (by omega)
    have next := recovers_resent hsize size hframe (k + 1) running' hp' (by omega) (by omega)
    rw [resentStream, hframe, Nat.add_sub_cancel] at next
    rw [hiff, next, hcrc]
    constructor
    · rintro ⟨j, hj, hj', h, hrefused⟩
      refine ⟨j, by omega, hj', h, fun i hi hi' => ?_⟩
      rcases Nat.lt_or_eq_of_le hi with hlt | rfl
      · exact hrefused i hlt hi'
      · exact refused
    · rintro ⟨j, hj, hj', h, hrefused⟩
      rcases Nat.lt_or_eq_of_le hj with hlt | rfl
      · exact ⟨j, hlt, hj', h, fun i hi hi' => hrefused i (by omega) hi'⟩
      · exact absurd (right h) intact
termination_by 9 - k

theorem lymodemWaitBlock0_fed (protocol : pThis.protocol = .ymodem)
    (size : payload.length = 128 ∨ payload.length = 1024) (frame : List UInt8) (fuel : ℕ) :
    (lxmodemBuildAndSendPreambule pThis >>= fun _ => lymodemWaitBlock0 fuel pThis 10).fed (resend frame)
        (frameHeader payload :: body) =
      (lymodemReceiveBlock0 fuel pThis payload.length).fed (resend frame) body := by
  have other : charC ≠ NAK := by decide
  rw [lxmodemBuildAndSendPreambule, protocol]
  simp only [putchars_bind, fed_write, resend, List.cons.injEq, and_true, other, ↓reduceIte, List.append_nil]
  rw [lymodemWaitBlock0, getchars_bind, fed_read (by simp)]
  rcases size with h | h
  · have header : frameHeader payload = SOH := by rw [frameHeader, h]; rfl
    rw [header, h]
    rfl
  · have header : frameHeader payload = STX := by rw [frameHeader, h]; rfl
    rw [header, h]
    rfl

theorem not_isBlock0 {crc16 : Crc16Context} {data : List UInt8}
    (spoilt : data.drop (2 + blksize) ≠ checkBytes crc16 true ((data.drop 2).take blksize)) :
    ¬ IsBlock0 crc16 blksize data := by
  rintro ⟨payload, hsize, rfl⟩
  apply spoilt
  have parts : (frameBody crc16 true 0 payload).drop 2 = payload ++ checkBytes crc16 true payload := rfl
  rw [← List.drop_drop, parts, ← hsize, List.drop_left, List.take_left]

theorem recovers_start (protocol : pThis.protocol = .ymodem)
    (size : payload.length = 128 ∨ payload.length = 1024) (frame : List UInt8) :
    (∃ fuel pThis' rest, (lxmodemBuildAndSendPreambule pThis >>= fun _ => lymodemWaitBlock0 fuel pThis 10).fed
        (resend frame) (frameHeader payload :: body) = some ((.recvOk, pThis'), rest) ∧
        pThis'.blkBuffer.buffer.Holds 2 payload) ↔
      Recovers frame payload payload.length ⟨pThis, false, .recvError, 0⟩ body := by
  simp only [lymodemWaitBlock0_fed protocol size, lymodemReceiveBlock0, fed_bind]
  constructor
  · rintro ⟨fuel, pThis', rest, hfed, hpayload⟩
    obtain ⟨⟨s', q⟩, hloop, hdone⟩ := Option.bind_eq_some_iff.mp hfed
    obtain ⟨hresult, _⟩ := Prod.mk.inj (Option.some.inj hdone)
    obtain ⟨hok, rfl⟩ := Prod.mk.inj hresult
    exact ⟨fuel, s', q, hloop, hok, hpayload⟩
  · rintro ⟨fuel, s', rest, hfed, hok, hpayload⟩
    refine ⟨fuel, s'.pThis, rest, ?_, hpayload⟩
    rw [hfed, ← hok]
    rfl

theorem recovers_damaged (protocol : pThis.protocol = .ymodem)
    (size : payload.length = 128 ∨ payload.length = 1024) (length : body.length = 2 + payload.length + 2)
    (refused : Refused pThis.crc16 payload.length body) :
    Recovers (dataFrame pThis.crc16 true 0 payload) payload payload.length ⟨pThis, false, .recvError, 0⟩ body ↔
      ∃ j < 9, resentBlock (dataFrame pThis.crc16 true 0 payload) j = frameBody pThis.crc16 true 0 payload ∧
        ∀ i < j, Refused pThis.crc16 payload.length (resentBlock (dataFrame pThis.crc16 true 0 payload) i) := by
  have hframe : (dataFrame pThis.crc16 true 0 payload).length = 2 + payload.length + 2 + 1 := by
    rw [dataFrame_length, checkSize, if_pos rfl]
    omega
  have whole : body.take (2 + payload.length + 2) = body := List.take_of_length_le (by omega)
  have nothing : body.drop (2 + payload.length + 2) = [] := List.drop_eq_nil_of_le (by omega)
  obtain ⟨s', running, hp, hcrc, hretry, hiff⟩ := (@recovers_refused (dataFrame pThis.crc16 true 0 payload)
    payload body payload.length ⟨pThis, false, .recvError, 0⟩ rfl protocol (by omega) (by rwa [whole])).2
    (show 0 + 1 < 10 by omega)
  have next := recovers_resent size rfl hframe 0 running hp (by omega) hretry
  rw [resentStream] at next
  rw [hiff, nothing, List.nil_append, next, hcrc]
  simp only [Nat.zero_le, true_and, forall_const]

/-- The first copy of the frame arrives damaged, and its repetitions are read one byte short each: block 0
is received exactly when the first copy is not taken for a repetition, and one of the next nine blocks
that are read is the one that was sent, all before it being refused. With nine null characters at the end
of the payload it never is. -/
theorem lymodemWaitBlock0_resent_iff (pThis : ModemContext) (payload damaged : List UInt8)
    (protocol : pThis.protocol = .ymodem) (size : payload.length = 128 ∨ payload.length = 1024)
    (length : damaged.length = 2 + payload.length + 2)
    (spoilt : damaged.drop (2 + payload.length) ≠
      checkBytes pThis.crc16 true ((damaged.drop 2).take payload.length)) :
    ((∃ fuel pThis' rest, (lxmodemBuildAndSendPreambule pThis >>= fun _ => lymodemWaitBlock0 fuel pThis 10).fed
        (resend (dataFrame pThis.crc16 true 0 payload)) (frameHeader payload :: damaged) =
          some ((.recvOk, pThis'), rest) ∧ pThis'.blkBuffer.buffer.Holds 2 payload) ↔
      damaged.take 2 ≠ [255, 0] ∧
      ∃ j < 9, resentBlock (dataFrame pThis.crc16 true 0 payload) j = frameBody pThis.crc16 true 0 payload ∧
        ∀ i < j, Refused pThis.crc16 payload.length (resentBlock (dataFrame pThis.crc16 true 0 payload) i)) ∧
    ((∀ i (hi : i < payload.length), payload.length ≤ i + 9 → payload[i] = 0) →
      ¬ ∃ fuel pThis' rest, (lxmodemBuildAndSendPreambule pThis >>= fun _ => lymodemWaitBlock0 fuel pThis 10).fed
        (resend (dataFrame pThis.crc16 true 0 payload)) (frameHeader payload :: damaged) =
          some ((.recvOk, pThis'), rest) ∧ pThis'.blkBuffer.buffer.Holds 2 payload) := by
  have spoilt' := not_isBlock0 spoilt
  rw [recovers_start protocol size]
  by_cases previous : damaged.take 2 = [255, 0]
  · have lost : ¬ Recovers (dataFrame pThis.crc16 true 0 payload) payload payload.length
        ⟨pThis, false, .recvError, 0⟩ damaged := by
      apply not_recovers_previous rfl protocol (by omega) (by omega)
      rwa [List.take_of_length_le (show damaged.length ≤ 2 + payload.length + 2 by omega)]
    exact ⟨iff_of_false lost fun h => h.1 previous, fun _ => lost⟩
  · rw [recovers_damaged protocol size length ⟨spoilt', previous⟩]
    refine ⟨⟨fun h => ⟨previous, h⟩, fun h => h.2⟩, ?_⟩
    rintro padded ⟨j, hj, same, _⟩
    exact resentBlock_padded size padded hj same

theorem refused_of_number {crc16 : Crc16Context} {data : List UInt8} (h : data.take 2 ≠ [0, 255])
    (previous : data.take 2 ≠ [255, 0]) : Refused crc16 blksize data := by
  refine ⟨?_, previous⟩
  rintro ⟨payload, _, rfl⟩
  exact h rfl

end Frame

def resentReceiver : ModemContext := { ymodemReceiver with protocol := .ymodem }

def periodicPayload : List UInt8 :=
  ((List.replicate 19 [1, 0, 255, 97, 97, 115, 98]).flatten.drop 3).take 128

theorem lymodemWaitBlock0_resent_periodic :
    ∃ fuel pThis' rest, (lxmodemBuildAndSendPreambule resentReceiver >>= fun _ =>
        lymodemWaitBlock0 fuel resentReceiver 10).fed (resend (dataFrame resentReceiver.crc16 true 0 periodicPayload))
          (frameHeader periodicPayload :: (frameBody resentReceiver.crc16 true 0 periodicPayload).set 131 0) =
        some ((.recvOk, pThis'), rest) ∧ pThis'.blkBuffer.buffer.Holds 2 periodicPayload := by
  have numbers : ∀ i < 6, (resentBlock (dataFrame resentReceiver.crc16 true 0 periodicPayload) i).take 2 ≠ [0, 255] ∧
      (resentBlock (dataFrame resentReceiver.crc16 true 0 periodicPayload) i).take 2 ≠ [255, 0] := by
    decide +kernel
  exact (lymodemWaitBlock0_resent_iff resentReceiver periodicPayload
    ((frameBody resentReceiver.crc16 true 0 periodicPayload).set 131 0) rfl (Or.inl (by decide +kernel))
    (by decide +kernel) (by decide +kernel)).1.mpr ⟨by decide +kernel, 6, by decide, by decide +kernel,
      fun i hi => refused_of_number (numbers i hi).1 (numbers i hi).2⟩

def smallPayload : List UInt8 := [97, 0, 49] ++ List.replicate 125 0

theorem lymodemWaitBlock0_lost :
    ¬ ∃ fuel pThis' rest, (lxmodemBuildAndSendPreambule resentReceiver >>= fun _ =>
        lymodemWaitBlock0 fuel resentReceiver 10).fed (resend (dataFrame resentReceiver.crc16 true 0 smallPayload))
          (frameHeader smallPayload :: (frameBody resentReceiver.crc16 true 0 smallPayload).set 2 98) =
        some ((.recvOk, pThis'), rest) ∧ pThis'.blkBuffer.buffer.Holds 2 smallPayload := by
  have refused : Refused resentReceiver.crc16 smallPayload.length
      ((frameBody resentReceiver.crc16 true 0 smallPayload).set 2 98) := by
    exact ⟨not_isBlock0 (by decide +kernel), by decide +kernel⟩
  rw [recovers_start rfl (Or.inl (by decide +kernel)), recovers_damaged rfl (Or.inl (by decide +kernel))
    (by decide +kernel) refused]
  rintro ⟨j, hj, same, _⟩
  exact resentBlock_padded (Or.inl (by decide +kernel)) (by decide +kernel) hj same

end LightModem
