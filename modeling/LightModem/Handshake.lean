import LightModem.Termination

set_option autoImplicit false

/-!
The two loops of YMODEM emission that wait for the answer to a header block. They keep the last
character received when none comes, and count only the rounds that leave a NAK.
-/

namespace LightModem

open Interaction

/-- What a round of a handshake leaves in the reply variable, and the index of the next read. -/
def handshakeRound (o : Peer UInt8) (x : UInt8 × ℕ) : UInt8 × ℕ :=
  let r := awaited o (fun _ => true) 10 x.2
  (r.1.getD x.1, r.2)

def handshakeReply (o : Peer UInt8) (x : UInt8 × ℕ) (k : ℕ) : UInt8 :=
  ((handshakeRound o)^[k + 1] x).1

/-- Among the `N` rounds from the variable and the index `x` on, one leaves an ACK or a CAN, or `left`
leave a NAK. -/
def HandshakeEnds (o : Peer UInt8) (left N : ℕ) (x : UInt8 × ℕ) : Prop :=
  Settles (fun k => handshakeReply o x k = ACK ∨ handshakeReply o x k = CAN)
    (fun k => handshakeReply o x k = NAK) left N

def HandshakeCancelled (o : Peer UInt8) (left : ℕ) (x : UInt8 × ℕ) : Prop :=
  ∃ k, handshakeReply o x k = CAN ∧ (∀ j < k, handshakeReply o x j ≠ ACK) ∧
    (List.range k).countP (fun j => handshakeReply o x j = NAK) < left

section Replies

variable {o : Peer UInt8} {left N : ℕ} {x : UInt8 × ℕ}

theorem handshakeReply_succ (o : Peer UInt8) (x : UInt8 × ℕ) (k : ℕ) :
    handshakeReply o x (k + 1) = handshakeReply o (handshakeRound o x) k := rfl

theorem handshakeReply_zero (o : Peer UInt8) (x : UInt8 × ℕ) :
    handshakeReply o x 0 = (handshakeRound o x).1 := rfl

theorem handshakeReply_silent {v : UInt8} {i : ℕ} (h : ∀ j, i ≤ j → (o j 1).data? = none) (k : ℕ) :
    handshakeReply o (v, i) k = v := by
  have hround {i : ℕ} (h : ∀ j, i ≤ j → (o j 1).data? = none) : handshakeRound o (v, i) = (v, i + 10) := by
    rw [handshakeRound, awaited_silent h]
    rfl
  induction k generalizing i with
  | zero => rw [handshakeReply_zero, hround h]
  | succ k ih =>
    rw [handshakeReply_succ, hround h]
    exact ih fun j hj => h j (by omega)

theorem handshakeEnds_nak (h : (handshakeRound o x).1 = NAK) :
    HandshakeEnds o (left + 1) (N + 1) x ↔ HandshakeEnds o left N (handshakeRound o x) := by
  rw [HandshakeEnds, settles_count (by rw [handshakeReply_zero, h]; decide)
    (by rw [handshakeReply_zero, h]; decide)]
  rfl

theorem handshakeEnds_other (hack : (handshakeRound o x).1 ≠ ACK) (hcan : (handshakeRound o x).1 ≠ CAN)
    (hnak : (handshakeRound o x).1 ≠ NAK) :
    HandshakeEnds o left (N + 1) x ↔ HandshakeEnds o left N (handshakeRound o x) := by
  rw [HandshakeEnds, settles_idle (by simp [handshakeReply_zero, hack, hcan])
    (by simp [handshakeReply_zero, hnak])]
  rfl

theorem exists_succ_iff {P : ℕ → Prop} : (∃ k, P k) ↔ P 0 ∨ ∃ k, P (k + 1) := by
  constructor
  · rintro ⟨k, h⟩
    cases k with
    | zero => exact Or.inl h
    | succ k => exact Or.inr ⟨k, h⟩
  · rintro (h | ⟨k, h⟩)
    · exact ⟨0, h⟩
    · exact ⟨k + 1, h⟩

theorem forall_lt_succ_iff {P : ℕ → Prop} {N : ℕ} : (∀ k < N + 1, P k) ↔ P 0 ∧ ∀ k < N, P (k + 1) := by
  constructor
  · exact fun h => ⟨h 0 (by omega), fun k hk => h (k + 1) (by omega)⟩
  · rintro ⟨h0, h⟩ k hk
    cases k with
    | zero => exact h0
    | succ k => exact h k (by omega)

theorem handshakeCancelled_ack (h : (handshakeRound o x).1 = ACK) : ¬ HandshakeCancelled o left x := by
  rintro ⟨k, hcan, hno, _⟩
  cases k with
  | zero => rw [handshakeReply_zero, h] at hcan; exact absurd hcan (by decide)
  | succ k => exact hno 0 (by omega) h

theorem handshakeCancelled_can (hl : 0 < left) (h : (handshakeRound o x).1 = CAN) :
    HandshakeCancelled o left x :=
  ⟨0, h, by simp, by simpa using hl⟩

theorem handshakeCancelled_nak (h : (handshakeRound o x).1 = NAK) :
    HandshakeCancelled o (left + 1) x ↔ HandshakeCancelled o left (handshakeRound o x) := by
  rw [HandshakeCancelled, exists_succ_iff]
  simp only [forall_lt_succ_iff, countP_range_succ, handshakeReply_zero, h, handshakeReply_succ,
    show NAK ≠ CAN by decide, show NAK ≠ ACK by decide, decide_true, ↓reduceIte, false_and, false_or,
    ne_eq, not_false_eq_true, true_and, Nat.add_lt_add_iff_right]
  rfl

theorem handshakeCancelled_other (hack : (handshakeRound o x).1 ≠ ACK)
    (hcan : (handshakeRound o x).1 ≠ CAN) (hnak : (handshakeRound o x).1 ≠ NAK) :
    HandshakeCancelled o left x ↔ HandshakeCancelled o left (handshakeRound o x) := by
  rw [HandshakeCancelled, exists_succ_iff]
  simp only [forall_lt_succ_iff, countP_range_succ, handshakeReply_zero, handshakeReply_succ, hack, hcan,
    hnak, decide_false, Bool.false_eq_true, ↓reduceIte, false_and, false_or, ne_eq, not_false_eq_true,
    true_and, Nat.add_zero]
  rfl

end Replies

def LymodemHandshakeState.replied (s : LymodemHandshakeState) (c : UInt8) : LymodemHandshakeState :=
  if c = ACK then { s with receivedChar := c, bOk := true, bDone := true }
  else if c = CAN then { s with receivedChar := c, bOk := false, bDone := true }
  else if c = NAK then { s with receivedChar := c, retry := s.retry + 1 }
  else { s with receivedChar := c }

section Loop

variable {o : Peer UInt8} {pThis : ModemContext} {s : LymodemHandshakeState} {i : ℕ}

theorem lymodemHandshakeTurn_eq (pThis : ModemContext) (s : LymodemHandshakeState) :
    lymodemHandshakeTurn pThis s = getcharWithin (fun _ => true) 10 >>= fun a =>
      if a.getD s.receivedChar = NAK then
        .write (pThis.blkBuffer.buffer.load 0 pThis.blkBuffer.currentSize)
          (.done (s.replied (a.getD s.receivedChar)))
      else .done (s.replied (a.getD s.receivedChar)) := by
  rw [lymodemHandshakeTurn, lmodemWaitReception]
  congr 1
  funext a
  generalize a.getD s.receivedChar = c
  by_cases hack : c = ACK
  · simp [LymodemHandshakeState.replied, hack, show ACK ≠ NAK by decide]
  by_cases hcan : c = CAN
  · simp [LymodemHandshakeState.replied, hcan, show CAN ≠ NAK by decide, show CAN ≠ ACK by decide]
  by_cases hnak : c = NAK
  · simp [LymodemHandshakeState.replied, hnak, show NAK ≠ CAN by decide, show NAK ≠ ACK by decide,
      lxmodeReemitPreviousBlock]
  · simp [LymodemHandshakeState.replied, hack, hcan, hnak]

theorem lymodemHandshakeTurn_run (o : Peer UInt8) (pThis : ModemContext) (s : LymodemHandshakeState)
    (i : ℕ) :
    ∃ t, (lymodemHandshakeTurn pThis s).run o i =
        (t, some (s.replied (handshakeRound o (s.receivedChar, i)).1)) ∧
      i + reads t = (handshakeRound o (s.receivedChar, i)).2 := by
  obtain ⟨t, ht, hreads⟩ := getcharWithin_run o (fun _ => true) 10 i
  rw [lymodemHandshakeTurn_eq, Program.run_bind_some ht, handshakeRound]
  split
  · exact ⟨_, rfl, by simpa [reads, Event.isRead] using hreads⟩
  · exact ⟨_, rfl, by simpa using hreads⟩

abbrev handshakeLoop (pThis : ModemContext) (fuel : ℕ) (s : LymodemHandshakeState) :
    Program UInt8 LymodemHandshakeState :=
  whileLoop (fun s => !s.bDone && s.retry < 10) (lymodemHandshakeTurn pThis) fuel s

theorem handshakeLoop_turn (running : s.bDone = false) (hr : s.retry < 10) (fuel : ℕ) :
    ((handshakeLoop pThis (fuel + 1) s).run o i).2 =
      ((handshakeLoop pThis fuel (s.replied (handshakeRound o (s.receivedChar, i)).1)).run o
        (handshakeRound o (s.receivedChar, i)).2).2 := by
  obtain ⟨t, ht, hreads⟩ := lymodemHandshakeTurn_run o pThis s i
  rw [handshakeLoop, whileLoop_true fuel (by simp [running, hr]), Program.run_bind_some ht, hreads]

theorem handshakeLoop_stops (hd : s.bDone = true ∨ 10 ≤ s.retry) :
    (!s.bDone && decide (s.retry < 10)) = false := by
  rcases hd with hd | hd
  · simp [hd]
  · simp only [Bool.and_eq_false_iff, decide_eq_false_iff_not]
    omega

theorem handshakeLoop_done (hd : s.bDone = true ∨ 10 ≤ s.retry) (fuel : ℕ) :
    handshakeLoop pThis (fuel + 1) s = .done s :=
  whileLoop_false fuel (handshakeLoop_stops hd)

theorem handshakeLoop_stopped (hd : s.bDone = true ∨ 10 ≤ s.retry) {fuel : ℕ} {t : List (Event UInt8)}
    {s' : LymodemHandshakeState} (run : (handshakeLoop pThis fuel s).run o i = (t, some s')) : t = [] ∧ s = s' :=
  Program.run_whileLoop_false (handshakeLoop_stops hd) run

theorem replied_ack (s : LymodemHandshakeState) :
    s.replied ACK = { s with receivedChar := ACK, bOk := true, bDone := true } := rfl

theorem replied_can (s : LymodemHandshakeState) :
    s.replied CAN = { s with receivedChar := CAN, bOk := false, bDone := true } := rfl

theorem replied_nak (s : LymodemHandshakeState) :
    s.replied NAK = { s with receivedChar := NAK, retry := s.retry + 1 } := rfl

theorem replied_other {c : UInt8} (hack : c ≠ ACK) (hcan : c ≠ CAN) (hnak : c ≠ NAK) :
    s.replied c = { s with receivedChar := c } := by
  rw [LymodemHandshakeState.replied, if_neg hack, if_neg hcan, if_neg hnak]

theorem handshakeLoop_run (running : s.bDone = false) (hr : s.retry < 10) (fuel : ℕ) :
    ((handshakeLoop pThis (fuel + 1) s).run o i).2.isSome = true ↔
      HandshakeEnds o (10 - s.retry) fuel (s.receivedChar, i) := by
  induction fuel generalizing s i with
  | zero =>
    rw [handshakeLoop_turn running hr]
    exact iff_of_false (by simp [whileLoop]) (not_settles_zero (by omega))
  | succ fuel ih =>
    rw [handshakeLoop_turn running hr]
    rcases hround : handshakeRound o (s.receivedChar, i) with ⟨c, j⟩
    have hc : (handshakeRound o (s.receivedChar, i)).1 = c := by rw [hround]
    by_cases hack : c = ACK
    · subst hack
      rw [handshakeLoop_done (by simp [replied_ack])]
      exact iff_of_true rfl (settles_stop (Or.inl hc))
    by_cases hcan : c = CAN
    · subst hcan
      rw [handshakeLoop_done (by simp [replied_can])]
      exact iff_of_true rfl (settles_stop (Or.inr hc))
    by_cases hnak : c = NAK
    · subst hnak
      rw [show 10 - s.retry = (10 - (s.retry + 1)) + 1 by omega, handshakeEnds_nak hc, hround]
      by_cases hten : 10 ≤ s.retry + 1
      · rw [handshakeLoop_done (Or.inr hten), show 10 - (s.retry + 1) = 0 by omega]
        exact iff_of_true rfl settles_zero
      · exact @ih { s with receivedChar := NAK, retry := s.retry + 1 } j running (Nat.lt_of_not_le hten)
    · rw [handshakeEnds_other (by rwa [hc]) (by rwa [hc]) (by rwa [hc]), hround]
      simp only [replied_other hack hcan hnak]
      exact @ih { s with receivedChar := c } j running hr

theorem handshakeLoop_bOk (running : s.bDone = false) (hr : s.retry < 10) (hok : s.bOk = true) {fuel : ℕ}
    {s' : LymodemHandshakeState} (h : ((handshakeLoop pThis fuel s).run o i).2 = some s') :
    s'.bOk = false ↔ HandshakeCancelled o (10 - s.retry) (s.receivedChar, i) := by
  induction fuel generalizing s i with
  | zero => simp [whileLoop] at h
  | succ fuel ih =>
    rw [handshakeLoop_turn running hr] at h
    rcases hround : handshakeRound o (s.receivedChar, i) with ⟨c, j⟩
    have hc : (handshakeRound o (s.receivedChar, i)).1 = c := by rw [hround]
    rw [hround] at h
    have finished {s₀ : LymodemHandshakeState} (hd : s₀.bDone = true ∨ 10 ≤ s₀.retry)
        (h₀ : ((handshakeLoop pThis fuel s₀).run o j).2 = some s') : s₀ = s' :=
      (handshakeLoop_stopped hd (Prod.ext rfl h₀)).2
    by_cases hack : c = ACK
    · subst hack
      rw [← finished (by simp [replied_ack]) h]
      exact iff_of_false (by simp [replied_ack]) (handshakeCancelled_ack hc)
    by_cases hcan : c = CAN
    · subst hcan
      rw [← finished (by simp [replied_can]) h]
      exact iff_of_true rfl (handshakeCancelled_can (by omega) hc)
    by_cases hnak : c = NAK
    · subst hnak
      rw [show 10 - s.retry = (10 - (s.retry + 1)) + 1 by omega, handshakeCancelled_nak hc, hround]
      by_cases hten : 10 ≤ s.retry + 1
      · rw [← finished (Or.inr hten) h, show 10 - (s.retry + 1) = 0 by omega]
        apply iff_of_false (by simp [replied_nak, hok])
        rintro ⟨k, _, _, hlt⟩
        omega
      · exact @ih { s with receivedChar := NAK, retry := s.retry + 1 } j running (Nat.lt_of_not_le hten) hok h
    · rw [handshakeCancelled_other (by rwa [hc]) (by rwa [hc]) (by rwa [hc]), hround]
      simp only [replied_other hack hcan hnak] at h
      exact @ih { s with receivedChar := c } j running hr hok h

end Loop

end LightModem
