import LightModem.Handshake

set_option autoImplicit false

namespace LightModem

open Interaction

/-- The rounds from the variable and the index `x` on come to an end that is no cancel, with the variable and the
index `y`. `left` of them may leave a NAK. -/
inductive HandshakePasses (o : Peer UInt8) : ℕ → UInt8 × ℕ → UInt8 × ℕ → Prop
  | exhausted (x : UInt8 × ℕ) : HandshakePasses o 0 x x
  | acknowledged {left : ℕ} {x : UInt8 × ℕ} (h : (handshakeRound o x).1 = ACK) :
      HandshakePasses o (left + 1) x (handshakeRound o x)
  | refused {left : ℕ} {x y : UInt8 × ℕ} (h : (handshakeRound o x).1 = NAK)
      (rest : HandshakePasses o left (handshakeRound o x) y) : HandshakePasses o (left + 1) x y
  | other {left : ℕ} {x y : UInt8 × ℕ} (h : (handshakeRound o x).1 ∉ [ACK, CAN, NAK])
      (rest : HandshakePasses o (left + 1) (handshakeRound o x) y) : HandshakePasses o (left + 1) x y

def Block0Passes (o : Peer UInt8) (y : UInt8 × ℕ) : Prop :=
  ∃ c i, awaited o (fun c => c = charC) 10 0 = (some c, i) ∧ HandshakePasses o 10 (0, i) y

/-- The answers from the `i`-th outcome on end the sending of `blocks` blocks and of the end of the file at the
outcome `j`, acknowledged or not, where the first frame has been sent `retry` times. -/
inductive SendingEnds (o : Peer UInt8) : ℕ → ℕ → ℕ → Bool → ℕ → Prop
  | acknowledged {retry i : ℕ} (ack : (awaited o (fun _ => true) 10 i).1 = some ACK) :
      SendingEnds o 0 retry i true (awaited o (fun _ => true) 10 i).2
  | next {blocks retry i j : ℕ} {ok : Bool} (ack : (awaited o (fun _ => true) 10 i).1 = some ACK)
      (rest : SendingEnds o blocks 0 (awaited o (fun _ => true) 10 i).2 ok j) :
      SendingEnds o (blocks + 1) retry i ok j
  | again {blocks retry i j : ℕ} {ok : Bool} (other : (awaited o (fun _ => true) 10 i).1 ≠ some ACK)
      (patient : ¬ GivesUp retry (awaited o (fun _ => true) 10 i).1)
      (rest : SendingEnds o blocks (retry + 1) (awaited o (fun _ => true) 10 i).2 ok j) :
      SendingEnds o blocks retry i ok j
  | gaveUp {blocks retry i : ℕ} (other : (awaited o (fun _ => true) 10 i).1 ≠ some ACK)
      (gaveUp : GivesUp retry (awaited o (fun _ => true) 10 i).1) :
      SendingEnds o blocks retry i false (awaited o (fun _ => true) 10 i).2

/-- The data of `file`, which is to be asked for from the `i`-th outcome on, leads to the end of the batch at the
outcome `j`, with so many bytes sent or with an error. It is asked for with a byte that the sender `accepts`. -/
inductive DataPasses (accepts : UInt8 → Bool) (o : Peer UInt8) (file : List UInt8) (i : ℕ) : Option ℕ → ℕ → Prop
  | unrequested (silent : ∀ j < 10, (o (i + j) 1).data? = none) : DataPasses accepts o file i (some 0) (i + 10)
  | refused {c c' : UInt8} {k j : ℕ} (first : awaited o (fun _ => true) 10 i = (some c, k))
      (bad : accepts c = false) (next : awaited o (fun c => c = charC) 10 k = (some c', j)) :
      DataPasses accepts o file i none j
  | gaveUp {c c' : UInt8} {k m j : ℕ} (first : awaited o (fun _ => true) 10 i = (some c, k))
      (good : accepts c = true) (ends : SendingEnds o (blockCount 1024 file) 0 k false m)
      (next : awaited o (fun c => c = charC) 10 m = (some c', j)) : DataPasses accepts o file i none j
  | empty {c : UInt8} {k j : ℕ} (first : awaited o (fun _ => true) 10 i = (some c, k))
      (good : accepts c = true) (ends : SendingEnds o (blockCount 1024 file) 0 k true j)
      (vacant : file = []) : DataPasses accepts o file i (some 0) j
  | sent {c c' : UInt8} {k m j : ℕ} (first : awaited o (fun _ => true) 10 i = (some c, k))
      (good : accepts c = true) (ends : SendingEnds o (blockCount 1024 file) 0 k true m)
      (bytes : file ≠ []) (next : awaited o (fun c => c = charC) 10 m = (some c', j)) :
      DataPasses accepts o file i (some (paddedFile 1024 file).length) j

def BatchEnds (pThis : ModemContext) (o : Peer UInt8) (file : List UInt8) (v : UInt8) (sent : Option ℕ) (j : ℕ) :
    Prop :=
  ∃ i, Block0Passes o (v, i) ∧ DataPasses (lxmodemDecodePreambule pThis) o file i sent j

section Awaited

variable {o : Peer UInt8} {i n : ℕ}

theorem awaited_eq_none (h : (awaited o (fun _ => true) n i).1 = none) :
    (awaited o (fun _ => true) n i).2 = i + n := by
  induction n generalizing i with
  | zero => rfl
  | succ n ih =>
    rw [awaited] at h ⊢
    cases hread : (o i 1).data? with
    | none =>
      rw [hread] at h
      rw [ih h]
      omega
    | some data =>
      rw [hread] at h
      cases h

theorem awaited_none_iff :
    (awaited o (fun _ => true) n i).1 = none ↔ ∀ j < n, (o (i + j) 1).data? = none := by
  induction n generalizing i with
  | zero => exact iff_of_true rfl (by simp)
  | succ n ih =>
    rw [awaited, forall_lt_succ_iff]
    cases hread : (o i 1).data? with
    | none =>
      simp only [ih, true_and, Nat.add_assoc, Nat.add_comm 1]
    | some data => simp

end Awaited

section Passes

variable {o : Peer UInt8} {left : ℕ} {x y : UInt8 × ℕ}

theorem handshakePasses_zero : HandshakePasses o 0 x y ↔ y = x := by
  constructor
  · intro h
    cases h
    rfl
  · rintro rfl
    exact .exhausted y

theorem handshakePasses_ack (h : (handshakeRound o x).1 = ACK) :
    HandshakePasses o (left + 1) x y ↔ y = handshakeRound o x := by
  constructor
  · intro passes
    cases passes with
    | acknowledged => rfl
    | refused nak rest => exact absurd (h.symm.trans nak) (by decide)
    | other other rest => exact absurd (by simp [h]) other
  · rintro rfl
    exact .acknowledged h

theorem not_handshakePasses_can (h : (handshakeRound o x).1 = CAN) : ¬ HandshakePasses o (left + 1) x y := by
  intro passes
  cases passes with
  | acknowledged ack => exact absurd (h.symm.trans ack) (by decide)
  | refused nak rest => exact absurd (h.symm.trans nak) (by decide)
  | other other rest => exact absurd (by simp [h]) other

theorem handshakePasses_nak (h : (handshakeRound o x).1 = NAK) :
    HandshakePasses o (left + 1) x y ↔ HandshakePasses o left (handshakeRound o x) y := by
  constructor
  · intro passes
    cases passes with
    | acknowledged ack => exact absurd (h.symm.trans ack) (by decide)
    | refused nak rest => exact rest
    | other other rest => exact absurd (by simp [h]) other
  · exact .refused h

theorem handshakePasses_other (hack : (handshakeRound o x).1 ≠ ACK) (hcan : (handshakeRound o x).1 ≠ CAN)
    (hnak : (handshakeRound o x).1 ≠ NAK) :
    HandshakePasses o (left + 1) x y ↔ HandshakePasses o (left + 1) (handshakeRound o x) y := by
  constructor
  · intro passes
    cases passes with
    | acknowledged ack => exact absurd ack hack
    | refused nak rest => exact absurd nak hnak
    | other other rest => exact rest
  · exact .other (by simp [hack, hcan, hnak])

theorem handshakeLoop_passes {pThis : ModemContext} {s s' : LymodemHandshakeState} {fuel i : ℕ}
    {t : List (Event UInt8)} (running : s.bDone = false) (hr : s.retry < 10) (hok : s.bOk = true)
    (run : (handshakeLoop pThis fuel s).run o i = (t, some s')) (y : UInt8 × ℕ) :
    HandshakePasses o (10 - s.retry) (s.receivedChar, i) y ↔ s'.bOk = true ∧ y = (s'.receivedChar, i + reads t) := by
  -- by the rounds: only those that leave a NAK use up the limit
  induction fuel generalizing s i t with
  | zero => simp [whileLoop] at run
  | succ fuel ih =>
    obtain ⟨t₀, ht₀, hreads⟩ := lymodemHandshakeTurn_run o pThis s i
    rw [handshakeLoop, whileLoop_true fuel (by simp [running, hr])] at run
    obtain ⟨t₁, s₁, rest, first, later, rfl⟩ := Program.exists_of_run_bind run
    obtain ⟨rfl, hs₁⟩ := Prod.mk.inj (first.symm.trans ht₀)
    obtain rfl := Option.some.inj hs₁
    rcases hround : handshakeRound o (s.receivedChar, i) with ⟨c, j⟩
    have hc : (handshakeRound o (s.receivedChar, i)).1 = c := by rw [hround]
    rw [hround] at hreads later
    have next : i + reads (t₁ ++ rest) = j + reads rest := by
      rw [reads_append, ← Nat.add_assoc, hreads]
    rw [hreads] at later
    rw [next, show 10 - s.retry = 10 - (s.retry + 1) + 1 by omega]
    by_cases hack : c = ACK
    · subst hack
      obtain ⟨rfl, rfl⟩ := handshakeLoop_stopped (by simp [replied_ack]) later
      rw [handshakePasses_ack hc, hround]
      exact (and_iff_right rfl).symm
    by_cases hcan : c = CAN
    · subst hcan
      obtain ⟨rfl, rfl⟩ := handshakeLoop_stopped (by simp [replied_can]) later
      exact iff_of_false (not_handshakePasses_can hc) (fun h => absurd h.1 (by simp [replied_can]))
    by_cases hnak : c = NAK
    · subst hnak
      rw [handshakePasses_nak hc, hround]
      by_cases hten : 10 ≤ s.retry + 1
      · obtain ⟨rfl, rfl⟩ := handshakeLoop_stopped (Or.inr hten) later
        rw [show 10 - (s.retry + 1) = 0 by omega, handshakePasses_zero]
        exact (and_iff_right hok).symm
      · exact @ih { s with receivedChar := NAK, retry := s.retry + 1 } j rest running (Nat.lt_of_not_le hten) hok later
    · rw [handshakePasses_other (by rwa [hc]) (by rwa [hc]) (by rwa [hc]), hround,
        show 10 - (s.retry + 1) + 1 = 10 - s.retry by omega]
      rw [replied_other hack hcan hnak] at later
      exact @ih { s with receivedChar := c } j rest running hr hok later

end Passes

section Sending

variable {pThis : ModemContext} {file : List UInt8} {o : Peer UInt8} {blocks retry i j j' : ℕ} {ok ok' : Bool}

theorem SendingEnds.unique (h : SendingEnds o blocks retry i ok j) (h' : SendingEnds o blocks retry i ok' j') :
    ok' = ok ∧ j' = j := by
  induction h with
  | acknowledged ack =>
    cases h' with
    | acknowledged => exact ⟨rfl, rfl⟩
    | again other => exact absurd ack other
    | gaveUp other => exact absurd ack other
  | next ack _ ih =>
    cases h' with
    | next _ rest => exact ih rest
    | again other => exact absurd ack other
    | gaveUp other => exact absurd ack other
  | again other patient _ ih =>
    cases h' with
    | acknowledged ack => exact absurd ack other
    | next ack => exact absurd ack other
    | again _ _ rest => exact ih rest
    | gaveUp _ gaveUp => exact absurd gaveUp patient
  | gaveUp other gaveUp =>
    cases h' with
    | acknowledged ack => exact absurd ack other
    | next ack => exact absurd ack other
    | again _ patient => exact absurd gaveUp patient
    | gaveUp => exact ⟨rfl, rfl⟩

theorem lxmodeSendLoop_answers (hfile : file.length < 2147483648) {s s' : LxmodeSendState} {fuel place : ℕ}
    {t : List (Event UInt8)} (head : SendHead pThis file place s)
    (run : (lxmodeSendLoop fuel s).run o i = (t, some s')) :
    ∃ ok, SendingEnds o (blockCount pThis.blksize file - place) s.retry i ok (i + reads t) ∧
      s'.emittedBytes = if ok then (paddedFile pThis.blksize file).length.toUInt32 else -1 := by
  induction fuel generalizing s place i t with
  | zero => simp [lxmodeSendLoop, whileLoop] at run
  | succ fuel ih =>
    rw [lxmodeSendLoop, whileLoop_true fuel (by simp [head.running])] at run
    obtain ⟨t₁, s₁, rest, first, later, rfl⟩ := Program.exists_of_run_bind run
    obtain ⟨t', rfl, _, hreads, answered⟩ := lxmodeSendTurn_run hfile head first
    rw [reads_append, ← Nat.add_assoc, hreads]
    rw [hreads] at later
    have stopped (finished : s₁.bFinished = true) : rest = [] ∧ s₁ = s' :=
      Program.run_whileLoop_false (by simp [finished]) later
    generalize hanswer : (awaited o (fun _ => true) 10 i).1 = a at answered
    cases answered with
    | next hi head' hr =>
      obtain ⟨ok, ends, result⟩ := ih head' later
      refine ⟨ok, ?_, result⟩
      rw [show blockCount pThis.blksize file - place = blockCount pThis.blksize file - (place + 1) + 1 by omega]
      rw [hr] at ends
      exact .next hanswer ends
    | finished hi hf he setup =>
      obtain ⟨rfl, rfl⟩ := stopped hf
      refine ⟨true, ?_, ?_⟩
      · rw [hi, Nat.sub_self]
        exact .acknowledged hanswer
      · rw [if_pos rfl, ← he]
        exact (UInt32.ofNat_toNat).symm
    | again ha hg head' hr =>
      obtain ⟨ok, ends, result⟩ := ih head' later
      rw [hr] at ends
      exact ⟨ok, .again (by rwa [hanswer]) (by rwa [hanswer]) ends, result⟩
    | gaveUp ha hg hf he =>
      obtain ⟨rfl, rfl⟩ := stopped hf
      exact ⟨false, .gaveUp (by rwa [hanswer]) (by rwa [hanswer]), he⟩

theorem lxmodeSendDataBlocks_answers (loaded : pThis.ramfile.Loaded file) {fuel : ℕ} {t : List (Event UInt8)}
    {n : Int32} {pThis' : ModemContext} (run : (lxmodeSendDataBlocks fuel pThis).run o i = (t, some (n, pThis'))) :
    ∃ ok, SendingEnds o (blockCount pThis.blksize file) 0 i ok (i + reads t) ∧
      n.toUInt32 = if ok then (paddedFile pThis.blksize file).length.toUInt32 else -1 := by
  obtain ⟨s, loop, hresult⟩ := Program.exists_of_run_map run
  cases hresult
  obtain ⟨ok, ends, result⟩ := lxmodeSendLoop_answers loaded.length_lt (sendHead_initial loaded) loop
  exact ⟨ok, ends, (UInt32.toUInt32_toInt32 _).trans result⟩

end Sending

section Data

variable {accepts : UInt8 → Bool} {o : Peer UInt8} {file : List UInt8} {i k m : ℕ} {c : UInt8} {ok : Bool}

theorem dataPasses_unrequested (silent : (awaited o (fun _ => true) 10 i).1 = none) (sent : Option ℕ) (j : ℕ) :
    DataPasses accepts o file i sent j ↔ sent = some 0 ∧ j = i + 10 := by
  constructor
  · intro h
    cases h with
    | unrequested => exact ⟨rfl, rfl⟩
    | _ => simp_all
  · rintro ⟨rfl, rfl⟩
    exact .unrequested (awaited_none_iff.mp silent)

theorem not_silent (first : awaited o (fun _ => true) 10 i = (some c, k)) :
    ¬ ∀ j < 10, (o (i + j) 1).data? = none := by
  rw [← awaited_none_iff, first]
  exact Option.some_ne_none c

theorem dataPasses_refused (first : awaited o (fun _ => true) 10 i = (some c, k))
    (bad : accepts c = false) (sent : Option ℕ) (j : ℕ) :
    DataPasses accepts o file i sent j ↔
      sent = none ∧ ∃ c', awaited o (fun c => c = charC) 10 k = (some c', j) := by
  constructor
  · intro h
    cases h with
    | unrequested silent => exact absurd silent (not_silent first)
    | refused first' _ next =>
      cases first.symm.trans first'
      exact ⟨rfl, _, next⟩
    | _ => simp_all
  · rintro ⟨rfl, c', next⟩
    exact .refused first bad next

theorem dataPasses_ended (first : awaited o (fun _ => true) 10 i = (some c, k))
    (good : accepts c = true) (ends : SendingEnds o (blockCount 1024 file) 0 k ok m)
    (sent : Option ℕ) (j : ℕ) :
    DataPasses accepts o file i sent j ↔
      if ok = true ∧ file = [] then sent = some 0 ∧ j = m
      else sent = (if ok then some (paddedFile 1024 file).length else none) ∧
        ∃ c', awaited o (fun c => c = charC) 10 m = (some c', j) := by
  constructor
  · intro h
    cases h with
    | unrequested silent => exact absurd silent (not_silent first)
    | refused first' bad next =>
      cases first.symm.trans first'
      rw [good] at bad
      cases bad
    | gaveUp first' _ ends' next =>
      cases first.symm.trans first'
      obtain ⟨rfl, rfl⟩ := ends'.unique ends
      simpa using ⟨_, next⟩
    | empty first' _ ends' vacant =>
      cases first.symm.trans first'
      obtain ⟨rfl, rfl⟩ := ends'.unique ends
      simp [vacant]
    | sent first' _ ends' bytes next =>
      cases first.symm.trans first'
      obtain ⟨rfl, rfl⟩ := ends'.unique ends
      simpa [bytes] using ⟨_, next⟩
  · split
    · next h =>
      obtain ⟨rfl, vacant⟩ := h
      rintro ⟨rfl, rfl⟩
      exact .empty first good ends vacant
    · next h =>
      rintro ⟨rfl, c', next⟩
      cases ok with
      | false => exact .gaveUp first good ends next
      | true => exact .sent first good ends (fun vacant => h ⟨rfl, vacant⟩) next

end Data

end LightModem
