import LightModem.Success

set_option autoImplicit false

namespace LightModem

open Interaction

def AckRead (t : List (Event UInt8)) : Prop :=
  ∃ l r, t = l ++ r ∧ writes r = [] ∧ .received [ACK] ∈ r

def HandshakeExhausted (o : Peer UInt8) (left : ℕ) (x : UInt8 × ℕ) : Prop :=
  ∃ N, (∀ k < N, handshakeReply o x k ≠ ACK ∧ handshakeReply o x k ≠ CAN) ∧
    left ≤ (List.range N).countP (fun k => handshakeReply o x k = NAK)

/-- The variable holds an ACK of earlier, and the first round brings nothing. -/
def HandshakeStale (o : Peer UInt8) (x : UInt8 × ℕ) : Prop :=
  x.1 = ACK ∧ ∀ j < 10, (o (x.2 + j) 1).data? = none

section AckRead

variable {t : List (Event UInt8)}

theorem ackRead_received (l : List (Event UInt8)) : AckRead (l ++ [.received [ACK]]) :=
  ⟨l, [.received [ACK]], rfl, rfl, by simp⟩

theorem not_ackRead_sent (l : List (Event UInt8)) (d : List UInt8) : ¬ AckRead (l ++ [.sent d]) := by
  rintro ⟨l', r, he, hw, hack⟩
  rcases List.eq_nil_or_concat r with rfl | ⟨r', e, rfl⟩
  · cases hack
  · rw [List.concat_eq_append, ← List.append_assoc] at he
    obtain ⟨_, he⟩ := List.append_inj' he rfl
    obtain rfl := (List.cons.inj he).1
    simp at hw

theorem not_ackRead_silent (d : List UInt8) (hw : writes t = []) (hack : .received [ACK] ∉ t) :
    ¬ AckRead (.sent d :: t) := by
  rintro ⟨l, r, he, hr, hmem⟩
  cases l with
  | nil =>
    rw [List.nil_append] at he
    rw [← he] at hr
    simp at hr
  | cons e l =>
    obtain ⟨_, rfl⟩ := List.cons.inj he
    exact hack (List.mem_append_right _ hmem)

theorem Awaits.last {wanted : UInt8 → Bool} {n : ℕ} {a : Option UInt8} (h : Awaits wanted n t a) {b : UInt8}
    (ha : a = some b) : ∃ l, t = l ++ [.received [b]] := by
  induction h with
  | gaveUp => cases ha
  | timedOut h ih =>
    obtain ⟨l, rfl⟩ := ih ha
    exact ⟨_ :: l, rfl⟩
  | other c hc h ih =>
    obtain ⟨l, rfl⟩ := ih ha
    exact ⟨_ :: l, rfl⟩
  | came c hc =>
    cases ha
    exact ⟨[], rfl⟩

end AckRead

section Exhausted

variable {o : Peer UInt8} {left : ℕ} {x : UInt8 × ℕ}

theorem handshakeExhausted_zero : HandshakeExhausted o 0 x := ⟨0, by simp, Nat.zero_le _⟩

theorem not_handshakeExhausted (hl : 0 < left) (h : (handshakeRound o x).1 = ACK ∨ (handshakeRound o x).1 = CAN) :
    ¬ HandshakeExhausted o left x := by
  rintro ⟨N, hno, hcount⟩
  cases N with
  | zero =>
    rw [List.range_zero, List.countP_nil] at hcount
    omega
  | succ N =>
    obtain ⟨hack, hcan⟩ := hno 0 (by omega)
    exact h.elim hack hcan

theorem handshakeExhausted_nak (h : (handshakeRound o x).1 = NAK) :
    HandshakeExhausted o (left + 1) x ↔ HandshakeExhausted o left (handshakeRound o x) := by
  rw [HandshakeExhausted, exists_succ_iff]
  simp only [forall_lt_succ_iff, countP_range_succ, handshakeReply_zero, h, handshakeReply_succ,
    show NAK ≠ CAN by decide, show NAK ≠ ACK by decide, decide_true, ↓reduceIte, ne_eq, not_false_eq_true,
    true_and, Nat.add_le_add_iff_right]
  constructor
  · rintro (⟨_, h⟩ | h)
    · simp at h
    · exact h
  · exact Or.inr

theorem handshakeExhausted_other (hack : (handshakeRound o x).1 ≠ ACK)
    (hcan : (handshakeRound o x).1 ≠ CAN) (hnak : (handshakeRound o x).1 ≠ NAK) :
    HandshakeExhausted o left x ↔ HandshakeExhausted o left (handshakeRound o x) := by
  rw [HandshakeExhausted, exists_succ_iff]
  simp only [forall_lt_succ_iff, countP_range_succ, handshakeReply_zero, handshakeReply_succ, hack, hcan, hnak,
    decide_false, Bool.false_eq_true, ↓reduceIte, ne_eq, not_false_eq_true, true_and, Nat.add_zero]
  constructor
  · rintro (h | h)
    · exact ⟨0, by simp, by simpa using h⟩
    · exact h
  · exact Or.inr

theorem HandshakeStale.round (h : HandshakeStale o x) : (handshakeRound o x).1 = ACK := by
  rw [handshakeRound, awaited_none_iff.mpr h.2]
  exact h.1

end Exhausted

section Loop

variable {o : Peer UInt8} {pThis : ModemContext} {s s' : LymodemHandshakeState} {i : ℕ}
  {t : List (Event UInt8)}

theorem lymodemHandshakeTurn_events (o : Peer UInt8) (pThis : ModemContext) (s : LymodemHandshakeState) (i : ℕ) :
    ∃ t, (lymodemHandshakeTurn pThis s).run o i =
        (t, some (s.replied (handshakeRound o (s.receivedChar, i)).1)) ∧
      i + reads t = (handshakeRound o (s.receivedChar, i)).2 ∧
      ((handshakeRound o (s.receivedChar, i)).1 = NAK → ∃ l d, t = l ++ [.sent d]) ∧
      ((handshakeRound o (s.receivedChar, i)).1 = ACK →
        HandshakeStale o (s.receivedChar, i) ∧ writes t = [] ∧ .received [ACK] ∉ t ∨
          ¬ HandshakeStale o (s.receivedChar, i) ∧ ∃ l, t = l ++ [.received [ACK]]) := by
  obtain ⟨t, ht, hreads⟩ := getcharWithin_run o (fun _ => true) 10 i
  have awaits := (getcharWithin_ensures (fun _ => true) 10).run ht
  rw [lymodemHandshakeTurn_eq, Program.run_bind_some ht, handshakeRound]
  dsimp only
  split
  · next hnak =>
    refine ⟨_, rfl, by simpa [reads, Event.isRead] using hreads, fun _ => ⟨t, _, rfl⟩, fun hack => ?_⟩
    rw [hnak] at hack
    exact absurd hack (by decide)
  · next hnak =>
    refine ⟨_, rfl, by simpa using hreads, fun h => absurd h hnak, fun hack => ?_⟩
    rw [Program.run_done, List.append_nil]
    by_cases silent : (awaited o (fun _ => true) 10 i).1 = none
    · left
      rw [silent, Option.getD_none] at hack
      rw [silent] at awaits
      refine ⟨⟨hack, awaited_none_iff.mp silent⟩, awaits.writes_eq, fun hmem => ?_⟩
      cases (awaits.received_iff ACK).mp hmem
    · right
      obtain ⟨b, hb⟩ := Option.ne_none_iff_exists'.mp silent
      rw [hb, Option.getD_some] at hack
      exact ⟨fun stale => silent (awaited_none_iff.mpr stale.2), awaits.last (by rw [hb, hack])⟩

inductive HandshakeEnded (o : Peer UInt8) (left : ℕ) (x : UInt8 × ℕ) (t : List (Event UInt8)) : Prop
  | exhausted (h : HandshakeExhausted o left x) (last : ∃ l d, t = l ++ [.sent d])
  | stale (h : ¬ HandshakeExhausted o left x) (stale : HandshakeStale o x) (unsent : writes t = [])
      (unread : .received [ACK] ∉ t)
  | acknowledged (h : ¬ HandshakeExhausted o left x) (fresh : ¬ HandshakeStale o x)
      (last : ∃ l, t = l ++ [.received [ACK]])

theorem handshakeLoop_ended (running : s.bDone = false) (hr : s.retry < 10) (hok : s.bOk = true) {fuel : ℕ}
    (h : (handshakeLoop pThis fuel s).run o i = (t, some s')) (hok' : s'.bOk = true) :
    HandshakeEnded o (10 - s.retry) (s.receivedChar, i) t := by
  induction fuel generalizing s i t with
  | zero => simp [whileLoop] at h
  | succ fuel ih =>
    obtain ⟨t₀, ht₀, hreads, hsent, hread⟩ := lymodemHandshakeTurn_events o pThis s i
    rw [handshakeLoop, whileLoop_true fuel (by simp [running, hr])] at h
    obtain ⟨t₁, s₁, rest, h₁, h₂, rfl⟩ := Program.exists_of_run_bind h
    obtain ⟨rfl, hs₁⟩ := Prod.mk.inj (h₁.symm.trans ht₀)
    rw [hreads] at h₂
    rcases hround : handshakeRound o (s.receivedChar, i) with ⟨c, j⟩
    have hc : (handshakeRound o (s.receivedChar, i)).1 = c := by rw [hround]
    rw [hround] at hs₁ h₂
    rw [hc] at hsent hread
    obtain rfl := Option.some.inj hs₁
    -- a round that leaves no ACK makes the variable fresh for the rounds that follow
    have later {s₀ : LymodemHandshakeState} (hack : c ≠ ACK) (hs₀ : s₀.receivedChar ≠ ACK)
        (ended : HandshakeEnded o (10 - s₀.retry) (s₀.receivedChar, j) rest)
        (same : HandshakeExhausted o (10 - s.retry) (s.receivedChar, i) ↔
          HandshakeExhausted o (10 - s₀.retry) (s₀.receivedChar, j)) :
        HandshakeEnded o (10 - s.retry) (s.receivedChar, i) (t₁ ++ rest) := by
      cases ended with
      | exhausted hex last =>
        obtain ⟨l, d, rfl⟩ := last
        exact .exhausted (same.mpr hex) ⟨t₁ ++ l, d, by rw [List.append_assoc]⟩
      | stale _ stale _ _ => exact absurd stale.1 hs₀
      | acknowledged hno _ last =>
        obtain ⟨l, rfl⟩ := last
        refine .acknowledged (fun hex => hno (same.mp hex)) (fun stale => hack ?_)
          ⟨t₁ ++ l, by rw [List.append_assoc]⟩
        rw [← hc, stale.round]
    by_cases hack : c = ACK
    · obtain ⟨rfl, _⟩ := handshakeLoop_stopped (by simp [hack, replied_ack]) h₂
      have hno : ¬ HandshakeExhausted o (10 - s.retry) (s.receivedChar, i) :=
        not_handshakeExhausted (by omega) (Or.inl (hc.trans hack))
      rw [List.append_nil]
      rcases hread hack with ⟨stale, hw, hunread⟩ | ⟨hfresh, last⟩
      · exact .stale hno stale hw hunread
      · exact .acknowledged hno hfresh last
    by_cases hcan : c = CAN
    · obtain ⟨_, rfl⟩ := handshakeLoop_stopped (by simp [hcan, replied_can]) h₂
      rw [hcan, replied_can] at hok'
      cases hok'
    by_cases hnak : c = NAK
    · have hstep : HandshakeExhausted o (10 - s.retry) (s.receivedChar, i) ↔
          HandshakeExhausted o (10 - (s.retry + 1)) (c, j) := by
        rw [show 10 - s.retry = (10 - (s.retry + 1)) + 1 by omega, handshakeExhausted_nak (hc.trans hnak), hround]
      by_cases hten : 10 ≤ s.retry + 1
      · obtain ⟨rfl, _⟩ := handshakeLoop_stopped (Or.inr (by rw [hnak, replied_nak]; exact hten)) h₂
        rw [List.append_nil]
        refine .exhausted (hstep.mpr ?_) (hsent hnak)
        rw [show 10 - (s.retry + 1) = 0 by omega]
        exact handshakeExhausted_zero
      · subst hnak
        rw [replied_nak] at h₂
        have ended := @ih { s with receivedChar := NAK, retry := s.retry + 1 } j rest running
          (Nat.lt_of_not_le hten) hok h₂
        exact later hack hack ended hstep
    · rw [replied_other hack hcan hnak] at h₂
      have ended := @ih { s with receivedChar := c } j rest running hr hok h₂
      apply later hack hack ended
      rw [handshakeExhausted_other (by rwa [hc]) (by rwa [hc]) (by rwa [hc]), hround]

end Loop

section Ended

variable {o : Peer UInt8} {left : ℕ} {x : UInt8 × ℕ} {t : List (Event UInt8)}

theorem HandshakeEnded.ackRead_fresh (h : HandshakeEnded o left x t) (fresh : ¬ HandshakeStale o x)
    (p : List (Event UInt8)) : AckRead (p ++ t) ↔ ¬ HandshakeExhausted o left x := by
  cases h with
  | exhausted h last =>
    obtain ⟨l, d, rfl⟩ := last
    refine iff_of_false ?_ (fun hno => hno h)
    rw [← List.append_assoc]
    exact not_ackRead_sent _ _
  | stale h stale unsent unread => exact absurd stale fresh
  | acknowledged h fresh last =>
    obtain ⟨l, rfl⟩ := last
    refine iff_of_true ?_ h
    rw [← List.append_assoc]
    exact ackRead_received _

theorem HandshakeEnded.ackRead_sent (h : HandshakeEnded o left x t) (d : List UInt8) :
    AckRead (.sent d :: t) ↔ ¬ (HandshakeExhausted o left x ∨ HandshakeStale o x) := by
  by_cases hstale : HandshakeStale o x
  · refine iff_of_false ?_ (fun hno => hno (Or.inr hstale))
    cases h with
    | exhausted h last =>
      obtain ⟨l, d', rfl⟩ := last
      exact not_ackRead_sent (.sent d :: l) d'
    | stale h stale unsent unread => exact not_ackRead_silent d unsent unread
    | acknowledged h fresh last => exact absurd hstale fresh
  · rw [not_or, and_iff_left hstale]
    exact h.ackRead_fresh hstale [.sent d]

theorem HandshakeCancelled.not_ended (h : HandshakeCancelled o left x) :
    ¬ (HandshakeExhausted o left x ∨ HandshakeStale o x) := by
  rintro (⟨N, hno, hcount⟩ | hstale)
  · obtain ⟨k, hcan, _, hlt⟩ := h
    rcases Nat.lt_or_ge k N with hk | hk
    · exact (hno k hk).2 hcan
    · have hle : (List.range N).countP (fun k => handshakeReply o x k = NAK) ≤
          (List.range k).countP (fun k => handshakeReply o x k = NAK) :=
        (List.range_sublist.mpr hk).countP_le
      omega
  · exact handshakeCancelled_ack hstale.round h

end Ended

section Emission

variable {pThis pThis' : ModemContext} {o : Peer UInt8} {fuel i : ℕ} {v : UInt8} {t : List (Event UInt8)}

theorem lymodemHandshake_ended {s : LymodemHandshakeState}
    (h : (lymodemHandshake fuel pThis v true).run o i = (t, some s)) (hok : s.bOk = true) :
    HandshakeEnded o 10 (v, i) t :=
  @handshakeLoop_ended o pThis ⟨v, true, false, 0⟩ s i t rfl (show 0 < 10 by decide) rfl fuel h hok

theorem lymodemEmitBlock0_ackRead (h : (lymodemEmitBlock0 fuel pThis).run o 0 = (t, some (true, v, pThis'))) :
    AckRead t ↔ ¬ ∃ c i, awaited o (fun c => c = charC) 10 0 = (some c, i) ∧ HandshakeExhausted o 10 (0, i) := by
  rw [lymodemEmitBlock0_eq] at h
  obtain ⟨t₀, a, t₁, h₀, h₁, rfl⟩ := Program.exists_of_run_bind h
  obtain ⟨t₀', ht₀, hreads⟩ := getcharWithin_run o (fun c => c = charC) 10 0
  obtain ⟨rfl, ha⟩ := Prod.mk.inj (h₀.symm.trans ht₀)
  rcases hawaited : awaited o (fun c => c = charC) 10 0 with ⟨_ | c, i⟩
  all_goals
    rw [hawaited] at ha hreads
    obtain rfl := Option.some.inj ha
  · obtain ⟨_, hresult⟩ := Prod.mk.inj h₁
    cases hresult
  · rw [emitBlock0After, hreads] at h₁
    obtain ⟨t₂, p, t₃, h₂, h₃, rfl⟩ := Program.exists_of_run_bind h₁
    obtain ⟨s, h₄, hresult⟩ := Program.exists_of_run_map h₃
    have hok : s.bOk = true := (congrArg Prod.fst hresult).symm
    have fresh : ¬ HandshakeStale o (0, i) := fun stale => absurd stale.1 (show (0 : UInt8) ≠ ACK by decide)
    rw [((lymodemBuildAndSendBlock0_ensures pThis).run h₂).1, Nat.add_zero] at h₄
    rw [← List.append_assoc, (lymodemHandshake_ended h₄ hok).ackRead_fresh fresh]
    constructor
    · rintro hno ⟨_, _, he, hex⟩
      cases he
      exact hno hex
    · exact fun hno hex => hno ⟨c, i, rfl, hex⟩

theorem lymodemEmitEndOfBach_ackRead {nbEmitted nbEmitted' : UInt32}
    (h : (lymodemEmitEndOfBach fuel pThis true v nbEmitted).run o i = (t, some (nbEmitted', pThis'))) :
    (∃ frame r, t = .sent frame :: r) ∧
      ((0 ≤ nbEmitted'.toInt32 → AckRead t) ↔
        ¬ (0 ≤ nbEmitted.toInt32 ∧ (HandshakeExhausted o 10 (v, i) ∨ HandshakeStale o (v, i)))) := by
  have hend := lymodemEmitEndOfBach_result h
  rw [lymodemEmitEndOfBach_eq] at h
  obtain ⟨t₁, p, t₂, h₁, h₂, rfl⟩ := Program.exists_of_run_bind h
  obtain ⟨s, h₃, hresult⟩ := Program.exists_of_run_map h₂
  obtain ⟨frame, rfl⟩ : ∃ frame, t₁ = [.sent frame] := by
    obtain ⟨ht₁, _⟩ := Prod.mk.inj h₁
    exact ⟨_, ht₁.symm⟩
  have hn : (if s.bOk then nbEmitted else -1) = nbEmitted' := (congrArg Prod.fst hresult).symm
  refine ⟨⟨frame, _, rfl⟩, ?_⟩
  rw [List.singleton_append]
  rcases hend with ⟨rfl, _⟩ | ⟨rfl, hcancelled⟩
  · cases hs : s.bOk with
    | false =>
      rw [hs] at hn
      have hneg := neg_result hn.symm
      exact iff_of_true (fun hpos => absurd hpos hneg) (fun hand => hneg hand.1)
    | true =>
      have hreads : reads [Event.sent frame] = 0 := rfl
      rw [hreads, Nat.add_zero] at h₃
      rw [(lymodemHandshake_ended h₃ hs).ackRead_sent frame, not_and]
  · refine iff_of_true (fun hpos => absurd hpos (by decide)) (fun hand => hcancelled.not_ended hand.2)

end Emission

/-- When the data is sent, an ACK has been read after block 0 exactly when the wait for it was not ended
by ten rounds that left a NAK. When the end of the batch has been sent and the result is not an error, an
ACK has been read after it exactly when the wait for it was not ended so either, and did not begin with
the ACK of block 0 in the variable and ten reads that brought nothing. For a file that has been loaded, the
outcomes alone tell where this wait begins. -/
theorem lymodemEmit_acknowledged_iff (pThis : ModemContext) (o : Peer UInt8) :
    (∀ fuel t v pThis', (lymodemEmitBlock0 fuel { pThis with protocol := .ymodem }).run o 0 =
        (t, some (true, v, pThis')) →
      (AckRead t ↔ ¬ ∃ c i, awaited o (fun c => c = charC) 10 0 = (some c, i) ∧
        HandshakeExhausted o 10 (0, i))) ∧
    (∀ t n pThis', Returns (fun fuel => lmodemEmit .ymodem fuel pThis) o t (n, pThis') →
      ∃ fuel t₁ bOk v nbEmitted before t₂,
        (lymodemEmitFile fuel { pThis with protocol := .ymodem }).run o 0 =
          (t₁, some (bOk, v, nbEmitted, before)) ∧ t = t₁ ++ t₂ ∧
        (bOk = false → t₂ = []) ∧
        (bOk = true → (∃ frame r, t₂ = .sent frame :: r) ∧
          ((0 ≤ n → AckRead t₂) ↔ ¬ (0 ≤ nbEmitted.toInt32 ∧
            (HandshakeExhausted o 10 (v, reads t₁) ∨ HandshakeStale o (v, reads t₁)))) ∧
          ∀ file, pThis.ramfile.Loaded file → ((0 ≤ n → AckRead t₂) ↔ ¬ ∃ v sent j,
            BatchEnds { pThis with protocol := .ymodem } o file v sent j ∧ 0 ≤ (sentBytes sent).toInt32 ∧
              (HandshakeExhausted o 10 (v, j) ∨ HandshakeStale o (v, j))))) := by
  refine ⟨fun fuel t v pThis' h => lymodemEmitBlock0_ackRead h, fun t n pThis' ⟨fuel, h⟩ => ?_⟩
  have hrun : (lymodemEmit fuel { pThis with protocol := .ymodem }).run o 0 = (t, some (n, pThis')) := h
  rw [lymodemEmit_eq] at hrun
  obtain ⟨t₁, ⟨bOk, v, nbEmitted, before⟩, t₂, h₁, h₂, rfl⟩ := Program.exists_of_run_bind hrun
  obtain ⟨⟨nbEmitted', p⟩, h₃, hresult⟩ := Program.exists_of_run_map h₂
  obtain rfl : n = nbEmitted'.toInt32 := congrArg Prod.fst hresult
  rw [Nat.zero_add] at h₃
  refine ⟨fuel, t₁, bOk, v, nbEmitted, before, t₂, h₁, rfl, ?_, ?_⟩
  · rintro rfl
    obtain ⟨rfl, _⟩ := Prod.mk.inj h₃
    rfl
  · rintro rfl
    obtain ⟨sent, read⟩ := lymodemEmitEndOfBach_ackRead h₃
    refine ⟨sent, read, fun file loaded => ?_⟩
    obtain ⟨bytes, result, ends⟩ :=
      @lymodemEmitFile_ends { pThis with protocol := .ymodem } before o file fuel t₁ true v nbEmitted rfl loaded h₁
    rw [read, result rfl]
    apply not_congr
    constructor
    · rintro ⟨positive, missed⟩
      exact ⟨v, bytes, reads t₁, (ends _ _ _).mpr ⟨rfl, rfl, rfl, rfl⟩, positive, missed⟩
    · rintro ⟨v', sent', j, begins, positive, missed⟩
      obtain ⟨_, rfl, rfl, rfl⟩ := (ends v' sent' j).mp begins
      exact ⟨positive, missed⟩

theorem lymodemEmit_acknowledged_name :
    ∃ t v pThis', (lymodemEmitBlock0 2 { ymodemSender [7] with protocol := .ymodem }).run
        (.scripted [[charC], [ACK]]) 0 = (t, some (true, v, pThis')) ∧
      (AckRead t ↔ ¬ ∃ c i, awaited (.scripted [[charC], [ACK]]) (fun c => c = charC) 10 0 = (some c, i) ∧
        HandshakeExhausted (.scripted [[charC], [ACK]]) 10 (0, i)) := by
  have run : ((lymodemEmitBlock0 2 { ymodemSender [7] with protocol := .ymodem }).run
      (.scripted [[charC], [ACK]]) 0).2.map Prod.fst = some true := by
    decide +kernel
  obtain ⟨⟨bOk, v, pThis'⟩, h, rfl⟩ := Option.map_eq_some_iff.mp run
  exact ⟨_, v, pThis', Prod.ext rfl h,
    (lymodemEmit_acknowledged_iff (ymodemSender [7]) (.scripted [[charC], [ACK]])).1 2 _ v pThis' (Prod.ext rfl h)⟩

def headersRefused : List (List UInt8) :=
  [[charC]] ++ List.replicate 10 [NAK] ++ [[charC], [ACK], [ACK], [charC]] ++ List.replicate 10 [NAK]

theorem lymodemEmit_unacknowledged :
    ((lmodemEmit .ymodem 12 (ymodemSender [7])).run (.scripted headersRefused) 0).2.map Prod.fst = some 128 ∧
      ∃ t v pThis', (lymodemEmitBlock0 12 { ymodemSender [7] with protocol := .ymodem }).run
        (.scripted headersRefused) 0 = (t, some (true, v, pThis')) ∧ ¬ AckRead t := by
  refine ⟨by decide +kernel, ?_⟩
  have run : ((lymodemEmitBlock0 12 { ymodemSender [7] with protocol := .ymodem }).run
      (.scripted headersRefused) 0).2.map Prod.fst = some true := by
    decide +kernel
  obtain ⟨⟨bOk, v, pThis'⟩, h, rfl⟩ := Option.map_eq_some_iff.mp run
  refine ⟨_, v, pThis', Prod.ext rfl h, ?_⟩
  rintro ⟨l, r, he, _, hack⟩
  have hmem := List.mem_append_right l hack
  rw [← he] at hmem
  revert hmem
  decide +kernel

end LightModem
