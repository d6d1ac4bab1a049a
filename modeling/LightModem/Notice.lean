import LightModem.Block0
import LightModem.Cancels

set_option autoImplicit false

namespace LightModem

open Interaction

structure EndsWithCancel (t : List (Event UInt8)) : Prop where
  last : [CAN, CAN] <:+ (writes t).flatten
  quiet : ∀ earlier later, t = earlier ++ .sent [CAN, CAN] :: later → later = []

def TellsSender (t : List (Event UInt8)) (n : Int32) : Prop :=
  n = -1 → (headersRead t).count CAN < 2 → EndsWithCancel t

/-- What the outcomes from the `i`-th on bring while `left` blocks may still be bad: an intact block 0 or
nothing, up to the outcome `j`. -/
inductive Block0Search (crc16 : Crc16Context) (o : Peer UInt8) (blksize : ℕ) :
    ℕ → ℕ → Option (List UInt8) → ℕ → Prop
  | refused (i : ℕ) : Block0Search crc16 o blksize 0 i none i
  | intact {left i : ℕ} {body : List UInt8} (h : (o i (2 + blksize + 2)).data? = some body)
      (ok : IsBlock0 crc16 blksize body) : Block0Search crc16 o blksize (left + 1) i (some body) (i + 1)
  | bad {left i j : ℕ} {body : List UInt8} {found : Option (List UInt8)}
      (h : (o i (2 + blksize + 2)).data? = some body) (bad : ¬ IsBlock0 crc16 blksize body)
      (rest : Block0Search crc16 o blksize left (i + 1) found j) :
      Block0Search crc16 o blksize (left + 1) i found j
  | timedOut {left i j : ℕ} {found : Option (List UInt8)} (h : (o i (2 + blksize + 2)).data? = none)
      (rest : Block0Search crc16 o blksize (left + 1) (i + 1) found j) :
      Block0Search crc16 o blksize (left + 1) i found j

/-- The first byte of some attempts announces a block 0, and the search for it ends with `found`. -/
def FindsBlock0 (crc16 : Crc16Context) (o : Peer UInt8) (attempts i : ℕ) (found : Option (List UInt8))
    (j : ℕ) : Prop :=
  ∃ header k blksize, awaited o (fun _ => true) attempts i = (some header, k) ∧
    (header = SOH ∧ blksize = 128 ∨ header = STX ∧ blksize = 1024) ∧
    Block0Search crc16 o blksize 10 k found j

def ReadsEndOfFile (pThis : ModemContext) (o : Peer UInt8) (i : ℕ) : Prop :=
  ∃ fuel t s, (lxmodemReceiveLoop fuel (.initial pThis)).run o i = (t, some s) ∧ EOT ∈ headersRead t

def YmodemTells (pThis : ModemContext) (o : Peer UInt8) : Prop :=
  (∃ j, FindsBlock0 pThis.crc16 o 10 0 none j) ∨
    ∃ body j, FindsBlock0 pThis.crc16 o 10 0 (some body) j ∧
      (lymodemDecodeBlock0 (pThis.fill body)).2 = true ∧
      ReadsEndOfFile (lymodemDecodeBlock0 (pThis.fill body)).1 o j

section Writing

variable {t t' : List (Event UInt8)} {data : List UInt8}

def NoCancel (t : List (Event UInt8)) : Prop := CAN ∉ (writes t).flatten

@[simp] theorem noCancel_nil : NoCancel [] := by simp [NoCancel]

@[simp] theorem noCancel_append : NoCancel (t ++ t') ↔ NoCancel t ∧ NoCancel t' := by
  simp [NoCancel, not_or]

@[simp] theorem noCancel_sent : NoCancel (.sent data :: t) ↔ CAN ∉ data ∧ NoCancel t := by
  simp [NoCancel, not_or]

@[simp] theorem noCancel_received : NoCancel (.received data :: t) ↔ NoCancel t := Iff.rfl

@[simp] theorem noCancel_timedOut {n : ℕ} : NoCancel (.timedOut n :: t) ↔ NoCancel t := Iff.rfl

theorem NoCancel.not_mem (h : NoCancel t) : .sent [CAN, CAN] ∉ t := by
  intro hmem
  exact h (List.mem_flatten.mpr ⟨[CAN, CAN], mem_writes.mpr hmem, by simp⟩)

theorem NoCancel.not_endsWithCancel (h : NoCancel t) : ¬ EndsWithCancel t :=
  fun ends => h (ends.last.subset (by simp))

def Cancelled (t : List (Event UInt8)) : Prop := ∃ earlier, t = earlier ++ [.sent [CAN, CAN]] ∧ NoCancel earlier

theorem Cancelled.after (h : Cancelled t') (quiet : NoCancel t) : Cancelled (t ++ t') := by
  obtain ⟨earlier, rfl, hearlier⟩ := h
  exact ⟨t ++ earlier, by simp, noCancel_append.mpr ⟨quiet, hearlier⟩⟩

theorem Cancelled.endsWithCancel (h : Cancelled t) : EndsWithCancel t := by
  obtain ⟨earlier, rfl, quiet⟩ := h
  refine ⟨⟨(writes earlier).flatten, by simp⟩, fun before later split => ?_⟩
  rcases List.eq_nil_or_concat later with rfl | ⟨later', last, rfl⟩
  · rfl
  · rw [List.concat_eq_append, ← List.cons_append, ← List.append_assoc] at split
    obtain ⟨rfl, _⟩ := List.append_inj' split rfl
    exact absurd (by simp) quiet.not_mem

theorem Cancelled.not_endsWithCancel (h : Cancelled t) (t₀ : List (Event UInt8)) (ne : t' ≠ []) :
    ¬ EndsWithCancel (t₀ ++ (t ++ t')) := by
  obtain ⟨earlier, rfl, _⟩ := h
  exact fun ends => ne (ends.quiet (t₀ ++ earlier) t' (by simp))

end Writing

section Search

variable {crc16 : Crc16Context} {o : Peer UInt8} {blksize left i j j' attempts : ℕ} {body : List UInt8}
  {found found' : Option (List UInt8)}

theorem block0Search_intact (h : (o i (2 + blksize + 2)).data? = some body) (ok : IsBlock0 crc16 blksize body) :
    Block0Search crc16 o blksize (left + 1) i found j ↔ found = some body ∧ j = i + 1 := by
  constructor
  · intro search
    cases search with
    | intact h' _ =>
      rw [h, Option.some.injEq] at h'
      exact ⟨by rw [h'], rfl⟩
    | bad h' bad _ =>
      rw [h, Option.some.injEq] at h'
      exact absurd (h' ▸ ok) bad
    | timedOut h' _ =>
      rw [h] at h'
      cases h'
  · rintro ⟨rfl, rfl⟩
    exact .intact h ok

theorem block0Search_bad (h : (o i (2 + blksize + 2)).data? = some body) (bad : ¬ IsBlock0 crc16 blksize body) :
    Block0Search crc16 o blksize (left + 1) i found j ↔ Block0Search crc16 o blksize left (i + 1) found j := by
  refine ⟨fun search => ?_, .bad h bad⟩
  cases search with
  | intact h' ok =>
    rw [h, Option.some.injEq] at h'
    exact absurd (h' ▸ ok) bad
  | bad _ _ rest => exact rest
  | timedOut h' _ =>
    rw [h] at h'
    cases h'

theorem block0Search_timedOut (h : (o i (2 + blksize + 2)).data? = none) :
    Block0Search crc16 o blksize (left + 1) i found j ↔
      Block0Search crc16 o blksize (left + 1) (i + 1) found j := by
  refine ⟨fun search => ?_, .timedOut h⟩
  cases search with
  | intact h' _ =>
    rw [h] at h'
    cases h'
  | bad h' _ _ =>
    rw [h] at h'
    cases h'
  | timedOut _ rest => exact rest

theorem Block0Search.unique (h : Block0Search crc16 o blksize left i found j)
    (h' : Block0Search crc16 o blksize left i found' j') : found = found' ∧ j = j' := by
  induction h with
  | refused i =>
    cases h'
    exact ⟨rfl, rfl⟩
  | intact hread ok =>
    obtain ⟨rfl, rfl⟩ := (block0Search_intact hread ok).mp h'
    exact ⟨rfl, rfl⟩
  | bad hread bad _ ih => exact ih ((block0Search_bad hread bad).mp h')
  | timedOut hread _ ih => exact ih ((block0Search_timedOut hread).mp h')

theorem Block0Search.isBlock0 (h : Block0Search crc16 o blksize left i (some body) j) :
    IsBlock0 crc16 blksize body := by
  generalize hfound : some body = found at h
  induction h with
  | refused i => cases hfound
  | intact _ ok =>
    obtain rfl := Option.some.inj hfound
    exact ok
  | bad _ _ _ ih => exact ih hfound
  | timedOut _ _ ih => exact ih hfound

theorem IsBlock0.length (h : IsBlock0 crc16 blksize body) : body.length = 2 + blksize + 2 := by
  obtain ⟨payload, rfl, rfl⟩ := h
  rw [frameBody_length, show checkSize true = 2 from rfl]
  omega

theorem findsBlock0_header {header : UInt8} {k : ℕ}
    (first : awaited o (fun _ => true) attempts i = (some header, k))
    (kind : header = SOH ∧ blksize = 128 ∨ header = STX ∧ blksize = 1024) :
    FindsBlock0 crc16 o attempts i found j ↔ Block0Search crc16 o blksize 10 k found j := by
  refine ⟨?_, fun search => ⟨header, k, blksize, first, kind, search⟩⟩
  rintro ⟨header', k', blksize', first', kind', search⟩
  obtain ⟨hheader, rfl⟩ := Prod.mk.inj (first.symm.trans first')
  obtain rfl := Option.some.inj hheader
  rcases kind with ⟨rfl, rfl⟩ | ⟨rfl, rfl⟩ <;> rcases kind' with ⟨h, rfl⟩ | ⟨h, rfl⟩
  · exact search
  · exact absurd h (by decide)
  · exact absurd h (by decide)
  · exact search

theorem FindsBlock0.unique (h : FindsBlock0 crc16 o attempts i found j)
    (h' : FindsBlock0 crc16 o attempts i found' j') : found = found' ∧ j = j' := by
  obtain ⟨header, k, blksize, first, kind, search⟩ := h
  exact search.unique ((findsBlock0_header first kind).mp h')

theorem findsBlock0_timedOut (h : (o i 1).data? = none) :
    FindsBlock0 crc16 o attempts (i + 1) found j ↔ FindsBlock0 crc16 o (attempts + 1) i found j := by
  have first : awaited o (fun _ => true) (attempts + 1) i = awaited o (fun _ => true) attempts (i + 1) := by
    rw [awaited, h]
  rw [FindsBlock0, FindsBlock0, first]

end Search

section Waiting

inductive Block0Ended (finds : Option (List UInt8) → ℕ → Prop) (pThis : ModemContext) (i : ℕ)
    (t : List (Event UInt8)) : LxmodemReceptionStatus → ModemContext → Prop
  | nothing {status : LxmodemReceptionStatus} {pThis' : ModemContext} (bad : status ≠ .recvOk)
      (h : ∀ found j, ¬ finds found j) (quiet : NoCancel t) : Block0Ended finds pThis i t status pThis'
  | refused {status : LxmodemReceptionStatus} {pThis' : ModemContext} (bad : status ≠ .recvOk)
      (h : finds none (i + reads t)) (cancelled : Cancelled t) : Block0Ended finds pThis i t status pThis'
  | found (body : List UInt8) (h : finds (some body) (i + reads t)) (quiet : NoCancel t) :
      Block0Ended finds pThis i t .recvOk (pThis.fill body)

variable {finds finds' : Option (List UInt8) → ℕ → Prop} {pThis pThis' : ModemContext} {o : Peer UInt8}
  {blksize fuel attempts i : ℕ} {t t₀ : List (Event UInt8)} {status : LxmodemReceptionStatus}

theorem Block0Ended.after (h : Block0Ended finds pThis (i + reads t₀) t status pThis') (quiet : NoCancel t₀)
    (same : ∀ found j, finds found j ↔ finds' found j) : Block0Ended finds' pThis i (t₀ ++ t) status pThis' := by
  have next : i + reads (t₀ ++ t) = i + reads t₀ + reads t := by
    rw [reads_append, Nat.add_assoc]
  cases h with
  | nothing bad none silent =>
    exact .nothing bad (fun found j h => none found j ((same _ _).mpr h)) (noCancel_append.mpr ⟨quiet, silent⟩)
  | refused bad finding cancelled =>
    refine .refused bad ?_ (cancelled.after quiet)
    rw [next]
    exact (same _ _).mp finding
  | found body finding silent =>
    refine .found body ?_ (noCancel_append.mpr ⟨quiet, silent⟩)
    rw [next]
    exact (same _ _).mp finding

theorem fill_covered {a b : List UInt8} (h : a.length ≤ b.length) (pThis : ModemContext) :
    (pThis.fill a).fill b = pThis.fill b := by
  simp only [ModemContext.fill, Memory.store_covered _ h]

theorem Block0Ended.unfill {written : List UInt8} (h : Block0Ended finds (pThis.fill written) i t status pThis')
    (covers : ∀ body j, finds (some body) j → written.length ≤ body.length) :
    Block0Ended finds pThis i t status pThis' := by
  cases h with
  | nothing bad none silent => exact .nothing bad none silent
  | refused bad finding cancelled => exact .refused bad finding cancelled
  | found body finding silent =>
    rw [fill_covered (covers _ _ finding)]
    exact .found body finding silent

abbrev block0Loop (blksize : ℕ) : ℕ → LymodemBlock0State → Program UInt8 LymodemBlock0State :=
  whileLoop (fun s => !s.bFinished) (lymodemReceiveBlock0Turn blksize)

variable {s s' : LymodemBlock0State} {written data : List UInt8}

theorem block0Loop_timedOut (running : s.bFinished = false) {size : written.length ≤ 2 + blksize + 2}
    (hread : o i (2 + blksize + 2) = .timedOut written size)
    (run : (block0Loop blksize (fuel + 1) s).run o i = (t, some s')) :
    ∃ rest, t = .timedOut (2 + blksize + 2) :: rest ∧
      (block0Loop blksize fuel { s with pThis := s.pThis.fill written }).run o (i + 1) = (rest, some s') := by
  rw [block0Loop, whileLoop_true fuel (by simpa using running)] at run
  obtain ⟨t₁, s₁, rest, first, run, rfl⟩ := Program.exists_of_run_bind run
  rw [lymodemReceiveBlock0Turn_outcome, hread] at first
  obtain ⟨rfl, hs⟩ := Prod.mk.inj first
  cases hs
  exact ⟨rest, rfl, run⟩

theorem block0Loop_received (running : s.bFinished = false) {size : data.length = 2 + blksize + 2}
    (hread : o i (2 + blksize + 2) = .received data size)
    (run : (block0Loop blksize (fuel + 1) s).run o i = (t, some s')) :
    ∃ rest, t = .received data :: block0Answers blksize s data ++ rest ∧
      (block0Loop blksize fuel (block0Checked blksize s data)).run o (i + 1) = (rest, some s') := by
  have one := (lymodemReceiveBlock0Turn_reads s).run
    (show (lymodemReceiveBlock0Turn blksize s).run o i = (_, some _) by
      rw [lymodemReceiveBlock0Turn_outcome, hread])
  rw [block0Loop, whileLoop_true fuel (by simpa using running)] at run
  obtain ⟨t₁, s₁, rest, first, run, rfl⟩ := Program.exists_of_run_bind run
  rw [lymodemReceiveBlock0Turn_outcome, hread] at first
  obtain ⟨rfl, hs⟩ := Prod.mk.inj first
  cases hs
  rw [one] at run
  exact ⟨rest, rfl, run⟩

theorem block0Loop_stopped (finished : s.bFinished = true)
    (run : (block0Loop blksize fuel s).run o i = (t, some s')) : t = [] ∧ s' = s := by
  obtain ⟨rfl, rfl⟩ := Program.run_whileLoop_false (by simpa using finished) run
  exact ⟨rfl, rfl⟩

theorem block0Answers_bad (bad : lxmodemCheckBlockNoAndCrc (s.pThis.fill data) 0 blksize ≠ .recvOk) :
    ∃ answer, CAN ∉ answer ∧ block0Answers blksize s data =
      .sent answer :: if s.retry + 1 ≥ 10 then [.sent [CAN, CAN]] else [] := by
  refine ⟨[if lxmodemCheckBlockNoAndCrc (s.pThis.fill data) 0 blksize = .recvPreviousBlock then ACK else NAK],
    ?_, by simp [block0Answers, bad]⟩
  split <;> decide

theorem block0Loop_ended (hp : s.pThis.protocol = .ymodem) (running : s.bFinished = false) (hr : s.retry < 10)
    (run : (block0Loop blksize fuel s).run o i = (t, some s')) :
    Block0Ended (Block0Search s.pThis.crc16 o blksize (10 - s.retry) i) s.pThis i t s'.rxStatus s'.pThis := by
  induction fuel generalizing s i t with
  | zero => simp [block0Loop, whileLoop] at run
  | succ fuel ih =>
    obtain ⟨left, hleft⟩ : ∃ left, 10 - s.retry = left + 1 := ⟨9 - s.retry, by omega⟩
    cases hread : o i (2 + blksize + 2) with
    | timedOut written size =>
      obtain ⟨more, rfl, later⟩ := block0Loop_timedOut running hread run
      have ended := @ih (i + 1) _ { s with pThis := s.pThis.fill written } hp running hr later
      refine Block0Ended.unfill (@Block0Ended.after _ _ _ _ i _ [.timedOut _] _ ended (by simp) ?_) ?_
      · intro found j
        rw [hleft]
        exact (block0Search_timedOut (by rw [hread]; rfl)).symm
      · intro body j search
        rw [search.isBlock0.length]
        exact size
    | received data size =>
      obtain ⟨more, rfl, later⟩ := block0Loop_received running hread run
      have hdata : (o i (2 + blksize + 2)).data? = some data := by rw [hread]; rfl
      have hcheck := isBlock0_iff hp size
      by_cases hok : lxmodemCheckBlockNoAndCrc (s.pThis.fill data) 0 blksize = .recvOk
      · obtain ⟨rfl, rfl⟩ := block0Loop_stopped (by simp [block0Checked, hok]) later
        have answers : block0Answers blksize s data = [.sent [ACK]] := by simp [block0Answers, hok]
        have status : (block0Checked blksize s data).rxStatus = .recvOk := hok
        rw [answers, status, hleft]
        exact .found data ((block0Search_intact hdata (hcheck.mpr hok)).mpr ⟨rfl, rfl⟩) (by simp; decide)
      have bad : ¬ IsBlock0 s.pThis.crc16 blksize data := fun h => hok (hcheck.mp h)
      obtain ⟨answer, quiet, answers⟩ := block0Answers_bad hok
      rw [answers]
      by_cases hten : s.retry + 1 ≥ 10
      · obtain ⟨rfl, rfl⟩ := block0Loop_stopped (by simp [block0Checked, hten]) later
        rw [if_pos hten, hleft, show left = 0 by omega]
        exact .refused hok (.bad hdata bad (.refused _)) ⟨[.received data, .sent answer], rfl, by simpa using quiet⟩
      · have continues : (block0Checked blksize s data).bFinished = false := by
          simp [block0Checked, hok, hten, running]
        have retry : (block0Checked blksize s data).retry = s.retry + 1 := if_neg hok
        have ended := @ih (i + 1) _ (block0Checked blksize s data) hp continues (by omega) later
        rw [if_neg hten]
        refine Block0Ended.unfill (@Block0Ended.after _ _ _ _ i _ [.received data, .sent answer] _ ended ?_ ?_) ?_
        · simpa using quiet
        · intro found j
          rw [retry, hleft, show 10 - (s.retry + 1) = left by omega]
          exact (block0Search_bad hdata bad).symm
        · intro body j search
          rw [search.isBlock0.length]
          exact size.le

theorem lymodemReceiveBlock0_ended (hp : pThis.protocol = .ymodem)
    (run : (lymodemReceiveBlock0 fuel pThis blksize).run o i = (t, some (status, pThis'))) :
    Block0Ended (Block0Search pThis.crc16 o blksize 10 i) pThis i t status pThis' := by
  obtain ⟨s, loop, hresult⟩ := Program.exists_of_run_map run
  cases hresult
  exact @block0Loop_ended o blksize fuel i t ⟨pThis, false, .recvError, 0⟩ s hp rfl (show 0 < 10 by decide) loop

theorem lymodemWaitBlock0_ended (hp : pThis.protocol = .ymodem)
    (run : (lymodemWaitBlock0 fuel pThis attempts).run o i = (t, some (status, pThis'))) :
    Block0Ended (FindsBlock0 pThis.crc16 o attempts i) pThis i t status pThis' := by
  induction attempts generalizing i t with
  | zero =>
    obtain ⟨rfl, hresult⟩ := Prod.mk.inj run
    cases hresult
    refine .nothing (by decide) ?_ noCancel_nil
    rintro found j ⟨header, k, blksize, first, _⟩
    simp [awaited] at first
  | succ attempts ih =>
    rw [lymodemWaitBlock0, getchars_bind] at run
    obtain ⟨rest, rfl, later⟩ := Program.exists_of_run_read run
    cases hread : o i 1 with
    | timedOut written size =>
      rw [hread] at later
      refine @Block0Ended.after _ _ _ _ i _ [.timedOut 1] _ (ih later) (by simp) fun found j => ?_
      exact findsBlock0_timedOut (by rw [hread]; rfl)
    | received data size =>
      rw [hread] at later
      have first : awaited o (fun _ => true) (attempts + 1) i = (some (data.headD 0), i + 1) := by
        rw [awaited, hread]
        rfl
      have block {blksize : ℕ} (kind : data.headD 0 = SOH ∧ blksize = 128 ∨ data.headD 0 = STX ∧ blksize = 1024)
          (run : (lymodemReceiveBlock0 fuel pThis blksize).run o (i + 1) = (rest, some (status, pThis'))) :
          Block0Ended (FindsBlock0 pThis.crc16 o (attempts + 1) i) pThis i (.received data :: rest) status pThis' := by
        refine @Block0Ended.after _ _ _ _ i _ [.received data] _ (lymodemReceiveBlock0_ended hp run) (by simp) ?_
        exact fun found j => (findsBlock0_header first kind).symm
      change (ite _ _ (ite _ _ _) : Program UInt8 (LxmodemReceptionStatus × ModemContext)).run o (i + 1) = _ at later
      split_ifs at later with hsoh hstx
      · exact block (Or.inl ⟨hsoh, rfl⟩) later
      · exact block (Or.inr ⟨hstx, rfl⟩) later
      · obtain ⟨rfl, hresult⟩ := Prod.mk.inj later
        cases hresult
        refine .nothing (by decide) ?_ (by simp [Reply.event])
        rintro found j ⟨header, k, blksize, first', kind, _⟩
        obtain ⟨hheader, _⟩ := Prod.mk.inj (first.symm.trans first')
        rw [← Option.some.inj hheader] at kind
        rcases kind with ⟨h, _⟩ | ⟨h, _⟩
        · exact hsoh h
        · exact hstx h

end Waiting

section Data

variable {pThis : ModemContext} {o : Peer UInt8} {fuel i : ℕ} {t : List (Event UInt8)}
  {s s₀ : LxmodemReceiveState}

structure DataRunning (t : List (Event UInt8)) (s : LxmodemReceiveState) : Prop where
  cancels : s.canCharReceived ≤ (headersRead t).count CAN
  bytes : s.receivedBytes.toNat % 128 = 0
  quiet : NoCancel t
  unended : EOT ∉ headersRead t

inductive DataEnded (t : List (Event UInt8)) (s : LxmodemReceiveState) : Prop
  | endOfFile (ended : EOT ∈ headersRead t) (succeeded : s.receivedBytes.toInt32 ≠ -1)
  | interrupted (unended : EOT ∉ headersRead t) (failed : s.receivedBytes = -1)
      (cancels : 2 ≤ (headersRead t).count CAN)
  | cancelled (unended : EOT ∉ headersRead t) (failed : s.receivedBytes = -1) (cancelled : Cancelled t)

theorem foldl_countCancel_le (headers : List UInt8) (n : ℕ) :
    headers.foldl countCancel n ≤ n + headers.count CAN := by
  induction headers generalizing n with
  | nil => exact Nat.le_refl n
  | cons header headers ih =>
    have hheader : countCancel n header + headers.count CAN ≤ n + (header :: headers).count CAN := by
      rw [countCancel]
      split_ifs with hcan hother
      · rw [hcan, List.count_cons_self]
        omega
      · rw [List.count_cons]
        omega
      · rw [List.count_cons]
        omega
    exact (ih _).trans hheader

theorem ReceiveFailure.noCancel (hf : ReceiveFailure s t s₀) : NoCancel t := by
  cases hf <;> simp <;> decide

theorem ReceiveFailure.unended (hf : ReceiveFailure s t s₀) : EOT ∉ headersRead t := by
  cases hf with
  | silence => simp
  | noise header h => simpa using fun heot => h (by simp [← heot])
  | unsupported h => simp; decide
  | cancel h => simp; decide
  | secondCancel h => simp; decide
  | lost header blksize written kind size => simpa using kind.ne_EOT.symm
  | bad header blksize body kind size status =>
    rw [headersRead_header, headersRead_body (kind.body_length_ne size)]
    simpa using kind.ne_EOT.symm
  | repeated header blksize body kind size status =>
    rw [headersRead_header, headersRead_body (kind.body_length_ne size)]
    simpa using kind.ne_EOT.symm

structure DataReceived (t : List (Event UInt8)) (s : LxmodemReceiveState) : Prop where
  running : s.bFinished = false → DataRunning t s
  finished : s.bFinished = true → DataEnded t s

theorem DataRunning.failure (h : DataRunning t s) (running : s.bFinished = false) {t' : List (Event UInt8)}
    (hf : ReceiveFailure s t' s₀) : DataReceived (t ++ (t' ++ s₀.retryEvents)) s₀.retried := by
  have hheaders : headersRead (t ++ (t' ++ s₀.retryEvents)) = headersRead t ++ headersRead t' := by simp
  have unended : EOT ∉ headersRead (t ++ (t' ++ s₀.retryEvents)) := by
    rw [hheaders, List.mem_append, not_or]
    exact ⟨h.unended, hf.unended⟩
  have quiet : NoCancel (t ++ t') := noCancel_append.mpr ⟨h.quiet, hf.noCancel⟩
  rcases Nat.lt_or_ge (s₀.nbRetry + 1) 10 with early | late
  · rw [retried_early early]
    obtain ⟨finished, failed, hcan, one⟩ | ⟨continues, bytes, _⟩ := hf.cancelled running
    · refine ⟨fun hrun => ?_, fun _ => .interrupted unended failed ?_⟩
      · change s₀.bFinished = false at hrun
        rw [finished] at hrun
        cases hrun
      · rw [hheaders, hcan, List.count_append, List.count_singleton_self]
        have := h.cancels
        omega
    · refine ⟨fun _ => ⟨?_, ?_, ?_, unended⟩, fun hfin => ?_⟩
      · have := foldl_countCancel_le (headersRead t') s.canCharReceived
        have := h.cancels
        rw [hheaders, List.count_append]
        change s₀.canCharReceived ≤ _
        rw [hf.counted.1]
        omega
      · change s₀.receivedBytes.toNat % 128 = 0
        rw [bytes]
        exact h.bytes
      · rw [retryEvents_early early, List.append_nil]
        exact quiet
      · change s₀.bFinished = true at hfin
        rw [continues] at hfin
        cases hfin
  · rw [retried_late late]
    refine ⟨(fun hrun => by cases hrun), fun _ => .cancelled unended rfl ?_⟩
    exact ⟨t ++ t', by rw [retryEvents_late late, List.append_assoc], quiet⟩

theorem DataRunning.unended_block (h : DataRunning t s) {header : UInt8} {payload : List UInt8}
    (kind : FrameKind s.pThis header payload.length) {more : List (Event UInt8)} (none : headersRead more = []) :
    EOT ∉ headersRead (t ++ .received [header] :: .received (s.body payload) :: more) := by
  rw [headersRead_append, headersRead_stored kind, none, List.mem_append, List.mem_singleton, not_or]
  exact ⟨h.unended, kind.ne_EOT.symm⟩

theorem DataRunning.round (h : DataRunning t s) (running : s.bFinished = false) {t' : List (Event UInt8)}
    {s' : LxmodemReceiveState} (step : ReceiveStep s t' s') : DataReceived (t ++ t') s' := by
  cases step with
  | failure hf => exact h.failure running hf
  | stored header payload kind accepts =>
    refine ⟨fun _ => ⟨Nat.zero_le _, kind.stored_bytes h.bytes _, ?_, h.unended_block kind rfl⟩, fun hfin => ?_⟩
    · exact noCancel_append.mpr ⟨h.quiet, by simp; decide⟩
    · change s.bFinished = true at hfin
      rw [running] at hfin
      cases hfin
  | overflowed header payload kind refuses =>
    refine ⟨(fun hrun => by cases hrun), fun _ => .cancelled (h.unended_block kind rfl) rfl ?_⟩
    refine ⟨t ++ [.received [header], .received (s.body payload), .sent [ACK]], by simp, ?_⟩
    exact noCancel_append.mpr ⟨h.quiet, by simp; decide⟩
  | endOfFile =>
    refine ⟨(fun hrun => by cases hrun), fun _ => .endOfFile ?_ (result_ne_error h.bytes)⟩
    simp

theorem lxmodemReceiveLoop_ended (pThis : ModemContext) (fuel : ℕ) :
    (lxmodemReceiveLoop fuel (.initial pThis)).Ensures DataEnded := by
  have start : DataReceived [] (.initial pThis) :=
    ⟨fun _ => ⟨Nat.zero_le _, rfl, noCancel_nil, by simp⟩, fun hfin => by cases hfin⟩
  refine (ensures_whileLoop DataReceived ?_ fuel start).mono fun t s ⟨received, hc⟩ => ?_
  · intro t s received hc
    have running : s.bFinished = false := by simpa using hc
    exact (lxmodemReceiveTurn_steps s).mono fun t' s' step => (received.running running).round running step
  · exact received.finished (by simpa using hc)

theorem readsEndOfFile_iff (run : (lxmodemReceiveLoop fuel (.initial pThis)).run o i = (t, some s)) :
    ReadsEndOfFile pThis o i ↔ EOT ∈ headersRead t := by
  refine ⟨?_, fun ended => ⟨fuel, t, s, run, ended⟩⟩
  rintro ⟨fuel', t', s', run', ended⟩
  have growing : Growing fun fuel => lxmodemReceiveLoop fuel (.initial pThis) :=
    fun _ _ hle => Program.extends_whileLoop _ _ hle _
  rw [(growing.run_eq run run').1]
  exact ended

end Data

section Calls

variable {pThis pThis' : ModemContext} {o : Peer UInt8} {fuel i : ℕ} {t : List (Event UInt8)}

theorem tellsSender_iff {n : Int32} (few : (headersRead t).count CAN < 2) :
    TellsSender t n ↔ (n = -1 → EndsWithCancel t) :=
  ⟨fun tells failed => tells failed few, fun ends failed _ => ends failed⟩

theorem noCancel_preambule (pThis : ModemContext) : NoCancel [.sent [preambule pThis]] := by
  have other : CAN ≠ preambule pThis := by
    rw [preambule]
    split <;> decide
  simpa using other

theorem lxmodemReceive_tells {n : Int32} (run : (lxmodemReceive fuel pThis).run o i = (t, some (n, pThis'))) :
    TellsSender t n := by
  obtain ⟨rest, s, rfl, loop, rfl, _⟩ := lxmodemReceive_run run
  intro failed few
  cases (lxmodemReceiveLoop_ended pThis fuel).run loop with
  | endOfFile _ succeeded => exact absurd failed succeeded
  | interrupted _ _ cancels => exact absurd cancels (Nat.not_le.mpr few)
  | cancelled _ _ cancelled => exact (cancelled.after (noCancel_preambule pThis)).endsWithCancel

theorem lymodemReceiveData_failed {status : LxmodemReceptionStatus} {n : UInt32}
    (bad : ¬ (status = .recvOk ∧ (lymodemDecodeBlock0 pThis).2 = true))
    (run : (lymodemReceiveData fuel status pThis).run o i = (t, some (n, pThis'))) : t = [] ∧ n.toInt32 = -1 := by
  rw [lymodemReceiveData_eq] at run
  split_ifs at run with hok accepted
  · exact absurd ⟨hok, accepted⟩ bad
  all_goals
    obtain ⟨rfl, hresult⟩ := Prod.mk.inj run
    cases hresult
    exact ⟨rfl, rfl⟩

theorem lymodemBlockNextFile_events {p : ModemContext} (run : (lymodemBlockNextFile p).run o i = (t, some pThis')) :
    t ≠ [] := by
  rw [lymodemBlockNextFile, lxmodemBuildAndSendPreambule, putchars_bind] at run
  obtain ⟨rest, rfl, _⟩ := Program.exists_of_run_write run
  exact List.cons_ne_nil _ _

theorem lymodemReceiveData_ended {n : UInt32} (accepted : (lymodemDecodeBlock0 pThis).2 = true)
    (run : (lymodemReceiveData fuel .recvOk pThis).run o i = (t, some (n, pThis'))) :
    ReadsEndOfFile (lymodemDecodeBlock0 pThis).1 o i ∧ n.toInt32 ≠ -1 ∨
      ¬ ReadsEndOfFile (lymodemDecodeBlock0 pThis).1 o i ∧ n.toInt32 = -1 ∧
        (2 ≤ (headersRead t).count CAN ∨ ∀ t₀, ¬ EndsWithCancel (t₀ ++ t)) := by
  rw [lymodemReceiveData_eq, if_pos rfl, if_pos accepted] at run
  obtain ⟨t₁, ⟨received, p⟩, t₂, data, later, rfl⟩ := Program.exists_of_run_bind run
  obtain ⟨p', next, hresult⟩ := Program.exists_of_run_map later
  cases hresult
  obtain ⟨rest, s, rfl, loop, rfl, _⟩ := lxmodemReceive_run data
  have hn : s.receivedBytes.toInt32.toUInt32.toInt32 = s.receivedBytes.toInt32 := Int32.toInt32_toUInt32 _
  rw [readsEndOfFile_iff loop, hn]
  cases (lxmodemReceiveLoop_ended _ fuel).run loop with
  | endOfFile ended succeeded => exact Or.inl ⟨ended, succeeded⟩
  | interrupted unended failed cancels =>
    refine Or.inr ⟨unended, by rw [failed]; rfl, Or.inl ?_⟩
    rw [headersRead_append, headersRead_sent, List.count_append]
    omega
  | cancelled unended failed cancelled =>
    refine Or.inr ⟨unended, by rw [failed]; rfl, Or.inr fun t₀ => ?_⟩
    have later := lymodemBlockNextFile_events next
    simpa using (cancelled.after (noCancel_preambule _)).not_endsWithCancel t₀ later

theorem FindsBlock0.ymodemTells_iff {body : List UInt8} {j : ℕ}
    (finds : FindsBlock0 pThis.crc16 o 10 0 (some body) j) :
    YmodemTells pThis o ↔ (lymodemDecodeBlock0 (pThis.fill body)).2 = true ∧
      ReadsEndOfFile (lymodemDecodeBlock0 (pThis.fill body)).1 o j := by
  refine ⟨?_, fun h => Or.inr ⟨body, j, finds, h⟩⟩
  rintro (⟨j', finds'⟩ | ⟨body', j', finds', h⟩)
  · cases (finds.unique finds').1
  · obtain ⟨hbody, rfl⟩ := finds.unique finds'
    rw [Option.some.inj hbody]
    exact h

theorem lymodemReceive_tells {n : Int32}
    (run : (lmodemReceive .ymodem fuel pThis).run o 0 = (t, some (n, pThis')))
    (few : (headersRead t).count CAN < 2) :
    TellsSender t n ↔ YmodemTells { pThis with protocol := .ymodem } o := by
  rw [lmodemReceive_ymodem] at run
  obtain ⟨rest, rfl, started⟩ := Program.exists_of_run_write run
  obtain ⟨t₁, ⟨status, p⟩, t₂, wait, later, rfl⟩ := Program.exists_of_run_bind started
  obtain ⟨⟨received, p'⟩, data, hresult⟩ := Program.exists_of_run_map later
  cases hresult
  rw [tellsSender_iff few]
  have request : NoCancel [.sent [charC]] := by
    simp
    decide
  cases lymodemWaitBlock0_ended rfl wait with
  | nothing bad none quiet =>
    obtain ⟨rfl, failed⟩ := lymodemReceiveData_failed (fun h => bad h.1) data
    apply iff_of_false
    · intro ends
      exact (noCancel_append.mpr ⟨request, quiet⟩).not_endsWithCancel (by simpa using ends failed)
    · rintro (⟨j, finds⟩ | ⟨body, j, finds, _⟩)
      · exact none _ _ finds
      · exact none _ _ finds
  | refused bad finds cancelled =>
    obtain ⟨rfl, failed⟩ := lymodemReceiveData_failed (fun h => bad h.1) data
    apply iff_of_true
    · intro _
      simpa using (cancelled.after request).endsWithCancel
    · exact Or.inl ⟨_, finds⟩
  | found body finds quiet =>
    rw [finds.ymodemTells_iff]
    by_cases accepted : (lymodemDecodeBlock0
        (ModemContext.fill { pThis with protocol := .ymodem } body)).2 = true
    · obtain ⟨ended, succeeded⟩ | ⟨unended, failed, interrupted⟩ := lymodemReceiveData_ended accepted data
      · exact iff_of_true (fun failed => absurd failed succeeded) ⟨accepted, ended⟩
      · refine iff_of_false (fun ends => ?_) (fun h => unended h.2)
        rcases interrupted with cancels | unfinished
        · rw [headersRead_sent, headersRead_append, List.count_append] at few
          omega
        · exact unfinished (.sent [charC] :: t₁) (by simpa using ends failed)
    · obtain ⟨rfl, failed⟩ := lymodemReceiveData_failed (fun h => accepted h.2) data
      refine iff_of_false (fun ends => ?_) (fun h => accepted h.1)
      exact (noCancel_append.mpr ⟨request, quiet⟩).not_endsWithCancel (by simpa using ends failed)

end Calls

/-- A receiver that fails without being cancelled cancels last exactly when it speaks XMODEM, or ten blocks
come instead of block 0, or a block 0 that is accepted and data that has an end. -/
theorem lmodemReceive_tells_iff (protocol : LmodemProtocol) (pThis : ModemContext) (o : Peer UInt8)
    {t : List (Event UInt8)} {n : Int32} {pThis' : ModemContext}
    (h : Returns (fun fuel => lmodemReceive protocol fuel pThis) o t (n, pThis')) :
    TellsSender t n ↔ protocol = .xmodem ∨ 2 ≤ (headersRead t).count CAN ∨
      YmodemTells { pThis with protocol := .ymodem } o := by
  obtain ⟨fuel, run⟩ := h
  rcases Nat.lt_or_ge ((headersRead t).count CAN) 2 with few | many
  · cases protocol with
    | xmodem => exact iff_of_true (lxmodemReceive_tells run) (Or.inl rfl)
    | ymodem =>
      rw [lymodemReceive_tells run few]
      constructor
      · exact fun tells => Or.inr (Or.inr tells)
      · rintro (h | many | tells)
        · cases h
        · exact absurd many (Nat.not_le.mpr few)
        · exact tells
  · exact iff_of_true (fun _ few => absurd many (Nat.not_le.mpr few)) (Or.inr (Or.inl many))

theorem lmodemReceive_tells_silence :
    ∃ t pThis', Returns (fun fuel => lmodemReceive .xmodem fuel smallReceiver) (.scripted []) t (-1, pThis') ∧
      EndsWithCancel t := by
  have headers : headersRead ((lmodemReceive .xmodem 11 smallReceiver).run (.scripted []) 0).1 = [] := by
    decide +kernel
  have result : ((lmodemReceive .xmodem 11 smallReceiver).run (.scripted []) 0).2.map Prod.fst = some (-1) := by
    decide +kernel
  obtain ⟨⟨n, pThis'⟩, returns, rfl⟩ :=
    @returns_of_run _ _ _ (fun fuel => lmodemReceive .xmodem fuel smallReceiver) _ _ _ 11 result
  have tells := (lmodemReceive_tells_iff .xmodem smallReceiver (.scripted []) returns).mpr (Or.inl rfl)
  exact ⟨_, pThis', returns, tells rfl (by rw [headers]; decide)⟩

theorem lmodemReceive_tells_nothing :
    ∃ t pThis', Returns (fun fuel => lmodemReceive .ymodem fuel ymodemReceiver) (.scripted []) t (-1, pThis') ∧
      ¬ TellsSender t (-1) := by
  have events : ((lmodemReceive .ymodem 1 ymodemReceiver).run (.scripted []) 0).1 =
      .sent [charC] :: List.replicate 10 (.timedOut 1) := by
    decide +kernel
  have result : ((lmodemReceive .ymodem 1 ymodemReceiver).run (.scripted []) 0).2.map Prod.fst = some (-1) := by
    decide +kernel
  obtain ⟨⟨n, pThis'⟩, returns, rfl⟩ :=
    @returns_of_run _ _ _ (fun fuel => lmodemReceive .ymodem fuel ymodemReceiver) _ _ _ 1 result
  refine ⟨_, pThis', returns, fun tells => ?_⟩
  rw [events] at tells
  have quiet : NoCancel (.sent [charC] :: List.replicate 10 (.timedOut 1)) := by
    unfold NoCancel
    decide
  exact quiet.not_endsWithCancel (tells rfl (by decide))

end LightModem
