import LightModem.Receipt

set_option autoImplicit false

namespace LightModem

open Interaction

def headersRead (t : List (Event UInt8)) : List UInt8 :=
  t.filterMap (fun e => match e with
    | .received [header] => some header
    | _ => none)

def countCancel (n : ℕ) (header : UInt8) : ℕ :=
  if header = CAN then n + 1 else if header ∈ [SOH, STX, EOT] then 0 else n

/-- The cancels since the last header of another kind, bytes that are no headers aside. -/
def cancelsCounted (headers : List UInt8) : ℕ := headers.foldl countCancel 0

/-- The last header is a cancel, which follows another one with bytes between them that are no headers. -/
def StrayCancel (headers : List UInt8) : Prop :=
  ∃ earlier noise, headers = earlier ++ CAN :: (noise ++ [CAN]) ∧ noise ≠ [] ∧
    ∀ b ∈ noise, b ∉ [SOH, STX, EOT, CAN]

section Headers

variable {t t' : List (Event UInt8)} {headers : List UInt8} {b : UInt8}

@[simp] theorem headersRead_nil : headersRead [] = [] := rfl

@[simp] theorem headersRead_append : headersRead (t ++ t') = headersRead t ++ headersRead t' :=
  List.filterMap_append

@[simp] theorem headersRead_header (header : UInt8) (t : List (Event UInt8)) :
    headersRead (.received [header] :: t) = header :: headersRead t := rfl

@[simp] theorem headersRead_sent (data : List UInt8) (t : List (Event UInt8)) :
    headersRead (.sent data :: t) = headersRead t := rfl

@[simp] theorem headersRead_timedOut (n : ℕ) (t : List (Event UInt8)) :
    headersRead (.timedOut n :: t) = headersRead t := rfl

theorem headersRead_body {body : List UInt8} (h : body.length ≠ 1) (t : List (Event UInt8)) :
    headersRead (.received body :: t) = headersRead t := by
  match body, h with
  | [], _ => rfl
  | [_], h => exact absurd rfl h
  | _ :: _ :: _, _ => rfl

theorem cancelsCounted_concat (headers : List UInt8) (b : UInt8) :
    cancelsCounted (headers ++ [b]) = countCancel (cancelsCounted headers) b := by
  rw [cancelsCounted, List.foldl_append]
  rfl

theorem exists_cancel (h : 1 ≤ cancelsCounted headers) :
    ∃ earlier noise, headers = earlier ++ CAN :: noise ∧ ∀ b ∈ noise, b ∉ [SOH, STX, EOT, CAN] := by
  induction headers using List.reverseRecOn with
  | nil => exact absurd h (by decide)
  | append_singleton headers b ih =>
    rw [cancelsCounted_concat, countCancel] at h
    split_ifs at h with hcan hheader
    · exact ⟨headers, [], by rw [hcan], by simp⟩
    · omega
    · obtain ⟨earlier, noise, rfl, hnoise⟩ := ih h
      refine ⟨earlier, noise ++ [b], by simp, ?_⟩
      intro c hc
      rcases List.mem_append.mp hc with hc | hc
      · exact hnoise c hc
      · rw [List.mem_singleton.mp hc]
        simp only [List.mem_cons, List.not_mem_nil, or_false, not_or] at hheader ⊢
        exact ⟨hheader.1, hheader.2.1, hheader.2.2, hcan⟩

theorem not_adjacent (few : ∀ p, p <+: headers → cancelsCounted p ≤ 1) : ¬ [CAN, CAN] <:+: headers := by
  rintro ⟨earlier, later, rfl⟩
  have two := few (earlier ++ [CAN] ++ [CAN]) ⟨later, by simp⟩
  rw [cancelsCounted_concat, cancelsCounted_concat, countCancel, if_pos rfl, countCancel, if_pos rfl] at two
  omega

theorem getLast?_noise {noise : List UInt8} (hne : noise ≠ []) (h : ∀ b ∈ noise, b ∉ [SOH, STX, EOT, CAN])
    (earlier : List UInt8) : (earlier ++ noise).getLast? ≠ some CAN := by
  rw [List.getLast?_append_of_ne_nil _ hne]
  intro hlast
  exact h CAN (List.mem_of_getLast? hlast) (by simp)

theorem adjacent_iff_last (few : ∀ p, p <+: headers → cancelsCounted p ≤ 1) :
    [CAN, CAN] <:+: headers ++ [CAN] ↔ headers.getLast? = some CAN := by
  rw [List.infix_concat_iff, List.getLast?_eq_some_iff]
  constructor
  · rintro (⟨earlier, hsuffix⟩ | adjacent)
    · refine ⟨earlier, ?_⟩
      have split : (earlier ++ [CAN]) ++ [CAN] = headers ++ [CAN] := by simpa using hsuffix
      exact (List.append_cancel_right split).symm
    · exact absurd adjacent (not_adjacent few)
  · rintro ⟨earlier, rfl⟩
    exact Or.inl ⟨earlier, by simp⟩

theorem strayCancel_iff_last (one : 1 ≤ cancelsCounted headers) :
    StrayCancel (headers ++ [CAN]) ↔ headers.getLast? ≠ some CAN := by
  constructor
  · rintro ⟨earlier, noise, hstray, hne, hnoise⟩
    have split : headers ++ [CAN] = (earlier ++ [CAN] ++ noise) ++ [CAN] := by simpa using hstray
    rw [List.append_cancel_right split]
    exact getLast?_noise hne hnoise _
  · intro hlast
    obtain ⟨earlier, noise, rfl, hnoise⟩ := exists_cancel one
    refine ⟨earlier, noise, by simp, ?_, hnoise⟩
    rintro rfl
    exact hlast (by simp)

end Headers

section Trailing

variable {α : Type} {p : α → Prop} {l : List α} {a : α} {n : ℕ}

def Trailing (p : α → Prop) (l : List α) (n : ℕ) : Prop :=
  ∃ earlier run, l = earlier ++ run ∧ run.length = n ∧ (∀ a ∈ run, p a) ∧
    ∀ a, earlier.getLast? = some a → ¬ p a

theorem trailing_nil (p : α → Prop) : Trailing p [] 0 := ⟨[], [], rfl, rfl, by simp, by simp⟩

theorem Trailing.concat (h : Trailing p l n) (ha : p a) : Trailing p (l ++ [a]) (n + 1) := by
  obtain ⟨earlier, run, rfl, rfl, hrun, hearlier⟩ := h
  refine ⟨earlier, run ++ [a], by simp, by simp, ?_, hearlier⟩
  intro b hb
  rcases List.mem_append.mp hb with hb | hb
  · exact hrun b hb
  · rw [List.mem_singleton.mp hb]
    exact ha

theorem trailing_concat (ha : ¬ p a) : Trailing p (l ++ [a]) 0 := by
  refine ⟨l ++ [a], [], by simp, rfl, by simp, ?_⟩
  intro b hb
  rw [List.getLast?_concat, Option.some.injEq] at hb
  exact hb ▸ ha

theorem Trailing.suffix_iff (h : Trailing p l n) {k : ℕ} :
    (∃ run, run <:+ l ∧ run.length = k ∧ ∀ a ∈ run, p a) ↔ k ≤ n := by
  obtain ⟨earlier, run, rfl, rfl, hrun, hearlier⟩ := h
  constructor
  · rintro ⟨run', hsuffix, rfl, hrun'⟩
    by_contra longer
    obtain ⟨more, rfl⟩ := List.suffix_of_suffix_length_le (List.suffix_append earlier run) hsuffix (by omega)
    obtain ⟨rest, hrest⟩ := hsuffix
    rw [← List.append_assoc] at hrest
    obtain rfl := List.append_cancel_right hrest
    rw [List.length_append] at longer
    have hne : more ≠ [] := by
      rintro rfl
      simp at longer
    apply hearlier (more.getLast hne)
    · rw [List.getLast?_append_of_ne_nil _ hne, List.getLast?_eq_some_getLast hne]
    · exact hrun' _ (List.mem_append_left _ (List.getLast_mem hne))
  · intro hk
    refine ⟨run.drop (run.length - k), ?_, by simp; omega, fun a ha => hrun a (List.mem_of_mem_drop ha)⟩
    exact (List.drop_suffix _ run).trans (List.suffix_append earlier run)

end Trailing

def Fruitless (r : Round UInt8 LxmodemReceiveState) : Prop :=
  (¬ ∃ body payload, StoresBlock r body payload) ∧ r.events.head? ≠ some (.received [EOT])

def TenFailures (l : List (Round UInt8 LxmodemReceiveState)) : Prop :=
  ∃ run, run <:+ l ∧ run.length = 10 ∧ ∀ r ∈ run, Fruitless r

def WriteFails (r : Round UInt8 LxmodemReceiveState) : Prop :=
  ∃ body payload, AnswersBlock r body payload [ACK] ∧ body = r.before.body payload ∧ ¬ StoresBlock r body payload

/-- A call that fails has read two cancels in a row, or has failed ten times in a row, or could not store
a block. -/
def CancelsRightly (l : List (Round UInt8 LxmodemReceiveState)) (s : LxmodemReceiveState) : Prop :=
  s.receivedBytes.toInt32 = -1 → ¬ TenFailures l → (∀ r ∈ l, ¬ WriteFails r) →
    [CAN, CAN] <:+: headersRead (roundEvents l)

section Rounds

variable {pThis : ModemContext} {o : Peer UInt8} {l : List (Round UInt8 LxmodemReceiveState)}
  {r : Round UInt8 LxmodemReceiveState} {s s' s₀ : LxmodemReceiveState} {t : List (Event UInt8)}
  {payload : List UInt8} {header : UInt8}

theorem FrameKind.body_length_ne {blksize : ℕ} (kind : FrameKind s.pThis header blksize) {body : List UInt8}
    (size : body.length = bodySize s.pThis blksize) : body.length ≠ 1 := by
  have := kind.size
  rw [size, bodySize]
  omega

@[simp] theorem headersRead_retryEvents (s : LxmodemReceiveState) : headersRead s.retryEvents = [] := by
  rw [LxmodemReceiveState.retryEvents]
  split <;> rfl

@[simp] theorem retried_canCharReceived (s : LxmodemReceiveState) :
    s.retried.canCharReceived = s.canCharReceived := by
  rw [LxmodemReceiveState.retried]
  split <;> rfl

theorem FrameKind.ne_EOT {blksize : ℕ} (kind : FrameKind s.pThis header blksize) : header ≠ EOT := by
  rcases kind with ⟨rfl, _⟩ | ⟨rfl, _⟩ <;> decide

theorem FrameKind.countCancel_eq {blksize : ℕ} (kind : FrameKind s.pThis header blksize) (n : ℕ) :
    countCancel n header = 0 := by
  rcases kind with ⟨rfl, _⟩ | ⟨rfl, _⟩ <;> rfl

theorem countCancel_noise (h : header ∉ [SOH, STX, EOT, CAN]) (n : ℕ) : countCancel n header = n := by
  simp only [List.mem_cons, List.not_mem_nil, or_false, not_or] at h
  rw [countCancel, if_neg h.2.2.2, if_neg (by simp [h])]

theorem ReceiveFailure.counted (hf : ReceiveFailure s t s₀) :
    s₀.canCharReceived = (headersRead t).foldl countCancel s.canCharReceived ∧ (headersRead t).length ≤ 1 := by
  cases hf with
  | silence => exact ⟨rfl, Nat.zero_le _⟩
  | noise header h => exact ⟨(countCancel_noise h _).symm, Nat.le_refl _⟩
  | unsupported h => exact ⟨rfl, Nat.le_refl _⟩
  | cancel h => exact ⟨rfl, Nat.le_refl _⟩
  | secondCancel h => exact ⟨rfl, Nat.le_refl _⟩
  | lost header blksize written kind size => exact ⟨(kind.countCancel_eq _).symm, Nat.le_refl _⟩
  | bad header blksize body kind size status =>
    rw [headersRead_header, headersRead_body (kind.body_length_ne size)]
    exact ⟨(kind.countCancel_eq _).symm, Nat.le_refl _⟩
  | repeated header blksize body kind size status =>
    rw [headersRead_header, headersRead_body (kind.body_length_ne size)]
    exact ⟨(kind.countCancel_eq _).symm, Nat.le_refl _⟩

theorem ReceiveFailure.cancelled (hf : ReceiveFailure s t s₀) (running : s.bFinished = false) :
    s₀.bFinished = true ∧ s₀.receivedBytes = -1 ∧ headersRead t = [CAN] ∧ 1 ≤ s.canCharReceived ∨
      s₀.bFinished = false ∧ s₀.receivedBytes = s.receivedBytes ∧
        (s.canCharReceived ≤ 1 → s₀.canCharReceived ≤ 1) := by
  cases hf with
  | secondCancel h => exact Or.inl ⟨rfl, rfl, rfl, by omega⟩
  | cancel h => exact Or.inr ⟨running, rfl, fun _ => show s.canCharReceived + 1 ≤ 1 by omega⟩
  | silence => exact Or.inr ⟨running, rfl, id⟩
  | noise header h => exact Or.inr ⟨running, rfl, id⟩
  | unsupported h => exact Or.inr ⟨running, rfl, fun _ => Nat.zero_le _⟩
  | lost header blksize written kind size => exact Or.inr ⟨running, rfl, fun _ => Nat.zero_le _⟩
  | bad header blksize body kind size status => exact Or.inr ⟨running, rfl, fun _ => Nat.zero_le _⟩
  | repeated header blksize body kind size status => exact Or.inr ⟨running, rfl, fun _ => Nat.zero_le _⟩

theorem ReceiveFailure.head (hf : ReceiveFailure s t s₀) (more : List (Event UInt8)) :
    (t ++ more).head? ≠ some (.received [EOT]) := by
  have other {header : UInt8} (h : header ≠ EOT) : some (Event.received [header]) ≠ some (.received [EOT]) := by
    simpa using h
  cases hf with
  | silence => simp
  | noise header h => exact other (fun heot => h (by simp [heot]))
  | unsupported h => exact other (by decide)
  | cancel h => exact other (by decide)
  | secondCancel h => exact other (by decide)
  | lost header blksize written kind size => exact other kind.ne_EOT
  | bad header blksize body kind size status => exact other kind.ne_EOT
  | repeated header blksize body kind size status => exact other kind.ne_EOT

theorem ReceiveFailure.fruitless (hf : ReceiveFailure s t s₀) :
    Fruitless ⟨s, t ++ s₀.retryEvents, s₀.retried⟩ := by
  refine ⟨?_, hf.head _⟩
  rintro ⟨body, payload, stores⟩
  exact not_storesNothing stores (hf.untouched.trans (retried_untouched s₀)).ramfile

theorem ReceiveFailure.not_writeFails (hf : ReceiveFailure s t s₀) :
    ¬ WriteFails ⟨s, t ++ s₀.retryEvents, s₀.retried⟩ := by
  rintro ⟨body, payload, answers, intact, _⟩
  change body = s.body payload at intact
  cases hf with
  | bad header blksize read kind size status =>
    obtain ⟨_, hnak, _⟩ := answersBlock_iff kind _ _ answers
    exact absurd hnak (by decide)
  | repeated header blksize read kind size status =>
    obtain ⟨rfl, _⟩ := answersBlock_iff kind _ _ answers
    have number := (lxmodemCheckBlockNoAndCrc_previous _ _ size).mp status
    rw [intact, body_take] at number
    exact sub_one_ne _ (List.cons.inj number).1.symm
  | _ =>
    obtain ⟨header, rest, events, _⟩ := answers
    simp at events

theorem answersBlock_stored {s' : LxmodemReceiveState}
    (kind : FrameKind s.pThis header payload.length) {body' payload' : List UInt8}
    (h : AnswersBlock ⟨s, [.received [header], .received (s.body payload), .sent [ACK]], s'⟩ body' payload' [ACK]) :
    payload' = payload := by
  obtain ⟨rfl, _, _, hpayload⟩ := answersBlock_iff kind [] _ h
  rw [hpayload]
  simp [LxmodemReceiveState.body, frameBody]

structure Unfinished (l : List (Round UInt8 LxmodemReceiveState)) (s : LxmodemReceiveState) : Prop where
  counted : s.canCharReceived = cancelsCounted (headersRead (roundEvents l))
  few : ∀ p, p <+: headersRead (roundEvents l) → cancelsCounted p ≤ 1
  bytes : s.receivedBytes.toNat % 128 = 0
  failures : Trailing Fruitless l s.nbRetry
  written : ∀ r ∈ l, ¬ WriteFails r

theorem few_append {headers more : List UInt8} (few : ∀ p, p <+: headers → cancelsCounted p ≤ 1)
    (one : more.length ≤ 1) (last : cancelsCounted (headers ++ more) ≤ 1) :
    ∀ p, p <+: headers ++ more → cancelsCounted p ≤ 1 := by
  intro p hp
  match more, one with
  | [], _ =>
    rw [List.append_nil] at hp
    exact few p hp
  | [b], _ =>
    rcases List.prefix_concat_iff.mp hp with rfl | hp
    · exact last
    · exact few p hp

theorem Unfinished.written_concat (h : Unfinished l s) (last : ¬ WriteFails r) : ∀ r' ∈ l ++ [r], ¬ WriteFails r' := by
  intro r' hr'
  rcases List.mem_append.mp hr' with hr' | hr'
  · exact h.written r' hr'
  · rw [List.mem_singleton.mp hr']
    exact last

theorem Unfinished.failure (h : Unfinished l s) (running : s.bFinished = false) (hf : ReceiveFailure s t s₀)
    (continues : s₀.retried.bFinished = false) :
    Unfinished (l ++ [⟨s, t ++ s₀.retryEvents, s₀.retried⟩]) s₀.retried := by
  have early : s₀.nbRetry + 1 < 10 := by
    by_contra ten
    rw [retried_finished (Nat.not_lt.mp ten)] at continues
    cases continues
  have hretried := retried_early early
  have hheaders : headersRead (roundEvents (l ++ [⟨s, t ++ s₀.retryEvents, s₀.retried⟩])) =
      headersRead (roundEvents l) ++ headersRead t := by simp
  obtain ⟨counted, one⟩ := hf.counted
  obtain ⟨finished, _⟩ | ⟨_, bytes, few⟩ := hf.cancelled running
  · rw [hretried] at continues
    exact absurd finished (by simpa using continues)
  have before : s.canCharReceived ≤ 1 := by
    rw [h.counted]
    exact h.few _ (List.prefix_refl _)
  have sum : s₀.retried.canCharReceived = cancelsCounted (headersRead (roundEvents l) ++ headersRead t) := by
    rw [retried_canCharReceived, counted, h.counted, cancelsCounted, cancelsCounted, List.foldl_append]
  refine ⟨by rw [hheaders, sum], ?_, ?_, ?_, h.written_concat hf.not_writeFails⟩
  · rw [hheaders]
    apply few_append h.few one
    rw [← sum, retried_canCharReceived]
    exact few before
  · rw [hretried]
    change s₀.receivedBytes.toNat % 128 = 0
    rw [bytes]
    exact h.bytes
  · rw [retried_nbRetry, hf.nbRetry]
    exact h.failures.concat hf.fruitless

theorem headersRead_stored (kind : FrameKind s.pThis header payload.length) (more : List (Event UInt8)) :
    headersRead (.received [header] :: .received (s.body payload) :: more) = header :: headersRead more := by
  rw [headersRead_header, headersRead_body (kind.body_length_ne (body_length s payload))]

theorem FrameKind.stored_bytes (kind : FrameKind s.pThis header payload.length)
    (h : s.receivedBytes.toNat % 128 = 0) (read : List UInt8) :
    ((s.filled read).stored payload).receivedBytes.toNat % 128 = 0 := by
  have hlen : payload.length.toUInt32.toNat = payload.length :=
    UInt32.toNat_ofNat_of_lt' (show payload.length < 4294967296 by have := kind.size; omega)
  have hsize := kind.size
  change (s.receivedBytes + payload.length.toUInt32).toNat % 128 = 0
  rw [UInt32.toNat_add, hlen]
  omega

theorem Unfinished.stored (h : Unfinished l s) (kind : FrameKind s.pThis header payload.length) :
    Unfinished (l ++ [⟨s, [.received [header], .received (s.body payload), .sent [ACK]],
      (s.filled (s.body payload)).stored payload⟩]) ((s.filled (s.body payload)).stored payload) := by
  have hheaders : headersRead (roundEvents (l ++ [⟨s, [.received [header], .received (s.body payload), .sent [ACK]],
      (s.filled (s.body payload)).stored payload⟩])) = headersRead (roundEvents l) ++ [header] := by
    rw [roundEvents_append, headersRead_append, roundEvents_cons, roundEvents_nil, List.append_nil,
      headersRead_stored kind]
    rfl
  have counted : cancelsCounted (headersRead (roundEvents l) ++ [header]) = 0 := by
    rw [cancelsCounted_concat, kind.countCancel_eq]
  have answers := @answersBlock_body s payload [ACK] header [] ((s.filled (s.body payload)).stored payload) kind
  refine ⟨by rw [hheaders, counted]; rfl, ?_, kind.stored_bytes h.bytes _, ?_, h.written_concat ?_⟩
  · rw [hheaders]
    exact few_append h.few (Nat.le_refl 1) (counted ▸ Nat.zero_le 1)
  · exact trailing_concat (fun fruitless => fruitless.1 ⟨_, _, answers, rfl⟩)
  · rintro ⟨body, payload', answers', rfl, unstored⟩
    obtain rfl := answersBlock_stored kind answers'
    exact unstored ⟨answers', rfl⟩

theorem Unfinished.round (h : Unfinished l s) (running : s.bFinished = false) (step : ReceiveStep s t s')
    (continues : s'.bFinished = false) : Unfinished (l ++ [⟨s, t, s'⟩]) s' := by
  cases step with
  | failure hf => exact h.failure running hf continues
  | stored header payload kind accepts => exact h.stored kind
  | overflowed header payload kind refuses => cases continues
  | endOfFile => cases continues

theorem ReceiveRounds.unfinished (h : ReceiveRounds pThis o l s) (running : s.bFinished = false) :
    Unfinished l s := by
  have start : Unfinished [] (.initial pThis) := by
    refine ⟨rfl, ?_, rfl, trailing_nil _, by simp⟩
    intro p hp
    rw [List.prefix_nil.mp hp]
    exact Nat.zero_le 1
  refine h.invariant (fun l s => s.bFinished = false → Unfinished l s) (fun _ => start) ?_ running
  intro l s t s' _ unfinished hc run continues
  have before : s.bFinished = false := by simpa using hc
  exact (unfinished before).round before ((lxmodemReceiveTurn_steps s).run run) continues

theorem result_ne_error {n : UInt32} (h : n.toNat % 128 = 0) : n.toInt32 ≠ -1 := by
  intro he
  have hn : n = -1 := by
    rw [← UInt32.toUInt32_toInt32 n, he]
    rfl
  rw [hn] at h
  exact absurd h (by decide)

theorem not_strayCancel {headers : List UInt8} (hne : header ≠ CAN) : ¬ StrayCancel (headers ++ [header]) := by
  rintro ⟨earlier, noise, hstray, _⟩
  have split : headers ++ [header] = (earlier ++ CAN :: noise) ++ [CAN] := by simpa using hstray
  exact hne (List.cons.inj (List.append_inj' split rfl).2).1

theorem Unfinished.cancelled_iff (h : Unfinished l s) (running : s.bFinished = false)
    (hf : ReceiveFailure s t s₀) (finished : s₀.retried.bFinished = true) :
    CancelsRightly (l ++ [⟨s, t ++ s₀.retryEvents, s₀.retried⟩]) s₀.retried ↔
      ¬ (StrayCancel (headersRead (roundEvents (l ++ [⟨s, t ++ s₀.retryEvents, s₀.retried⟩]))) ∧
        ¬ TenFailures (l ++ [⟨s, t ++ s₀.retryEvents, s₀.retried⟩])) := by
  have ten : TenFailures (l ++ [⟨s, t ++ s₀.retryEvents, s₀.retried⟩]) ↔ 10 ≤ s.nbRetry + 1 :=
    (h.failures.concat hf.fruitless).suffix_iff
  have hheaders : headersRead (roundEvents (l ++ [⟨s, t ++ s₀.retryEvents, s₀.retried⟩])) =
      headersRead (roundEvents l) ++ headersRead t := by simp
  rcases Nat.lt_or_ge (s.nbRetry + 1) 10 with early | late
  · have hretried := @retried_early s₀ (by rw [hf.nbRetry]; exact early)
    obtain ⟨_, bytes, hcan, one⟩ | ⟨continues, _⟩ := hf.cancelled running
    · rw [h.counted] at one
      have failed : s₀.retried.receivedBytes.toInt32 = -1 := by
        rw [hretried]
        change s₀.receivedBytes.toInt32 = -1
        rw [bytes]
        rfl
      have premises : CancelsRightly (l ++ [⟨s, t ++ s₀.retryEvents, s₀.retried⟩]) s₀.retried ↔
          [CAN, CAN] <:+: headersRead (roundEvents l) ++ [CAN] := by
        rw [CancelsRightly, hheaders, hcan, ten]
        exact ⟨fun rightly => rightly failed (Nat.not_le.mpr early) (h.written_concat hf.not_writeFails),
          fun adjacent _ _ _ => adjacent⟩
      rw [premises, adjacent_iff_last h.few, hheaders, hcan, strayCancel_iff_last one, ten]
      simp [Nat.not_le.mpr early]
    · rw [hretried] at finished
      exact absurd finished (by simp [continues])
  · have failures := ten.mpr late
    exact iff_of_true (fun _ few _ => absurd failures few) (fun stray => stray.2 failures)

theorem Unfinished.cancelsRightly_iff (h : Unfinished l s) (running : s.bFinished = false)
    (step : ReceiveStep s t s') (finished : s'.bFinished = true) :
    CancelsRightly (l ++ [⟨s, t, s'⟩]) s' ↔
      ¬ (StrayCancel (headersRead (roundEvents (l ++ [⟨s, t, s'⟩]))) ∧ ¬ TenFailures (l ++ [⟨s, t, s'⟩])) := by
  cases step with
  | failure hf => exact h.cancelled_iff running hf finished
  | stored header payload kind accepts =>
    change s.bFinished = true at finished
    rw [running] at finished
    cases finished
  | overflowed header payload kind refuses =>
    have answers := @answersBlock_body s payload [ACK] header [.sent [CAN, CAN]]
      ((s.filled (s.body payload)).overflowed payload.length) kind
    have other : header ≠ CAN := by
      rcases kind with ⟨rfl, _⟩ | ⟨rfl, _⟩ <;> decide
    apply iff_of_true
    · intro _ _ written
      exact absurd ⟨_, _, answers, rfl, not_storesBlock_overflowed kind refuses⟩ (written _ (by simp))
    · rintro ⟨stray, _⟩
      rw [roundEvents_append, headersRead_append, roundEvents_cons, roundEvents_nil, List.append_nil,
        headersRead_stored kind] at stray
      exact not_strayCancel other stray
  | endOfFile =>
    apply iff_of_true
    · exact fun failed => absurd failed (result_ne_error h.bytes)
    · rintro ⟨stray, _⟩
      rw [roundEvents_append, headersRead_append] at stray
      exact not_strayCancel (show EOT ≠ CAN by decide) stray

theorem ReceiveRounds.cancelsRightly_iff (h : ReceiveRounds pThis o l s) (finished : s.bFinished = true) :
    CancelsRightly l s ↔ ¬ (StrayCancel (headersRead (roundEvents l)) ∧ ¬ TenFailures l) := by
  rcases List.eq_nil_or_concat l with hnil | ⟨earlier, r, rfl⟩
  · cases h with
    | start => cases finished
    | round => simp at hnil
  · rw [List.concat_eq_append] at h ⊢
    obtain ⟨before, running, rfl, step⟩ := h.turn
    exact (before.unfinished running).cancelsRightly_iff running step finished

theorem ReceiveStep.reads_pos (step : ReceiveStep s t s') : 1 ≤ reads t := by
  have header (data : List UInt8) (more : List (Event UInt8)) : 1 ≤ reads (.received data :: more) :=
    show 1 ≤ reads ((Reply.received data rfl).event :: more) by rw [reads_reply]; omega
  cases step with
  | failure hf =>
    cases hf with
    | silence => exact show 1 ≤ reads ((Reply.timedOut [] (Nat.zero_le 1)).event :: _) by rw [reads_reply]; omega
    | _ => exact header _ _
  | _ => exact header _ _

theorem ReceiveRounds.length_le (h : ReceiveRounds pThis o l s) : l.length ≤ reads (roundEvents l) := by
  refine h.invariant (fun l _ => l.length ≤ reads (roundEvents l)) (Nat.le_refl _) ?_
  intro l s t s' _ le _ run
  have : 1 ≤ reads (⟨s, t, s'⟩ : Round UInt8 LxmodemReceiveState).events :=
    ((lxmodemReceiveTurn_steps s).run run).reads_pos
  rw [roundEvents_append, reads_append, roundEvents_cons, roundEvents_nil, List.append_nil, List.length_append,
    List.length_singleton]
  omega

end Rounds

/-- In every run the receiver cancels rightly exactly when it is not so that its last header is a cancel
that only follows another one with noise between them, before ten failures in a row. -/
theorem lxmodemReceive_cancels_iff (pThis : ModemContext) (o : Peer UInt8) :
    (∀ t n pThis', Returns (fun fuel => lxmodemReceive fuel pThis) o t (n, pThis') ↔
      ∃ l s, ReceiveRounds pThis o l s ∧ s.bFinished = true ∧
        t = .sent [preambule pThis] :: roundEvents l ∧ n = s.receivedBytes.toInt32 ∧ pThis' = s.pThis) ∧
    ∀ l s, ReceiveRounds pThis o l s → s.bFinished = true →
      (CancelsRightly l s ↔ ¬ (StrayCancel (headersRead (roundEvents l)) ∧ ¬ TenFailures l)) :=
  ⟨fun _ _ _ => lxmodemReceive_returns_iff, fun _ _ h finished => h.cancelsRightly_iff finished⟩

theorem lxmodemReceive_cancels_stray :
    ∃ l s, ReceiveRounds smallReceiver (.scripted [[CAN], [0x55], [CAN]]) l s ∧ s.bFinished = true ∧
      s.receivedBytes.toInt32 = -1 ∧ headersRead (roundEvents l) = [CAN, 0x55, CAN] ∧ ¬ CancelsRightly l s := by
  have events : ((lxmodemReceive 4 smallReceiver).run (.scripted [[CAN], [0x55], [CAN]]) 0).1 =
      [.sent [NAK], .received [CAN], .sent [NAK], .received [0x55], .sent [NAK], .received [CAN], .sent [NAK]] := by
    decide +kernel
  have result : ((lxmodemReceive 4 smallReceiver).run (.scripted [[CAN], [0x55], [CAN]]) 0).2.map Prod.fst =
      some (-1) := by
    decide +kernel
  obtain ⟨⟨n, pThis'⟩, returns, hn⟩ :=
    @returns_of_run _ _ _ (fun fuel => lxmodemReceive fuel smallReceiver) _ _ _ 4 result
  obtain ⟨l, s, rounds, finished, ht, rfl, _⟩ := lxmodemReceive_returns_iff.mp returns
  have hl : roundEvents l = _ := (List.cons.inj (ht.symm.trans events)).2
  have hheaders : headersRead (roundEvents l) = [CAN, 0x55, CAN] := by
    rw [hl]
    rfl
  refine ⟨l, s, rounds, finished, hn, hheaders, fun rightly => ?_⟩
  apply (rounds.cancelsRightly_iff finished).mp rightly
  rw [hheaders]
  refine ⟨⟨[], [0x55], rfl, by decide, fun b hb => ?_⟩, ?_⟩
  · rw [List.mem_singleton.mp hb]
    decide
  rintro ⟨run, hsuffix, ten, _⟩
  have few := rounds.length_le
  have hreads : reads (roundEvents l) = 3 := by
    rw [hl]
    rfl
  have := hsuffix.length_le
  omega

end LightModem
