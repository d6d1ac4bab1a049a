import LightModem.Serving

set_option autoImplicit false

namespace LightModem

open Interaction

def AnswersBlock (r : Round UInt8 LxmodemReceiveState) (body payload answer : List UInt8) : Prop :=
  ∃ header rest, r.events = .received [header] :: .received body :: .sent answer :: rest ∧
    FrameKind r.before.pThis header payload.length ∧ payload = (body.drop 2).take payload.length

def StoresNothing (r : Round UInt8 LxmodemReceiveState) : Prop :=
  r.after.pThis.ramfile = r.before.pThis.ramfile

def StoresBlock (r : Round UInt8 LxmodemReceiveState) (body payload : List UInt8) : Prop :=
  AnswersBlock r body payload [ACK] ∧ r.after.pThis.ramfile = r.before.pThis.ramfile.appended payload

def LastStored (l : List (Round UInt8 LxmodemReceiveState)) (number : Option UInt8) : Prop :=
  ∃ earlier last later body payload, l = earlier ++ last :: later ∧ StoresBlock last body payload ∧
    body.head? = number ∧ ∀ r ∈ later, StoresNothing r

def NothingStored (l : List (Round UInt8 LxmodemReceiveState)) : Prop := ∀ r ∈ l, StoresNothing r

/-- A block that the round `r` acknowledges after the rounds `l` is stored, or repeats the last one that
was, or repeats block 0. -/
def Honours (pThis : ModemContext) (l : List (Round UInt8 LxmodemReceiveState))
    (r : Round UInt8 LxmodemReceiveState) : Prop :=
  ∀ body payload, AnswersBlock r body payload [ACK] →
    StoresBlock r body payload ∨ LastStored l body.head? ∨
      pThis.protocol = .ymodem ∧ body.head? = some 0 ∧ NothingStored l

/-- A block that the round `r` reads after the rounds `l` fits if it is the intact next one, and is not
numbered 0 in XMODEM before one is stored. -/
def Storable (pThis : ModemContext) (l : List (Round UInt8 LxmodemReceiveState))
    (r : Round UInt8 LxmodemReceiveState) : Prop :=
  ∀ body payload answer, AnswersBlock r body payload answer →
    (body = r.before.body payload → r.before.pThis.ramfile.Accepts payload.length) ∧
      (pThis.protocol = .xmodem → NothingStored l → body.take 2 ≠ [0, ~~~0])

section Receipt

variable {pThis : ModemContext} {o : Peer UInt8} {l : List (Round UInt8 LxmodemReceiveState)}
  {r : Round UInt8 LxmodemReceiveState} {s s' : LxmodemReceiveState} {t : List (Event UInt8)}
  {body payload answer : List UInt8}

theorem not_storesNothing (h : StoresBlock r body payload) : ¬ StoresNothing r := by
  intro nothing
  obtain ⟨⟨header, rest, _, kind, _⟩, stored⟩ := h
  rw [nothing] at stored
  have offset := congrArg (fun b => b.writeOffset.toNat) stored
  have hlen : payload.length.toUInt32.toNat = payload.length :=
    UInt32.toNat_ofNat_of_lt' (show payload.length < 4294967296 by have := kind.size; omega)
  simp only [LmodemBuffer.appended, UInt32.toNat_add, hlen] at offset
  have hlt := r.before.pThis.ramfile.writeOffset.toNat_lt
  have := kind.size
  omega

theorem not_lastStored (h : NothingStored l) (number : Option UInt8) : ¬ LastStored l number := by
  rintro ⟨earlier, last, later, body, payload, rfl, stores, _⟩
  exact not_storesNothing stores (h last (by simp))

theorem AnswersBlock.body_unique {body' payload' answer' : List UInt8} (h : AnswersBlock r body payload answer)
    (h' : AnswersBlock r body' payload' answer') : body = body' := by
  obtain ⟨header, rest, events, _⟩ := h
  obtain ⟨header', rest', events', _⟩ := h'
  simp only [events, List.cons.injEq, Event.received.injEq] at events'
  exact events'.2.1

theorem LastStored.unique {m n : Option UInt8} (h : LastStored l m) (h' : LastStored l n) : m = n := by
  obtain ⟨earlier, last, later, body, payload, rfl, stores, rfl, kept⟩ := h
  obtain ⟨earlier', last', later', body', payload', split, stores', rfl, kept'⟩ := h'
  rcases List.append_eq_append_iff.mp split with ⟨between, _, hlast⟩ | ⟨between, _, hlast⟩
  · cases between with
    | nil =>
      obtain ⟨rfl, _⟩ := List.cons.inj hlast
      rw [stores.1.body_unique stores'.1]
    | cons r between =>
      obtain ⟨_, rfl⟩ := List.cons.inj hlast
      exact absurd (kept last' (by simp)) (not_storesNothing stores')
  · cases between with
    | nil =>
      obtain ⟨rfl, _⟩ := List.cons.inj hlast
      rw [stores.1.body_unique stores'.1]
    | cons r between =>
      obtain ⟨_, rfl⟩ := List.cons.inj hlast
      exact absurd (kept' last (by simp)) (not_storesNothing stores)

theorem LastStored.snoc {number : Option UInt8} (h : LastStored l number) (nothing : StoresNothing r) :
    LastStored (l ++ [r]) number := by
  obtain ⟨earlier, last, later, body, payload, rfl, stores, head, kept⟩ := h
  refine ⟨earlier, last, later ++ [r], body, payload, by simp, stores, head, ?_⟩
  intro r' hr'
  rcases List.mem_append.mp hr' with hr' | hr'
  · exact kept r' hr'
  · rw [List.mem_singleton.mp hr']
    exact nothing

theorem lastStored_of_stores (h : StoresBlock r body payload) : LastStored (l ++ [r]) body.head? :=
  ⟨l, r, [], body, payload, rfl, h, rfl, by simp⟩

structure Expects (pThis : ModemContext) (l : List (Round UInt8 LxmodemReceiveState))
    (s : LxmodemReceiveState) : Prop where
  setup : SameSetup pThis s.pThis
  number : s.bFinished = false →
    NothingStored l ∧ s.expectedBlkNumber = 1 ∨ LastStored l (some (s.expectedBlkNumber - 1))

theorem Expects.first (h : Expects pThis l s) (running : s.bFinished = false) (nothing : NothingStored l) :
    s.expectedBlkNumber = 1 := by
  rcases h.number running with ⟨_, hone⟩ | last
  · exact hone
  · exact absurd last (not_lastStored nothing _)

theorem answersBlock_body (header : UInt8) (rest : List (Event UInt8)) (s' : LxmodemReceiveState)
    (kind : FrameKind s.pThis header payload.length) :
    AnswersBlock ⟨s, .received [header] :: .received (s.body payload) :: .sent answer :: rest, s'⟩
      (s.body payload) payload answer :=
  ⟨header, rest, rfl, kind, by simp [LxmodemReceiveState.body, frameBody]⟩

theorem Expects.round (h : Expects pThis l s) (running : s.bFinished = false) (step : ReceiveStep s t s') :
    Expects pThis (l ++ [⟨s, t, s'⟩]) s' := by
  cases step with
  | @failure t s₀ hf =>
    have same := hf.untouched.trans (retried_untouched s₀)
    refine ⟨h.setup.trans same.setup, fun _ => ?_⟩
    rw [same.blkNumber]
    rcases h.number running with ⟨nothing, hone⟩ | last
    · refine Or.inl ⟨?_, hone⟩
      intro r hr
      rcases List.mem_append.mp hr with hr | hr
      · exact nothing r hr
      · rw [List.mem_singleton.mp hr]
        exact same.ramfile
    · exact Or.inr (last.snoc same.ramfile)
  | stored header payload kind accepts =>
    refine ⟨h.setup.trans ⟨rfl, rfl, rfl, rfl, rfl, rfl⟩, fun _ => Or.inr ?_⟩
    have stores : StoresBlock ⟨s, [.received [header], .received (s.body payload), .sent [ACK]],
        (s.filled (s.body payload)).stored payload⟩ (s.body payload) payload :=
      ⟨answersBlock_body header [] _ kind, rfl⟩
    have last := @lastStored_of_stores l _ _ _ stores
    have number : (s.body payload).head? =
        some (((s.filled (s.body payload)).stored payload).expectedBlkNumber - 1) := by
      change some s.expectedBlkNumber = some (s.expectedBlkNumber + 1 - 1)
      rw [UInt8.add_sub_cancel]
    rw [number] at last
    exact last
  | overflowed header payload kind refuses =>
    exact ⟨h.setup.trans ⟨rfl, rfl, rfl, rfl, rfl, rfl⟩, fun hf => by cases hf⟩
  | endOfFile => exact ⟨h.setup, fun hf => by cases hf⟩

theorem ReceiveRounds.expects (h : ReceiveRounds pThis o l s) : Expects pThis l s := by
  refine h.invariant (fun l s => Expects pThis l s) ⟨.refl _, fun _ => Or.inl ⟨by simp [NothingStored], rfl⟩⟩ ?_
  intro l s t s' _ expects hc run
  exact expects.round (by simpa using hc) ((lxmodemReceiveTurn_steps s).run run)

theorem FrameKind.unique {pThis : ModemContext} {header : UInt8} {m n : ℕ} (h : FrameKind pThis header m)
    (h' : FrameKind pThis header n) : m = n := by
  rcases h with ⟨rfl, rfl⟩ | ⟨rfl, rfl, _⟩ <;> rcases h' with ⟨hh, rfl⟩ | ⟨hh, rfl, _⟩
  · rfl
  · exact absurd hh (by decide)
  · exact absurd hh (by decide)
  · rfl

theorem answersBlock_iff {header : UInt8} {blksize : ℕ} {body' answer' : List UInt8}
    (kind : FrameKind s.pThis header blksize) (rest : List (Event UInt8)) (s' : LxmodemReceiveState)
    (h : AnswersBlock ⟨s, .received [header] :: .received body :: .sent answer :: rest, s'⟩ body' payload answer') :
    body' = body ∧ answer' = answer ∧ payload.length = blksize ∧ payload = (body.drop 2).take blksize := by
  obtain ⟨header', rest', events, kind', hpayload⟩ := h
  simp only [List.cons.injEq, Event.received.injEq, Event.sent.injEq, and_true] at events
  obtain ⟨rfl, rfl, rfl, _⟩ := events
  have hlen := kind'.unique kind
  exact ⟨rfl, rfl, hlen, hlen ▸ hpayload⟩

theorem head?_of_take {a b : UInt8} (h : body.take 2 = [a, b]) : body.head? = some a := by
  cases body with
  | nil => cases h
  | cons c body => rw [(List.cons.inj h).1]; rfl

theorem honours_silent {r : Round UInt8 LxmodemReceiveState}
    (silent : ∀ body payload answer, ¬ AnswersBlock r body payload answer) :
    Honours pThis l r ↔ Storable pThis l r :=
  iff_of_true (fun _ _ answers => absurd answers (silent _ _ _)) (fun _ _ _ answers => absurd answers (silent _ _ _))

theorem body_take (s : LxmodemReceiveState) (payload : List UInt8) :
    (s.body payload).take 2 = [s.expectedBlkNumber, ~~~s.expectedBlkNumber] := rfl

theorem Expects.honours_bad (h : Expects pThis l s) (running : s.bFinished = false) {header : UInt8} {blksize : ℕ}
    (kind : FrameKind s.pThis header blksize) (size : body.length = bodySize s.pThis blksize)
    (status : lxmodemCheckBlockNoAndCrc (s.pThis.fill body) s.expectedBlkNumber blksize = .recvError)
    (rest : List (Event UInt8)) :
    Honours pThis l ⟨s, .received [header] :: .received body :: .sent [NAK] :: rest, s'⟩ ∧
      Storable pThis l ⟨s, .received [header] :: .received body :: .sent [NAK] :: rest, s'⟩ := by
  constructor
  · intro body' payload' answers
    obtain ⟨_, hnak, _⟩ := answersBlock_iff kind rest s' answers
    exact absurd hnak (by decide)
  · intro body' payload' answer' answers
    obtain ⟨rfl, _, hlen, _⟩ := answersBlock_iff kind rest s' answers
    refine ⟨fun intact => ?_, fun _ nothing hzero => ?_⟩
    · change body' = s.body payload' at intact
      rw [intact, ← hlen, check_body] at status
      cases status
    · have previous := (lxmodemCheckBlockNoAndCrc_previous s.pThis s.expectedBlkNumber size).mpr
        (by rw [h.first running nothing]; exact hzero)
      rw [status] at previous
      cases previous

theorem Expects.honours_repeated (h : Expects pThis l s) (running : s.bFinished = false) {header : UInt8}
    {blksize : ℕ} (kind : FrameKind s.pThis header blksize)
    (number : body.take 2 = [s.expectedBlkNumber - 1, ~~~(s.expectedBlkNumber - 1)])
    (same : s'.pThis.ramfile = s.pThis.ramfile) (rest : List (Event UInt8)) :
    Honours pThis l ⟨s, .received [header] :: .received body :: .sent [ACK] :: rest, s'⟩ ↔
      Storable pThis l ⟨s, .received [header] :: .received body :: .sent [ACK] :: rest, s'⟩ := by
  constructor
  · intro honours body' payload' answer' answers
    obtain ⟨rfl, rfl, _⟩ := answersBlock_iff kind rest s' answers
    refine ⟨fun intact => ?_, fun xmodem nothing _ => ?_⟩
    · change body' = s.body payload' at intact
      rw [intact, body_take] at number
      exact absurd (List.cons.inj number).1.symm (sub_one_ne _)
    · rcases honours _ _ answers with stores | last | ⟨ymodem, _⟩
      · exact not_storesNothing stores same
      · exact not_lastStored nothing _ last
      · rw [xmodem] at ymodem
        cases ymodem
  · intro storable body' payload' answers
    obtain ⟨rfl, _⟩ := answersBlock_iff kind rest s' answers
    have head := head?_of_take number
    rcases h.number running with ⟨nothing, hone⟩ | last
    · rw [hone] at number head
      refine Or.inr (Or.inr ⟨?_, head, nothing⟩)
      cases protocol : pThis.protocol with
      | xmodem => exact absurd number ((storable _ _ _ answers).2 protocol nothing)
      | ymodem => rfl
    · exact Or.inr (Or.inl (by rw [head]; exact last))

theorem Expects.honours_failure (h : Expects pThis l s) (running : s.bFinished = false)
    {s₀ : LxmodemReceiveState} (hf : ReceiveFailure s t s₀) :
    Honours pThis l ⟨s, t ++ s₀.retryEvents, s₀.retried⟩ ↔
      Storable pThis l ⟨s, t ++ s₀.retryEvents, s₀.retried⟩ := by
  cases hf with
  | bad header blksize body kind size status =>
    obtain ⟨honours, storable⟩ := @Expects.honours_bad pThis l s (s.filled body).retried body h running header
      blksize kind size status (s.filled body).retryEvents
    exact iff_of_true honours storable
  | repeated header blksize body kind size status =>
    exact h.honours_repeated running kind ((lxmodemCheckBlockNoAndCrc_previous _ _ size).mp status)
      (retried_untouched (s.filled body)).ramfile _
  | _ =>
    apply honours_silent
    rintro body payload answer ⟨header, rest, events, _⟩
    simp at events

theorem Expects.honours_stored (h : Expects pThis l s) (running : s.bFinished = false) {header : UInt8}
    (kind : FrameKind s.pThis header payload.length) (accepts : s.pThis.ramfile.Accepts payload.length) :
    Honours pThis l ⟨s, [.received [header], .received (s.body payload), .sent [ACK]],
        (s.filled (s.body payload)).stored payload⟩ ∧
      Storable pThis l ⟨s, [.received [header], .received (s.body payload), .sent [ACK]],
        (s.filled (s.body payload)).stored payload⟩ := by
  have hdata : ((s.body payload).drop 2).take payload.length = payload := by
    simp [LxmodemReceiveState.body, frameBody]
  constructor
  · intro body' payload' answers
    obtain ⟨rfl, _, _, hpayload⟩ := answersBlock_iff kind [] _ answers
    rw [hdata] at hpayload
    subst hpayload
    exact Or.inl ⟨answers, rfl⟩
  · intro body' payload' answer' answers
    obtain ⟨rfl, _, hlen, _⟩ := answersBlock_iff kind [] _ answers
    refine ⟨fun _ => by rw [hlen]; exact accepts, fun _ nothing hzero => ?_⟩
    have hnumber := head?_of_take hzero
    change some s.expectedBlkNumber = some 0 at hnumber
    rw [h.first running nothing] at hnumber
    cases hnumber

theorem not_storesBlock_overflowed {t : List (Event UInt8)} {read : List UInt8} {header : UInt8}
    (kind : FrameKind s.pThis header payload.length) (refuses : ¬ s.pThis.ramfile.Accepts payload.length) :
    ¬ StoresBlock ⟨s, t, (s.filled read).overflowed payload.length⟩ body payload := by
  have hsize : payload.length.toUInt32.toNat = payload.length :=
    UInt32.toNat_ofNat_of_lt' (show payload.length < 4294967296 by have := kind.size; omega)
  have hlen := kind.size
  rintro ⟨_, stored⟩
  exact lmodemBufferWrite_refuses_offset (by rw [hsize]; omega) (by rw [hsize]; omega)
    (by rw [hsize]; exact refuses) (congrArg LmodemBuffer.writeOffset stored)

theorem Expects.honours_overflowed (h : Expects pThis l s) (running : s.bFinished = false) {header : UInt8}
    (kind : FrameKind s.pThis header payload.length) (refuses : ¬ s.pThis.ramfile.Accepts payload.length) :
    ¬ Honours pThis l ⟨s, [.received [header], .received (s.body payload), .sent [ACK], .sent [CAN, CAN]],
        (s.filled (s.body payload)).overflowed payload.length⟩ ∧
      ¬ Storable pThis l ⟨s, [.received [header], .received (s.body payload), .sent [ACK], .sent [CAN, CAN]],
        (s.filled (s.body payload)).overflowed payload.length⟩ := by
  have answers := @answersBlock_body s payload [ACK] header [.sent [CAN, CAN]]
    ((s.filled (s.body payload)).overflowed payload.length) kind
  constructor
  · intro honours
    rcases honours _ _ answers with stores | last | ⟨_, hzero, nothing⟩
    · exact not_storesBlock_overflowed kind refuses stores
    · rcases h.number running with ⟨nothing, _⟩ | previous
      · exact not_lastStored nothing _ last
      · have hnumber := previous.unique last
        change some (s.expectedBlkNumber - 1) = some s.expectedBlkNumber at hnumber
        exact sub_one_ne _ (Option.some.inj hnumber)
    · change some s.expectedBlkNumber = some 0 at hzero
      rw [h.first running nothing] at hzero
      cases hzero
  · exact fun storable => refuses ((storable _ _ _ answers).1 rfl)

theorem Expects.honours_iff (h : Expects pThis l s) (running : s.bFinished = false) (step : ReceiveStep s t s') :
    Honours pThis l ⟨s, t, s'⟩ ↔ Storable pThis l ⟨s, t, s'⟩ := by
  cases step with
  | failure hf => exact h.honours_failure running hf
  | stored header payload kind accepts =>
    obtain ⟨honours, storable⟩ := @Expects.honours_stored pThis l s payload h running header kind accepts
    exact iff_of_true honours storable
  | overflowed header payload kind refuses =>
    obtain ⟨honours, storable⟩ := @Expects.honours_overflowed pThis l s payload h running header kind refuses
    exact iff_of_false honours storable
  | endOfFile =>
    have silent (body payload answer : List UInt8) : ¬ AnswersBlock ⟨s, [.received [EOT], .sent [ACK]],
        { s with bFinished := true, canCharReceived := 0, nbRetry := 0,
                 expectedBlkNumber := s.expectedBlkNumber + 1 }⟩ body payload answer := by
      rintro ⟨header, rest, events, _⟩
      simp at events
    exact iff_of_true (fun body payload answers => absurd answers (silent _ _ _))
      (fun body payload answer answers => absurd answers (silent _ _ _))

end Receipt

/-- In every run every block that is acknowledged is stored, or repeats the last one stored or block 0 of
YMODEM, exactly when every intact block fits and no block numbered 0 comes first in XMODEM. -/
theorem lxmodemReceive_honours_iff (pThis : ModemContext) (o : Peer UInt8) :
    (∀ t n pThis', Returns (fun fuel => lxmodemReceive fuel pThis) o t (n, pThis') ↔
      ∃ l s, ReceiveRounds pThis o l s ∧ s.bFinished = true ∧
        t = .sent [preambule pThis] :: roundEvents l ∧ n = s.receivedBytes.toInt32 ∧ pThis' = s.pThis) ∧
    ((∀ l r s, ReceiveRounds pThis o (l ++ [r]) s → Honours pThis l r) ↔
      ∀ l r s, ReceiveRounds pThis o (l ++ [r]) s → Storable pThis l r) := by
  have round (l : List (Round UInt8 LxmodemReceiveState)) (r : Round UInt8 LxmodemReceiveState)
      (s : LxmodemReceiveState) (h : ReceiveRounds pThis o (l ++ [r]) s) :
      Honours pThis l r ↔ Storable pThis l r := by
    obtain ⟨earlier, running, rfl, step⟩ := h.turn
    exact earlier.expects.honours_iff running step
  refine ⟨fun t n pThis' => lxmodemReceive_returns_iff, ?_, ?_⟩
  · exact fun honours l r s h => (round l r s h).mp (honours l r s h)
  · exact fun storable l r s h => (round l r s h).mpr (storable l r s h)

def block0First : List (List UInt8) := [[SOH], 0 :: ~~~0 :: List.replicate 129 0]

theorem lxmodemReceive_dishonours :
    ∃ r s, ReceiveRounds smallReceiver (.scripted block0First) ([] ++ [r]) s ∧ ¬ Honours smallReceiver [] r := by
  have events : ((lxmodemReceiveTurn (.initial smallReceiver)).run (.scripted block0First) 0).1 =
      [.received [SOH], .received (0 :: ~~~0 :: List.replicate 129 0), .sent [ACK]] := by
    decide +kernel
  have offset : ((lxmodemReceiveTurn (.initial smallReceiver)).run (.scripted block0First) 0).2.map
      (fun s => s.pThis.ramfile.writeOffset) = some 0 := by
    decide +kernel
  obtain ⟨s, hs, hoffset⟩ := Option.map_eq_some_iff.mp offset
  have first := Rounds.round (.start : ReceiveRounds smallReceiver (.scripted block0First) []
    (.initial smallReceiver)) rfl (Prod.ext events hs)
  refine ⟨_, s, first, fun honours => ?_⟩
  rcases honours _ (List.replicate 128 0) ⟨SOH, [], rfl, Or.inl ⟨rfl, by simp⟩, by simp⟩ with
    ⟨_, stored⟩ | last | ⟨ymodem, _⟩
  · have written := congrArg LmodemBuffer.writeOffset stored
    change s.pThis.ramfile.writeOffset =
      (smallReceiver.ramfile.appended (List.replicate 128 0)).writeOffset at written
    rw [hoffset] at written
    exact absurd written (by decide +kernel)
  · exact not_lastStored (by simp [NothingStored]) _ last
  · cases ymodem

end LightModem
