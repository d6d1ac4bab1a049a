import LightModem.LateReplies

set_option autoImplicit false

/-!
XMODEM over a line that delivers every frame whole and in its order, whatever becomes of the answers.
Blocks are numbered modulo 256, but the receiver gives up before the sender is that far ahead of it.
-/

namespace LightModem

open Interaction

/-- Any frame may be damaged, and any read of one byte may time out, but not the read of a block. An
answer may be lost, altered, or turned into any number of others. -/
def wholeFrames (sender : ModemContext) : Medium UInt8 where
  left _
    | .write w d => d = w ∨ Spoiled sender w d
    | .read _ => True
    | .timeOut _ => True
  right _
    | .write _ _ => True
    | .read _ => True
    | .timeOut n => n = 1

theorem step_wholeFrames {α : Type} (sender : ModemContext) {s s' : Network UInt8 α} (h : Step .perfect s s') :
    Step (wholeFrames sender) s s' := by
  apply h.mono
  · intro log ℓ allowed
    cases ℓ with
    | write w d => exact Or.inl allowed
    | read data => trivial
    | timeOut n => trivial
  · intro log ℓ allowed
    cases ℓ with
    | write w d => trivial
    | read data => trivial
    | timeOut n => exact allowed.elim

def Climbs : ℕ → List (ℕ × Bool) → ℕ → Prop
  | m, [], k => m = k
  | m, (i, _) :: flight, k => (i + 1 = m ∨ i = m) ∧ Climbs (i + 1) flight k

structure Trails (sender receiver : ModemContext) (file : List UInt8) (j m : ℕ) (s : LxmodemReceiveState) :
    Prop extends Stocked sender receiver file j s where
  place : j ≤ blockCount sender.blksize file
  reached : j ≤ m
  behind : m ≤ j + s.nbRetry
  patient : s.nbRetry < 10

structure Ended (sender receiver : ModemContext) (file : List UInt8) (s : LxmodemReceiveState) : Prop where
  finished : s.bFinished = true
  stored : ∃ j ≤ blockCount sender.blksize file,
    s.pThis.ramfile = receiver.ramfile.appended (payloadsBefore sender.blksize file j) ∧
      receiver.ramfile.writeOffset.toNat + (payloadsBefore sender.blksize file j).length ≤
        receiver.ramfile.maxSize.toNat ∧
      (s.receivedBytes = -1 ∨ s.receivedBytes.toNat = (payloadsBefore sender.blksize file j).length)

inductive TurnOutcome (sender receiver : ModemContext) (file : List UInt8) (j : ℕ) (s : LxmodemReceiveState)
    (t : List (Event UInt8)) (s' : LxmodemReceiveState) : Prop
  | failed (stocked : Stocked sender receiver file j s') (retry : s'.nbRetry = s.nbRetry + 1)
      (patient : s'.nbRetry < 10)
  | ended (finished : s'.bFinished = true) (ramfile : s'.pThis.ramfile = s.pThis.ramfile)
      (bytes : s'.receivedBytes = -1 ∨ s'.receivedBytes = s.receivedBytes)
  | stored (header : UInt8) (payload : List UInt8) (kind : FrameKind s.pThis header payload.length)
      (events : t = [.received [header], .received (s.body payload), .sent [ACK]])
      (state : s' = (s.filled (s.body payload)).stored payload)
      (fits : s.pThis.ramfile.writeOffset.toNat + payload.length < s.pThis.ramfile.maxSize.toNat)

section Turns

variable {sender receiver : ModemContext} {file : List UInt8} {i j m k : ℕ} {s s' : LxmodemReceiveState}
  {t : List (Event UInt8)} {header : UInt8} {blksize : ℕ} {body : List UInt8} {intact : Bool}
  {pending : List (List UInt8)} {flight : List (ℕ × Bool)}

theorem Stocked.outcome (h : Stocked sender receiver file j s) (turn : ReceiveTurn s t s') :
    TurnOutcome sender receiver file j s t s' := by
  cases turn with
  | @failure t₀ s₀ hf =>
    have untouched := hf.untouched.trans (retried_untouched s₀)
    rcases h.failure hf with dead | ⟨_, stocked⟩
    · exact .ended dead.1 untouched.ramfile (Or.inl dead.2)
    · have retry : s₀.retried.nbRetry = s.nbRetry + 1 := by rw [retried_nbRetry, hf.nbRetry]
      apply TurnOutcome.failed stocked retry
      by_contra ten
      have finished := @retried_finished s₀ (by rw [hf.nbRetry]; omega)
      rw [stocked.running] at finished
      cases finished
  | stored header payload kind fits => exact .stored header payload kind rfl rfl fits
  | full header payload kind full => exact .ended rfl rfl (Or.inl rfl)
  | endOfFile => exact .ended rfl rfl (Or.inr rfl)

theorem Trails.ended (h : Trails sender receiver file j m s) (finished : s'.bFinished = true)
    (ramfile : s'.pThis.ramfile = s.pThis.ramfile)
    (bytes : s'.receivedBytes = -1 ∨ s'.receivedBytes = s.receivedBytes) :
    Ended sender receiver file s' := by
  refine ⟨finished, j, h.place, ramfile.trans h.ramfile, h.fits, ?_⟩
  rcases bytes with failed | same
  · exact Or.inl failed
  · exact Or.inr ((congrArg UInt32.toNat same).trans h.bytes)

theorem Trails.failed (h : Trails sender receiver file j m s) (stocked : Stocked sender receiver file j s')
    (retry : s'.nbRetry = s.nbRetry + 1) (patient : s'.nbRetry < 10) {m' : ℕ} (reached : m ≤ m')
    (next : m' ≤ m + 1) : Trails sender receiver file j m' s' := by
  have hreached := h.reached
  have hbehind := h.behind
  exact ⟨stocked, h.place, by omega, by omega, patient⟩

theorem Trails.idle (h : Trails sender receiver file j m s) {e : Event UInt8}
    (turn : ReceiveTurn s (e :: pending.map .sent) s') :
    Ended sender receiver file s' ∨ ∀ m', m ≤ m' → m' ≤ m + 1 → Trails sender receiver file j m' s' := by
  cases h.outcome turn with
  | failed stocked retry patient => exact Or.inr fun m' reached next => h.failed stocked retry patient reached next
  | ended finished ramfile bytes => exact Or.inl (h.ended finished ramfile bytes)
  | stored header payload kind events state fits =>
    obtain ⟨d, hd⟩ := map_sent_eq_cons (List.cons.inj events).2
    cases hd

theorem number_inj (h : UInt8.ofNat (i + 1) = UInt8.ofNat (j + 1)) (reached : j ≤ i + 1) (near : i ≤ j + 10) :
    i = j := by
  -- the places are less than 256 apart
  have hmod := congrArg UInt8.toNat h
  simp only [UInt8.toNat_ofNat'] at hmod
  omega

theorem Arrives.accepted (arrives : Arrives sender file i intact (header :: s.body body))
    (kind : FrameKind s.pThis header body.length) (checks : SameChecks sender receiver)
    (setup : SameSetup receiver s.pThis) :
    UInt8.ofNat (i + 1) = s.expectedBlkNumber ∧ body = blockPayload sender.blksize file i := by
  obtain ⟨hi, rfl, bytes, hbody, _, content⟩ := arrives.block kind
  have size := frameKind_payload kind
  have hcrc : lxmodemBlockHasCrc s.pThis body.length = sender.usesCrc := by
    rw [← setup.blockHasCrc]
    exact checks.hasCrc _ _ (setup.frameKind.mpr kind)
  have hctx : s.pThis.crc16 = sender.crc16 := by rw [← setup.crc16, checks.crc16]
  simp only [LxmodemReceiveState.body, frameBody, hcrc, hctx, List.cons.injEq] at hbody
  obtain ⟨hnumber, _, hbytes⟩ := hbody
  refine ⟨hnumber.symm, ?_⟩
  rcases content with ⟨_, rfl⟩ | ⟨_, spoils⟩
  · exact (List.append_inj hbytes size).1
  · subst hbytes
    have spoilt := spoils.2
    rw [← size, List.drop_left, List.take_left] at spoilt
    exact absurd rfl spoilt

theorem Trails.takes (h : Trails sender receiver file j m s) (writable : receiver.ramfile.Writable)
    (checks : SameChecks sender receiver) (arrives : Arrives sender file i intact (header :: body))
    (place : i + 1 = m ∨ i = m)
    (turn : ReceiveTurn s (.received [header] :: .received body :: pending.map .sent) s') :
    Ended sender receiver file s' ∨ ∃ j', Trails sender receiver file j' (i + 1) s' := by
  have hreached := h.reached
  have hbehind := h.behind
  have hpatient := h.patient
  cases h.outcome turn with
  | failed stocked retry patient =>
    exact Or.inr ⟨j, h.failed stocked retry patient (by omega) (by omega)⟩
  | ended finished ramfile bytes => exact Or.inl (h.ended finished ramfile bytes)
  | stored header' payload kind events state fits =>
    obtain ⟨hheader, hrest⟩ := List.cons.inj events
    cases hheader
    obtain ⟨hbody, _⟩ := List.cons.inj hrest
    cases hbody
    obtain ⟨number, rfl⟩ := arrives.accepted kind checks h.setup
    obtain ⟨hi, _⟩ := arrives.block kind
    obtain rfl := number_inj (number.trans h.number) (by omega) (by omega)
    subst state
    refine Or.inr ⟨i + 1, stored_stocked h.toStocked writable fits, hi, Nat.le_refl _, Nat.le_add_right _ _, ?_⟩
    exact Nat.zero_lt_succ 9

theorem Climbs.concat (h : Climbs m flight k) (place : i + 1 = k ∨ i = k) :
    Climbs m (flight ++ [(i, intact)]) (i + 1) := by
  induction flight generalizing m with
  | nil =>
    obtain rfl : m = k := h
    exact ⟨place, rfl⟩
  | cons f flight ih => exact ⟨h.1, ih h.2⟩

theorem Climbs.nothing (h : Climbs m flight 0) : flight = [] ∧ m = 0 := by
  induction flight generalizing m with
  | nil => exact ⟨rfl, h⟩
  | cons f flight ih => exact absurd (ih h.2).2 (Nat.succ_ne_zero f.1)

end Turns

inductive Taking (sender receiver : ModemContext) (file : List UInt8) (m : ℕ) :
    ReceiverPhase → List (ℕ × Bool) → List UInt8 → Prop
  | asking {flight : List (ℕ × Bool)} {q : List UInt8} (first : m = 0) (carries : Carries sender file flight q) :
      Taking sender receiver file m .asking flight q
  | writing {j : ℕ} {s : LxmodemReceiveState} {pending : List (List UInt8)} {flight : List (ℕ × Bool)}
      {q : List UInt8} (trails : Trails sender receiver file j m s) (carries : Carries sender file flight q) :
      Taking sender receiver file m (.writing pending s) flight q
  | filling {j i blksize : ℕ} {s : LxmodemReceiveState} {header : UInt8} {intact : Bool} {body : List UInt8}
      {flight : List (ℕ × Bool)} {q : List UInt8} (trails : Trails sender receiver file j m s)
      (kind : FrameKind s.pThis header blksize) (size : body.length = bodySize s.pThis blksize)
      (arrives : Arrives sender file i intact (header :: body)) (carries : Carries sender file flight q) :
      Taking sender receiver file m (.filling s header blksize) ((i, intact) :: flight) (body ++ q)

inductive LeadsTo : SenderPhase → ℕ → Prop
  | asking (attempts : ℕ) : LeadsTo (.asking attempts) 0
  | first (i : ℕ) : LeadsTo (.sending i 0) i
  | repeats (i c : ℕ) : LeadsTo (.sending i (c + 1)) (i + 1)
  | sent (i c attempts : ℕ) : LeadsTo (.waiting i c attempts) (i + 1)
  | stopped (k : ℕ) : LeadsTo .stopped k

inductive InOrder (sender receiver : ModemContext) (file : List UInt8) :
    SenderPhase → ReceiverPhase → List UInt8 → Prop
  | climbing {left : SenderPhase} {right : ReceiverPhase} {toRight : List UInt8} {m k : ℕ}
      {flight : List (ℕ × Bool)} (taking : Taking sender receiver file m right flight toRight)
      (climbs : Climbs m flight k) (leads : LeadsTo left k) : InOrder sender receiver file left right toRight
  | refused {left : SenderPhase} {right : ReceiverPhase} {toRight : List UInt8}
      (sends : left = .cancelling ∨ left = .stopped)
      (trails : right = .asking ∨
        ∃ pending s, right = .writing pending s ∧ Trails sender receiver file 0 0 s)
      (cancels : ∀ b ∈ toRight, b = CAN) : InOrder sender receiver file left right toRight
  | ended {left : SenderPhase} {toRight : List UInt8} {pending : List (List UInt8)} {s : LxmodemReceiveState}
      (ended : Ended sender receiver file s) : InOrder sender receiver file left (.writing pending s) toRight
  | lost {left : SenderPhase} {toRight : List UInt8} : InOrder sender receiver file left .lost toRight

section InOrder

variable {sender receiver : ModemContext} {file : List UInt8} {left left' : SenderPhase}
  {right right' : ReceiverPhase} {toLeft toRight q : List UInt8} {i m k : ℕ} {intact : Bool}
  {flight : List (ℕ × Bool)} {d : List UInt8} {ℓ : Label UInt8} {log : List (Label UInt8)}

theorem trails_initial (sender : ModemContext) (file : List UInt8) (writable : receiver.ramfile.Writable) :
    Trails sender receiver file 0 0 (.initial receiver) :=
  ⟨stocked_initial sender file writable, Nat.zero_le _, Nat.le_refl _, Nat.zero_le _, Nat.zero_lt_succ 9⟩

theorem Taking.concat (h : Taking sender receiver file m right flight toRight)
    (arrives : Arrives sender file i intact d) :
    Taking sender receiver file m right (flight ++ [(i, intact)]) (toRight ++ d) := by
  cases h with
  | asking first carries => exact .asking first (carries.concat arrives)
  | writing trails carries => exact .writing trails (carries.concat arrives)
  | filling trails kind size first carries =>
    rw [List.append_assoc]
    exact .filling trails kind size first (carries.concat arrives)

theorem Taking.nothing (h : Taking sender receiver file 0 right [] toRight) :
    toRight = [] ∧ (right = .asking ∨ ∃ pending s, right = .writing pending s ∧
      Trails sender receiver file 0 0 s) := by
  cases h with
  | asking first carries =>
    cases carries with
    | nil => exact ⟨rfl, Or.inl rfl⟩
  | @writing j s pending _ _ trails carries =>
    cases carries with
    | nil =>
      obtain rfl : j = 0 := Nat.le_zero.mp trails.reached
      exact ⟨rfl, Or.inr ⟨pending, s, rfl, trails⟩⟩

theorem arrives_allowed (hi : i ≤ blockCount sender.blksize file)
    (allowed : (wholeFrames sender).left log (.write (fileFrame sender file i) d)) :
    ∃ intact, Arrives sender file i intact d := by
  rcases allowed with rfl | spoiled
  · exact ⟨true, .intact hi⟩
  · exact ⟨false, spoiled.arrives⟩

theorem cancels_allowed (allowed : (wholeFrames sender).left log (.write [CAN, CAN] d)) : d = [CAN, CAN] := by
  rcases allowed with rfl | ⟨n, payload, bytes, frame, _⟩
  · rfl
  · simp [dataFrame, frameBody] at frame

theorem InOrder.sends (h : InOrder sender receiver file left right toRight)
    (step : SenderStep sender file left ℓ left') (allowed : (wholeFrames sender).left log ℓ) :
    InOrder sender receiver file left' right (toRight ++ ℓ.delivered) := by
  cases h with
  | @climbing _ _ m k flight taking climbs leads =>
    have quiet : ∀ {left'}, LeadsTo left' k → InOrder sender receiver file left' right (toRight ++ []) := by
      intro left' leads'
      rw [List.append_nil]
      exact .climbing taking climbs leads'
    cases step with
    | asksAgain attempts =>
      cases leads
      exact quiet (.asking _)
    | unasked => exact quiet (.stopped _)
    | decodes attempts p hp =>
      cases leads
      exact quiet (.first 0)
    | rejects attempts p hp =>
      cases leads
      obtain ⟨rfl, rfl⟩ := climbs.nothing
      obtain ⟨rfl, trails⟩ := taking.nothing
      exact .refused (Or.inl rfl) trails (by simp [Label.delivered])
    | cancels d => cases leads
    | sends i c d hi =>
      obtain ⟨intact, arrives⟩ := arrives_allowed hi allowed
      have place : i + 1 = k ∨ i = k := by
        cases leads with
        | first => exact Or.inr rfl
        | repeats => exact Or.inl rfl
      exact .climbing (taking.concat arrives) (climbs.concat place) (.sent i c 10)
    | waits i c attempts =>
      cases leads
      exact quiet (.sent _ _ _)
    | runsOut i c =>
      cases leads
      exact quiet (.repeats _ _)
    | next i c attempts hi =>
      cases leads
      exact quiet (.first _)
    | finishes => exact quiet (.stopped _)
    | again i c attempts b hb =>
      cases leads
      exact quiet (.repeats _ _)
    | gaveUp => exact quiet (.stopped _)
    | ranOut => exact quiet (.stopped _)
  | refused sends trails cancels =>
    cases step with
    | cancels d =>
      obtain rfl := cancels_allowed allowed
      refine .refused (Or.inr rfl) trails fun b hb => ?_
      rcases List.mem_append.mp hb with hb | hb
      · exact cancels b hb
      · simpa [Label.delivered] using hb
    | _ => simp at sends
  | ended ended => exact .ended ended
  | lost => exact .lost

theorem InOrder.receives (h : InOrder sender receiver file left right toRight)
    (writable : receiver.ramfile.Writable) (compatible : Compatible sender receiver)
    (step : ReceiverStep receiver right ℓ right') (queue : toRight = ℓ.consumed ++ q)
    (whole : ∀ n, ℓ = .timeOut n → n = 1) : InOrder sender receiver file left right' q := by
  cases h with
  | @climbing _ _ m k flight taking climbs leads =>
    cases taking with
    | asking first carries =>
      cases step with
      | asks p d asks =>
        obtain rfl : toRight = q := queue
        subst first
        exact .climbing (.writing (trails_initial sender file writable) carries) climbs leads
      | loses => exact .lost
    | @writing j s pending _ _ trails carries =>
      cases step with
      | writes w d pending =>
        obtain rfl : toRight = q := queue
        exact .climbing (.writing trails carries) climbs leads
      | expires running turn =>
        obtain rfl : toRight = q := queue
        rcases trails.idle turn with ended | trails'
        · exact .ended ended
        · exact .climbing (.writing (trails' m (Nat.le_refl _) (Nat.le_succ _)) carries) climbs leads
      | @char _ s' header pending running other turn =>
        obtain rfl : toRight = header :: q := queue
        obtain ⟨i, intact, rest, body, q', rfl, rfl, arrives, carries'⟩ := carries.first
        obtain ⟨rfl, rfl, rfl⟩ := arrives.endOfFile trails.toStocked compatible other
        obtain ⟨place, climbs'⟩ := climbs
        rcases trails.idle turn with ended | trails'
        · exact .ended ended
        · exact .climbing (.writing (trails' _ (by omega) (by omega)) carries') climbs' leads
      | @header _ header blksize running kind =>
        obtain rfl : toRight = header :: q := queue
        obtain ⟨i, intact, rest, body, q', rfl, rfl, arrives, carries'⟩ := carries.first
        have size := arrives.body_length trails.toStocked compatible.sameChecks kind
        exact .climbing (.filling trails kind size arrives carries') climbs leads
      | loses => exact .lost
    | @filling j i blksize s header intact body flight q₀ trails kind size arrives carries =>
      cases step with
      | @block _ s' _ _ body' pending size' turn =>
        obtain ⟨rfl, rfl⟩ := List.append_inj (show body ++ q₀ = body' ++ q from queue) (size.trans size'.symm)
        obtain ⟨place, climbs'⟩ := climbs
        rcases trails.takes writable compatible.sameChecks arrives place turn with ended | ⟨j', trails'⟩
        · exact .ended ended
        · exact .climbing (.writing trails' carries) climbs' leads
      | breaks turn =>
        have hone := whole _ rfl
        rw [bodySize] at hone
        omega
      | loses => exact .lost
  | refused sends trails cancels =>
    have rest : ∀ b ∈ q, b = CAN := fun b hb => cancels b (by rw [queue]; exact List.mem_append_right _ hb)
    rcases trails with rfl | ⟨pending, s, rfl, trails⟩
    · cases step with
      | asks p d asks =>
        exact .refused sends (Or.inr ⟨_, _, rfl, trails_initial sender file writable⟩) rest
      | loses => exact .lost
    · have idle {e : Event UInt8} {pending' : List (List UInt8)} {s' : LxmodemReceiveState}
          (turn : ReceiveTurn s (e :: pending'.map .sent) s') :
          InOrder sender receiver file left (.writing pending' s') q := by
        rcases trails.idle turn with ended | trails'
        · exact .ended ended
        · exact .refused sends (Or.inr ⟨_, _, rfl, trails' 0 (Nat.le_refl _) (Nat.zero_le _)⟩) rest
      cases step with
      | writes w d pending => exact .refused sends (Or.inr ⟨_, _, rfl, trails⟩) rest
      | expires running turn => exact idle turn
      | char running other turn => exact idle turn
      | @header _ header blksize running kind =>
        obtain rfl : header = CAN := cancels header (by simp [queue, Label.consumed])
        rcases kind with ⟨hk, _⟩ | ⟨hk, _⟩ <;> cases hk
      | loses => exact .lost
  | ended ended =>
    cases step with
    | writes => exact .ended ended
    | expires running => rw [ended.finished] at running; cases running
    | char running => rw [ended.finished] at running; cases running
    | header running => rw [ended.finished] at running; cases running
    | loses => exact .lost
  | lost =>
    cases step with
    | loses => exact .lost

theorem InOrder.returned {pending : List (List UInt8)} {s : LxmodemReceiveState}
    (h : InOrder sender receiver file left (.writing pending s) toRight) (finished : s.bFinished = true) :
    Ended sender receiver file s := by
  cases h with
  | climbing taking climbs leads =>
    cases taking with
    | writing trails carries =>
      rw [trails.running] at finished
      cases finished
  | refused sends trails cancels =>
    rcases trails with hasking | ⟨pending', s', hwriting, trails⟩
    · cases hasking
    · cases hwriting
      rw [trails.running] at finished
      cases finished
  | ended ended => exact ended

end InOrder

theorem xmodem_inOrder (sender receiver : ModemContext) (file : List UInt8)
    (loaded : sender.ramfile.Loaded file) (crc16 : receiver.crc16 = sender.crc16)
    (configured : receiver.Configured)
    (opts : sender.opts = receiver.opts ∨
      sender.opts = .lxmodem128WithCrc ∧ receiver.opts = .lxmodem1k)
    (writable : receiver.ramfile.Writable) (fuel fuel' : ℕ) (s : Network UInt8 (Int32 × ModemContext))
    (run : Steps (wholeFrames { sender with protocol := .xmodem })
      (.start (lmodemEmit .xmodem fuel sender) (lmodemReceive .xmodem fuel' receiver)) s)
    (n : Int32) (receiver' : ModemContext) (returned : s.right = .done (n, receiver')) :
    ∃ j ≤ blockCount { sender with protocol := .xmodem }.blksize file,
      receiver'.ramfile = receiver.ramfile.appended
        (payloadsBefore { sender with protocol := .xmodem }.blksize file j) ∧
      (n = -1 ∨ n.toInt = (payloadsBefore { sender with protocol := .xmodem }.blksize file j).length) := by
  have compatible : Compatible { sender with protocol := .xmodem } { receiver with protocol := .xmodem } :=
    compatible_xmodem rfl rfl crc16 configured opts
  have loaded' : { sender with protocol := .xmodem }.ramfile.Loaded file := loaded
  have writable' : { receiver with protocol := .xmodem }.ramfile.Writable := writable
  obtain ⟨c, describes, inOrder⟩ := @Situation.invariant UInt8 (Int32 × ModemContext) SenderPhase ReceiverPhase
    (senderDescription loaded') (receiverDescription writable') _
    (fun c => InOrder { sender with protocol := .xmodem } { receiver with protocol := .xmodem } file c.left
      c.right c.toRight) (fun _ => _) _ _ _
    (fun _ _ h => h)
    (fun c c' _ _ _ _ hc hstep => by
      cases hstep with
      | left hstep queue allowed => exact hc.sends hstep allowed
      | right hstep queue allowed =>
        apply hc.receives writable' compatible hstep queue
        rintro n rfl
        exact allowed)
    run (describes_start loaded' writable' fuel fuel')
    (.climbing (.asking rfl .nil) rfl (.asking 10))
  have right := describes.right
  rw [returned] at right
  obtain ⟨r, hr, finished, rfl, rfl⟩ := ReceiverAt.returned right
  rw [hr] at inOrder
  obtain ⟨_, j, hj, ramfile, fits, bytes⟩ := inOrder.returned finished
  have size := writable'.size
  refine ⟨j, hj, ramfile, ?_⟩
  rcases bytes with failed | same
  · exact Or.inl (by rw [failed]; rfl)
  · exact Or.inr (by rw [toInt_toInt32 (by omega), same])

theorem xmodem_inOrder_oneByte :
    ∃ s receiver', Steps (wholeFrames (checksumSender [7]))
        (.start (lmodemEmit .xmodem 4 (checksumSender [7])) (lmodemReceive .xmodem 4 smallReceiver)) s ∧
      s.right = .done (128, receiver') ∧ ∃ j ≤ blockCount (checksumSender [7]).blksize [7],
        receiver'.ramfile = smallReceiver.ramfile.appended
          (payloadsBefore (checksumSender [7]).blksize [7] j) ∧
        ((128 : Int32) = -1 ∨
          (128 : Int32).toInt = (payloadsBefore (checksumSender [7]).blksize [7] j).length) := by
  have run := @Network.steps_alternate _ _ .perfect .perfect 10
    (.start (lmodemEmit .xmodem 4 (checksumSender [7])) (lmodemReceive .xmodem 4 smallReceiver))
  obtain ⟨⟨m, sender'⟩, ⟨n, receiver'⟩, returned, rfl, rfl⟩ := @Network.returned_of_results _ _ _ _
    ((Network.start (lmodemEmit .xmodem 4 (checksumSender [7]))
      (lmodemReceive .xmodem 4 smallReceiver)).alternate .perfect .perfect 10)
    Prod.fst Prod.fst 128 128 (by decide +kernel)
  have whole := steps_mono (fun _ _ => step_wholeFrames (checksumSender [7])) run
  exact ⟨_, receiver', whole, returned.2, xmodem_inOrder (checksumSender [7]) smallReceiver [7]
    ⟨⟨by decide, by decide⟩, rfl⟩ rfl rfl (Or.inl rfl) ⟨by decide, by decide⟩ 4 4 _ whole _ receiver' returned.2⟩

end LightModem
