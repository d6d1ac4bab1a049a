import LightModem.Boundaries
import LightModem.Recovery

set_option autoImplicit false

/-!
One block arrives with a damaged header. The receiver refuses the header, and reads what is left of the
block as headers.
-/

namespace LightModem

open Interaction

def isWrite : Label UInt8 → Bool
  | .write _ _ => true
  | .read _ => false
  | .timeOut _ => false

def misheaded (k : ℕ) (b : UInt8) : Wire UInt8 := fun log w =>
  if log.countP isWrite = k ∧ w.length ≠ 1 then b :: w.tail else w

def Noise (b : UInt8) : Prop := b ≠ SOH ∧ b ≠ STX ∧ b ≠ EOT ∧ b ≠ CAN

instance (b : UInt8) : Decidable (Noise b) :=
  inferInstanceAs (Decidable (b ≠ SOH ∧ b ≠ STX ∧ b ≠ EOT ∧ b ≠ CAN))

def lastAttempt (log : List (Label UInt8)) (_ : ℕ) : Prop := List.replicate 9 (.timeOut 1) <:+ log

def blockRead (_ : List (Label UInt8)) (n : ℕ) : Prop := n ≠ 1

inductive Stays (i : ℕ) : SenderPhase → Prop
  | sending (c : ℕ) : Stays i (.sending i (c + 1))
  | waiting (c attempts : ℕ) : Stays i (.waiting i c attempts)
  | stopped : Stays i .stopped

structure Damaged (sender receiver : ModemContext) (file : List UInt8) (i j : ℕ) (past : List (Label UInt8))
    (first : Label UInt8) (later : List (Label UInt8)) (s : Situation SenderPhase ReceiverPhase UInt8) : Prop where
  left : Stays i s.left
  quiet : ACK ∉ s.toLeft
  log : s.leftLog = past ++ first :: later
  first : Unreadable receiver first.delivered
  later : ∀ ℓ ∈ later, ℓ.delivered = [] ∨ ℓ.delivered = fileFrame sender file i
  place : i + 1 = j ∨ i = j
  block : i < blockCount sender.blksize file
  right : Wandering sender receiver file j True past s.right s.rightLog

inductive Misheaded (sender receiver : ModemContext) (file : List UInt8) (k : ℕ)
    (s : Situation SenderPhase ReceiverPhase UInt8) : Prop
  | opening (h : Opening sender receiver file s.left s.right s.toLeft s.toRight)
  | live {j n : ℕ} {pending : List (List UInt8)} {flight : List (ℕ × Bool)}
      (h : Live sender receiver file s.left s.right s.toLeft s.toRight j n pending flight)
      (lockstep : s.leftLog.countP isWrite ≤ k → Lockstep s.left (tokens s.toLeft pending flight))
  | damaged {i j : ℕ} {past later : List (Label UInt8)} {first : Label UInt8}
      (late : k < s.leftLog.countP isWrite) (h : Damaged sender receiver file i j past first later s)
  | misled (h : Misled s)
  | ended (h : Over sender receiver file s.right)

section Headers

variable {sender receiver : ModemContext} {file : List UInt8} {left left' : SenderPhase}
  {right right' : ReceiverPhase} {toLeft toRight q d : List UInt8} {ℓ first : Label UInt8}
  {log past later : List (Label UInt8)} {s s' : Situation SenderPhase ReceiverPhase UInt8}
  {t : Network UInt8 (Int32 × ModemContext)} {i j c k n : ℕ} {b : UInt8} {pending : List (List UInt8)}
  {flight : List (ℕ × Bool)} {forward backward : Wire UInt8}

theorem Noise.unreadable (h : Noise b) (receiver : ModemContext) (body : List UInt8) :
    Unreadable receiver (b :: body) := by
  obtain ⟨hSOH, hSTX, hEOT, _⟩ := h
  refine ⟨b, body, rfl, hEOT, ?_⟩
  rintro blksize (⟨h, _⟩ | ⟨h, _⟩)
  · exact hSOH h
  · exact hSTX h

theorem countP_write (log : List (Label UInt8)) (w d : List UInt8) :
    (log ++ [Label.write w d]).countP isWrite = log.countP isWrite + 1 := by
  simp [isWrite]

theorem countP_reads (reads : ∀ w d, ℓ ≠ .write w d) : (log ++ [ℓ]).countP isWrite = log.countP isWrite := by
  cases ℓ with
  | write w d => exact absurd rfl (reads w d)
  | read data => simp [isWrite]
  | timeOut n => simp [isWrite]

theorem Carries.nonempty (h : Carries sender file flight q) (hne : flight ≠ []) : ∃ b q', q = b :: q' := by
  cases q with
  | cons b q' => exact ⟨b, q', rfl⟩
  | nil =>
    exfalso
    generalize hq : ([] : List UInt8) = q at h
    cases h with
    | nil => exact hne rfl
    | cons arrives rest =>
      obtain ⟨hframe, _⟩ := List.append_eq_nil_iff.mp hq.symm
      subst hframe
      exact arrives.ne_nil rfl

theorem Facing.not_stuck {writable : receiver.ramfile.Writable}
    (h : Facing sender receiver file j s.right pending flight s.toRight) (busy : pending ≠ [] ∨ flight ≠ [])
    {L : Description SenderPhase UInt8 (Int32 × ModemContext)}
    (describes : s.Describes L (receiverDescription writable) t) : ¬ Stuck forward backward t := by
  have moves {ℓ : Label UInt8} {q : List UInt8} (hm : ∃ p, Moves t.right s.toRight ℓ p q)
      (allowed : backward.Allows t.rightLog ℓ) : ¬ Stuck forward backward t := by
    obtain ⟨p, hm⟩ := hm
    rw [← describes.toRight] at hm
    exact fun stuck => stuck _ (.right hm allowed)
  have right : ReceiverAt receiver s.right t.right := describes.right
  generalize s.right = phase at h right
  generalize s.toRight = toRight at h moves
  cases h with
  | @writing r _ _ q stocked answer carries =>
    rcases answer with rfl | ⟨w, rfl⟩
    · obtain ⟨b, q', rfl⟩ := carries.nonempty (by simpa using busy)
      exact moves (right.reads stocked.running b q') trivial
    · exact moves (right.answers (backward t.rightLog [w]) _) rfl
  | @filling r header blksize i intact body flight q stocked kind size arrives carries =>
    exact moves (right.fills size q) trivial

theorem Live.not_stuck {loaded : sender.ramfile.Loaded file} {writable : receiver.ramfile.Writable}
    {attempts : ℕ} (h : Live sender receiver file s.left s.right s.toLeft s.toRight j n pending flight)
    (waiting : s.left = .waiting i c attempts) (busy : tokens s.toLeft pending flight ≠ 0)
    (describes : s.Describes (senderDescription loaded) (receiverDescription writable) t) :
    ¬ Stuck forward backward t := by
  cases hleft : s.toLeft with
  | cons b q =>
    have left : SenderAt sender file s.left t.left := describes.left
    rw [waiting] at left
    obtain ⟨p, hm⟩ := left.hears b q
    rw [← hleft, ← describes.toLeft] at hm
    exact fun stuck => stuck _ (.left hm trivial)
  | nil =>
    refine h.facing.not_stuck ?_ describes
    by_contra none
    obtain ⟨rfl, rfl⟩ : pending = [] ∧ flight = [] := by simpa using none
    exact busy (by rw [hleft]; rfl)

theorem misheaded_eq (k : ℕ) (b : UInt8) (log : List (Label UInt8)) (w : List UInt8) :
    misheaded k b log w = w ∨ log.countP isWrite = k ∧ w.length ≠ 1 ∧ misheaded k b log w = b :: w.tail := by
  unfold misheaded
  split
  · rename_i h
    exact Or.inr ⟨h.1, h.2, rfl⟩
  · exact Or.inl rfl

theorem misheaded_late (h : k < log.countP isWrite) (b : UInt8) (w : List UInt8) : misheaded k b log w = w :=
  if_neg fun h' => (Nat.ne_of_gt h) h'.1

theorem Misheaded.sends (noise : Noise b)
    (h : Live sender receiver file (.sending i c) right toLeft toRight j n pending flight)
    (lockstep : log.countP isWrite ≤ k → Lockstep (.sending i c) (tokens toLeft pending flight))
    (hi : i ≤ blockCount sender.blksize file) {rightLog : List (Label UInt8)}
    (balanced : log.flatMap Label.delivered = rightLog.flatMap Label.consumed ++ toRight) :
    Misheaded sender receiver file k ⟨.waiting i c 10, right, toLeft,
      toRight ++ misheaded k b log (fileFrame sender file i),
      log ++ [.write (fileFrame sender file i) (misheaded k b log (fileFrame sender file i))], rightLog⟩ := by
  rcases misheaded_eq k b log (fileFrame sender file i) with intact | ⟨hk, hlen, damaged⟩
  · rw [intact]
    obtain ⟨n', live⟩ := h.sends (.intact hi) (Or.inl rfl)
    apply Misheaded.live live
    intro hle
    rw [countP_write] at hle
    have before : tokens toLeft pending flight = 0 := lockstep (by omega)
    change tokens toLeft pending (flight ++ [(i, true)]) = 1
    simp only [tokens, List.length_append, List.length_singleton] at before ⊢
    omega
  · have hlt : i < blockCount sender.blksize file := by
      by_contra hge
      rw [fileFrame_eq_EOT.mpr hge] at hlen
      exact hlen rfl
    have none : tokens toLeft pending flight = 0 := lockstep hk.le
    obtain ⟨rfl, rfl, rfl⟩ : toLeft = [] ∧ pending = [] ∧ flight = [] := by
      simp only [tokens, Nat.add_eq_zero_iff, List.length_eq_zero_iff] at none
      exact ⟨none.1.1, none.1.2, none.2⟩
    obtain ⟨facing, stored, follows, paired⟩ := h
    have hj : j = n := follows
    have place : i + 1 = j ∨ i = j := by
      generalize hleft : SenderPhase.sending i c = left at paired
      cases paired with
      | first => cases hleft; exact Or.inr hj.symm
      | repeats => cases hleft; exact Or.inl hj.symm
      | refused => cases hleft; exact Or.inr hj.symm
      | sent => cases hleft
      | spoiled => cases hleft
      | stopped => cases hleft
    cases facing with
    | writing stocked answer carries =>
      have empty : toRight = [] := by
        cases carries
        rfl
      subst empty
      have past : Beyond log (rightLog.flatMap Label.consumed).length := by
        rw [Beyond, balanced, List.append_nil]
      refine .damaged ?_ ⟨.waiting c 10, by simp, rfl, ?_, by simp, place, hlt,
        .writing stocked (by simp) past⟩
      · rw [countP_write]
        omega
      · rw [Label.delivered, damaged]
        exact noise.unreadable receiver _

theorem carries_copies (hi : i < blockCount sender.blksize file)
    (copies : ∀ ℓ ∈ log, ℓ.delivered = [] ∨ ℓ.delivered = fileFrame sender file i) :
    ∃ flight, Carries sender file flight (log.flatMap Label.delivered) ∧ ∀ f ∈ flight, f = (i, true) := by
  induction log with
  | nil => exact ⟨[], .nil, by simp⟩
  | cons ℓ log ih =>
    obtain ⟨flight, carries, hflight⟩ := ih fun ℓ' hmem => copies ℓ' (List.mem_cons_of_mem _ hmem)
    rw [List.flatMap_cons]
    rcases copies ℓ List.mem_cons_self with hd | hd <;> rw [hd]
    · exact ⟨flight, carries, hflight⟩
    · exact ⟨(i, true) :: flight, .cons (.intact hi.le) carries, by simpa using hflight⟩

theorem follows_copies (hflight : ∀ f ∈ flight, f = (i, true)) : Follows (i + 1) flight (i + 1) := by
  induction flight with
  | nil => rfl
  | cons f flight ih =>
    obtain rfl := hflight f List.mem_cons_self
    exact Or.inl ⟨rfl, ih fun f hf => hflight f (List.mem_cons_of_mem _ hf)⟩

theorem Stays.paired (h : Stays i left) (quiet : Prop) : Paired quiet left (i + 1) := by
  cases h with
  | sending c => exact .repeats i c
  | waiting c attempts => exact .sent i c attempts
  | stopped => exact .stopped _

theorem Stays.step (h : Stays i left) (quiet : ACK ∉ toLeft) (step : SenderStep sender file left ℓ left')
    (queue : toLeft = ℓ.consumed ++ q) :
    Stays i left' ∧ ACK ∉ q ∧ ∀ w d, ℓ = .write w d → w = fileFrame sender file i := by
  have quiet' : ACK ∉ q := fun hack => quiet (by simp [queue, hack])
  cases h with
  | sending c =>
    cases step with
    | sends _ _ d hi =>
      refine ⟨.waiting _ _, quiet', ?_⟩
      rintro _ _ ⟨⟩
      rfl
  | waiting c attempts =>
    have unread (h : toLeft = [ACK] ++ q) : False := quiet (by simp [h])
    cases step with
    | waits => exact ⟨.waiting _ _, quiet', by simp⟩
    | runsOut => exact ⟨.sending _, quiet', by simp⟩
    | next => exact (unread queue).elim
    | finishes => exact (unread queue).elim
    | again => exact ⟨.sending _, quiet', by simp⟩
    | gaveUp => exact ⟨.stopped, quiet', by simp⟩
    | ranOut => exact ⟨.stopped, quiet', by simp⟩
  | stopped => cases step

theorem Damaged.left_step (h : Damaged sender receiver file i j past first later s)
    (late : k < s.leftLog.countP isWrite) (step : SenderStep sender file s.left ℓ left')
    (queue : s.toLeft = ℓ.consumed ++ q) (carried : ∀ w d, ℓ = .write w d → d = misheaded k b s.leftLog w) :
    Damaged sender receiver file i j past first (later ++ [ℓ])
      ⟨left', s.right, q, s.toRight ++ ℓ.delivered, s.leftLog ++ [ℓ], s.rightLog⟩ := by
  obtain ⟨stays, quiet, written⟩ := h.left.step h.quiet step queue
  refine ⟨stays, quiet, ?_, h.first, ?_, h.place, h.block, h.right⟩
  · change s.leftLog ++ [ℓ] = past ++ first :: (later ++ [ℓ])
    rw [h.log, List.append_assoc, List.cons_append]
  · intro ℓ' hmem
    rcases List.mem_append.mp hmem with hmem | hmem
    · exact h.later ℓ' hmem
    · rw [List.mem_singleton.mp hmem]
      cases ℓ with
      | write w d =>
        obtain rfl := written w d rfl
        obtain rfl := carried _ d rfl
        exact Or.inr (misheaded_late late b _)
      | read data => exact Or.inl rfl
      | timeOut n => exact Or.inl rfl

theorem Damaged.right_step (h : Damaged sender receiver file i j past first later s)
    (late : k < s.leftLog.countP isWrite) (writable : receiver.ramfile.Writable)
    (checks : SameChecks sender receiver) (step : ReceiverStep receiver s.right ℓ right')
    (carried : ∀ w d, ℓ = .write w d → d = w)
    (balance : s.leftLog.flatMap Label.delivered = (s.rightLog ++ [ℓ]).flatMap Label.consumed ++ q) :
    Misheaded sender receiver file k
      ⟨s.left, right', s.toLeft ++ ℓ.delivered, q, s.leftLog, s.rightLog ++ [ℓ]⟩ := by
  rcases h.right.reads step with ended | ⟨wandering, refuses⟩ | ⟨before, header, rest, acknowledges, reads⟩
  · exact .ended ended
  · refine .damaged late ⟨h.left, ?_, h.log, h.first, h.later, h.place, h.block, wandering⟩
    intro hack
    rcases List.mem_append.mp hack with hack | hack
    · exact h.quiet hack
    · cases ℓ with
      | write w d => exact refuses trivial w d rfl (carried w d rfl ▸ hack)
      | read data => cases hack
      | timeOut n => cases hack
  · by_cases whole : WholeWrites s.leftLog before
    · have sent : ∀ ℓ ∈ first :: later, ℓ.delivered = [] ∨ Unreadable receiver ℓ.delivered ∨
          ∃ i', i' = i ∧ ℓ.delivered = fileFrame sender file i' := by
        intro ℓ' hmem
        rcases List.mem_cons.mp hmem with rfl | hmem
        · exact Or.inr (Or.inl h.first)
        · exact (h.later ℓ' hmem).imp id fun hd => Or.inr ⟨i, rfl, hd⟩
      have block := h.block
      have place := h.place
      rw [h.log] at whole balance
      rcases acknowledges.taken writable checks whole balance (by omega) (fun i' hi' => ⟨by omega, by omega⟩) sent
        with ended | ⟨r, i', after, rfl, stocked, rfl, hi, hafter, rfl⟩
      · exact .ended ended
      · obtain ⟨flight, carries, hflight⟩ :=
          carries_copies hi fun ℓ' hmem => h.later ℓ' (hafter.mem hmem)
        exact .live ⟨.writing stocked (Or.inr ⟨_, rfl⟩) carries, hi, follows_copies hflight, h.left.paired _⟩
          fun hle => absurd hle (Nat.not_le_of_lt late)
    · exact .misled (@Acknowledges.misled sender receiver file j past before rest header
        ⟨s.left, right', s.toLeft ++ ℓ.delivered, q, s.leftLog, s.rightLog ++ [ℓ]⟩ acknowledges whole)

theorem Live.misheaded_left {loaded : sender.ramfile.Loaded file} {writable : receiver.ramfile.Writable}
    (h : Live sender receiver file s.left s.right s.toLeft s.toRight j n pending flight)
    (lockstep : s.leftLog.countP isWrite ≤ k → Lockstep s.left (tokens s.toLeft pending flight))
    (noise : Noise b) (traced : Traced sender file s.left s.leftLog) (balanced : s.Balanced)
    (describes : s.Describes (senderDescription loaded) (receiverDescription writable) t)
    (step : SenderStep sender file s.left ℓ left') (queue : s.toLeft = ℓ.consumed ++ q)
    (allowed : (misheaded k b).Waits lastAttempt (Stuck forward backward t) s.leftLog ℓ) :
    Misheaded sender receiver file k
      ⟨left', s.right, q, s.toRight ++ ℓ.delivered, s.leftLog ++ [ℓ], s.rightLog⟩ := by
  by_cases reads : ∀ w d, ℓ ≠ .write w d
  · have hd := Label.delivered_of_reads reads
    apply Misheaded.live (by rw [hd, List.append_nil]; exact h.hears step queue reads)
    intro hle
    rw [countP_reads reads] at hle
    have before := lockstep hle
    refine h.lockstep_hears step queue reads ?_ before
    -- A wait whose answer is on its way does not run out.
    rintro i c hleft rfl
    rw [hleft] at traced before
    refine h.not_stuck hleft ?_ describes (allowed traced.2.2)
    rw [show tokens s.toLeft pending flight = 1 from before]
    exact Nat.one_ne_zero
  · obtain ⟨w, d, rfl⟩ : ∃ w d, ℓ = .write w d := by simpa using reads
    obtain ⟨left, right, toLeft, toRight, leftLog, rightLog⟩ := s
    obtain rfl : toLeft = q := queue
    cases step with
    | sends i c _ hi =>
      obtain rfl : d = misheaded k b leftLog (fileFrame sender file i) := allowed
      exact .sends noise h lockstep hi balanced
    | cancels => cases h.paired

theorem Live.misheaded_right {L : Description SenderPhase UInt8 (Int32 × ModemContext)}
    {writable : receiver.ramfile.Writable}
    (h : Live sender receiver file s.left s.right s.toLeft s.toRight j n pending flight)
    (lockstep : s.leftLog.countP isWrite ≤ k → Lockstep s.left (tokens s.toLeft pending flight))
    (compatible : Compatible sender receiver) (describes : s.Describes L (receiverDescription writable) t)
    (step : ReceiverStep receiver s.right ℓ right') (queue : s.toRight = ℓ.consumed ++ q)
    (allowed : Wire.perfect.Waits blockRead (Stuck forward backward t) s.rightLog ℓ) :
    Misheaded sender receiver file k
      ⟨s.left, right', s.toLeft ++ ℓ.delivered, q, s.leftLog, s.rightLog ++ [ℓ]⟩ := by
  have carried : ∀ w d, ℓ = .write w d → d = w := by
    rintro w d rfl
    exact allowed
  have whole : right' = .lost ∨ ∀ n, ℓ = .timeOut n → n = 1 := by
    have facing := h.facing
    generalize hright : s.right = right at facing step
    generalize s.toRight = toRight at facing
    cases facing with
    | writing stocked answer carries =>
      cases step with
      | writes => exact Or.inr (by simp)
      | expires => exact Or.inr (by simp)
      | char => exact Or.inr (by simp)
      | header => exact Or.inr (by simp)
      | loses => exact Or.inl rfl
    | filling stocked kind size arrives carries =>
      apply Or.inr
      rintro n rfl
      by_contra hn
      exact h.facing.not_stuck (Or.inr (List.cons_ne_nil _ _)) describes (allowed hn)
  rcases whole with rfl | whole
  · exact .ended .lost
  · rcases h.receives writable compatible step queue carried whole with ended | ⟨j', pending', flight', live, count⟩
    · exact .ended ended
    · exact .live live (by rw [count]; exact lockstep)

theorem Misheaded.step {loaded : sender.ramfile.Loaded file} {writable : receiver.ramfile.Writable}
    (h : Misheaded sender receiver file k s) (noise : Noise b) (traced : Traced sender file s.left s.leftLog)
    (balanced : s.Balanced) (compatible : Compatible sender receiver)
    (describes : s.Describes (senderDescription loaded) (receiverDescription writable) t)
    (notMisled : ¬ Misled s)
    (step : s.Step (senderDescription loaded) (receiverDescription writable)
      (.patient (misheaded k b) .perfect lastAttempt blockRead (Stuck forward backward t)) s') :
    Misheaded sender receiver file k s' := by
  have balance := step.balanced balanced
  cases step with
  | @left ℓ left' q hstep queue allowed =>
    have carried : ∀ w d, ℓ = .write w d → d = misheaded k b s.leftLog w := by
      rintro w d rfl
      exact allowed
    cases h with
    | opening opening =>
      rcases opening.hears hstep queue with opening' | ⟨rfl, hd, live, rfl⟩
      · exact .opening opening'
      · exact .live (by rw [hd, List.append_nil]; exact live) fun _ => (rfl : tokens [] [] [] = 0)
    | live live lockstep => exact live.misheaded_left lockstep noise traced balanced describes hstep queue allowed
    | damaged late damaged =>
      refine .damaged ?_ (damaged.left_step late hstep queue carried)
      rw [List.countP_append]
      omega
    | misled misled => exact absurd misled notMisled
    | ended ended => exact .ended ended
  | @right ℓ right' q hstep queue allowed =>
    have carried : ∀ w d, ℓ = .write w d → d = w := by
      rintro w d rfl
      exact allowed
    cases h with
    | opening opening =>
      rcases opening.receives writable compatible hstep queue carried with opening' | ended
      · exact .opening opening'
      · exact .ended ended
    | live live lockstep => exact live.misheaded_right lockstep compatible describes hstep queue allowed
    | damaged late damaged => exact damaged.right_step late writable compatible.sameChecks hstep carried balance
    | misled misled => exact absurd misled notMisled
    | ended ended => exact .ended (ended.step hstep)

theorem Misheaded.finished {r : LxmodemReceiveState} (h : Misheaded sender receiver file k s)
    (notMisled : ¬ Misled s) (hr : s.right = .writing pending r) (finished : r.bFinished = true) :
    Over sender receiver file (.writing pending r) := by
  obtain ⟨left, right, toLeft, toRight, leftLog, rightLog⟩ := s
  subst hr
  cases h with
  | opening opening => rw [opening.running] at finished; cases finished
  | live live lockstep => rw [live.running] at finished; cases finished
  | damaged late damaged =>
    have right := damaged.right
    cases right with
    | writing stocked refuses beyond => rw [stocked.running] at finished; cases finished
  | misled misled => exact absurd misled notMisled
  | ended ended => exact ended

end Headers

theorem xmodem_misheaded (sender receiver : ModemContext) (file : List UInt8)
    (loaded : sender.ramfile.Loaded file) (crc16 : receiver.crc16 = sender.crc16)
    (configured : receiver.Configured)
    (opts : sender.opts = receiver.opts ∨
      sender.opts = .lxmodem128WithCrc ∧ receiver.opts = .lxmodem1k)
    (fresh : receiver.ramfile.writeOffset = 0) (capacity : receiver.ramfile.maxSize.toNat < 2147483648)
    (k : ℕ) (b : UInt8) (noise : Noise b) (fuel fuel' : ℕ) (s : Network UInt8 (Int32 × ModemContext))
    (run : Relation.ReflTransGen
      (fun a a' => PatientStep (misheaded k b) .perfect lastAttempt blockRead a a' ∧ Orderly a)
      (.start (lmodemEmit .xmodem fuel sender) (lmodemReceive .xmodem fuel' receiver)) s)
    (n : Int32) (receiver' : ModemContext) (returned : s.right = .done (n, receiver')) :
    n < 0 ∨
      receiver'.ramfile.writeOffset.toNat =
          (paddedFile { sender with protocol := .xmodem }.blksize file).length ∧
        receiver'.ramfile.buffer.load 0 (paddedFile { sender with protocol := .xmodem }.blksize file).length =
          paddedFile { sender with protocol := .xmodem }.blksize file := by
  have writable : receiver.ramfile.Writable := ⟨by rw [fresh]; exact Nat.zero_le _, capacity⟩
  have compatible : Compatible { sender with protocol := .xmodem } { receiver with protocol := .xmodem } :=
    compatible_xmodem rfl rfl crc16 configured opts
  have loaded' : { sender with protocol := .xmodem }.ramfile.Loaded file := loaded
  have writable' : { receiver with protocol := .xmodem }.ramfile.Writable := writable
  obtain ⟨c, describes, invariant, _⟩ := @Situation.invariant UInt8 (Int32 × ModemContext) SenderPhase
    ReceiverPhase (senderDescription loaded') (receiverDescription writable') _
    (fun c => Misheaded { sender with protocol := .xmodem } { receiver with protocol := .xmodem } file k c ∧
      Traced { sender with protocol := .xmodem } file c.left c.leftLog ∧ c.Balanced)
    (fun a => .patient (misheaded k b) .perfect lastAttempt blockRead (Stuck (misheaded k b) .perfect a)) _ _ _
    (fun _ _ h => h.1)
    (fun c c' _ _ describes hs hc hstep => ⟨hc.1.step noise hc.2.1 hc.2.2 compatible describes
      (fun misled => misled.not_orderly describes hs.2) hstep, by
        cases hstep with
        | left h _ _ => exact hc.2.1.step h
        | right _ _ _ => exact hc.2.1, hstep.balanced hc.2.2⟩)
    run (describes_start loaded' writable' fuel fuel')
    ⟨.opening (.silent (Or.inl ⟨_, rfl⟩)), rfl, rfl⟩
  have right := describes.right
  rw [returned] at right
  obtain ⟨r, hr, finished, rfl, rfl⟩ := ReceiverAt.returned right
  have notMisled : ¬ Misled c := by
    rintro ⟨_, _, _, _, _, hright, _⟩
    rw [hr] at hright
    cases hright
  by_cases hn : 0 ≤ r.receivedBytes.toInt32
  · exact Or.inr (((invariant.finished notMisled hr finished).returned hn).holds capacity fresh)
  · exact Or.inl (Int32.not_le.mp hn)

theorem xmodem_misheaded_oneByte :
    ∃ s n receiver', Relation.ReflTransGen
        (fun a a' => PatientStep (misheaded 0 0) .perfect lastAttempt blockRead a a' ∧ Orderly a)
        (.start (lmodemEmit .xmodem 12 (checksumSender [7])) (lmodemReceive .xmodem 12 smallReceiver)) s ∧
      s.right = .done (n, receiver') ∧ n = -1 ∧ (n < 0 ∨
        receiver'.ramfile.writeOffset.toNat = (paddedFile (checksumSender [7]).blksize [7]).length) := by
  have run := @Network.steps_alternateAll _ _ (misheaded 0 0) .perfect orderly? 32
    (.start (lmodemEmit .xmodem 12 (checksumSender [7])) (lmodemReceive .xmodem 12 smallReceiver))
    (by decide +kernel)
  obtain ⟨⟨n, receiver'⟩, returned, rfl⟩ := @Program.done_of_result _ _ _
    ((Network.start (lmodemEmit .xmodem 12 (checksumSender [7]))
      (lmodemReceive .xmodem 12 smallReceiver)).alternate (misheaded 0 0) .perfect 32).right
    Prod.fst (-1) (by decide +kernel)
  have patient : Relation.ReflTransGen
      (fun a a' => PatientStep (misheaded 0 0) .perfect lastAttempt blockRead a a' ∧ Orderly a) _ _ :=
    Relation.ReflTransGen.mono (fun a a' h => ⟨h.1.patient _ _, orderly_of_test h.2⟩) _ _ run
  have holds := xmodem_misheaded (checksumSender [7]) smallReceiver [7] ⟨⟨by decide, by decide⟩, rfl⟩ rfl
    rfl (Or.inl rfl) rfl (by decide) 0 0 (by decide) 12 12 _ patient _ receiver' returned
  exact ⟨_, _, receiver', patient, returned, rfl, holds.imp id And.left⟩

def longSender (file : List UInt8) : ModemContext :=
  let pThis := lmodemSetFileBuffer (lmodemSetLineBuffer (lmodemInit .lxmodem1k) (.fresh 0) 1028).1
    (.holding file 0) file.length.toUInt32
  { pThis with ramfile := (lmodemBufferSetWriteOffset pThis.ramfile file.length.toUInt32).1 }

def longReceiver : ModemContext :=
  lmodemSetFileBuffer (lmodemSetLineBuffer (lmodemInit .lxmodem1k) (.fresh 0) 1028).1 (.fresh 0) 2048

def endingFile : List UInt8 := List.replicate 131 7 ++ [EOT]

theorem xmodem_misheaded_loses :
    ∃ s n receiver', Steps (.ofWires (misheaded 0 0) .perfect)
        (.start (lmodemEmit .xmodem 10 (longSender endingFile)) (lmodemReceive .xmodem 10 longReceiver)) s ∧
      s.right = .done (n, receiver') ∧ 0 ≤ n ∧ receiver'.ramfile.writeOffset ≠
        (paddedFile (longSender endingFile).blksize endingFile).length.toUInt32 := by
  have run := @Network.steps_alternate _ _ (misheaded 0 0) .perfect 12
    (.start (lmodemEmit .xmodem 10 (longSender endingFile)) (lmodemReceive .xmodem 10 longReceiver))
  obtain ⟨⟨n, receiver'⟩, returned, hr⟩ := @Program.done_of_result _ _ _
    ((Network.start (lmodemEmit .xmodem 10 (longSender endingFile))
      (lmodemReceive .xmodem 10 longReceiver)).alternate (misheaded 0 0) .perfect 12).right
    (fun r => (r.1, r.2.ramfile.writeOffset)) (0, 0) (by decide +kernel)
  obtain ⟨rfl, hw⟩ := Prod.mk.inj hr
  have hw' : receiver'.ramfile.writeOffset = 0 := hw
  have size : (paddedFile (longSender endingFile).blksize endingFile).length = 1024 := by decide +kernel
  exact ⟨_, 0, receiver', run, returned, by decide, by rw [hw', size]; decide⟩

end LightModem
