import LightModem.Pipeline

set_option autoImplicit false

namespace LightModem

open Interaction

/-- The receiver does not acknowledge what it has read from the inside of a frame: where it has read the
header, the frames before have been read to their ends. -/
def Orderly {α : Type} (s : Network UInt8 α) : Prop :=
  ∀ p, s.right = .write [ACK] p → ∀ before header rest, s.rightLog = before ++ .read [header] :: rest →
    (∀ b, .read [b] ∉ rest) → WholeWrites s.leftLog before

def isHeader : Label UInt8 → Bool
  | .read data => data.length == 1
  | .write _ _ => false
  | .timeOut _ => false

def beforeHeader (log : List (Label UInt8)) : List (Label UInt8) :=
  ((log.reverse.dropWhile fun ℓ => !isHeader ℓ).drop 1).reverse

def orderly? {α : Type} (s : Network UInt8 α) : Bool :=
  match s.right with
  | .write w _ => w != [ACK] || s.leftLog.inits.any fun sent =>
      sent.flatMap Label.delivered == (beforeHeader s.rightLog).flatMap Label.consumed
  | .read _ _ => true
  | .done _ => true
  | .outOfFuel => true

theorem beforeHeader_append {before rest : List (Label UInt8)} {header : UInt8} (h : ∀ b, .read [b] ∉ rest) :
    beforeHeader (before ++ .read [header] :: rest) = before := by
  have others : ∀ ℓ ∈ rest.reverse, (!isHeader ℓ) = true := by
    intro ℓ hmem
    cases ℓ with
    | read data =>
      simp only [isHeader, Bool.not_eq_true', beq_eq_false_iff_ne]
      intro hone
      obtain ⟨b, rfl⟩ := List.length_eq_one_iff.mp hone
      exact h b (List.mem_reverse.mp hmem)
    | write w d => rfl
    | timeOut n => rfl
  rw [beforeHeader, List.reverse_append, List.reverse_cons, List.append_assoc,
    List.dropWhile_append_of_pos others]
  simp [isHeader]

theorem orderly_of_test {α : Type} {s : Network UInt8 α} (h : orderly? s = true) : Orderly s := by
  intro p hright before header rest hlog hrest
  rw [orderly?, hright, hlog, beforeHeader_append hrest] at h
  simp only [bne_self_eq_false, Bool.false_or, List.any_eq_true, beq_iff_eq, List.mem_inits] at h
  exact h

def Misled (s : Situation SenderPhase ReceiverPhase UInt8) : Prop :=
  ∃ before header rest pending state, s.right = .writing ([ACK] :: pending) state ∧
    s.rightLog = before ++ .read [header] :: rest ∧ (∀ b, .read [b] ∉ rest) ∧ ¬ WholeWrites s.leftLog before

def Beyond (past : List (Label UInt8)) (n : ℕ) : Prop := (past.flatMap Label.delivered).length ≤ n

def Unreadable (receiver : ModemContext) (frame : List UInt8) : Prop :=
  ∃ header body, frame = header :: body ∧ header ≠ EOT ∧ ∀ blksize, ¬ FrameKind receiver header blksize

inductive Wandering (sender receiver : ModemContext) (file : List UInt8) (j : ℕ) (quiet : Prop)
    (past : List (Label UInt8)) : ReceiverPhase → List (Label UInt8) → Prop
  | writing {pending : List (List UInt8)} {s : LxmodemReceiveState} {log : List (Label UInt8)}
      (stocked : Stocked sender receiver file j s) (refuses : quiet → ∀ w ∈ pending, ACK ∉ w)
      (beyond : Beyond past (log.flatMap Label.consumed).length) :
      Wandering sender receiver file j quiet past (.writing pending s) log
  | filling {s : LxmodemReceiveState} {header : UInt8} {blksize : ℕ} {before : List (Label UInt8)}
      (stocked : Stocked sender receiver file j s) (kind : FrameKind s.pThis header blksize)
      (beyond : Beyond past (before.flatMap Label.consumed).length) :
      Wandering sender receiver file j quiet past (.filling s header blksize) (before ++ [.read [header]])

inductive Acknowledges (sender receiver : ModemContext) (file : List UInt8) (j : ℕ) (past : List (Label UInt8)) :
    ReceiverPhase → List (Label UInt8) → List (Label UInt8) → UInt8 → List (Label UInt8) → Prop
  | endOfFile {s s' : LxmodemReceiveState} {before : List (Label UInt8)}
      (stocked : Stocked sender receiver file j s) (finished : s'.bFinished = true) (same : s'.pThis = s.pThis)
      (beyond : Beyond past (before.flatMap Label.consumed).length) :
      Acknowledges sender receiver file j past (.writing [[ACK]] s') (before ++ [.read [EOT]]) before EOT []
  | block {s s' : LxmodemReceiveState} {before : List (Label UInt8)} {header : UInt8} {blksize : ℕ}
      {body : List UInt8} (stocked : Stocked sender receiver file j s) (kind : FrameKind s.pThis header blksize)
      (size : body.length = bodySize s.pThis blksize)
      (turn : ReceiveTurn s [.received [header], .received body, .sent [ACK]] s')
      (beyond : Beyond past (before.flatMap Label.consumed).length) :
      Acknowledges sender receiver file j past (.writing [[ACK]] s') (before ++ [.read [header]] ++ [.read body])
        before header [.read body]

section Boundaries

variable {sender receiver : ModemContext} {file : List UInt8} {j n : ℕ} {quiet : Prop}
  {past later before log : List (Label UInt8)} {right right' : ReceiverPhase} {ℓ : Label UInt8}
  {q : List UInt8}

theorem Misled.not_orderly {L : Description SenderPhase UInt8 (Int32 × ModemContext)}
    {s : Situation SenderPhase ReceiverPhase UInt8} {t : Network UInt8 (Int32 × ModemContext)}
    {writable : receiver.ramfile.Writable} (h : Misled s)
    (describes : s.Describes L (receiverDescription writable) t) : ¬ Orderly t := by
  obtain ⟨before, header, rest, pending, state, hright, hlog, hrest, hnot⟩ := h
  intro orderly
  have right := describes.right
  rw [hright] at right
  change ReceiverAt receiver _ _ at right
  generalize ht : t.right = p at right
  cases right with
  | writing fuel _ writable =>
    apply hnot
    rw [← describes.leftLog]
    exact orderly _ ht before header rest (describes.rightLog.trans hlog) hrest

theorem Beyond.mono (h : Beyond past n) {m : ℕ} (hle : n ≤ m) : Beyond past m := Nat.le_trans h hle

theorem rest_of_wholeWrites (whole : WholeWrites (past ++ later) before)
    (beyond : Beyond past (before.flatMap Label.consumed).length)
    (balance : (past ++ later).flatMap Label.delivered = before.flatMap Label.consumed ++ q) :
    ∃ sent later', later = sent ++ later' ∧ q = later'.flatMap Label.delivered := by
  obtain ⟨sent, hsent, heq⟩ := whole
  rw [← heq] at balance beyond
  rcases List.prefix_or_prefix_of_prefix hsent (List.prefix_append past later) with ⟨rest, rfl⟩ | ⟨sent', rfl⟩
  · have none : rest.flatMap Label.delivered = [] := by
      rw [Beyond, List.flatMap_append, List.length_append] at beyond
      exact List.length_eq_zero_iff.mp (by omega)
    rw [List.flatMap_append, List.flatMap_append, none, List.append_nil] at balance
    exact ⟨[], later, rfl, (List.append_cancel_left balance).symm⟩
  · obtain ⟨later', rfl⟩ := (List.prefix_append_right_inj past).mp hsent
    rw [← List.append_assoc, List.flatMap_append] at balance
    exact ⟨sent', later', rfl, (List.append_cancel_left balance).symm⟩

theorem exists_of_delivered {b : UInt8} (h : b :: q = log.flatMap Label.delivered) :
    ∃ sent ℓ later body, log = sent ++ ℓ :: later ∧ ℓ.delivered = b :: body ∧
      q = body ++ later.flatMap Label.delivered := by
  induction log with
  | nil => cases h
  | cons ℓ log ih =>
    rw [List.flatMap_cons] at h
    cases hd : ℓ.delivered with
    | nil =>
      rw [hd, List.nil_append] at h
      obtain ⟨sent, ℓ', later, body, rfl, hℓ, hq⟩ := ih h
      exact ⟨ℓ :: sent, ℓ', later, body, rfl, hℓ, hq⟩
    | cons b' body =>
      rw [hd] at h
      obtain ⟨rfl, rfl⟩ := List.cons.inj h
      exact ⟨[], ℓ, log, body, rfl, hd, rfl⟩

theorem Acknowledges.frame {before rest : List (Label UInt8)} {header : UInt8}
    (h : Acknowledges sender receiver file j past right log before header rest)
    (whole : WholeWrites (past ++ later) before)
    (balance : (past ++ later).flatMap Label.delivered = log.flatMap Label.consumed ++ q) :
    ∃ sent later', later = sent ++ later' ∧
      header :: (rest.flatMap Label.consumed ++ q) = later'.flatMap Label.delivered := by
  cases h with
  | endOfFile stocked finished same beyond =>
    apply rest_of_wholeWrites whole beyond
    rw [balance, List.flatMap_append]
    simp [Label.consumed]
  | block stocked kind size turn beyond =>
    apply rest_of_wholeWrites whole beyond
    rw [balance, List.flatMap_append, List.flatMap_append]
    simp [Label.consumed]

theorem Acknowledges.misled {before rest : List (Label UInt8)} {header : UInt8}
    {s : Situation SenderPhase ReceiverPhase UInt8}
    (h : Acknowledges sender receiver file j past s.right s.rightLog before header rest)
    (hnot : ¬ WholeWrites s.leftLog before) : Misled s := by
  obtain ⟨left, right, toLeft, toRight, leftLog, rightLog⟩ := s
  cases h with
  | endOfFile => exact ⟨before, EOT, [], [], _, rfl, rfl, by simp, hnot⟩
  | @block _ _ _ _ _ body stocked kind size turn beyond =>
    refine ⟨before, header, [.read body], [], _, rfl, List.append_assoc before [.read [header]] [.read body],
      ?_, hnot⟩
    intro b hb
    rw [List.mem_singleton, Label.read.injEq] at hb
    subst hb
    rw [List.length_singleton, bodySize] at size
    omega

theorem Acknowledges.readable {before rest : List (Label UInt8)} {header : UInt8} {body : List UInt8}
    (h : Acknowledges sender receiver file j past right log before header rest) :
    ¬ Unreadable receiver (header :: body) := by
  rintro ⟨_, _, hframe, hEOT, other⟩
  obtain ⟨rfl, _⟩ := List.cons.inj hframe
  cases h with
  | endOfFile => exact hEOT rfl
  | block stocked kind => exact other _ (stocked.setup.frameKind.mpr kind)

theorem Acknowledges.taken {before rest : List (Label UInt8)} {header : UInt8}
    (h : Acknowledges sender receiver file j past right log before header rest)
    (writable : receiver.ramfile.Writable) (checks : SameChecks sender receiver)
    (whole : WholeWrites (past ++ later) before)
    (balance : (past ++ later).flatMap Label.delivered = log.flatMap Label.consumed ++ q)
    (stored : j ≤ blockCount sender.blksize file) {places : ℕ → Prop}
    (near : ∀ i, places i → (i + 1 = j ∨ i = j) ∧ i ≤ blockCount sender.blksize file)
    (sent : ∀ ℓ ∈ later, ℓ.delivered = [] ∨ Unreadable receiver ℓ.delivered ∨
      ∃ i, places i ∧ ℓ.delivered = fileFrame sender file i) :
    Over sender receiver file right ∨ ∃ s i after, right = .writing [[ACK]] s ∧
      Stocked sender receiver file (i + 1) s ∧ places i ∧ i < blockCount sender.blksize file ∧
      after <:+ later.tail ∧ q = after.flatMap Label.delivered := by
  obtain ⟨sent', later', rfl, hq⟩ := h.frame whole balance
  obtain ⟨skipped, ℓ, after, body', rfl, hℓ, hrest⟩ := exists_of_delivered hq
  obtain ⟨i, hplaces, hframe⟩ : ∃ i, places i ∧ ℓ.delivered = fileFrame sender file i := by
    rcases sent ℓ (by simp) with hnil | unreadable | hframe
    · rw [hnil] at hℓ
      cases hℓ
    · rw [hℓ] at unreadable
      exact absurd unreadable h.readable
    · exact hframe
  obtain ⟨place, hi⟩ := near i hplaces
  have arrives : Arrives sender file i true (header :: body') := by
    rw [← hℓ, hframe]
    exact .intact hi
  cases h with
  | endOfFile stocked finished same beyond =>
    by_cases hlt : i < blockCount sender.blksize file
    · rw [hℓ, fileFrame, if_pos hlt] at hframe
      obtain ⟨hh, _⟩ := List.cons.inj hframe
      unfold frameHeader at hh
      split at hh <;> cases hh
    · obtain rfl : j = blockCount sender.blksize file := by omega
      exact Or.inl (.complete (stocked.completes finished same))
  | @block s s' _ _ blksize body stocked kind size turn beyond =>
    have size' := arrives.body_length stocked checks kind
    rw [List.flatMap_singleton] at hrest
    obtain ⟨rfl, rfl⟩ := List.append_inj (show body ++ q = body' ++ _ from hrest) (size.trans size'.symm)
    have hlt := (arrives.block kind).1
    have hafter : after <:+ (sent' ++ (skipped ++ ℓ :: after)).tail := by
      cases sent' with
      | nil =>
        cases skipped with
        | nil => exact List.suffix_refl _
        | cons _ skipped => exact ⟨skipped ++ [ℓ], by simp⟩
      | cons _ sent' => exact ⟨sent' ++ (skipped ++ [ℓ]), by simp⟩
    have turn' : ReceiveTurn s (.received [header] :: .received body :: [[ACK]].map .sent) s' := turn
    cases stocked.takes writable checks kind size arrives place turn' with
    | dead dead => exact Or.inl (.dead dead)
    | repeated hprev writes stocked' =>
      exact Or.inr ⟨_, i, after, rfl, hprev ▸ stocked', hplaces, hlt, hafter, rfl⟩
    | stored hnext intact writes stocked' =>
      exact Or.inr ⟨_, i, after, rfl, hnext ▸ stocked', hplaces, hlt, hafter, rfl⟩
    | refused hnext damaged writes stocked' => cases damaged

theorem Wandering.reads (h : Wandering sender receiver file j quiet past right log)
    (step : ReceiverStep receiver right ℓ right') :
    Over sender receiver file right' ∨ Wandering sender receiver file j quiet past right' (log ++ [ℓ]) ∧
        (quiet → ∀ w d, ℓ = .write w d → ACK ∉ w) ∨
      ∃ before header rest, Acknowledges sender receiver file j past right' (log ++ [ℓ]) before header rest ∧
        ∀ w d, ℓ ≠ .write w d := by
  have further (m : ℕ) (hb : Beyond past m) {log : List (Label UInt8)}
      (hm : m = (log.flatMap Label.consumed).length) (ℓ : Label UInt8) :
      Beyond past ((log ++ [ℓ]).flatMap Label.consumed).length := by
    apply hb.mono
    rw [hm, List.flatMap_append, List.length_append]
    omega
  cases h with
  | @writing pending s log stocked refuses beyond =>
    have beyond' := further _ beyond rfl ℓ
    cases step with
    | writes w d rest _ =>
      refine Or.inr (Or.inl ⟨.writing stocked ?_ beyond', ?_⟩)
      · exact fun hq w' hmem => refuses hq w' (List.mem_cons_of_mem _ hmem)
      · rintro hq _ _ ⟨⟩
        exact refuses hq w (by simp)
    | expires running turn =>
      rcases stocked.expires turn with dead | ⟨rfl, stocked'⟩
      · exact Or.inl (.dead dead)
      · exact Or.inr (Or.inl ⟨.writing stocked' (by simp) beyond', by simp⟩)
    | @char _ s' header pending' running other turn =>
      rcases stocked.char turn with dead | ⟨_, rfl, stocked'⟩ | ⟨rfl, rfl, finished, same⟩
      · exact Or.inl (.dead dead)
      · exact Or.inr (Or.inl ⟨.writing stocked' (fun _ => by decide) beyond', by simp⟩)
      · exact Or.inr (Or.inr ⟨_, _, _, .endOfFile stocked finished same beyond, by simp⟩)
    | header running kind => exact Or.inr (Or.inl ⟨.filling stocked kind beyond, by simp⟩)
    | loses => exact Or.inl .lost
  | @filling s header blksize before stocked kind beyond =>
    have beyond' := further _ (further _ beyond rfl (.read [header])) rfl ℓ
    cases step with
    | @block _ s' _ _ body pending' size turn =>
      cases stocked.block kind size turn with
      | dead dead => exact Or.inl (.dead dead)
      | refused status writes stocked' =>
        subst writes
        exact Or.inr (Or.inl ⟨.writing stocked' (fun _ => by decide) beyond', by simp⟩)
      | repeated status writes stocked' =>
        subst writes
        exact Or.inr (Or.inr ⟨_, _, _, .block stocked kind size turn beyond, by simp⟩)
      | stored payload hp accepted writes state fits =>
        subst writes
        exact Or.inr (Or.inr ⟨_, _, _, .block stocked kind size turn beyond, by simp⟩)
    | breaks turn =>
      rcases stocked.breaks turn with dead | ⟨rfl, stocked'⟩
      · exact Or.inl (.dead dead)
      · exact Or.inr (Or.inl ⟨.writing stocked' (fun _ => by decide) beyond', by simp⟩)
    | loses => exact Or.inl .lost

end Boundaries

end LightModem
