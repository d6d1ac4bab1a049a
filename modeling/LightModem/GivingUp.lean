import LightModem.Transmission
import LightModem.Rounds
import Mathlib.Data.List.Infix

set_option autoImplicit false

namespace LightModem

open Interaction

def nextByte : List (Event UInt8) → Option UInt8
  | .received (b :: _) :: _ => some b
  | .timedOut _ :: t => nextByte t
  | _ => none

def exchanges : List (Event UInt8) → List (List UInt8 × Option UInt8)
  | .sent frame :: t => (frame, nextByte t) :: exchanges t
  | _ :: t => exchanges t
  | [] => []

/-- Ten answers in a row to one frame that are no acknowledgements, or two cancels in a row. -/
def Justified (dialogue : List (List UInt8 × Option UInt8)) : Prop :=
  ∃ run, run <:+: dialogue ∧ (∃ frame, ∀ e ∈ run, e.1 = frame) ∧
    (run.length = 10 ∧ (∀ e ∈ run, e.2 ≠ some ACK) ∨ run.filterMap Prod.snd = [CAN, CAN])

def answerIndex (o : Peer UInt8) : ℕ → ℕ
  | 0 => 0
  | n + 1 => (awaited o (fun _ => true) 10 (answerIndex o n)).2

def answerTo (o : Peer UInt8) (n : ℕ) : Option UInt8 := (awaited o (fun _ => true) 10 (answerIndex o n)).1

def firstAnswers (o : Peer UInt8) (n : ℕ) : List (Option UInt8) := (List.range n).map (answerTo o)

def sinceAck (answers : List (Option UInt8)) : List (Option UInt8) :=
  answers.foldl (fun l a => if a = some ACK then [] else l ++ [a]) []

def EndsOn (answers : List (Option UInt8)) (a : Option UInt8) : Prop :=
  a ≠ some ACK ∧ GivesUp (sinceAck answers).length a

/-- The sender gives up on an answer that is neither the tenth to its frame nor a second cancel. -/
def EndsEarly (answers : List (Option UInt8)) (a : Option UInt8) : Prop :=
  EndsOn answers a ∧ (sinceAck answers).length + 1 < 10 ∧
    ¬ (a = some CAN ∧ ((sinceAck answers).filterMap id).getLast? = some CAN)

section Answers

variable {o : Peer UInt8} {n : ℕ} {answers more : List (Option UInt8)} {a : Option UInt8}

theorem sinceAck_concat (answers : List (Option UInt8)) (a : Option UInt8) :
    sinceAck (answers ++ [a]) = if a = some ACK then [] else sinceAck answers ++ [a] := by
  rw [sinceAck, List.foldl_append]
  rfl

theorem sinceAck_append (h : some ACK ∉ more) : sinceAck (answers ++ more) = sinceAck answers ++ more := by
  induction more using List.reverseRecOn with
  | nil => simp
  | append_singleton more a ih =>
    simp only [List.mem_append, List.mem_singleton, not_or] at h
    rw [← List.append_assoc, sinceAck_concat, if_neg (Ne.symm h.2), ih h.1, List.append_assoc]

theorem firstAnswers_succ (o : Peer UInt8) (n : ℕ) :
    firstAnswers o (n + 1) = firstAnswers o n ++ [answerTo o n] := by
  rw [firstAnswers, List.range_succ, List.map_append]
  rfl

theorem firstAnswers_split (h : firstAnswers o n = answers ++ a :: more) :
    answers.length < n ∧ answers = firstAnswers o answers.length ∧ a = answerTo o answers.length := by
  have hlen := congrArg List.length h
  simp only [firstAnswers, List.length_map, List.length_range, List.length_append, List.length_cons] at hlen
  have hlt : answers.length < n := by omega
  have htake := congrArg (List.take answers.length) h
  have hget := congrArg (fun l => l[answers.length]?) h
  rw [firstAnswers, ← List.map_take, List.take_range, Nat.min_eq_left (Nat.le_of_lt hlt), List.take_left]
    at htake
  simp only [firstAnswers, List.getElem?_map, List.getElem?_range hlt, Option.map_some,
    List.getElem?_append_right (Nat.le_refl _), Nat.sub_self, List.getElem?_cons_zero,
    Option.some.injEq] at hget
  exact ⟨hlt, htake.symm, hget.symm⟩

theorem endsOn_tenth (hlen : more.length = 9) (hmore : some ACK ∉ more) (ha : a ≠ some ACK) :
    EndsOn (answers ++ more) a ∧ 10 ≤ (sinceAck (answers ++ more)).length + 1 := by
  rw [EndsOn, sinceAck_append hmore, List.length_append]
  exact ⟨⟨ha, Or.inl (by omega)⟩, by omega⟩

theorem filterMap_eq_nil_of (h : ∀ a ∈ more, a = none) : more.filterMap id = [] := by
  rw [List.filterMap_eq_nil_iff]
  intro a ha
  rw [h a ha]
  rfl

theorem endsOn_cancel (hmore : ∀ a ∈ more, a = none) :
    EndsOn (answers ++ some CAN :: more) (some CAN) ∧
      ((sinceAck (answers ++ some CAN :: more)).filterMap id).getLast? = some CAN := by
  have hack : some ACK ∉ some CAN :: more := by
    intro hmem
    rcases List.mem_cons.mp hmem with h | h
    · exact absurd h (by decide)
    · exact absurd (hmore _ h) (by decide)
  rw [EndsOn, sinceAck_append hack, List.filterMap_append]
  refine ⟨⟨by decide, Or.inr ⟨by decide, by decide, ?_⟩⟩, ?_⟩
  · rw [List.length_append, List.length_cons]
    omega
  · rw [show (some CAN :: more).filterMap id = CAN :: more.filterMap id from rfl, filterMap_eq_nil_of hmore]
    simp

end Answers

section Exchanges

variable {frame : List UInt8} {t t' : List (Event UInt8)} {wanted : UInt8 → Bool} {n : ℕ} {a : Option UInt8}

theorem nextByte_append_sent (t : List (Event UInt8)) : nextByte (t ++ .sent frame :: t') = nextByte t := by
  induction t using nextByte.induct with
  | case1 b data t => rfl
  | case2 n t ih => exact ih
  | case3 t hreceived htimedOut =>
    cases t with
    | nil => rfl
    | cons e t =>
      cases e with
      | sent data => rfl
      | timedOut n => exact absurd rfl (htimedOut n t)
      | received data =>
        cases data with
        | nil => rfl
        | cons b data => exact absurd rfl (hreceived b data t)

theorem exchanges_append_sent (t : List (Event UInt8)) :
    exchanges (t ++ .sent frame :: t') = exchanges t ++ exchanges (.sent frame :: t') := by
  induction t with
  | nil => rfl
  | cons e t ih =>
    cases e with
    | sent data =>
      change (data, nextByte (t ++ .sent frame :: t')) :: exchanges (t ++ .sent frame :: t') = _
      rw [nextByte_append_sent, ih]
      rfl
    | received data => exact ih
    | timedOut n => exact ih

theorem Awaits.nextByte_eq (h : Awaits (fun _ => true) n t a) : nextByte t = a ∧ exchanges t = [] := by
  induction h with
  | gaveUp => exact ⟨rfl, rfl⟩
  | timedOut h ih => exact ih
  | other b hb h ih => cases hb
  | came b hb => exact ⟨rfl, rfl⟩

theorem Awaits.exchanges_eq (h : Awaits (fun _ => true) n t a) :
    exchanges (.sent frame :: t) = [(frame, a)] := by
  rw [exchanges, h.nextByte_eq.1, h.nextByte_eq.2]

end Exchanges

structure Dialogue (o : Peer UInt8) (l : List (Round UInt8 LxmodeSendState)) : Prop where
  heard : (exchanges (roundEvents l)).map Prod.snd = firstAnswers o l.length
  used : reads (roundEvents l) = answerIndex o l.length

def Continues (o : Peer UInt8) (n : ℕ) : Prop := ∀ j < n, ¬ EndsOn (firstAnswers o j) (answerTo o j)

def Pending (dialogue : List (List UInt8 × Option UInt8)) (frame : List UInt8)
    (answers : List (Option UInt8)) : Prop :=
  ∃ run, run <:+ dialogue ∧ (∀ e ∈ run, e.1 = frame) ∧ run.map Prod.snd = answers

inductive Standing (pThis : ModemContext) (file : List UInt8) (o : Peer UInt8)
    (l : List (Round UInt8 LxmodeSendState)) (s : LxmodeSendState) : Prop
  | running (i : ℕ) (head : SendHead pThis file i s)
      (place : (firstAnswers o l.length).count (some ACK) = i)
      (retry : s.retry = (sinceAck (firstAnswers o l.length)).length)
      (pending : Pending (exchanges (roundEvents l)) (fileFrame pThis file i)
        (sinceAck (firstAnswers o l.length)))
      (continues : Continues o l.length)
  | finished (place : (firstAnswers o l.length).count (some ACK) = blockCount pThis.blksize file + 1)
      (hf : s.bFinished = true) (he : s.emittedBytes.toNat = (paddedFile pThis.blksize file).length)
      (continues : Continues o l.length)
  | gaveUp (n : ℕ) (hl : l.length = n + 1) (ends : EndsOn (firstAnswers o n) (answerTo o n))
      (place : (firstAnswers o n).count (some ACK) ≤ blockCount pThis.blksize file)
      (hf : s.bFinished = true) (he : s.emittedBytes = -1)
      (pending : ∃ frame, Pending (exchanges (roundEvents l)) frame
        (sinceAck (firstAnswers o n) ++ [answerTo o n]))
      (continues : Continues o n)

section Standing

variable {pThis : ModemContext} {file : List UInt8} {o : Peer UInt8}
  {l : List (Round UInt8 LxmodeSendState)} {s s' : LxmodeSendState} {t : List (Event UInt8)}

theorem Pending.snoc {dialogue : List (List UInt8 × Option UInt8)} {frame : List UInt8}
    {answers : List (Option UInt8)} (h : Pending dialogue frame answers) (a : Option UInt8) :
    Pending (dialogue ++ [(frame, a)]) frame (answers ++ [a]) := by
  obtain ⟨run, ⟨earlier, rfl⟩, frames, rfl⟩ := h
  refine ⟨run ++ [(frame, a)], ⟨earlier, by rw [List.append_assoc]⟩, ?_, by simp⟩
  intro e he
  rcases List.mem_append.mp he with he | he
  · exact frames e he
  · rw [List.mem_singleton.mp he]

theorem pending_nil (dialogue : List (List UInt8 × Option UInt8)) (frame : List UInt8) :
    Pending dialogue frame [] := ⟨[], List.nil_suffix, by simp, rfl⟩

theorem Continues.succ {n : ℕ} (h : Continues o n) (hn : ¬ EndsOn (firstAnswers o n) (answerTo o n)) :
    Continues o (n + 1) := by
  intro j hj
  rcases Nat.lt_succ_iff_lt_or_eq.mp hj with hj | rfl
  · exact h j hj
  · exact hn

theorem standing_initial (loaded : pThis.ramfile.Loaded file) :
    Dialogue o [] ∧ Standing pThis file o [] (.initial pThis) :=
  ⟨⟨rfl, rfl⟩, .running 0 (sendHead_initial loaded) rfl rfl (pending_nil _ _) (by simp [Continues])⟩

theorem Dialogue.round (dialogue : Dialogue o l) {frame : List UInt8} {t' : List (Event UInt8)}
    (wait : Awaits (fun _ => true) 10 t' (answerTo o l.length))
    (hreads : reads (roundEvents l) + reads (.sent frame :: t') = answerIndex o (l.length + 1)) :
    exchanges (roundEvents (l ++ [⟨s, .sent frame :: t', s'⟩])) =
        exchanges (roundEvents l) ++ [(frame, answerTo o l.length)] ∧
      Dialogue o (l ++ [⟨s, .sent frame :: t', s'⟩]) := by
  have said : exchanges (roundEvents (l ++ [⟨s, .sent frame :: t', s'⟩])) =
      exchanges (roundEvents l) ++ [(frame, answerTo o l.length)] := by
    rw [roundEvents_append, roundEvents_cons, roundEvents_nil, List.append_nil, exchanges_append_sent,
      wait.exchanges_eq]
  refine ⟨said, ?_, ?_⟩
  · rw [said, List.map_append, dialogue.heard, List.length_append, List.length_singleton,
      firstAnswers_succ]
    rfl
  · rw [roundEvents_append, reads_append, roundEvents_cons, roundEvents_nil, List.append_nil, hreads,
      List.length_append]
    rfl

theorem Standing.round (hfile : file.length < 2147483648) (dialogue : Dialogue o l)
    (h : Standing pThis file o l s) (running : s.bFinished = false)
    (run : (lxmodeSendTurn s).run o (reads (roundEvents l)) = (t, some s')) :
    Dialogue o (l ++ [⟨s, t, s'⟩]) ∧ Standing pThis file o (l ++ [⟨s, t, s'⟩]) s' := by
  cases h with
  | finished place hf he continues =>
    rw [running] at hf
    cases hf
  | gaveUp n hl ends place hf he pending continues =>
    rw [running] at hf
    cases hf
  | running i head place retry pending continues =>
    obtain ⟨t', rfl, wait, hreads, answered⟩ := lxmodeSendTurn_run hfile head run
    rw [dialogue.used] at wait hreads answered
    rw [← dialogue.used] at hreads
    obtain ⟨said, dialogue'⟩ := @Dialogue.round o l s s' dialogue (fileFrame pThis file i) t' wait
      (by rw [hreads, dialogue.used]; rfl)
    refine ⟨dialogue', ?_⟩
    have hlen : (l ++ [(⟨s, .sent (fileFrame pThis file i) :: t', s'⟩ : Round _ _)]).length = l.length + 1 := by
      simp
    have count (a : Option UInt8) : (firstAnswers o l.length ++ [a]).count (some ACK) =
        i + if a = some ACK then 1 else 0 := by
      rw [List.count_append, place, List.count_singleton]
      simp
    change Answered pThis file i s.retry (answerTo o l.length) s' at answered
    have next := firstAnswers_succ o l.length
    have grown := pending.snoc (answerTo o l.length)
    rw [← said] at grown
    generalize hanswer : answerTo o l.length = a at answered next grown
    cases answered with
    | next hi head' hr =>
      have hcontinues := continues.succ (by rw [hanswer]; exact fun h => h.1 rfl)
      refine .running (i + 1) head' ?_ ?_ ?_ (by rw [hlen]; exact hcontinues)
      · rw [hlen, next, count, if_pos rfl]
      · rw [hlen, next, sinceAck_concat, if_pos rfl, hr]
        rfl
      · rw [hlen, next, sinceAck_concat, if_pos rfl]
        exact pending_nil _ _
    | finished hi hf he setup =>
      have hcontinues := continues.succ (by rw [hanswer]; exact fun h => h.1 rfl)
      refine .finished ?_ hf he (by rw [hlen]; exact hcontinues)
      rw [hlen, next, count, if_pos rfl, hi]
    | again ha hg head' hr =>
      have hcontinues := continues.succ (by
        rw [hanswer, EndsOn, ← retry]
        exact fun h => hg h.2)
      refine .running i head' ?_ ?_ ?_ (by rw [hlen]; exact hcontinues)
      · rw [hlen, next, count, if_neg ha, Nat.add_zero]
      · rw [hlen, next, sinceAck_concat, if_neg ha, hr, retry, List.length_append]
        rfl
      · rw [hlen, next, sinceAck_concat, if_neg ha]
        exact grown
    | gaveUp ha hg hf he =>
      refine .gaveUp l.length hlen ?_ ?_ hf he ⟨_, by rw [hanswer]; exact grown⟩ continues
      · rw [hanswer, EndsOn, ← retry]
        exact ⟨ha, hg⟩
      · rw [place]
        exact head.place

end Standing

section Justified

variable {o : Peer UInt8} {n : ℕ} {dialogue : List (List UInt8 × Option UInt8)} {frame : List UInt8}

theorem ack_notMem_sinceAck (answers : List (Option UInt8)) : some ACK ∉ sinceAck answers := by
  induction answers using List.reverseRecOn with
  | nil => simp [sinceAck]
  | append_singleton answers a ih =>
    rw [sinceAck_concat]
    split_ifs with ha
    · simp
    · simp only [List.mem_append, List.mem_singleton, not_or]
      exact ⟨ih, Ne.symm ha⟩

theorem Continues.last (continues : Continues o n) {answers more : List (Option UInt8)} {a : Option UInt8}
    (h : firstAnswers o (n + 1) = answers ++ a :: more) (ends : EndsOn answers a) :
    answers = firstAnswers o n ∧ a = answerTo o n := by
  obtain ⟨hlt, hanswers, ha⟩ := firstAnswers_split h
  rcases Nat.lt_succ_iff_lt_or_eq.mp hlt with hlt | heq
  · rw [hanswers, ha] at ends
    exact absurd ends (continues _ hlt)
  · rw [heq] at hanswers ha
    exact ⟨hanswers, ha⟩

theorem not_endsEarly_of_tenth (heard : dialogue.map Prod.snd = firstAnswers o (n + 1))
    (continues : Continues o n) {run : List (List UInt8 × Option UInt8)} (part : run <:+: dialogue)
    (ten : run.length = 10) (refused : ∀ e ∈ run, e.2 ≠ some ACK) :
    ¬ EndsEarly (firstAnswers o n) (answerTo o n) := by
  obtain ⟨earlier, later, rfl⟩ := part
  rcases List.eq_nil_or_concat run with rfl | ⟨nine, e, rfl⟩
  · cases ten
  rw [List.concat_eq_append] at ten refused heard
  have hnine : (nine.map Prod.snd).length = 9 := by simpa using ten
  have hmore : some ACK ∉ nine.map Prod.snd := by
    intro hmem
    obtain ⟨e', he', hack⟩ := List.mem_map.mp hmem
    exact refused e' (List.mem_append_left _ he') hack
  obtain ⟨ends, length⟩ := @endsOn_tenth (earlier.map Prod.snd) _ e.2 hnine hmore (refused e (by simp))
  obtain ⟨hanswers, _⟩ := @Continues.last _ _ continues _ (later.map Prod.snd) _ (by rw [← heard]; simp) ends
  rintro ⟨_, short, _⟩
  rw [hanswers] at length
  omega

theorem not_endsEarly_of_cancels (heard : dialogue.map Prod.snd = firstAnswers o (n + 1))
    (continues : Continues o n) {run : List (List UInt8 × Option UInt8)} (part : run <:+: dialogue)
    (cancels : run.filterMap Prod.snd = [CAN, CAN]) :
    ¬ EndsEarly (firstAnswers o n) (answerTo o n) := by
  obtain ⟨earlier, later, rfl⟩ := part
  obtain ⟨before, e, rest, rfl, _, he, hrest⟩ := List.filterMap_eq_cons_iff.mp cancels
  obtain ⟨between, e', after, rfl, hbetween, he', _⟩ := List.filterMap_eq_cons_iff.mp hrest
  have hnone : ∀ a ∈ between.map Prod.snd, a = none := by
    intro a ha
    obtain ⟨x, hx, rfl⟩ := List.mem_map.mp ha
    exact hbetween x hx
  obtain ⟨ends, last⟩ := @endsOn_cancel ((earlier ++ before).map Prod.snd) _ hnone
  obtain ⟨hanswers, ha⟩ := @Continues.last _ _ continues _ ((after ++ later).map Prod.snd) _
    (by rw [← heard]; simp [he, he']) ends
  rintro ⟨_, _, single⟩
  rw [hanswers] at last
  exact single ⟨ha.symm, last⟩

theorem filterMap_id_map (run : List (List UInt8 × Option UInt8)) :
    (run.map Prod.snd).filterMap id = run.filterMap Prod.snd := List.filterMap_map

theorem Pending.drop {answers : List (Option UInt8)} (h : Pending dialogue frame answers) (m : ℕ) :
    ∃ run, run <:+: dialogue ∧ (∃ frame, ∀ e ∈ run, e.1 = frame) ∧ run.map Prod.snd = answers.drop m := by
  obtain ⟨run, last, frames, rfl⟩ := h
  refine ⟨run.drop m, ((List.drop_suffix m run).trans last).isInfix, ⟨frame, ?_⟩, List.map_drop⟩
  exact fun e he => frames e (List.mem_of_mem_drop he)

theorem justified_of_not_endsEarly
    (pending : Pending dialogue frame (sinceAck (firstAnswers o n) ++ [answerTo o n]))
    (ends : EndsOn (firstAnswers o n) (answerTo o n))
    (early : ¬ EndsEarly (firstAnswers o n) (answerTo o n)) : Justified dialogue := by
  by_cases short : (sinceAck (firstAnswers o n)).length + 1 < 10
  · have second : answerTo o n = some CAN ∧
        ((sinceAck (firstAnswers o n)).filterMap id).getLast? = some CAN := by
      by_contra single
      exact early ⟨ends, short, single⟩
    obtain ⟨hcan, last⟩ := second
    obtain ⟨bytes, hbytes⟩ := List.getLast?_eq_some_iff.mp last
    obtain ⟨first, rest, hsince, _, hrest⟩ := List.filterMap_eq_append_iff.mp hbytes
    obtain ⟨run, part, frames, hrun⟩ := pending.drop first.length
    rw [hsince, List.append_assoc, List.drop_left, hcan] at hrun
    refine ⟨run, part, frames, Or.inr ?_⟩
    rw [← filterMap_id_map, hrun, List.filterMap_append, hrest]
    rfl
  · obtain ⟨run, part, frames, hrun⟩ := pending.drop ((sinceAck (firstAnswers o n)).length + 1 - 10)
    refine ⟨run, part, frames, Or.inl ⟨?_, ?_⟩⟩
    · have hlen := congrArg List.length hrun
      simp only [List.length_map, List.length_drop, List.length_append, List.length_singleton] at hlen
      omega
    · intro e he hack
      have hmem : some ACK ∈ run.map Prod.snd := List.mem_map.mpr ⟨e, he, hack⟩
      rw [hrun] at hmem
      rcases List.mem_append.mp (List.mem_of_mem_drop hmem) with hsince | hlast
      · exact ack_notMem_sinceAck _ hsince
      · exact ends.1 (List.mem_singleton.mp hlast).symm

theorem justified_iff (heard : dialogue.map Prod.snd = firstAnswers o (n + 1)) (continues : Continues o n)
    (pending : Pending dialogue frame (sinceAck (firstAnswers o n) ++ [answerTo o n]))
    (ends : EndsOn (firstAnswers o n) (answerTo o n)) :
    Justified dialogue ↔ ¬ EndsEarly (firstAnswers o n) (answerTo o n) := by
  constructor
  · rintro ⟨run, part, _, ⟨ten, refused⟩ | cancels⟩
    · exact not_endsEarly_of_tenth heard continues part ten refused
    · exact not_endsEarly_of_cancels heard continues part cancels
  · exact justified_of_not_endsEarly pending ends

end Justified

def Impatient (o : Peer UInt8) (blocks : ℕ) : Prop :=
  ∃ n, Continues o n ∧ (firstAnswers o n).count (some ACK) ≤ blocks ∧
    EndsEarly (firstAnswers o n) (answerTo o n)

section Impatient

variable {pThis : ModemContext} {file : List UInt8} {o : Peer UInt8} {blocks n : ℕ}

theorem count_firstAnswers_le {m : ℕ} (h : m ≤ n) :
    (firstAnswers o m).count (some ACK) ≤ (firstAnswers o n).count (some ACK) := by
  obtain ⟨k, rfl⟩ := Nat.exists_eq_add_of_le h
  induction k with
  | zero => exact Nat.le_refl _
  | succ k ih =>
    rw [← Nat.add_assoc, firstAnswers_succ, List.count_append]
    exact Nat.le_add_right_of_le (ih (Nat.le_add_right _ _))

theorem impatient_iff (continues : Continues o n) (ends : EndsOn (firstAnswers o n) (answerTo o n))
    (place : (firstAnswers o n).count (some ACK) ≤ blocks) :
    Impatient o blocks ↔ EndsEarly (firstAnswers o n) (answerTo o n) := by
  constructor
  · rintro ⟨m, continues', _, early⟩
    rcases Nat.lt_trichotomy m n with hlt | rfl | hlt
    · exact absurd early.1 (continues m hlt)
    · exact early
    · exact absurd ends (continues' n hlt)
  · exact fun early => ⟨n, continues, place, early⟩

theorem not_impatient (continues : Continues o n) (place : (firstAnswers o n).count (some ACK) = blocks + 1) :
    ¬ Impatient o blocks := by
  rintro ⟨m, _, hplace, early⟩
  rcases Nat.lt_or_ge m n with hlt | hge
  · exact continues m hlt early.1
  · have := @count_firstAnswers_le o m n hge
    omega

theorem Standing.justified_iff {l : List (Round UInt8 LxmodeSendState)} {s : LxmodeSendState}
    (hfile : file.length < 2147483648) (dialogue : Dialogue o l) (h : Standing pThis file o l s)
    (finished : s.bFinished = true) :
    (s.emittedBytes.toInt32 = -1 → Justified (exchanges (roundEvents l))) ↔
      ¬ Impatient o (blockCount pThis.blksize file) := by
  cases h with
  | running i head place retry pending continues =>
    rw [head.running] at finished
    cases finished
  | finished place hf he continues =>
    refine iff_of_true (fun hn => ?_) (not_impatient continues place)
    have hbytes : s.emittedBytes = -1 := by
      have hn' := congrArg Int32.toUInt32 hn
      rw [UInt32.toUInt32_toInt32] at hn'
      exact hn'
    have hlt := @paddedFile_length_lt _ file (blksize_eq pThis)
    rw [hbytes] at he
    have hmax : (-1 : UInt32).toNat = 4294967295 := rfl
    omega
  | gaveUp n hl ends place hf he pending continues =>
    obtain ⟨frame, pending⟩ := pending
    have heard := dialogue.heard
    rw [hl] at heard
    rw [impatient_iff continues ends place, ← LightModem.justified_iff heard continues pending ends, he]
    exact imp_iff_right rfl

end Impatient

/-- A result of -1 has ten answers to one frame that are no acknowledgements for a reason, or two cancels
in a row, exactly when the retry counter does not end the call before. -/
theorem lxmodeSendDataBlocks_givesUp_iff (pThis : ModemContext) (file : List UInt8)
    (loaded : pThis.ramfile.Loaded file) (o : Peer UInt8) {t : List (Event UInt8)} {n : Int32}
    {pThis' : ModemContext} (h : Returns (fun fuel => lxmodeSendDataBlocks fuel pThis) o t (n, pThis')) :
    (n = -1 → Justified (exchanges t)) ↔ ¬ Impatient o (blockCount pThis.blksize file) := by
  obtain ⟨fuel, run⟩ := h
  obtain ⟨t₁, s, t₂, loop, result, rfl⟩ := Program.exists_of_run_bind run
  obtain ⟨rfl, hresult⟩ := Prod.mk.inj result
  obtain ⟨rfl, rfl⟩ := Prod.mk.inj (Option.some.inj hresult)
  obtain ⟨l, rounds, rfl, hc⟩ := Rounds.of_run loop
  have finished : s.bFinished = true := by simpa using hc
  rw [List.append_nil]
  obtain ⟨dialogue, standing⟩ := rounds.invariant (fun l s => Dialogue o l ∧ Standing pThis file o l s)
    (standing_initial loaded) (by
      rintro l s t s' _ ⟨dialogue, standing⟩ hrunning run
      rw [Nat.zero_add] at run
      exact standing.round loaded.length_lt dialogue (by simpa using hrunning) run)
  exact standing.justified_iff loaded.length_lt dialogue finished

theorem lxmodeSendDataBlocks_givesUp_silence :
    ∃ t pThis', Returns (fun fuel => lxmodeSendDataBlocks fuel (checksumSender [7])) (.scripted []) t
      (-1, pThis') ∧ Justified (exchanges t) := by
  have run : ((lxmodeSendDataBlocks 11 (checksumSender [7])).run (.scripted []) 0).2.map Prod.fst = some (-1) := by
    decide +kernel
  obtain ⟨⟨n, pThis'⟩, h, rfl⟩ :=
    @returns_of_run _ _ _ (fun fuel => lxmodeSendDataBlocks fuel (checksumSender [7])) _ _ _ 11 run
  refine ⟨_, pThis', h, (lxmodeSendDataBlocks_givesUp_iff (checksumSender [7]) [7] ⟨⟨by decide, by decide⟩, rfl⟩
    (.scripted []) h).mpr ?_ rfl⟩
  rintro ⟨k, _, _, ⟨_, ends⟩, short, _⟩
  have silent : answerTo (.scripted []) k = none :=
    congrArg Prod.fst (awaited_silent (fun j _ => Peer.scripted_silent (Nat.zero_le j) Nat.one_pos) _ 10)
  rw [silent] at ends
  rcases ends with ten | ⟨answered, _⟩
  · omega
  · exact answered rfl

theorem lxmodeSendDataBlocks_givesUp_noise :
    ∃ t pThis', Returns (fun fuel => lxmodeSendDataBlocks fuel (checksumSender [7])) (.scripted [[NAK], [0x55]]) t
      (-1, pThis') ∧ ¬ Justified (exchanges t) := by
  have run : ((lxmodeSendDataBlocks 3 (checksumSender [7])).run (.scripted [[NAK], [0x55]]) 0).2.map Prod.fst =
      some (-1) := by
    decide +kernel
  obtain ⟨⟨n, pThis'⟩, h, rfl⟩ :=
    @returns_of_run _ _ _ (fun fuel => lxmodeSendDataBlocks fuel (checksumSender [7])) _ _ _ 3 run
  refine ⟨_, pThis', h, ?_⟩
  have heard : (exchanges ((lxmodeSendDataBlocks 3 (checksumSender [7])).run
      (.scripted [[NAK], [0x55]]) 0).1).map Prod.snd = [some NAK, some 0x55] := by
    decide +kernel
  rintro ⟨part, partOf, _, ⟨ten, _⟩ | cancels⟩
  · have hle := (partOf.map Prod.snd).length_le
    rw [heard, List.length_map] at hle
    simp only [List.length_cons, List.length_nil] at hle
    omega
  · have hmem : CAN ∈ part.filterMap Prod.snd := by rw [cancels]; simp
    obtain ⟨e, he, hcan⟩ := List.mem_filterMap.mp hmem
    have hin : some CAN ∈ (exchanges ((lxmodeSendDataBlocks 3 (checksumSender [7])).run
        (.scripted [[NAK], [0x55]]) 0).1).map Prod.snd := List.mem_map.mpr ⟨e, partOf.subset he, hcan⟩
    rw [heard] at hin
    revert hin
    decide

end LightModem
