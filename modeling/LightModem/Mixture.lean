import LightModem.Delivery
import LightModem.Serving

set_option autoImplicit false

namespace LightModem

open Interaction

inductive Disturbs (pThis : ModemContext) (done : List (List UInt8)) (next : Option (List UInt8)) :
    List (List UInt8) → List (List UInt8) → Prop
  | damaged (payload bytes : List UInt8) (coming : next = some payload) (spoils : Spoils pThis payload bytes) :
      Disturbs pThis done next [[frameHeader payload],
        UInt8.ofNat (done.length + 1) :: ~~~UInt8.ofNat (done.length + 1) :: bytes] [[NAK]]
  | repeated (payload bytes : List UInt8) (last : done.getLast? = some payload)
      (size : bytes.length = payload.length + checkSize pThis.usesCrc) :
      Disturbs pThis done next [[frameHeader payload],
        UInt8.ofNat done.length :: ~~~UInt8.ofNat done.length :: bytes] [[ACK]]
  | silent : Disturbs pThis done next [[]] []

inductive Disturbances (pThis : ModemContext) (done : List (List UInt8)) (next : Option (List UInt8)) :
    ℕ → List (List UInt8) → List (List UInt8) → Prop
  | none : Disturbances pThis done next 0 [] []
  | more {count : ℕ} {reads answers reads' answers' : List (List UInt8)}
      (first : Disturbs pThis done next reads answers)
      (rest : Disturbances pThis done next count reads' answers') :
      Disturbances pThis done next (count + 1) (reads ++ reads') (answers ++ answers')

/-- The blocks that follow `done`, numbered on, and the end of the file, with fewer than ten events before
each of them; and the answers. -/
inductive Mixture (pThis : ModemContext) :
    List (List UInt8) → List (List UInt8) → List (List UInt8) → List (List UInt8) → Prop
  | endOfFile {done reads answers : List (List UInt8)} {count : ℕ}
      (events : Disturbances pThis done none count reads answers) (few : count < 10) :
      Mixture pThis done [] (reads ++ [[EOT]]) (answers ++ [[ACK]])
  | block {done more reads answers reads' answers' : List (List UInt8)} {count : ℕ} (payload : List UInt8)
      (size : payload.length = 128 ∨ payload.length = 1024)
      (events : Disturbances pThis done (some payload) count reads answers) (few : count < 10)
      (rest : Mixture pThis (done ++ [payload]) more reads' answers') :
      Mixture pThis done (payload :: more)
        (reads ++ [frameHeader payload] ::
          frameBody pThis.crc16 pThis.usesCrc (UInt8.ofNat (done.length + 1)) payload :: reads')
        (answers ++ [ACK] :: answers')

def headed (done : List (List UInt8)) : List (UInt8 × List UInt8) := done.map fun p => (frameHeader p, p)

section Mixture

variable {pThis : ModemContext} {script rest sent done reads answers : List (List UInt8)}
  {next : Option (List UInt8)} {payload bytes : List UInt8} {s : LxmodemReceiveState} {count : ℕ}

@[simp] theorem headed_length (done : List (List UInt8)) : (headed done).length = done.length :=
  List.length_map ..

theorem payloads_headed (done : List (List UInt8)) : payloads (headed done) = done.flatten := by
  induction done with
  | nil => rfl
  | cons p done ih =>
    change p ++ payloads (headed done) = p ++ done.flatten
    rw [ih]

theorem frameKind_frameHeader (large : pThis.opts = .lxmodem1k ∨ pThis.protocol = .ymodem)
    (size : payload.length = 128 ∨ payload.length = 1024) :
    FrameKind pThis (frameHeader payload) payload.length := by
  rcases size with h | h
  · exact Or.inl ⟨by rw [frameHeader, h]; rfl, h⟩
  · exact Or.inr ⟨by rw [frameHeader, h]; rfl, h, large⟩

theorem Served.state {blocks : List (UInt8 × List UInt8)} (h : Served pThis script rest sent blocks s) :
    SameSetup pThis s.pThis ∧ s.expectedBlkNumber = UInt8.ofNat (blocks.length + 1) ∧
      ∀ b ∈ blocks, FrameKind pThis b.1 b.2.length := by
  obtain ⟨⟨l, _, _, _, stores⟩, running⟩ := h
  exact ⟨stores.setup, (stores.running running).1, stores.kinds⟩

theorem Served.disturbed (hs : pThis.ramfile.Writable) (configured : pThis.Configured)
    (kinds : ∀ p, next = some p → FrameKind pThis (frameHeader p) p.length)
    (event : Disturbs pThis done next reads answers)
    (h : Served pThis script (reads ++ rest) sent (headed done) s) (budget : s.nbRetry + 1 < 10) :
    ∃ s', Served pThis script rest (sent ++ answers) (headed done) s' ∧ s'.nbRetry = s.nbRetry + 1 := by
  obtain ⟨setup, number, stored⟩ := h.state
  rw [headed_length] at number
  cases event with
  | damaged payload bytes coming spoils =>
    have kind := kinds payload coming
    have hcrc : lxmodemBlockHasCrc s.pThis payload.length = pThis.usesCrc := by
      rw [← setup.blockHasCrc, hasCrc_of_kind configured kind]
    have status := spoils.check (UInt8.ofNat (done.length + 1)) hcrc setup.crc16.symm
    rw [← number] at status h
    have size : (s.expectedBlkNumber :: ~~~s.expectedBlkNumber :: bytes).length =
        bodySize s.pThis payload.length := by
      have hlen := spoils.1
      simp only [List.length_cons, bodySize, hcrc]
      omega
    exact h.failed hs (.bad _ _ _ (setup.frameKind.mp kind) size status) (by simp) h.running budget
  | repeated payload bytes last size =>
    have member : (frameHeader payload, payload) ∈ headed done :=
      List.mem_map.mpr ⟨payload, List.mem_of_getLast? last, rfl⟩
    have kind := stored _ member
    have hcrc : lxmodemBlockHasCrc s.pThis payload.length = pThis.usesCrc := by
      rw [← setup.blockHasCrc, hasCrc_of_kind configured kind]
    have previous : s.expectedBlkNumber - 1 = UInt8.ofNat done.length := by
      rw [number, UInt8.ofNat_add done.length 1]
      exact UInt8.add_sub_cancel _ _
    rw [← previous] at h
    have size' : ((s.expectedBlkNumber - 1) :: ~~~(s.expectedBlkNumber - 1) :: bytes).length =
        bodySize s.pThis payload.length := by
      simp only [List.length_cons, bodySize, hcrc]
      omega
    have status := (lxmodemCheckBlockNoAndCrc_previous s.pThis s.expectedBlkNumber size').mpr rfl
    exact h.failed hs (.repeated _ _ _ (setup.frameKind.mp kind) size' status) (by simp) h.running budget
  | silent =>
    rw [List.append_nil]
    exact h.silent budget

theorem Served.disturbances (hs : pThis.ramfile.Writable) (configured : pThis.Configured)
    (kinds : ∀ p, next = some p → FrameKind pThis (frameHeader p) p.length)
    (events : Disturbances pThis done next count reads answers)
    (h : Served pThis script (reads ++ rest) sent (headed done) s) (budget : s.nbRetry + count < 10) :
    ∃ s', Served pThis script rest (sent ++ answers) (headed done) s' := by
  induction events generalizing sent s with
  | none =>
    rw [List.append_nil]
    exact ⟨s, h⟩
  | more first rest ih =>
    rw [List.append_assoc] at h
    obtain ⟨s', served, retry⟩ := h.disturbed hs configured kinds first (by omega)
    rw [← List.append_assoc]
    exact ih served (by omega)

theorem Served.mixture (hs : pThis.ramfile.Writable) (configured : pThis.Configured)
    (large : pThis.opts = .lxmodem1k ∨ pThis.protocol = .ymodem) {more : List (List UInt8)}
    (mixture : Mixture pThis done more reads answers)
    (room : pThis.ramfile.writeOffset.toNat + (done ++ more).flatten.length < pThis.ramfile.maxSize.toNat)
    (h : Served pThis script reads sent (headed done) s) (fresh : s.nbRetry = 0) :
    ∃ t n pThis', Returns (fun fuel => lxmodemReceive fuel pThis) (.scripted script) t (n, pThis') ∧
      n.toInt = (done ++ more).flatten.length ∧
      pThis'.ramfile = pThis.ramfile.appended (done ++ more).flatten ∧
      writes t = [preambule pThis] :: (sent ++ answers) := by
  induction mixture generalizing sent s with
  | endOfFile events few =>
    obtain ⟨s', served⟩ := h.disturbances hs configured (by simp) events (by omega)
    obtain ⟨t, n, pThis', returns, result, ramfile, output⟩ := served.ends hs
    rw [payloads_headed] at result ramfile
    refine ⟨t, n, pThis', returns, ?_, ?_, ?_⟩
    · rw [List.append_nil]
      exact result
    · rw [List.append_nil]
      exact ramfile
    · rw [output, List.append_assoc]
  | @block done more reads answers reads' answers' count payload size events few rest ih =>
    have kind := frameKind_frameHeader large size
    obtain ⟨s', served⟩ := h.disturbances hs configured
      (fun p hp => by rw [← Option.some.inj hp]; exact kind) events (by omega)
    have fits : pThis.ramfile.writeOffset.toNat + (payloads (headed done)).length + payload.length <
        pThis.ramfile.maxSize.toNat := by
      rw [payloads_headed]
      simp only [List.flatten_append, List.flatten_cons, List.length_append] at room
      omega
    rw [← headed_length done] at served
    obtain ⟨s'', stored, retry⟩ := served.stored hs configured kind fits
    have grown : headed done ++ [(frameHeader payload, payload)] = headed (done ++ [payload]) := by
      simp [headed]
    have assoc : done ++ [payload] ++ more = done ++ payload :: more := by simp
    rw [grown] at stored
    rw [assoc] at ih
    obtain ⟨t, n, pThis', returns, result, ramfile, output⟩ := ih room stored retry
    exact ⟨t, n, pThis', returns, result, ramfile, by rw [output]; simp⟩

end Mixture

theorem lxmodemReceive_mixture (pThis : ModemContext) (configured : pThis.Configured)
    (large : pThis.opts = .lxmodem1k ∨ pThis.protocol = .ymodem) (hs : pThis.ramfile.Writable)
    (blocks reads answers : List (List UInt8)) (mixture : Mixture pThis [] blocks reads answers)
    (room : pThis.ramfile.writeOffset.toNat + blocks.flatten.length < pThis.ramfile.maxSize.toNat) :
    ∃ t n pThis', Returns (fun fuel => lxmodemReceive fuel pThis) (.scripted reads) t (n, pThis') ∧
      n.toInt = blocks.flatten.length ∧ pThis'.ramfile = pThis.ramfile.appended blocks.flatten ∧
      writes t = [preambule pThis] :: answers := by
  obtain ⟨t, n, pThis', returns, result⟩ :=
    (served_initial hs).mixture hs configured large mixture room rfl
  exact ⟨t, n, pThis', returns, result⟩

def largeReceiver : ModemContext :=
  lmodemSetFileBuffer (lmodemSetLineBuffer (lmodemInit .lxmodem1k) (.fresh 0) 1029).1 (.fresh 0) 4096

theorem mixture_zeros :
    ∃ reads, Mixture largeReceiver [] [List.replicate 128 0] reads [[NAK], [ACK], [ACK], [ACK]] := by
  have spoils : Spoils largeReceiver (List.replicate 128 0) (List.replicate 128 0 ++ [1, 1]) :=
    ⟨by decide +kernel, by decide +kernel⟩
  have repeated : Disturbs largeReceiver [List.replicate 128 0] none _ _ :=
    .repeated (List.replicate 128 0) (List.replicate 130 0) rfl (by decide +kernel)
  exact ⟨_, .block (List.replicate 128 0) (Or.inl (by simp)) (.more (.damaged _ _ rfl spoils) .none)
    (by decide) (.endOfFile (.more repeated (.more .silent .none)) (by decide))⟩

theorem lxmodemReceive_mixture_zeros :
    ∃ reads t n pThis', Returns (fun fuel => lxmodemReceive fuel largeReceiver) (.scripted reads) t (n, pThis') ∧
      n.toInt = 128 ∧ writes t = [[charC], [NAK], [ACK], [ACK], [ACK]] := by
  obtain ⟨reads, mixture⟩ := mixture_zeros
  obtain ⟨t, n, pThis', returns, result, _, output⟩ := lxmodemReceive_mixture largeReceiver rfl (Or.inl rfl)
    ⟨by decide, by decide⟩ _ _ _ mixture (by decide +kernel)
  exact ⟨reads, t, n, pThis', returns, by rw [result]; simp, output⟩

end LightModem
