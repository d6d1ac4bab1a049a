import LightModem.Rounds
import LightModem.Storage

set_option autoImplicit false

namespace LightModem

open Interaction

def ReceiveRounds (pThis : ModemContext) (o : Peer UInt8) : List (Round UInt8 LxmodemReceiveState) →
    LxmodemReceiveState → Prop :=
  Rounds (fun s => !s.bFinished) lxmodemReceiveTurn o (.initial pThis) 0

def preambule (pThis : ModemContext) : UInt8 :=
  if pThis.protocol = .xmodem ∧ pThis.opts = .lxmodem128WithChksum then NAK else charC

section ReceiveRounds

variable {pThis pThis' : ModemContext} {o : Peer UInt8} {t : List (Event UInt8)} {n : Int32}
  {l : List (Round UInt8 LxmodemReceiveState)} {r : Round UInt8 LxmodemReceiveState} {s : LxmodemReceiveState}

theorem lxmodemReceive_preambule (fuel : ℕ) (pThis : ModemContext) :
    lxmodemReceive fuel pThis = .write [preambule pThis]
      (lxmodemReceiveLoop fuel (.initial pThis) >>= fun s => .done (s.receivedBytes.toInt32, s.pThis)) := by
  rw [lxmodemReceive, lxmodemBuildAndSendPreambule, preambule]
  cases pThis.protocol <;> cases pThis.opts <;> rfl

theorem lxmodemReceive_run {fuel i : ℕ} (run : (lxmodemReceive fuel pThis).run o i = (t, some (n, pThis'))) :
    ∃ rest s, t = .sent [preambule pThis] :: rest ∧
      (lxmodemReceiveLoop fuel (.initial pThis)).run o i = (rest, some s) ∧
      n = s.receivedBytes.toInt32 ∧ pThis' = s.pThis := by
  rw [lxmodemReceive_preambule] at run
  obtain ⟨rest, rfl, later⟩ := Program.exists_of_run_write run
  obtain ⟨s, loop, hresult⟩ := Program.exists_of_run_map later
  obtain ⟨rfl, rfl⟩ := Prod.mk.inj hresult
  exact ⟨rest, s, rfl, loop, rfl, rfl⟩

theorem lxmodemReceive_returns_iff : Returns (fun fuel => lxmodemReceive fuel pThis) o t (n, pThis') ↔
    ∃ l s, ReceiveRounds pThis o l s ∧ s.bFinished = true ∧ t = .sent [preambule pThis] :: roundEvents l ∧
      n = s.receivedBytes.toInt32 ∧ pThis' = s.pThis := by
  constructor
  · rintro ⟨fuel, run⟩
    obtain ⟨rest, s, rfl, loop, rfl, rfl⟩ := lxmodemReceive_run run
    obtain ⟨l, rounds, rfl, hc⟩ := Rounds.of_run loop
    exact ⟨l, s, rounds, by simpa using hc, rfl, rfl, rfl⟩
  · rintro ⟨l, s, rounds, finished, rfl, rfl, rfl⟩
    have loop := rounds.run_finished (by simpa using finished)
    refine ⟨l.length + 1, ?_⟩
    change (lxmodemReceive (l.length + 1) pThis).run o 0 = _
    rw [lxmodemReceive_preambule, Program.run_write, lxmodemReceiveLoop, Program.run_bind_some loop]
    simp

theorem ReceiveRounds.turn (h : ReceiveRounds pThis o (l ++ [r]) s) :
    ReceiveRounds pThis o l r.before ∧ r.before.bFinished = false ∧ r.after = s ∧
      ReceiveStep r.before r.events s := by
  generalize hl : l ++ [r] = rounds at h
  cases h with
  | start => simp at hl
  | round h hc run =>
    obtain ⟨rfl, hr⟩ := List.append_inj' hl rfl
    obtain rfl := List.cons.inj hr |>.1
    exact ⟨h, by simpa using hc, rfl, (lxmodemReceiveTurn_steps _).run run⟩

end ReceiveRounds

structure Served (pThis : ModemContext) (script rest sent : List (List UInt8))
    (blocks : List (UInt8 × List UInt8)) (s : LxmodemReceiveState) : Prop where
  reached : ∃ l, ReceiveRounds pThis (.scripted script) l s ∧ script.drop (reads (roundEvents l)) = rest ∧
    writes (roundEvents l) = sent ∧ Stores pThis (roundEvents l) s blocks
  running : s.bFinished = false

section Served

variable {pThis : ModemContext} {script rest sent : List (List UInt8)} {blocks : List (UInt8 × List UInt8)}
  {s s' : LxmodemReceiveState} {t : List (Event UInt8)}

theorem served_initial (hs : pThis.ramfile.Writable) : Served pThis script script [] [] (.initial pThis) :=
  ⟨⟨[], .start, rfl, rfl, stores_initial hs⟩, rfl⟩

theorem ReceiveRounds.scripted {l : List (Round UInt8 LxmodemReceiveState)}
    (h : ReceiveRounds pThis (.scripted script) l s) (running : s.bFinished = false)
    (left : script.drop (reads (roundEvents l)) = readData t ++ rest)
    (performs : Performs (lxmodemReceiveTurn s) t (.done s')) (heard : ∀ n, .timedOut n ∉ t) :
    ReceiveRounds pThis (.scripted script) (l ++ [⟨s, t, s'⟩]) s' ∧
      script.drop (reads (roundEvents (l ++ [⟨s, t, s'⟩]))) = rest := by
  obtain ⟨run, left'⟩ := performs.run_scripted heard left
  rw [← Nat.zero_add (reads (roundEvents l))] at run
  exact ⟨h.round (by simpa using running) run, by simpa using left'⟩

theorem Served.stored (hs : pThis.ramfile.Writable) (configured : pThis.Configured) {header : UInt8}
    {payload : List UInt8} (kind : FrameKind pThis header payload.length)
    (fits : pThis.ramfile.writeOffset.toNat + (payloads blocks).length + payload.length <
      pThis.ramfile.maxSize.toNat)
    (h : Served pThis script ([header] :: frameBody pThis.crc16 pThis.usesCrc
      (UInt8.ofNat (blocks.length + 1)) payload :: rest) sent blocks s) :
    ∃ s', Served pThis script rest (sent ++ [[ACK]]) (blocks ++ [(header, payload)]) s' ∧ s'.nbRetry = 0 := by
  obtain ⟨⟨l, rounds, left, rfl, stores⟩, running⟩ := h
  rw [← stores.body_eq configured running kind] at left
  have kind' := stores.setup.frameKind.mp kind
  have fits' := (stores.fits_iff hs payload.length).mpr fits
  have performs := (ReceiveTurn.stored header payload kind' fits').performs (stores.writable hs)
  obtain ⟨rounds', left'⟩ := rounds.scripted running left performs (by simp)
  have stores' := stores.stored hs configured running kind' fits'
  refine ⟨_, ⟨⟨_, rounds', left', by simp, ?_⟩, running⟩, rfl⟩
  simpa using stores'

theorem Served.overflows (hs : pThis.ramfile.Writable) (configured : pThis.Configured) {header : UInt8}
    {payload : List UInt8} (kind : FrameKind pThis header payload.length)
    (full : pThis.ramfile.maxSize.toNat ≤
      pThis.ramfile.writeOffset.toNat + (payloads blocks).length + payload.length)
    (h : Served pThis script ([header] :: frameBody pThis.crc16 pThis.usesCrc
      (UInt8.ofNat (blocks.length + 1)) payload :: rest) sent blocks s) :
    ∃ t pThis', Returns (fun fuel => lxmodemReceive fuel pThis) (.scripted script) t (-1, pThis') ∧
      pThis'.ramfile = pThis.ramfile.appended (payloads blocks) := by
  obtain ⟨⟨l, rounds, left, rfl, stores⟩, running⟩ := h
  rw [← stores.body_eq configured running kind] at left
  have kind' := stores.setup.frameKind.mp kind
  have full' := Nat.le_of_not_lt (fun fits =>
    Nat.not_lt.mpr full ((stores.fits_iff hs payload.length).mp fits))
  have performs := (ReceiveTurn.full header payload kind' full').performs (stores.writable hs)
  obtain ⟨rounds', _⟩ := rounds.scripted running left performs (by simp)
  exact ⟨_, _, lxmodemReceive_returns_iff.mpr ⟨_, _, rounds', rfl, rfl, rfl, rfl⟩, stores.ramfile⟩

theorem Served.ends (hs : pThis.ramfile.Writable) (h : Served pThis script ([EOT] :: rest) sent blocks s) :
    ∃ t n pThis', Returns (fun fuel => lxmodemReceive fuel pThis) (.scripted script) t (n, pThis') ∧
      n.toInt = (payloads blocks).length ∧ pThis'.ramfile = pThis.ramfile.appended (payloads blocks) ∧
      writes t = [preambule pThis] :: (sent ++ [[ACK]]) := by
  obtain ⟨⟨l, rounds, left, rfl, stores⟩, running⟩ := h
  have performs := (@ReceiveTurn.endOfFile s).performs (stores.writable hs)
  obtain ⟨rounds', _⟩ := rounds.scripted running left performs (by simp)
  refine ⟨_, _, _, lxmodemReceive_returns_iff.mpr ⟨_, _, rounds', rfl, rfl, rfl, rfl⟩, ?_, stores.ramfile,
    by simp⟩
  have hsize := hs.size
  have hfits := stores.fits
  have hbytes := (stores.running running).2
  rw [toInt_toInt32 (by rw [hbytes]; omega), hbytes]

theorem retried_running (still : s.bFinished = false) (budget : s.nbRetry + 1 < 10) :
    s.retried.bFinished = false ∧ s.retryEvents = [] := by
  rw [retried_early budget]
  exact ⟨still, retryEvents_early budget⟩

theorem Served.failed {s₁ : LxmodemReceiveState} (hs : pThis.ramfile.Writable)
    (h : Served pThis script (readData t ++ rest) sent blocks s) (hf : ReceiveFailure s t s₁)
    (heard : ∀ n, .timedOut n ∉ t) (still : s₁.bFinished = false) (budget : s.nbRetry + 1 < 10) :
    ∃ s', Served pThis script rest (sent ++ writes t) blocks s' ∧ s'.nbRetry = s.nbRetry + 1 := by
  obtain ⟨⟨l, rounds, left, rfl, stores⟩, running⟩ := h
  have retry := hf.nbRetry
  obtain ⟨running', events⟩ := retried_running still (by omega)
  have turn := ReceiveTurn.failure hf
  have settled := turn.settled (roundEvents l)
  have performs := turn.performs (stores.writable hs)
  rw [events, List.append_nil] at performs settled
  obtain ⟨rounds', left'⟩ := rounds.scripted running left performs heard
  refine ⟨_, ⟨⟨_, rounds', left', by simp, ?_⟩, running'⟩, by rw [retried_nbRetry, retry]⟩
  have stores' := stores.untouched running (hf.untouched.trans (retried_untouched s₁)) settled
  simpa using stores'

theorem Served.silent (h : Served pThis script ([] :: rest) sent blocks s) (budget : s.nbRetry + 1 < 10) :
    ∃ s', Served pThis script rest sent blocks s' ∧ s'.nbRetry = s.nbRetry + 1 := by
  obtain ⟨⟨l, rounds, left, rfl, stores⟩, running⟩ := h
  obtain ⟨running', events⟩ := retried_running running budget
  have run : (lxmodemReceiveTurn s).run (.scripted script) (0 + reads (roundEvents l)) =
      ([.timedOut 1], some s.retried) := by
    rw [Nat.zero_add, lxmodemReceiveTurn_eq, Program.run_read, Peer.scripted_timedOut left Nat.one_pos]
    simp only [lxmodemReceiveRetry_eq, if_neg (show ¬ s.nbRetry + 1 ≥ 10 by omega), Program.run_done]
    rfl
  have settled := (ReceiveTurn.failure (.silence : ReceiveFailure s _ s)).settled (roundEvents l)
  rw [events, List.append_nil] at settled
  refine ⟨s.retried, ⟨⟨_, rounds.round (by simpa using running) run, ?_, by simp, ?_⟩, running'⟩, retried_nbRetry s⟩
  · rw [roundEvents_append, reads_append, ← List.drop_drop, left]
    rfl
  · simpa using stores.untouched running (retried_untouched s) settled

end Served

end LightModem
