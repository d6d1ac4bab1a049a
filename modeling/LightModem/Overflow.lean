import LightModem.Serving

set_option autoImplicit false

namespace LightModem

open Interaction

def blockReads (pThis : ModemContext) : ℕ → List (UInt8 × List UInt8) → List (List UInt8)
  | _, [] => []
  | n, b :: blocks => [b.1] :: frameBody pThis.crc16 pThis.usesCrc (UInt8.ofNat (n + 1)) b.2 ::
      blockReads pThis (n + 1) blocks

def LmodemBuffer.Contains (b : LmodemBuffer) (data : List UInt8) : Prop :=
  b.writeOffset.toNat = data.length ∧ b.buffer.load 0 data.length = data

/-- All the blocks are stored if there is room for them, and the call only fails at a block that is
larger than the room. -/
def UsesCapacity (pThis : ModemContext) (blocks : List (UInt8 × List UInt8)) (n : Int32)
    (pThis' : ModemContext) : Prop :=
  ((payloads blocks).length ≤ pThis.ramfile.maxSize.toNat →
    n.toInt = (payloads blocks).length ∧ pThis'.ramfile.Contains (payloads blocks)) ∧
  (n = -1 → ∃ taken b left, blocks = taken ++ b :: left ∧ pThis'.ramfile.Contains (payloads taken) ∧
    pThis.ramfile.maxSize.toNat < (payloads (taken ++ [b])).length)

structure Overflows (pThis : ModemContext) (taken : List (UInt8 × List UInt8)) (b : UInt8 × List UInt8)
    (n : Int32) (pThis' : ModemContext) : Prop where
  result : n = -1
  ramfile : pThis'.ramfile = pThis.ramfile.appended (payloads taken)
  before : taken = [] ∨
    pThis.ramfile.writeOffset.toNat + (payloads taken).length < pThis.ramfile.maxSize.toNat
  full : pThis.ramfile.maxSize.toNat ≤
    pThis.ramfile.writeOffset.toNat + (payloads (taken ++ [b])).length

structure Fills (pThis : ModemContext) (blocks : List (UInt8 × List UInt8)) (n : Int32)
    (pThis' : ModemContext) : Prop where
  result : n.toInt = (payloads blocks).length
  ramfile : pThis'.ramfile = pThis.ramfile.appended (payloads blocks)
  before : blocks = [] ∨
    pThis.ramfile.writeOffset.toNat + (payloads blocks).length < pThis.ramfile.maxSize.toNat

section Overflow

variable {pThis pThis' : ModemContext} {script sent : List (List UInt8)}
  {blocks taken done left : List (UInt8 × List UInt8)} {b : UInt8 × List UInt8} {s : LxmodemReceiveState}
  {n : Int32}

theorem Served.outcome (hs : pThis.ramfile.Writable) (configured : pThis.Configured)
    (kinds : ∀ b ∈ left, FrameKind pThis b.1 b.2.length)
    (before : done = [] ∨
      pThis.ramfile.writeOffset.toNat + (payloads done).length < pThis.ramfile.maxSize.toNat)
    (h : Served pThis script (blockReads pThis done.length left ++ [[EOT]]) sent done s) :
    ∃ t n pThis', Returns (fun fuel => lxmodemReceive fuel pThis) (.scripted script) t (n, pThis') ∧
      (Fills pThis (done ++ left) n pThis' ∨
        ∃ taken b more, left = taken ++ b :: more ∧ Overflows pThis (done ++ taken) b n pThis') := by
  induction left generalizing done sent s with
  | nil =>
    obtain ⟨t, n, pThis', returns, result, ramfile, _⟩ := h.ends hs
    refine ⟨t, n, pThis', returns, Or.inl ?_⟩
    rw [List.append_nil]
    exact ⟨result, ramfile, before⟩
  | cons b left ih =>
    have kind := kinds b List.mem_cons_self
    have total : (payloads (done ++ [b])).length = (payloads done).length + b.2.length := by
      rw [payloads_concat, List.length_append]
    by_cases fits : pThis.ramfile.writeOffset.toNat + (payloads done).length + b.2.length <
        pThis.ramfile.maxSize.toNat
    · obtain ⟨s', served, _⟩ := h.stored hs configured kind fits
      have hlen : done.length + 1 = (done ++ [b]).length := by simp
      rw [hlen] at served
      obtain ⟨t, n, pThis', returns, outcome⟩ := ih (fun b' hb' => kinds b' (List.mem_cons_of_mem _ hb'))
        (Or.inr (by rw [total]; omega)) served
      refine ⟨t, n, pThis', returns, ?_⟩
      rcases outcome with fills | ⟨taken, b', more, rfl, overflows⟩
      · exact Or.inl (by rwa [List.append_assoc] at fills)
      · exact Or.inr ⟨b :: taken, b', more, rfl, by rwa [List.append_assoc] at overflows⟩
    · obtain ⟨t, pThis', returns, ramfile⟩ := h.overflows hs configured kind (by omega)
      refine ⟨t, -1, pThis', returns, Or.inr ⟨[], b, left, rfl, ?_⟩⟩
      rw [List.append_nil]
      exact ⟨rfl, ramfile, before, by rw [total]; omega⟩

theorem payloads_append (blocks more : List (UInt8 × List UInt8)) :
    payloads (blocks ++ more) = payloads blocks ++ payloads more := List.flatMap_append

theorem payloads_pos (kinds : ∀ b ∈ blocks, FrameKind pThis b.1 b.2.length) (hne : blocks ≠ []) :
    0 < (payloads blocks).length := by
  obtain ⟨b, more, rfl⟩ := List.exists_cons_of_ne_nil hne
  have kind := kinds b List.mem_cons_self
  have hpos : 0 < b.2.length := by
    rcases kind with ⟨_, h⟩ | ⟨_, h, _⟩ <;> omega
  have happ := congrArg List.length (payloads_append [b] more)
  rw [List.length_append] at happ
  have hone : (payloads [b]).length = b.2.length := by simp [payloads]
  rw [List.singleton_append] at happ
  omega

theorem appended_contains {b : LmodemBuffer} {data : List UInt8} (fresh : b.writeOffset.toNat = 0)
    (hs : b.maxSize.toNat < 2147483648) (fits : data.length ≤ b.maxSize.toNat) :
    (b.appended data).Contains data := by
  constructor
  · rw [appended_writeOffset hs (by omega), fresh, Nat.zero_add]
  · rw [LmodemBuffer.appended, fresh]
    exact Memory.load_store _ _ _

theorem Fills.usesCapacity (fresh : pThis.ramfile.writeOffset.toNat = 0)
    (hs : pThis.ramfile.maxSize.toNat < 2147483648) (h : Fills pThis blocks n pThis') :
    UsesCapacity pThis blocks n pThis' ∧
      ∀ taken left, blocks = taken ++ left → taken ≠ [] →
        (payloads taken).length ≠ pThis.ramfile.maxSize.toNat := by
  refine ⟨⟨fun fits => ⟨h.result, ?_⟩, fun hn => ?_⟩, fun taken left split hne => ?_⟩
  · rw [h.ramfile]
    exact appended_contains fresh hs fits
  · have hresult := h.result
    rw [hn] at hresult
    have hneg : (-1 : Int32).toInt = -1 := rfl
    omega
  · rcases h.before with rfl | hlt
    · exact absurd (List.append_eq_nil_iff.mp split.symm).1 hne
    · rw [split, payloads_append, List.length_append] at hlt
      omega

theorem taken_unique {taken' left' : List (UInt8 × List UInt8)} {b' : UInt8 × List UInt8}
    (kinds : ∀ b' ∈ taken ++ b :: left, FrameKind pThis b'.1 b'.2.length)
    (split : taken ++ b :: left = taken' ++ b' :: left')
    (same : (payloads taken').length = (payloads taken).length) : taken' = taken ∧ b' = b := by
  rcases List.append_eq_append_iff.mp split with ⟨more, rfl, hmore⟩ | ⟨more, rfl, hmore⟩
  · cases more with
    | nil => exact ⟨List.append_nil _, (List.cons.inj hmore).1.symm⟩
    | cons c more =>
      have kinds' : ∀ x ∈ c :: more, FrameKind pThis x.1 x.2.length := by
        intro x hx
        apply kinds
        rw [hmore]
        exact List.mem_append_right _ (List.mem_append_left _ hx)
      have hpos := @payloads_pos pThis (c :: more) kinds' (List.cons_ne_nil _ _)
      rw [payloads_append, List.length_append] at same
      omega
  · cases more with
    | nil => exact ⟨(List.append_nil _).symm, (List.cons.inj hmore).1⟩
    | cons c more =>
      have kinds' : ∀ x ∈ c :: more, FrameKind pThis x.1 x.2.length := by
        intro x hx
        apply kinds
        exact List.mem_append_left _ (List.mem_append_right _ hx)
      have hpos := @payloads_pos pThis (c :: more) kinds' (List.cons_ne_nil _ _)
      rw [payloads_append, List.length_append] at same
      omega

theorem Overflows.exact (fresh : pThis.ramfile.writeOffset.toNat = 0)
    (kinds : ∀ b' ∈ taken ++ b :: left, FrameKind pThis b'.1 b'.2.length) (h : Overflows pThis taken b n pThis')
    (hs : pThis.ramfile.maxSize.toNat < 2147483648)
    (filled : (payloads (taken ++ [b])).length = pThis.ramfile.maxSize.toNat) :
    ¬ UsesCapacity pThis (taken ++ b :: left) n pThis' := by
  rintro ⟨stored, failed⟩
  obtain ⟨taken', b', left', split, contains, larger⟩ := failed h.result
  have hle : (payloads taken).length ≤ pThis.ramfile.maxSize.toNat := by
    rw [← filled, payloads_append, List.length_append]
    exact Nat.le_add_right _ _
  have written := (appended_contains fresh hs hle).1
  rw [← h.ramfile, contains.1] at written
  obtain ⟨rfl, rfl⟩ := taken_unique kinds split written
  omega

theorem Overflows.larger (fresh : pThis.ramfile.writeOffset.toNat = 0) (h : Overflows pThis taken b n pThis')
    (hs : pThis.ramfile.maxSize.toNat < 2147483648)
    (larger : pThis.ramfile.maxSize.toNat < (payloads (taken ++ [b])).length) :
    UsesCapacity pThis (taken ++ b :: left) n pThis' ∧
      ∀ taken' left', taken ++ b :: left = taken' ++ left' → taken' ≠ [] →
        (payloads taken').length ≠ pThis.ramfile.maxSize.toNat := by
  have size : (payloads (taken ++ [b])).length = (payloads taken).length + b.2.length := by
    rw [payloads_concat, List.length_append]
  have total : (payloads (taken ++ b :: left)).length =
      (payloads (taken ++ [b])).length + (payloads left).length := by
    rw [← List.length_append, ← payloads_append, List.append_assoc, List.singleton_append]
  have before : (payloads taken).length ≤ pThis.ramfile.maxSize.toNat := by
    rcases h.before with rfl | hlt
    · exact Nat.zero_le _
    · omega
  refine ⟨⟨fun fits => by omega, fun _ => ⟨taken, b, left, rfl, ?_, larger⟩⟩, ?_⟩
  · rw [h.ramfile]
    exact appended_contains fresh hs before
  · intro taken' left' split hne
    rcases List.append_eq_append_iff.mp split with ⟨more, rfl, hmore⟩ | ⟨more, rfl, _⟩
    · cases more with
      | nil =>
        rw [List.append_nil] at hne ⊢
        rcases h.before with rfl | hlt
        · exact absurd rfl hne
        · omega
      | cons c more =>
        obtain ⟨rfl, _⟩ := List.cons.inj hmore
        have grown : (payloads (taken ++ b :: more)).length =
            (payloads (taken ++ [b])).length + (payloads more).length := by
          rw [← List.length_append, ← payloads_append, List.append_assoc, List.singleton_append]
        omega
    · rcases h.before with hnil | hlt
      · exact absurd (List.append_eq_nil_iff.mp hnil).1 hne
      · rw [payloads_append, List.length_append] at hlt
        omega

theorem Overflows.usesCapacity_iff (fresh : pThis.ramfile.writeOffset.toNat = 0)
    (hs : pThis.ramfile.maxSize.toNat < 2147483648)
    (kinds : ∀ b' ∈ taken ++ b :: left, FrameKind pThis b'.1 b'.2.length) (h : Overflows pThis taken b n pThis') :
    UsesCapacity pThis (taken ++ b :: left) n pThis' ↔
      ∀ taken' left', taken ++ b :: left = taken' ++ left' → taken' ≠ [] →
        (payloads taken').length ≠ pThis.ramfile.maxSize.toNat := by
  have full := h.full
  rcases Nat.lt_or_eq_of_le full with larger | filled
  · obtain ⟨uses, never⟩ := @Overflows.larger pThis pThis' taken left b n fresh h hs (by omega)
    exact iff_of_true uses never
  · have filled' : (payloads (taken ++ [b])).length = pThis.ramfile.maxSize.toNat := by omega
    refine iff_of_false (h.exact fresh kinds hs filled') (fun never => ?_)
    exact never (taken ++ [b]) left (by simp) (by simp) filled'

end Overflow

theorem lxmodemReceive_usesCapacity_iff (pThis : ModemContext) (configured : pThis.Configured)
    (fresh : pThis.ramfile.writeOffset = 0) (capacity : pThis.ramfile.maxSize.toNat < 2147483648)
    (blocks : List (UInt8 × List UInt8)) (kinds : ∀ b ∈ blocks, FrameKind pThis b.1 b.2.length) :
    ∃ t n pThis', Returns (fun fuel => lxmodemReceive fuel pThis)
        (.scripted (blockReads pThis 0 blocks ++ [[EOT]])) t (n, pThis') ∧
      (UsesCapacity pThis blocks n pThis' ↔
        ∀ taken left, blocks = taken ++ left → taken ≠ [] →
          (payloads taken).length ≠ pThis.ramfile.maxSize.toNat) := by
  have hw : pThis.ramfile.writeOffset.toNat = 0 := by rw [fresh]; rfl
  have writable : pThis.ramfile.Writable := ⟨by omega, capacity⟩
  obtain ⟨t, n, pThis', returns, outcome⟩ :=
    (served_initial writable).outcome writable configured kinds (Or.inl rfl)
  refine ⟨t, n, pThis', returns, ?_⟩
  rcases outcome with fills | ⟨taken, b, more, rfl, overflows⟩
  · obtain ⟨uses, never⟩ := fills.usesCapacity hw capacity
    exact iff_of_true uses never
  · exact overflows.usesCapacity_iff hw capacity kinds

def zeroBlocks (count : ℕ) : List (UInt8 × List UInt8) := List.replicate count (SOH, List.replicate 128 0)

theorem zeroBlocks_kind (count : ℕ) : ∀ b ∈ zeroBlocks count, FrameKind smallReceiver b.1 b.2.length := by
  intro b hb
  rw [List.eq_of_mem_replicate hb, List.length_replicate]
  exact Or.inl ⟨rfl, rfl⟩

theorem zeroBlocks_length (count : ℕ) : (payloads (zeroBlocks count)).length = count * 128 := by
  induction count with
  | zero => rfl
  | succ count ih =>
    have split := payloads_append [(SOH, List.replicate 128 0)] (zeroBlocks count)
    have happ := congrArg List.length split
    rw [List.length_append, ih] at happ
    change (payloads (zeroBlocks (count + 1))).length = _ at happ
    rw [happ, Nat.succ_mul, Nat.add_comm]
    simp [payloads]

theorem lxmodemReceive_usesCapacity_half :
    ∃ t n pThis', Returns (fun fuel => lxmodemReceive fuel smallReceiver)
        (.scripted (blockReads smallReceiver 0 (zeroBlocks 1) ++ [[EOT]])) t (n, pThis') ∧ n.toInt = 128 := by
  obtain ⟨t, n, pThis', returns, uses⟩ := lxmodemReceive_usesCapacity_iff smallReceiver rfl rfl (by decide)
    (zeroBlocks 1) (zeroBlocks_kind 1)
  have never : ∀ taken left, zeroBlocks 1 = taken ++ left → taken ≠ [] →
      (payloads taken).length ≠ smallReceiver.ramfile.maxSize.toNat := by
    intro taken left split _
    have happ := congrArg (fun l => (payloads l).length) split
    simp only [payloads_append, List.length_append, zeroBlocks_length] at happ
    have hmax : smallReceiver.ramfile.maxSize.toNat = 256 := rfl
    omega
  have result := ((uses.mpr never).1 (by rw [zeroBlocks_length]; decide)).1
  rw [zeroBlocks_length] at result
  exact ⟨t, n, pThis', returns, result⟩

theorem lxmodemReceive_overflows :
    ∃ t pThis', Returns (fun fuel => lxmodemReceive fuel smallReceiver)
        (.scripted (blockReads smallReceiver 0 (zeroBlocks 2) ++ [[EOT]])) t (-1, pThis') ∧
      ¬ UsesCapacity smallReceiver (zeroBlocks 2) (-1) pThis' := by
  have run : ((lxmodemReceive 3 smallReceiver).run
      (.scripted (blockReads smallReceiver 0 (zeroBlocks 2) ++ [[EOT]])) 0).2.map Prod.fst = some (-1) := by
    decide +kernel
  obtain ⟨⟨n, pThis'⟩, h, rfl⟩ :=
    @returns_of_run _ _ _ (fun fuel => lxmodemReceive fuel smallReceiver) _ _ _ 3 run
  refine ⟨_, pThis', h, fun uses => ?_⟩
  have result := (uses.1 (by rw [zeroBlocks_length]; decide)).1
  rw [zeroBlocks_length] at result
  exact absurd result (by decide)

end LightModem
