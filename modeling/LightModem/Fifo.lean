import Mathlib.Data.List.Infix

set_option autoImplicit false

namespace LightModem.Fifo

variable {α σ ι : Type}

structure Exchange (α : Type) where
  accepted : List α
  delivered : List α

def Exchange.nothing : Exchange α := ⟨[], []⟩

def Exchange.followedBy (x y : Exchange α) : Exchange α :=
  ⟨x.accepted ++ y.accepted, x.delivered ++ y.delivered⟩

def Passes (contents : List α) (x : Exchange α) (contents' : List α) : Prop :=
  contents ++ x.accepted = x.delivered ++ contents'

section Passes

variable {contents contents' contents'' data : List α} {x y : Exchange α}

theorem passes_nothing (contents : List α) : Passes contents .nothing contents := List.append_nil contents

theorem passes_accepted (contents data : List α) : Passes contents ⟨data, []⟩ (contents ++ data) := rfl

theorem passes_delivered (contents : List α) (n : ℕ) :
    Passes contents ⟨[], contents.take n⟩ (contents.drop n) := by
  rw [Passes, List.append_nil, List.take_append_drop]

theorem Passes.followedBy (h : Passes contents x contents') (h' : Passes contents' y contents'') :
    Passes contents (x.followedBy y) contents'' := by
  rw [Passes] at h h' ⊢
  simp only [Exchange.followedBy]
  rw [← List.append_assoc, h, List.append_assoc, h', List.append_assoc]

theorem Passes.in_order (h : Passes [] x contents) : x.delivered <+: x.accepted :=
  ⟨contents, h.symm⟩

theorem Passes.length (h : Passes [] x contents) :
    x.accepted.length = x.delivered.length + contents.length := by
  rw [← List.length_append, ← h, List.nil_append]

end Passes

section Machine

variable {step : σ → ι → σ} {exchange : σ → ι → Exchange α} {contents : σ → List α} {I : σ → Prop}
  {s : σ} {calls : List ι}

def exchangeAll (step : σ → ι → σ) (exchange : σ → ι → Exchange α) : σ → List ι → Exchange α
  | _, [] => .nothing
  | s, c :: calls => (exchange s c).followedBy (exchangeAll step exchange (step s c) calls)

theorem passes_all {allowed : ι → Prop} (keeps : ∀ s c, I s → allowed c → I (step s c))
    (passes : ∀ s c, I s → allowed c → Passes (contents s) (exchange s c) (contents (step s c)))
    (hs : I s) (h : ∀ c ∈ calls, allowed c) :
    I (calls.foldl step s) ∧
      Passes (contents s) (exchangeAll step exchange s calls) (contents (calls.foldl step s)) := by
  induction calls generalizing s with
  | nil => exact ⟨hs, passes_nothing _⟩
  | cons c calls ih =>
    have hc := h c (by simp)
    obtain ⟨final, rest⟩ := ih (keeps s c hs hc) (fun c' hc' => h c' (by simp [hc']))
    exact ⟨final, (passes s c hs hc).followedBy rest⟩

theorem invariant_iff {keeps : σ → ι → Prop} {allowed : ι → Prop}
    (step_iff : ∀ s c, I s → allowed c → (I (step s c) ↔ keeps s c)) (hs : I s)
    (h : ∀ c ∈ calls, allowed c) :
    (∀ earlier later, calls = earlier ++ later → I (earlier.foldl step s)) ↔
      ∀ earlier c later, calls = earlier ++ c :: later → keeps (earlier.foldl step s) c := by
  constructor
  · rintro all earlier c later rfl
    have before := all earlier (c :: later) rfl
    have after := all (earlier ++ [c]) later (by simp)
    rw [List.foldl_append] at after
    exact (step_iff _ c before (h c (by simp))).mp after
  · intro all earlier
    induction earlier using List.reverseRecOn with
    | nil => exact fun _ _ => hs
    | append_singleton earlier c ih =>
      rintro later rfl
      have before := ih (c :: later) (by simp)
      rw [List.foldl_append]
      exact (step_iff _ c before (h c (by simp))).mpr (all earlier c later (by simp))

end Machine

end LightModem.Fifo
