import RefractContracts.Host.History

/-! A spending cap per window. A call either opens a window, in which nothing but its own
charge is spent, or adds its charge to what is spent under the cap in force. What is spent
stays within the cap, so the charges of a window stay within the cap that opened it. -/

namespace RefractContracts.Host

universe u v w

variable {σ ρ : Type u} {κ : Type v} {ε : Type w}

/-- The calls that satisfy `Resets` open a window, the others spend from it. -/
structure Metered (C : Contract σ κ ρ ε) (spent cap : σ → ℤ) (charge : Receipt σ κ ρ → ℤ)
    (Resets : Receipt σ κ ρ → Prop) : Prop where
  within : ∀ x : Receipt σ κ ρ, C x.pre x.call = .ok (x.post, x.out) →
    0 ≤ spent x.pre ∧ spent x.pre ≤ cap x.pre → 0 ≤ spent x.post ∧ spent x.post ≤ cap x.post
  opens : ∀ x : Receipt σ κ ρ, C x.pre x.call = .ok (x.post, x.out) → Resets x →
    spent x.post = charge x
  adds : ∀ x : Receipt σ κ ρ, C x.pre x.call = .ok (x.post, x.out) → ¬ Resets x →
    spent x.post = spent x.pre + charge x ∧ cap x.post = cap x.pre

namespace Metered

variable {C : Contract σ κ ρ ε} {spent cap : σ → ℤ} {charge : Receipt σ κ ρ → ℤ}
  {Resets : Receipt σ κ ρ → Prop} {s t : σ} {g l l' : List (Receipt σ κ ρ)} {x : Receipt σ κ ρ}

theorem within_end (m : Metered C spent cap charge Resets) (tr : Trace C s l t)
    (init : 0 ≤ spent s ∧ spent s ≤ cap s) : 0 ≤ spent t ∧ spent t ≤ cap t :=
  tr.invariant (I := fun s => 0 ≤ spent s ∧ spent s ≤ cap s) m.within init

/-- Without a reset the charges add up under one cap. -/
theorem sum_charges (m : Metered C spent cap charge Resets) (tr : Trace C s l t)
    (hl : ∀ y ∈ l, ¬ Resets y) :
    spent t = spent s + (l.map charge).sum ∧ cap t = cap s ∧ ∀ y ∈ l, cap y.post = cap s := by
  refine tr.history_of (I := fun l t => spent t = spent s + (l.map charge).sum ∧
    cap t = cap s ∧ ∀ y ∈ l, cap y.post = cap s) (fun l x hx accepted ih => ?_) hl
    ⟨by simp, rfl, List.forall_mem_nil _⟩
  obtain ⟨hsum, hcap, hall⟩ := ih
  obtain ⟨hspent, hkept⟩ := m.adds x accepted hx
  have hpost : cap x.post = cap s := hkept.trans hcap
  refine ⟨?_, hpost, forall_mem_snoc hall hpost⟩
  rw [hspent, hsum, List.map_append, List.sum_append, List.map_singleton, List.sum_singleton,
    add_assoc]

/-- Between two resets the charges stay within the cap, which is the same all along. -/
theorem window (m : Metered C spent cap charge Resets) (tr : Trace C s (g ++ x :: l ++ l') t)
    (init : 0 ≤ spent s ∧ spent s ≤ cap s) (hl : ∀ y ∈ l, ¬ Resets y) :
    (∀ y ∈ l, cap y.post = cap x.post) ∧ ((x :: l).map charge).sum ≤ cap x.post := by
  obtain ⟨last, hwindow, -⟩ := tr.split
  obtain ⟨before, accepted, later⟩ := hwindow.at_receipt
  have hpre := m.within_end before init
  have hpost := m.within x accepted hpre
  have hlast := m.within_end later hpost
  obtain ⟨hsum, hcap, hall⟩ := m.sum_charges later hl
  have hfirst : charge x ≤ spent x.post := by
    by_cases hx : Resets x
    · exact (m.opens x accepted hx).ge
    · have hadds := (m.adds x accepted hx).1
      omega
  refine ⟨hall, ?_⟩
  calc ((x :: l).map charge).sum = charge x + (l.map charge).sum := by simp
    _ ≤ spent x.post + (l.map charge).sum := by omega
    _ = spent last := hsum.symm
    _ ≤ cap last := hlast.2
    _ = cap x.post := hcap

end Metered

end RefractContracts.Host
