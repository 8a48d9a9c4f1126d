import RefractContracts.Host.Total

/-! A pool of funds with obligations. An obligation reserves its amount until it is
settled, and everything else is paid from what is not reserved. So the reserve is
the total of the open obligations, and the funds cover it. -/

namespace RefractContracts.Host

/-- The funds, the part of them that is reserved, and what is owed for each key. -/
@[ext] structure Escrow (κ : Type*) where
  balance : ℤ
  reserved : ℤ
  owed : κ → ℤ

namespace Escrow

variable {κ : Type*}

def empty : Escrow κ := ⟨0, 0, fun _ => 0⟩

def fund (E : Escrow κ) (amount : ℤ) : Escrow κ := { E with balance := E.balance + amount }

/-- Pay from the unreserved funds. -/
def pay (E : Escrow κ) (amount : ℤ) : Escrow κ := { E with balance := E.balance - amount }

def reserve [DecidableEq κ] (E : Escrow κ) (k : κ) (amount : ℤ) : Escrow κ :=
  { E with reserved := E.reserved + amount, owed := Function.update E.owed k amount }

/-- Pay what is owed for `k`. -/
def settle [DecidableEq κ] (E : Escrow κ) (k : κ) : Escrow κ where
  balance := E.balance - E.owed k
  reserved := E.reserved - E.owed k
  owed := Function.update E.owed k 0

structure Sound (E : Escrow κ) : Prop where
  total : HasTotal E.owed E.reserved
  owed_nonneg : ∀ k, 0 ≤ E.owed k
  covered : E.reserved ≤ E.balance

namespace Sound

variable {E : Escrow κ} {amount : ℤ} {k : κ}

theorem empty : (Escrow.empty : Escrow κ).Sound := ⟨.zero, fun _ => le_rfl, le_rfl⟩

theorem reserved_nonneg (h : E.Sound) : 0 ≤ E.reserved := h.total.nonneg h.owed_nonneg

theorem fund (h : E.Sound) (ha : 0 ≤ amount) : (E.fund amount).Sound := by
  refine ⟨h.total, h.owed_nonneg, ?_⟩
  have hcovered := h.covered
  simp only [Escrow.fund]
  omega

theorem pay (h : E.Sound) (ha : amount ≤ E.balance - E.reserved) : (E.pay amount).Sound := by
  refine ⟨h.total, h.owed_nonneg, ?_⟩
  simp only [Escrow.pay]
  omega

variable [DecidableEq κ]

/-- A new obligation is covered by the unreserved funds. -/
theorem reserve (h : E.Sound) (hk : E.owed k = 0) (hpos : 0 ≤ amount)
    (ha : amount ≤ E.balance - E.reserved) : (E.reserve k amount).Sound where
  total := (h.total.update k amount).congr (fun _ => rfl) (by simp [Escrow.reserve, hk])
  owed_nonneg :=
    (Function.forall_update_iff _ fun _ x => 0 ≤ x).mpr ⟨hpos, fun j _ => h.owed_nonneg j⟩
  covered := by
    simp only [Escrow.reserve]
    omega

theorem settle (h : E.Sound) (k : κ) : (E.settle k).Sound where
  total := (h.total.update k 0).congr (fun _ => rfl) (add_zero _)
  owed_nonneg :=
    (Function.forall_update_iff _ fun _ x => 0 ≤ x).mpr ⟨le_rfl, fun j _ => h.owed_nonneg j⟩
  covered := by
    have hcovered := h.covered
    simp only [Escrow.settle]
    omega

end Sound

/-- One move of the pool, with what it takes in and what it pays. -/
inductive Move [DecidableEq κ] (E : Escrow κ) : Escrow κ → ℤ → ℤ → Prop
  | fund {amount} (pos : 0 ≤ amount) : Move E (E.fund amount) amount 0
  | pay {amount} (free : amount ≤ E.balance - E.reserved) : Move E (E.pay amount) 0 amount
  | reserve {k amount} (fresh : E.owed k = 0) (pos : 0 ≤ amount)
      (free : amount ≤ E.balance - E.reserved) : Move E (E.reserve k amount) 0 0
  | settle {k amount} (owed : E.owed k = amount) : Move E (E.settle k) 0 amount
  | stay : Move E E 0 0

namespace Move

variable [DecidableEq κ] {E E' E'' : Escrow κ} {funded paid : ℤ}

theorem congr (m : Move E E' funded paid) (h : E'' = E') : Move E E'' funded paid := h ▸ m

theorem sound (m : Move E E' funded paid) (h : E.Sound) : E'.Sound := by
  cases m with
  | fund pos => exact h.fund pos
  | pay free => exact h.pay free
  | reserve fresh pos free => exact h.reserve fresh pos free
  | settle => exact h.settle _
  | stay => exact h

theorem balance_eq (m : Move E E' funded paid) : E'.balance = E.balance + funded - paid := by
  cases m with
  | fund => simp [Escrow.fund]
  | pay => simp [Escrow.pay]
  | reserve => simp [Escrow.reserve]
  | settle owed => simp [Escrow.settle, owed]
  | stay => simp

end Move

end Escrow

end RefractContracts.Host
