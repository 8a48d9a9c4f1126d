import RefractContracts.Host.Outcome
import RefractContracts.Host.Total

/-! The balances of one token. A transfer moves exactly its amount; it traps on
a negative amount, on an overdraw and on a credit that leaves the `i128` range. -/

namespace RefractContracts.Host

/-- Token balances; none is negative. -/
structure Token (A : Type*) where
  balance : A → ℤ
  nonneg : ∀ a, 0 ≤ balance a

namespace Token

variable {A : Type} [DecidableEq A]

def empty : Token A := ⟨fun _ => 0, fun _ => le_rfl⟩

/-- The balances after the debit of `src` and the credit of `dst`. -/
def move (balance : A → ℤ) (src dst : A) (amount : ℤ) : A → ℤ :=
  let debited := Function.update balance src (balance src - amount)
  Function.update debited dst (debited dst + amount)

theorem move_nonneg {balance : A → ℤ} (h : ∀ a, 0 ≤ balance a) {src dst : A} {amount : ℤ}
    (ha : 0 ≤ amount) (hb : amount ≤ balance src) (a : A) : 0 ≤ move balance src dst amount a := by
  have hs := h src
  have hd := h dst
  have hh := h a
  simp only [move, Function.update_apply]
  split_ifs <;> omega

/-- `token.transfer(src, dst, amount)`, once `src` has authorised it. -/
def transfer {ε : Type*} (t : Token A) (src dst : A) (amount : ℤ) : Outcome ε (Token A) :=
  if h : 0 ≤ amount ∧ amount ≤ t.balance src then
    if move t.balance src dst amount dst ≤ maxI128 then
      .ok ⟨move t.balance src dst amount, move_nonneg t.nonneg h.1 h.2⟩
    else .error .trap
  else .error .trap

/-- Credit `amount` new tokens to `a`. -/
def mint (t : Token A) (a : A) (amount : ℕ) : Token A where
  balance := Function.update t.balance a (t.balance a + amount)
  nonneg b := by
    have ha := t.nonneg a
    have hb := t.nonneg b
    simp only [Function.update_apply]
    split_ifs <;> omega

variable {ε : Type*} {t t' : Token A} {src dst : A} {amount : ℤ}

/-- What an accepted transfer did. -/
structure Moved (t t' : Token A) (src dst : A) (amount : ℤ) : Prop where
  nonneg : 0 ≤ amount
  covered : amount ≤ t.balance src
  fits : t'.balance dst ≤ maxI128
  balance : t'.balance = move t.balance src dst amount

theorem transfer_ok (h : (t.transfer src dst amount : Outcome ε (Token A)) = .ok t') :
    Moved t t' src dst amount := by
  unfold transfer at h
  split_ifs at h with hc hf
  obtain rfl := Except.ok.inj h
  exact ⟨hc.1, hc.2, hf, rfl⟩

/-- A transfer between two accounts is refused for these reasons only. -/
theorem exists_transfer (hne : src ≠ dst) :
    (∃ t', (t.transfer src dst amount : Outcome ε (Token A)) = .ok t') ↔
      0 ≤ amount ∧ amount ≤ t.balance src ∧ t.balance dst + amount ≤ maxI128 := by
  have hdst : move t.balance src dst amount dst = t.balance dst + amount := by
    simp [move, Function.update_of_ne hne.symm]
  constructor
  · rintro ⟨t', h⟩
    have moved := transfer_ok h
    have hfits := moved.fits
    rw [moved.balance, hdst] at hfits
    exact ⟨moved.nonneg, moved.covered, hfits⟩
  · rintro ⟨hnonneg, hcovered, hfits⟩
    unfold transfer
    rw [dif_pos ⟨hnonneg, hcovered⟩, if_pos (hdst ▸ hfits)]
    exact ⟨_, rfl⟩

namespace Moved

theorem src_balance (h : Moved t t' src dst amount) (hne : src ≠ dst) :
    t'.balance src = t.balance src - amount := by
  rw [h.balance]
  simp [move, hne]

theorem dst_balance (h : Moved t t' src dst amount) (hne : src ≠ dst) :
    t'.balance dst = t.balance dst + amount := by
  rw [h.balance]
  simp [move, Function.update_of_ne hne.symm]

theorem other_balance (h : Moved t t' src dst amount) {a : A} (hs : a ≠ src) (hd : a ≠ dst) :
    t'.balance a = t.balance a := by
  rw [h.balance]
  simp [move, hs, hd]

/-- An account that does not pay never holds less after a transfer. -/
theorem balance_le (h : Moved t t' src dst amount) {a : A} (hs : a ≠ src) :
    t.balance a ≤ t'.balance a := by
  have := h.nonneg
  by_cases hd : a = dst
  · subst hd
    rw [h.dst_balance hs.symm]
    omega
  · rw [h.other_balance hs hd]

/-- The payer keeps what it does not pay. -/
theorem le_src_balance (h : Moved t t' src dst amount) :
    t.balance src - amount ≤ t'.balance src := by
  have hnonneg := h.nonneg
  by_cases hne : src = dst
  · subst hne
    simp [h.balance, move, hnonneg]
  · rw [h.src_balance hne]

/-- A transfer changes no total. -/
theorem total (h : Moved t t' src dst amount) {n : ℤ} (ht : HasTotal t.balance n) :
    HasTotal t'.balance n := by
  rw [h.balance]
  refine ((ht.update src _).update dst _).congr (fun _ => rfl) ?_
  ring

end Moved

end Token

end RefractContracts.Host
