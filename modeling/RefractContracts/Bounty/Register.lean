import RefractContracts.Bounty.Effects

/-! What decides the payout of a commitment: the time, the payout bindings, the
commitment awards and the frozen addresses. Four entry points write the bindings and
the awards. -/

namespace RefractContracts.Bounty

open Host

variable {Address Hash : Type}

/-- The stored freeze flag of an address. -/
def isFrozen (w : World Address Hash) (a : Address) : Bool := (w.frozenAddressEntry a).getD false

/-- The freeze flags are read as they are stored. -/
def Helpers.ReadsFrozen (H : Helpers Address Hash) : Prop :=
  ∀ w a, H.isAddressFrozen w a = isFrozen w a

theorem storedHelpers_readsFrozen (sha256 : Hash → Hash) :
    (storedHelpers sha256 : Helpers Address Hash).ReadsFrozen := fun _ _ => rfl

structure Register (Address Hash : Type) where
  now : ℕ
  bindings : Hash → Option (PayoutBindingRecord Address)
  awards : Hash → Option (CommitmentAwardRecord Hash)
  frozen : Address → Option Bool

def register (w : World Address Hash) : Register Address Hash :=
  ⟨w.now, w.payoutBindingEntry, w.commitmentAwardEntry, w.frozenAddressEntry⟩

/-- The operations that may write the register. -/
def Op.Turns : Op Address Hash → Prop
  | .registerPayoutAddress .. | .rotatePayoutAddress .. | .awardCommitment ..
  | .claimByCommitment .. | .freezePayoutAddress .. | .advance .. => True
  | _ => False

/-- When a binding made at `now` expires. -/
def expiry (now : ℕ) : ℕ := u64SaturatingAdd now defaultBindingTtlSecs

section Turns
variable [DecidableEq Address] [DecidableEq Hash]

/-- What an accepted transaction that answers `out` does to the register. -/
inductive Turn (sha256 : Hash → Hash) (self : Address) (d : Register Address Hash) :
    Register Address Hash → Transaction Address Hash → ℤ → Prop
  | registered {signers owner preimage payee} (signed : owner ∈ signers) (outside : owner ≠ self)
      (first : d.bindings (sha256 preimage) = none) :
      Turn sha256 self d { d with
          bindings := Function.update d.bindings (sha256 preimage)
            (some ⟨owner, payee, d.now, expiry d.now⟩) }
        ⟨signers, .registerPayoutAddress owner preimage payee⟩ 0
  | rotated {signers preimage payee binding} (signed : binding.owner ∈ signers)
      (found : d.bindings (sha256 preimage) = some binding) (fresh : d.now ≤ binding.expiresAt) :
      Turn sha256 self d { d with
          bindings := Function.update d.bindings (sha256 preimage)
            (some ⟨binding.owner, payee, d.now, expiry d.now⟩) }
        ⟨signers, .rotatePayoutAddress binding.owner preimage payee⟩ 0
  | pledged {signers caller r c amount} (first : d.awards c = none) :
      Turn sha256 self d { d with
          awards := Function.update d.awards c (some ⟨r, c, amount, d.now, .awarded⟩) }
        ⟨signers, .awardCommitment caller r c amount⟩ 0
  | redeemed {signers caller preimage award binding}
      (found : d.awards (sha256 preimage) = some award) (awarded : award.status = .awarded)
      (bound : d.bindings (sha256 preimage) = some binding) (fresh : d.now ≤ binding.expiresAt) :
      Turn sha256 self d { d with
          awards := Function.update d.awards (sha256 preimage)
            (some { award with status := .claimed }) }
        ⟨signers, .claimByCommitment caller preimage⟩ award.amount
  | froze {signers caller address frozen} :
      Turn sha256 self d { d with frozen := Function.update d.frozen address (some frozen) }
        ⟨signers, .freezePayoutAddress caller address frozen⟩ 0
  | advanced {signers seconds} :
      Turn sha256 self d { d with now := d.now + seconds } ⟨signers, .advance seconds⟩ 0
  | idle {signers op out} (kind : ¬ op.Turns) : Turn sha256 self d d ⟨signers, op⟩ out

variable {H : Helpers Address Hash} {self : Address} {signers : List Address}
  {w w' : World Address Hash} {out : ℤ}

omit [DecidableEq Address] [DecidableEq Hash] in
/-- The other operations write no entry of the register. -/
theorem Wrote.register_eq {op : Op Address Hash} (t : Wrote w op w') (kind : ¬ op.Turns) :
    register w' = register w := by
  cases t with
  | registerPayoutAddress | rotatePayoutAddress | awardCommitment | claimByCommitment
  | freezePayoutAddress | advance => exact absurd trivial kind
  | _ => rfl

omit [DecidableEq Address] in
theorem register_adjudicate {r c : Hash} (h : adjudicate w r c = .ok w') :
    register w' = register w := by
  rcases adjudicate_ok h with ⟨-, rfl⟩ | ⟨-, rfl⟩
  · rfl
  · rfl

theorem registerPayoutAddress_turn {owner payee : Address} {preimage : Hash}
    (h : registerPayoutAddress H (signers.filter (· ≠ self)) w owner preimage payee = .ok w') :
    Turn H.hashPreimage self (register w) (register w')
      ⟨signers, .registerPayoutAddress owner preimage payee⟩ 0 := by
  simp only [registerPayoutAddress, bind_eq_ok, requireAuth_eq_ok, bail_eq_ok, pure_eq_ok,
    Option.not_isSome_iff_eq_none, List.mem_filter, decide_eq_true_eq] at h
  obtain ⟨-, signed, _, -, -, -, -, first, rfl⟩ := h
  exact .registered signed.1 signed.2 first

theorem rotatePayoutAddress_turn {owner payee : Address} {preimage : Hash}
    (h : rotatePayoutAddress H (signers.filter (· ≠ self)) w owner preimage payee = .ok w') :
    Turn H.hashPreimage self (register w) (register w')
      ⟨signers, .rotatePayoutAddress owner preimage payee⟩ 0 := by
  simp only [rotatePayoutAddress, bind_eq_ok, requireAuth_eq_ok, bail_eq_ok, okOr_eq_ok, not_not,
    not_lt, pure_eq_ok, List.mem_filter] at h
  obtain ⟨-, signed, _, -, -, -, binding, found, -, fresh, -, rfl, -, -, rfl⟩ := h
  exact .rotated signed.1 found fresh

theorem awardCommitment_turn {caller : Address} {r c : Hash} {amount : ℤ} {txSigners}
    (h : awardCommitment H signers w caller r c amount = .ok w') :
    Turn H.hashPreimage self (register w) (register w')
      ⟨txSigners, .awardCommitment caller r c amount⟩ 0 := by
  simp only [awardCommitment, bind_eq_ok, bail_eq_ok, pure_eq_ok,
    Option.not_isSome_iff_eq_none] at h
  obtain ⟨_, -, -, -, -, -, -, first, v, hv, _, -, -, -, _, -, _, -, rfl⟩ := h
  have hsame := register_adjudicate hv
  have hfirst : (register v).awards c = none := by rw [hsame]; exact first
  rw [← hsame]
  exact .pledged hfirst

theorem claimByCommitment_turn {caller : Address} {preimage : Hash} {txSigners}
    (h : claimByCommitment H self signers w caller preimage = .ok (w', out)) :
    Turn H.hashPreimage self (register w) (register w')
      ⟨txSigners, .claimByCommitment caller preimage⟩ out := by
  simp only [claimByCommitment, bind_eq_ok, okOr_eq_ok, bail_eq_ok, not_not, not_lt, pure_eq_ok,
    Prod.mk.injEq] at h
  obtain ⟨-, -, _, -, award, found, -, awarded, binding, bound, -, fresh, -, -, -, -, _, -, _, -,
    _, -, _, -, _, -, _, ht, rfl, rfl⟩ := h
  obtain ⟨ledger, -, rfl⟩ := transferToken_ok ht
  exact .redeemed found awarded bound fresh

/-- An accepted transaction has its effect on the register. -/
theorem step_turn {tx : Transaction Address Hash} (h : step H self w tx = .ok (w', out)) :
    Turn H.hashPreimage self (register w) (register w') tx out := by
  by_cases kind : tx.op.Turns
  · obtain ⟨signers, op⟩ := tx
    cases op with
    | registerPayoutAddress owner preimage payee =>
      simp only [step, bind_eq_ok, pure_eq_ok, Prod.mk.injEq] at h
      obtain ⟨_, hr, rfl, rfl⟩ := h
      exact registerPayoutAddress_turn hr
    | rotatePayoutAddress owner preimage payee =>
      simp only [step, bind_eq_ok, pure_eq_ok, Prod.mk.injEq] at h
      obtain ⟨_, hr, rfl, rfl⟩ := h
      exact rotatePayoutAddress_turn hr
    | awardCommitment caller r c amount =>
      simp only [step, bind_eq_ok, pure_eq_ok, Prod.mk.injEq] at h
      obtain ⟨_, ha, rfl, rfl⟩ := h
      exact awardCommitment_turn ha
    | claimByCommitment caller preimage => exact claimByCommitment_turn h
    | freezePayoutAddress caller address frozen =>
      simp only [step, freezePayoutAddress, bind_eq_ok, pure_eq_ok, Prod.mk.injEq] at h
      obtain ⟨_, ⟨_, -, rfl⟩, rfl, rfl⟩ := h
      exact .froze
    | advance seconds =>
      simp only [step, bind_eq_ok, u64_eq_ok, pure_eq_ok, Prod.mk.injEq] at h
      obtain ⟨_, ⟨-, rfl⟩, rfl, rfl⟩ := h
      exact .advanced
    | _ => exact kind.elim
  · rw [(step_wrote h).register_eq kind]
    exact .idle kind

end Turns

end RefractContracts.Bounty
