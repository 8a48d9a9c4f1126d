import RefractContracts.Bounty.Rewards

/-! What an accepted transaction of the escrow does to the screening records and the
payouts. The allowlist is asked when a payout is created and not again when it is
claimed. -/

namespace RefractContracts.Bounty

open Host

variable {Address Hash : Type}

/-- The accessor of the allowlist passes only addresses recorded as allowed. -/
def Helpers.Screens (H : Helpers Address Hash) : Prop :=
  ∀ {w a}, H.isRecipientAllowedInner w a = true → w.recipientStatusEntry a = some .allowed

theorem storedHelpers_screens (sha256 : Hash → Hash) :
    (storedHelpers sha256 : Helpers Address Hash).Screens := fun h => of_decide_eq_true h

/-- The address whose screening an operation changes, with the new record. -/
def Op.screens : Op Address Hash → Option (Address × Option ScreeningStatus)
  | .screen address status => some (address, status)
  | _ => none

/-- The screening records and the payouts. -/
structure Desk (Address : Type) where
  screening : Address → Option ScreeningStatus
  payouts : ℕ → Option (PayoutRecord Address)

def desk (w : World Address Hash) : Desk Address := ⟨w.recipientStatusEntry, w.payoutEntry⟩

/-- The operations that may write the desk. -/
def Op.AtDesk : Op Address Hash → Prop
  | .createPayout .. | .claim .. | .sweepExpired .. | .screen .. => True
  | _ => False

theorem Op.screens_eq_none {op : Op Address Hash} (kind : ¬ op.AtDesk) : op.screens = none := by
  cases op with
  | screen => exact absurd trivial kind
  | _ => rfl

section Screening
variable [DecidableEq Address] [DecidableEq Hash]

/-- The effect of an operation that answers `out` on the desk. -/
inductive Screened (d : Desk Address) : Desk Address → Op Address Hash → ℤ → Prop
  | screened {address status} :
      Screened d { d with screening := Function.update d.screening address status }
        (.screen address status) 0
  | created {caller recipient token amount deadline id}
      (allowed : d.screening recipient = some .allowed) :
      Screened d { d with
          payouts := Function.update d.payouts id
            (some ⟨recipient, token, amount, deadline, .pending⟩) }
        (.createPayout caller recipient amount deadline) (id : ℕ)
  | settled {op id record status out} (kind : op.screens = none)
      (found : d.payouts id = some record) :
      Screened d { d with payouts := Function.update d.payouts id (some { record with status }) }
        op out
  | idle {op out} (kind : op.screens = none) : Screened d d op out

variable {H : Helpers Address Hash} {self : Address} {signers : List Address}
  {w w' : World Address Hash} {out : ℤ}

omit [DecidableEq Address] [DecidableEq Hash] in
/-- The other operations write no entry of the desk. -/
theorem Wrote.desk_eq {op : Op Address Hash} (t : Wrote w op w') (kind : ¬ op.AtDesk) :
    desk w' = desk w := by
  cases t with
  | createPayout | claim | sweepExpired | screen => exact absurd trivial kind
  | _ => rfl

omit [DecidableEq Hash] in
theorem createPayout_screened (hH : H.Screens) {caller recipient : Address} {amount : ℤ}
    {deadline id : ℕ}
    (h : createPayout H signers w caller recipient amount deadline = .ok (w', id)) :
    Screened (desk w) (desk w')
      (.createPayout caller recipient amount deadline : Op Address Hash) id := by
  simp only [createPayout, bind_eq_ok, bail_eq_ok, pure_eq_ok, Prod.mk.injEq] at h
  obtain ⟨_, -, -, -, -, -, -, hallowed, _, -, -, -, _, -, _, -, _, -, token, -, rfl, rfl⟩ := h
  exact .created (hH (by simpa using hallowed))

omit [DecidableEq Hash] in
theorem settlePayout_screened {id : ℕ} {record : PayoutRecord Address} {status : PayoutStatus}
    {dst : Address} {op : Op Address Hash} (kind : op.screens = none)
    (found : w.payoutEntry id = some record)
    (h : settlePayout H self w id record status dst = .ok (w', out)) :
    Screened (desk w) (desk w') op out := by
  obtain ⟨_, _, _, rfl⟩ := settlePayout_writes h
  exact .settled kind found

/-- An accepted transaction has its effect on the desk. -/
theorem step_screened (hH : H.Screens) {tx : Transaction Address Hash}
    (h : step H self w tx = .ok (w', out)) : Screened (desk w) (desk w') tx.op out := by
  by_cases kind : tx.op.AtDesk
  · obtain ⟨signers, op⟩ := tx
    cases op with
    | createPayout caller recipient amount deadline =>
      simp only [step, bind_eq_ok, pure_eq_ok, Prod.exists, Prod.mk.injEq] at h
      obtain ⟨_, id, hc, rfl, rfl⟩ := h
      exact createPayout_screened hH hc
    | claim recipient id =>
      simp only [step, claim, bind_eq_ok, okOr_eq_ok] at h
      obtain ⟨-, -, record, found, -, -, -, -, hs⟩ := h
      exact settlePayout_screened rfl found hs
    | sweepExpired id =>
      simp only [step, sweepExpired, bind_eq_ok, okOr_eq_ok] at h
      obtain ⟨record, found, -, -, -, -, _, -, hs⟩ := h
      exact settlePayout_screened rfl found hs
    | screen address status =>
      simp only [step, pure_eq_ok, Prod.mk.injEq] at h
      obtain ⟨rfl, rfl⟩ := h
      exact .screened
    | _ => exact kind.elim
  · rw [(step_wrote h).desk_eq kind]
    exact .idle (Op.screens_eq_none kind)

end Screening

end RefractContracts.Bounty
