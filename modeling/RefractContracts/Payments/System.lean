import RefractContracts.Bounty.Screening
import RefractContracts.Grants.Effects
import RefractContracts.Treasury.Effects

/-! The three contracts that pay out of their own balances, next to each other: the
treasury, the grants and the bounty escrow. They share the token contracts and the
ledger time; each keeps an allowlist of its own. -/

namespace RefractContracts.Payments

open Host

inductive Office where
  | treasury
  | grants
  | bounty
  deriving DecidableEq, Repr

/-- The addresses of the three contracts. -/
structure Sites (Address : Type) where
  treasury : Address
  grants : Address
  bounty : Address

/-- The states of the three contracts on one ledger. -/
structure World (Address Hash : Type) where
  treasury : Treasury.World Address
  grants : Grants.World Address
  bounty : Bounty.World Address Hash
  grants_tokens : grants.tokens = treasury.tokens
  bounty_tokens : bounty.tokens = treasury.tokens
  bounty_now : bounty.now = treasury.now

inductive PaymentError where
  | treasury (e : Treasury.TreasuryError)
  | grants (e : Grants.ContractGrantsError)
  | bounty (e : Bounty.BountyError)

inductive Transaction (Address Hash : Type) where
  | treasury (tx : Treasury.Transaction Address)
  | grants (tx : Grants.Transaction Address)
  | bounty (tx : Bounty.Transaction Address Hash)

variable {Address Hash : Type}

/-- The three contracts before their `initialize`. -/
def deployed (Hash : Type) (now sequence : ℕ) (tokens : Address → Token Address)
    (prices : Address → Symbol → Option (ℤ × ℕ)) (feeRates : Address → Option ℕ) :
    World Address Hash where
  treasury := Treasury.deployed now sequence tokens prices
  grants := Grants.deployed tokens feeRates
  bounty := Bounty.deployed Hash now tokens
  grants_tokens := rfl
  bounty_tokens := rfl
  bounty_now := rfl

/-- The treasury is in state `t`, and the others see its ledger. -/
def World.withTreasury (w : World Address Hash) (t : Treasury.World Address) :
    World Address Hash where
  treasury := t
  grants := { w.grants with tokens := t.tokens }
  bounty := { w.bounty with tokens := t.tokens, now := t.now }
  grants_tokens := rfl
  bounty_tokens := rfl
  bounty_now := rfl

def World.withGrants (w : World Address Hash) (g : Grants.World Address) : World Address Hash where
  treasury := { w.treasury with tokens := g.tokens }
  grants := g
  bounty := { w.bounty with tokens := g.tokens }
  grants_tokens := rfl
  bounty_tokens := rfl
  bounty_now := w.bounty_now

def World.withBounty (w : World Address Hash) (b : Bounty.World Address Hash) :
    World Address Hash where
  treasury := { w.treasury with tokens := b.tokens, now := b.now }
  grants := { w.grants with tokens := b.tokens }
  bounty := b
  grants_tokens := rfl
  bounty_tokens := rfl
  bounty_now := rfl

variable [DecidableEq Address] [DecidableEq Hash]

/-- The addresses that authorise a transaction; a contract does not sign. -/
def Sites.signers (sites : Sites Address) (signers : List Address) : List Address :=
  signers.filter (· ∉ [sites.treasury, sites.grants, sites.bounty])

/-- A transaction of one of the contracts. -/
def step (H : Bounty.Helpers Address Hash) (sites : Sites Address) :
    Contract (World Address Hash) (Transaction Address Hash) ℤ PaymentError := fun w tx =>
  match tx with
  | .treasury tx => do
    let (t, out) ← embed .treasury
      (Treasury.step sites.treasury w.treasury { tx with signers := sites.signers tx.signers })
    pure (w.withTreasury t, out)
  | .grants tx => do
    let (g, out) ← embed .grants
      (Grants.step sites.grants w.grants { tx with signers := sites.signers tx.signers })
    pure (w.withGrants g, out)
  | .bounty tx => do
    let (b, out) ← embed .bounty
      (Bounty.step H sites.bounty w.bounty { tx with signers := sites.signers tx.signers })
    pure (w.withBounty b, out)

end RefractContracts.Payments
