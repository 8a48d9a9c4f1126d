import RefractContracts.Host.Storage
import RefractContracts.Payments.System

/-! Payments and screening. A grant and a payout are created for an allowed recipient
only, and a payment request for anyone; none of the three is screened again when it is
paid. So a payment is screened or not by what was recorded before it. -/

namespace RefractContracts.Treasury

open Host

variable {Address : Type} [DecidableEq Address] {contract : Address} {w w' : World Address}
  {op : Op Address} {out : ℤ}

theorem Effect.screening (e : Effect contract w w' op out) :
    w'.recipientStatusEntry = written w.recipientStatusEntry op.screens := by
  cases e with
  | screened kind => rw [kind]; rfl
  | @appraised op _ _ _ _ kind =>
    have hnone : op.screens = none := by
      cases op with
      | registerAssetFeed | deregisterAssetFeed | takeNavSnapshot => rfl
      | _ => cases kind
    rw [hnone]
    rfl
  | _ => rfl

end RefractContracts.Treasury

namespace RefractContracts.Grants

open Host

variable {Address : Type} [DecidableEq Address] {self : Address} {w w' : World Address}
  {op : Op Address} {out : ℤ} {id : ℕ} {grant' : OnchainGrant Address}

theorem Effect.screening (e : Effect self w w' op out) :
    w'.recipientStatusEntry = written w.recipientStatusEntry op.screens := by
  cases e with
  | screened kind => rw [kind]; rfl
  | _ => rfl

/-- A grant is stored already, or is created for an allowed recipient. -/
theorem Effect.granted (e : Effect self w w' op out) (found : w'.grantEntry id = some grant') :
    (∃ grant, w.grantEntry id = some grant ∧ grant.recipient = grant'.recipient) ∨
      (∃ caller total amounts, op = .createGrant caller grant'.recipient total amounts) ∧
        out = id ∧ w.recipientStatusEntry grant'.recipient = some .allowed := by
  -- a stored grant rewritten for the same recipient
  have rewritten : ∀ {j : ℕ} {grant} (next : OnchainGrant Address), w.grantEntry j = some grant →
      next.recipient = grant.recipient →
      Function.update w.grantEntry j (some next) id = some grant' →
      ∃ grant, w.grantEntry id = some grant ∧ grant.recipient = grant'.recipient := by
    intro j grant next hgrant hsame hnext
    rcases update_eq_some hnext with ⟨rfl, rfl⟩ | ⟨-, hold⟩
    · exact ⟨grant, hgrant, hsame.symm⟩
    · exact ⟨grant', hold, rfl⟩
  cases e with
  | @created caller recipient total amounts governance allowed sum =>
    rcases update_eq_some found with ⟨rfl, rfl⟩ | ⟨-, hold⟩
    · exact .inr ⟨⟨caller, total, amounts, rfl⟩, rfl, allowed⟩
    · exact .inl ⟨grant', hold, rfl⟩
  | @confirmed _ _ index grant milestone governance hgrant =>
    exact .inl (rewritten (grant.confirmed index milestone) hgrant rfl found)
  | @claimed _ _ grant _ _ _ _ hgrant =>
    exact .inl (rewritten grant.settled hgrant rfl found)
  | _ => exact .inl ⟨grant', found, rfl⟩

end RefractContracts.Grants

namespace RefractContracts.Bounty

open Host

variable {Address Hash : Type} [DecidableEq Address] {d d' : Desk Address} {op : Op Address Hash}
  {out : ℤ} {id : ℕ} {record' : PayoutRecord Address}

theorem Screened.screening (s : Screened d d' op out) :
    d'.screening = written d.screening op.screens := by
  cases s with
  | screened => rfl
  | created => rfl
  | settled kind => rw [kind]; rfl
  | idle kind => rw [kind]; rfl

/-- A payout is stored already, or is created for an allowed recipient. -/
theorem Screened.reserved (s : Screened d d' op out) (found : d'.payouts id = some record') :
    (∃ record, d.payouts id = some record ∧ record.recipient = record'.recipient) ∨
      (∃ caller amount deadline, op = .createPayout caller record'.recipient amount deadline) ∧
        out = id ∧ d.screening record'.recipient = some .allowed := by
  cases s with
  | screened => exact .inl ⟨record', found, rfl⟩
  | @created caller recipient token amount deadline j allowed =>
    rcases update_eq_some found with ⟨rfl, rfl⟩ | ⟨-, hold⟩
    · exact .inr ⟨⟨caller, amount, deadline, rfl⟩, rfl, allowed⟩
    · exact .inl ⟨record', hold, rfl⟩
  | @settled op j record status out kind hrecord =>
    rcases update_eq_some found with ⟨rfl, rfl⟩ | ⟨-, hold⟩
    · exact .inl ⟨record, hrecord, rfl⟩
    · exact .inl ⟨record', hold, rfl⟩
  | idle => exact .inl ⟨record', found, rfl⟩

end RefractContracts.Bounty

namespace RefractContracts.Payments

open Host

variable {Address Hash : Type}

/-! ### The allowlists over a run -/

/-- Whether the contract has recorded the address as allowed. -/
def allowed (w : World Address Hash) : Office × Address → Bool
  | (.treasury, a) => w.treasury.recipientStatusEntry a = some .allowed
  | (.grants, a) => w.grants.recipientStatusEntry a = some .allowed
  | (.bounty, a) => w.bounty.recipientStatusEntry a = some .allowed

/-- The address a transaction screens, and whether it is allowed from then on. -/
def Transaction.screens : Transaction Address Hash → Option ((Office × Address) × Bool)
  | .treasury tx => tx.op.screens.map fun c => ((.treasury, c.1), c.2 = some .allowed)
  | .grants tx => tx.op.screens.map fun c => ((.grants, c.1), c.2 = some .allowed)
  | .bounty tx => tx.op.screens.map fun c => ((.bounty, c.1), c.2 = some .allowed)

section Allowlists
variable [DecidableEq Address]

/-- What a transaction writes about one address in one contract. -/
def Transaction.screening (tx : Transaction Address Hash) (p : Office × Address) : Option Bool :=
  tx.screens.bind fun c => if c.1 = p then some c.2 else none

/-- A transaction that writes the records of one contract screens what it writes there. -/
theorem screening_of_written {S : Type} [DecidableEq S] {w w' : World Address Hash}
    {tx : Transaction Address Hash} (o : Office) {f : Address → Option S}
    {c : Option (Address × Option S)} {good : S}
    (hscreens : tx.screens = c.map fun c => ((o, c.1), decide (c.2 = some good)))
    (hpre : ∀ a, allowed w (o, a) = decide (f a = some good))
    (hpost : ∀ a, allowed w' (o, a) = decide (written f c a = some good))
    (hother : ∀ o' a, o' ≠ o → allowed w' (o', a) = allowed w (o', a)) (p : Office × Address) :
    allowed w' p = (tx.screening p).getD (allowed w p) := by
  obtain ⟨o', a⟩ := p
  rw [Transaction.screening, hscreens]
  by_cases ho : o' = o
  · subst ho
    rw [hpre, hpost]
    rcases c with _ | ⟨k, entry⟩
    · rfl
    · by_cases hk : k = a
      · subst hk
        simp [written]
      · simp [written, hk, Ne.symm hk]
  · rw [hother o' a ho]
    rcases c with _ | ⟨k, entry⟩
    · rfl
    · simp [Ne.symm ho]

variable [DecidableEq Hash] {H : Bounty.Helpers Address Hash} {sites : Sites Address}
  {w w' : World Address Hash} {tx : Transaction Address Hash} {out : ℤ}

/-- Only a transaction that screens an address changes whether it is allowed. -/
theorem step_allowed (hH : H.Screens) (h : step H sites w tx = .ok (w', out))
    (p : Office × Address) : allowed w' p = (tx.screening p).getD (allowed w p) := by
  cases tx with
  | treasury tx =>
    simp only [step, bind_eq_ok, embed_eq_ok, pure_eq_ok, Prod.exists, Prod.mk.injEq] at h
    obtain ⟨t, _, ht, rfl, -⟩ := h
    have hscreening := (Treasury.step_effect ht).screening
    refine screening_of_written .treasury rfl (fun _ => rfl) (fun a => ?_) (fun o' a ho => ?_) p
    · rw [← hscreening]
      rfl
    · cases o' with
      | treasury => exact absurd rfl ho
      | grants => rfl
      | bounty => rfl
  | grants tx =>
    simp only [step, bind_eq_ok, embed_eq_ok, pure_eq_ok, Prod.exists, Prod.mk.injEq] at h
    obtain ⟨g, _, hg, rfl, -⟩ := h
    have hscreening := (Grants.step_effect hg).screening
    refine screening_of_written .grants rfl (fun _ => rfl) (fun a => ?_) (fun o' a ho => ?_) p
    · rw [← hscreening]
      rfl
    · cases o' with
      | grants => exact absurd rfl ho
      | treasury => rfl
      | bounty => rfl
  | bounty tx =>
    simp only [step, bind_eq_ok, embed_eq_ok, pure_eq_ok, Prod.exists, Prod.mk.injEq] at h
    obtain ⟨b, _, hb, rfl, -⟩ := h
    have hscreening : b.recipientStatusEntry =
        written w.bounty.recipientStatusEntry tx.op.screens :=
      (Bounty.step_screened hH hb).screening
    refine screening_of_written .bounty rfl (fun _ => rfl) (fun a => ?_) (fun o' a ho => ?_) p
    · rw [← hscreening]
      rfl
    · cases o' with
      | bounty => exact absurd rfl ho
      | treasury => rfl
      | grants => rfl

end Allowlists

/-! ### Promised payments -/

/-- The recipient of a stored grant or payout. -/
def promised (w : World Address Hash) : Office → ℕ → Option Address
  | .treasury, _ => none
  | .grants, id => (w.grants.grantEntry id).map (·.recipient)
  | .bounty, id => (w.bounty.payoutEntry id).map (·.recipient)

/-- The contract in which a transaction creates a grant or a payout. -/
def Transaction.creates : Transaction Address Hash → Option Office
  | .grants ⟨_, .createGrant ..⟩ => some .grants
  | .bounty ⟨_, .createPayout ..⟩ => some .bounty
  | _ => none

abbrev PaymentReceipt (Address Hash : Type) :=
  Receipt (World Address Hash) (Transaction Address Hash) ℤ

/-- The transaction created the grant or payout with this id. -/
def Creates (x : PaymentReceipt Address Hash) (o : Office) (id : ℕ) : Prop :=
  x.call.creates = some o ∧ x.out = id

/-- A recipient is promised a payment already, or is allowed when the promise is made. -/
theorem step_promised [DecidableEq Address] [DecidableEq Hash] {H : Bounty.Helpers Address Hash}
    {sites : Sites Address} (hH : H.Screens) {x : PaymentReceipt Address Hash}
    (h : step H sites x.pre x.call = .ok (x.post, x.out))
    {o : Office} {id : ℕ} {a : Address} (hp : promised x.post o id = some a) :
    promised x.pre o id = some a ∨ Creates x o id ∧ allowed x.pre (o, a) = true := by
  obtain ⟨w, tx, out, w'⟩ := x
  cases tx with
  | treasury tx =>
    simp only [step, bind_eq_ok, embed_eq_ok, pure_eq_ok, Prod.exists, Prod.mk.injEq] at h
    obtain ⟨t, _, ht, rfl, -⟩ := h
    cases o with
    | treasury => cases hp
    | grants => exact .inl hp
    | bounty => exact .inl hp
  | grants tx =>
    simp only [step, bind_eq_ok, embed_eq_ok, pure_eq_ok, Prod.exists, Prod.mk.injEq] at h
    obtain ⟨g, _, hg, rfl, rfl⟩ := h
    cases o with
    | treasury => cases hp
    | bounty => exact .inl hp
    | grants =>
      obtain ⟨grant', hfound, rfl⟩ := Option.map_eq_some_iff.mp hp
      rcases (Grants.step_effect hg).granted hfound with
        ⟨grant, hgrant, hsame⟩ | ⟨⟨caller, total, amounts, hop⟩, hid, hallowed⟩
      · exact .inl (Option.map_eq_some_iff.mpr ⟨grant, hgrant, hsame⟩)
      · refine .inr ⟨⟨?_, hid⟩, decide_eq_true hallowed⟩
        obtain ⟨signers, op⟩ := tx
        obtain rfl : op = .createGrant caller grant'.recipient total amounts := hop
        rfl
  | bounty tx =>
    simp only [step, bind_eq_ok, embed_eq_ok, pure_eq_ok, Prod.exists, Prod.mk.injEq] at h
    obtain ⟨b, _, hb, rfl, rfl⟩ := h
    cases o with
    | treasury => cases hp
    | grants => exact .inl hp
    | bounty =>
      obtain ⟨record', hfound, rfl⟩ := Option.map_eq_some_iff.mp hp
      rcases (Bounty.step_screened hH hb).reserved hfound with
        ⟨record, hrecord, hsame⟩ | ⟨⟨caller, amount, deadline, hop⟩, hid, hallowed⟩
      · exact .inl (Option.map_eq_some_iff.mpr ⟨record, hrecord, hsame⟩)
      · refine .inr ⟨⟨?_, hid⟩, decide_eq_true hallowed⟩
        obtain ⟨signers, op⟩ := tx
        obtain rfl : op = .createPayout caller record'.recipient amount deadline := hop
        rfl

/-- The transaction pays the address: a request of the treasury that is executed, a
grant with something left after the fee, or a payout. -/
inductive Pays (x : PaymentReceipt Address Hash) : Office → ℕ → Address → Prop
  | request {signers caller id request}
      (call : x.call = .treasury ⟨signers, .executePaymentRequest caller id⟩)
      (found : x.pre.treasury.requestEntry id = some request) : Pays x .treasury id request.payee
  | grant {signers recipient id} (call : x.call = .grants ⟨signers, .claim recipient id⟩)
      (paid : 0 < x.out) : Pays x .grants id recipient
  | payout {signers recipient id} (call : x.call = .bounty ⟨signers, .claim recipient id⟩) :
      Pays x .bounty id recipient

def Sites.site (sites : Sites Address) : Office → Address
  | .treasury => sites.treasury
  | .grants => sites.grants
  | .bounty => sites.bounty

section Paying
variable [DecidableEq Address] [DecidableEq Hash] {H : Bounty.Helpers Address Hash}
  {sites : Sites Address} {x : PaymentReceipt Address Hash} {o : Office} {id : ℕ} {a : Address}

/-- A payment is a transfer from the contract to the address. -/
theorem Pays.transfer (hp : Pays x o id a) (h : step H sites x.pre x.call = .ok (x.post, x.out)) :
    ∃ token amount ledger, (x.pre.treasury.tokens token).Moved ledger (sites.site o) a amount ∧
      x.post.treasury.tokens = Function.update x.pre.treasury.tokens token ledger := by
  obtain ⟨w, tx, out, w'⟩ := x
  cases hp with
  | @request signers caller id request call found =>
    obtain rfl : tx = .treasury ⟨signers, .executePaymentRequest caller id⟩ := call
    simp only [step, bind_eq_ok, embed_eq_ok, pure_eq_ok, Prod.exists, Prod.mk.injEq] at h
    obtain ⟨t, _, ht, rfl, -⟩ := h
    have e := Treasury.step_effect ht
    cases e with
    | executed admin found' other status moved =>
      obtain rfl := Option.some.inj (found'.symm.trans found)
      exact ⟨_, _, _, moved, rfl⟩
    | screened kind => cases kind
    | appraised kind => cases kind
  | @grant signers _ _ call paid =>
    obtain rfl : tx = .grants ⟨signers, .claim a id⟩ := call
    simp only [step, bind_eq_ok, embed_eq_ok, pure_eq_ok, Prod.exists, Prod.mk.injEq] at h
    obtain ⟨g, _, hg, rfl, rfl⟩ := h
    have e := Grants.step_effect hg
    rw [← w.grants_tokens]
    cases e with
    | claimed found own due stored split fee_nonneg paid' =>
      rcases paid' with ⟨hnone, -⟩ | ⟨-, ledger, moved, htokens⟩
      · exact absurd hnone paid.ne'
      · exact ⟨_, _, _, moved, htokens⟩
    | screened kind => cases kind
  | @payout signers _ _ call =>
    obtain rfl : tx = .bounty ⟨signers, .claim a id⟩ := call
    simp only [step, bind_eq_ok, embed_eq_ok, pure_eq_ok, Prod.exists, Prod.mk.injEq] at h
    obtain ⟨b, _, hb, rfl, -⟩ := h
    rw [← w.bounty_tokens]
    simp only [Bounty.step, Bounty.claim, Bounty.settlePayout, bind_eq_ok, pure_eq_ok,
      Prod.mk.injEq] at hb
    obtain ⟨-, -, _, -, -, -, -, -, _, -, _, -, _, -, _, -, _, hpaid, rfl, -⟩ := hb
    obtain ⟨ledger, moved, rfl⟩ := Bounty.transferToken_ok hpaid
    exact ⟨_, _, ledger, moved, rfl⟩

/-- What a grant or a payout pays was promised to the address. -/
theorem Pays.promised (hp : Pays x o id a) (ho : o ≠ .treasury)
    (h : step H sites x.pre x.call = .ok (x.post, x.out)) : promised x.pre o id = some a := by
  obtain ⟨w, tx, out, w'⟩ := x
  cases hp with
  | request => exact absurd rfl ho
  | @grant signers _ _ call paid =>
    obtain rfl : tx = .grants ⟨signers, .claim a id⟩ := call
    simp only [step, bind_eq_ok, embed_eq_ok, pure_eq_ok, Prod.exists, Prod.mk.injEq] at h
    obtain ⟨g, _, hg, -, -⟩ := h
    have e := Grants.step_effect hg
    cases e with
    | claimed found own => exact Option.map_eq_some_iff.mpr ⟨_, found, own⟩
    | screened kind => cases kind
  | @payout signers _ _ call =>
    obtain rfl : tx = .bounty ⟨signers, .claim a id⟩ := call
    simp only [step, bind_eq_ok, embed_eq_ok, pure_eq_ok, Prod.exists, Prod.mk.injEq] at h
    obtain ⟨b, _, hb, -, -⟩ := h
    simp only [Bounty.step, Bounty.claim, bind_eq_ok, okOr_eq_ok, bail_eq_ok, not_not] at hb
    obtain ⟨-, -, record, hfound, -, hown, -⟩ := hb
    exact Option.map_eq_some_iff.mpr ⟨record, hfound, hown⟩

end Paying

/-! ### Runs -/

section Runs
variable [DecidableEq Address] [DecidableEq Hash]

omit [DecidableEq Address] [DecidableEq Hash] in
/-- Every payment goes to an address that the contract that pays has recorded as allowed. -/
def PaysScreened (h : List (PaymentReceipt Address Hash)) : Prop :=
  ∀ x ∈ h, ∀ o id a, Pays x o id a → allowed x.pre (o, a) = true

omit [DecidableEq Hash] in
/-- What the history before a payment says about its payee. The last screening of the
payee of a request allowed it; no screening of a recipient since the creation of the
grant or payout was a block or a removal, unless a later one allowed the recipient
again. -/
def Cleared (g : List (PaymentReceipt Address Hash)) (o : Office) (id : ℕ) (a : Address) : Prop :=
  match o with
  | .treasury => lastWrite Transaction.screening g (.treasury, a) = some true
  | o => ∀ g₁ y g₂, g = g₁ ++ y :: g₂ → Creates y o id →
      lastWrite Transaction.screening g₂ (o, a) ≠ some false

omit [DecidableEq Address] [DecidableEq Hash] in
/-- Every promise was made by a creation that found the recipient allowed. -/
def Kept (h : List (PaymentReceipt Address Hash)) (w : World Address Hash) : Prop :=
  ∀ o id a, promised w o id = some a →
    ∃ g y l, h = g ++ y :: l ∧ Creates y o id ∧ allowed y.pre (o, a) = true

omit [DecidableEq Hash] in
theorem Creates.screening {x : PaymentReceipt Address Hash} {o : Office} {id : ℕ}
    (hc : Creates x o id) (p : Office × Address) : x.call.screening p = none := by
  obtain ⟨w, tx, out, w'⟩ := x
  obtain ⟨hcreates, -⟩ := hc
  cases tx with
  | treasury tx => cases hcreates
  | grants tx =>
    obtain ⟨signers, op⟩ := tx
    cases op with
    | createGrant => rfl
    | _ => cases hcreates
  | bounty tx =>
    obtain ⟨signers, op⟩ := tx
    cases op with
    | createPayout => rfl
    | _ => cases hcreates

variable {H : Bounty.Helpers Address Hash} {sites : Sites Address} {s t : World Address Hash}
  {g : List (PaymentReceipt Address Hash)}

theorem allowed_trace (hH : H.Screens) (tr : Trace (step H sites) s g t) (p : Office × Address) :
    allowed t p = (lastWrite Transaction.screening g p).getD (allowed s p) := by
  have law : ∀ x : PaymentReceipt Address Hash, step H sites x.pre x.call = .ok (x.post, x.out) →
      ∀ p, allowed x.post p = (x.call.screening p).getD (allowed x.pre p) :=
    fun _ accepted => step_allowed hH accepted
  exact tr.read_lastWrite law p

theorem kept_step (hH : H.Screens) (h : List (PaymentReceipt Address Hash))
    (x : PaymentReceipt Address Hash) (accepted : step H sites x.pre x.call = .ok (x.post, x.out))
    (k : Kept h x.pre) : Kept (h ++ [x]) x.post := by
  intro o id a hp
  rcases step_promised hH accepted hp with hpre | ⟨hcreates, hallowed⟩
  · obtain ⟨g, y, l, rfl, hc, ha⟩ := k o id a hpre
    exact ⟨g, y, l ++ [x], by simp, hc, ha⟩
  · exact ⟨h, x, [], rfl, hcreates, hallowed⟩

/-- A payment finds the payee allowed exactly if the history cleared it. -/
theorem Pays.allowed_iff {x : PaymentReceipt Address Hash} {o : Office} {id : ℕ} {a : Address}
    (hH : H.Screens) (hp : Pays x o id a) (tr : Trace (step H sites) s g x.pre)
    (hs : ∀ p, allowed s p = false) (hk : Kept [] s)
    (accepted : step H sites x.pre x.call = .ok (x.post, x.out)) :
    allowed x.pre (o, a) = true ↔ Cleared g o id a := by
  by_cases ho : o = .treasury
  · subst ho
    rw [allowed_trace hH tr, hs, Cleared]
    cases lastWrite Transaction.screening g (Office.treasury, a) <;> simp
  · have hcleared : Cleared g o id a ↔ ∀ g₁ y g₂, g = g₁ ++ y :: g₂ → Creates y o id →
        lastWrite Transaction.screening g₂ (o, a) ≠ some false := by
      cases o with
      | treasury => exact absurd rfl ho
      | _ => exact Iff.rfl
    rw [hcleared]
    constructor
    · rintro hallowed g₁ y g₂ rfl - hlast
      rw [allowed_trace hH tr.at_receipt.2.2, hlast] at hallowed
      cases hallowed
    · intro hsince
      obtain ⟨g₁, y, g₂, rfl, hcreates, hcreated⟩ :=
        tr.history (I := Kept) (fun h x => kept_step hH h x) hk o id a (hp.promised ho accepted)
      obtain ⟨-, hy, tail⟩ := tr.at_receipt
      have hpost : allowed y.post (o, a) = true := by
        rw [step_allowed hH hy, hcreates.screening]
        exact hcreated
      rw [allowed_trace hH tail, hpost]
      have hlast := hsince g₁ y g₂ rfl hcreates
      cases h : lastWrite Transaction.screening g₂ (o, a) with
      | none => rfl
      | some b =>
        rw [h] at hlast
        exact Bool.eq_true_of_not_eq_false fun hb => hlast (congrArg some hb)

/-- Every payment finds its payee allowed by the contract that pays, exactly in the
runs in which the screenings before each payment clear the payee. -/
theorem paid_allowed_iff (H : Bounty.Helpers Address Hash) (hH : H.Screens) (sites : Sites Address)
    (now sequence : ℕ) (tokens : Address → Token Address)
    (prices : Address → Symbol → Option (ℤ × ℕ)) (feeRates : Address → Option ℕ)
    (txs : List (Transaction Address Hash)) :
    let r := run (step H sites) (deployed Hash now sequence tokens prices feeRates) txs
    PaysScreened r.2 ↔
      ∀ g x l, r.2 = g ++ x :: l → ∀ o id a, Pays x o id a → Cleared g o id a := by
  intro r
  have tr := run_trace (step H sites) (deployed Hash now sequence tokens prices feeRates) txs
  have hs : ∀ p : Office × Address,
      allowed (deployed Hash now sequence tokens prices feeRates) p = false := by
    rintro ⟨_ | _ | _, a⟩ <;> rfl
  have hk : Kept [] (deployed Hash now sequence tokens prices feeRates) := by
    rintro (_ | _ | _) id a hp <;> cases hp
  -- each payment of the run, with the history before it
  have one : ∀ g x l, r.2 = g ++ x :: l → ∀ o id a, Pays x o id a →
      (allowed x.pre (o, a) = true ↔ Cleared g o id a) := by
    intro g x l hsplit o id a hp
    obtain ⟨before, accepted, -⟩ := (hsplit ▸ tr : Trace _ _ (g ++ x :: l) _).at_receipt
    exact hp.allowed_iff hH before hs hk accepted
  constructor
  · intro hpaid g x l hsplit o id a hp
    exact (one g x l hsplit o id a hp).mp (hpaid x (by simp [hsplit]) o id a hp)
  · intro hcleared x hx o id a hp
    obtain ⟨g, l, hsplit⟩ := List.append_of_mem hx
    exact (one g x l hsplit o id a hp).mpr (hcleared g x l hsplit o id a hp)

end Runs

/-- Each contract is about to pay address 3: the treasury by a request, the grants and
the escrow by a claim, after the creation found the address allowed. Then it is blocked. -/
def blockedPayee : Office → List (Transaction ℕ ℕ)
  | .treasury =>
    [.treasury ⟨[1], .initializeContract 1⟩, .treasury ⟨[2], .submitPaymentRequest 2 3 9 200 0⟩,
      .treasury ⟨[1], .approvePaymentRequest 1 0⟩, .treasury ⟨[1], .blockRecipient 1 3⟩]
  | .grants =>
    [.grants ⟨[1], .initializeContract 1 9⟩, .grants ⟨[1], .allowRecipient 1 3⟩,
      .grants ⟨[1], .createGrant 1 3 100 [100]⟩, .grants ⟨[1], .confirmMilestone 1 0 0⟩,
      .grants ⟨[1], .blockRecipient 1 3⟩]
  | .bounty =>
    [.bounty ⟨[], .initializeContract 1 9⟩, .bounty ⟨[2], .fund 2 500⟩,
      .bounty ⟨[], .screen 3 (some .allowed)⟩, .bounty ⟨[1], .createPayout 1 3 100 50⟩,
      .bounty ⟨[], .screen 3 (some .blocked)⟩]

/-- The call that pays. -/
def blockedPayment : Office → Transaction ℕ ℕ
  | .treasury => .treasury ⟨[1], .executePaymentRequest 1 0⟩
  | .grants => .grants ⟨[3], .claim 3 0⟩
  | .bounty => .bounty ⟨[3], .claim 3 0⟩

/-- Token 9 of a treasury at 100, grants at 101 and an escrow at 102. -/
def fundedOffices : World ℕ ℕ :=
  deployed ℕ 0 0 (fun _ => ((Token.empty.mint 100 1000).mint 101 1000).mint 2 1000)
    (fun _ _ => none) fun _ => none

abbrev offices : Sites ℕ := ⟨100, 101, 102⟩

theorem blockedPayee_unscreened (o : Office) :
    ¬ PaysScreened (run (step (Bounty.storedHelpers id) offices) fundedOffices
      (blockedPayee o ++ [blockedPayment o])).2 := by
  intro hscreened
  let w := (run (step (Bounty.storedHelpers id) offices) fundedOffices (blockedPayee o)).1
  have hout :
      ((step (Bounty.storedHelpers id) offices w (blockedPayment o)).toOption.map Prod.snd) =
        some (if o = .treasury then 0 else 100) := by
    cases o <;> decide +kernel
  have hblocked : allowed w (o, 3) = false := by
    cases o <;> decide +kernel
  cases haccepted : step (Bounty.storedHelpers id) offices w (blockedPayment o) with
  | error e =>
    rw [haccepted] at hout
    cases hout
  | ok wo =>
    obtain ⟨w', out⟩ := wo
    rw [haccepted] at hout
    have hpaid : out = if o = .treasury then 0 else 100 := Option.some.inj hout
    have hpays : Pays ⟨w, blockedPayment o, out, w'⟩ o 0 3 := by
      cases o with
      | treasury =>
        have hpayee : (w.treasury.requestEntry 0).map (·.payee) = some 3 := by decide +kernel
        obtain ⟨request, found, hpayee⟩ := Option.map_eq_some_iff.mp hpayee
        exact hpayee ▸ .request rfl found
      | grants => exact .grant rfl (hpaid ▸ by decide : 0 < out)
      | bounty => exact .payout rfl
    have hallowed := hscreened _ (mem_run_of_accepted haccepted) o 0 3 hpays
    cases hblocked.symm.trans hallowed

/-- Each of the three contracts pays an address it has recorded as blocked. -/
theorem blockedPayee_paid :
    (¬ PaysScreened (run (step (Bounty.storedHelpers id) offices) fundedOffices
        (blockedPayee .treasury ++ [blockedPayment .treasury])).2) ∧
      (¬ PaysScreened (run (step (Bounty.storedHelpers id) offices) fundedOffices
        (blockedPayee .grants ++ [blockedPayment .grants])).2) ∧
      ¬ PaysScreened (run (step (Bounty.storedHelpers id) offices) fundedOffices
        (blockedPayee .bounty ++ [blockedPayment .bounty])).2 :=
  ⟨blockedPayee_unscreened _, blockedPayee_unscreened _, blockedPayee_unscreened _⟩

/-- The grant without the block is cleared and paid. -/
theorem paid_allowed_iff_blockedPayee :
    let r := run (step (Bounty.storedHelpers id) offices) fundedOffices
      ((blockedPayee .grants).dropLast ++ [blockedPayment .grants])
    PaysScreened r.2 ↔
      ∀ g x l, r.2 = g ++ x :: l → ∀ o id a, Pays x o id a → Cleared g o id a :=
  paid_allowed_iff _ (Bounty.storedHelpers_screens id) _ _ _ _ _ _ _

end RefractContracts.Payments
