import RefractContracts.Treasury.Contract

/-! What an accepted transaction of the treasury does. The entry points are unfolded
here; properties of runs are case analyses on these effects. -/

namespace RefractContracts.Treasury

open Host

variable {Address : Type}

/-- The address whose screening an operation changes, with the new record. -/
def Op.screens : Op Address → Option (Address × Option ScreeningStatus)
  | .allowRecipient _ recipient => some (recipient, some .allowed)
  | .blockRecipient _ recipient => some (recipient, some .blocked)
  | .removeRecipient _ recipient => some (recipient, none)
  | _ => none

/-- The operations on the price feeds and the snapshot. -/
def Op.Appraises : Op Address → Prop
  | .registerAssetFeed .. | .deregisterAssetFeed .. | .takeNavSnapshot => True
  | _ => False

variable [DecidableEq Address]

/-- The state after a write of one token's balances. -/
def World.move (w : World Address) (token : Address) (ledger : Token Address) : World Address :=
  { w with tokens := Function.update w.tokens token ledger }

inductive Effect (contract : Address) (w : World Address) : World Address → Op Address → ℤ → Prop
  | initialized {admin} (first : w.adminEntry = none) :
      Effect contract w { w with
          adminEntry := some admin, seededCapitalEntry := some 0, trackedAssetsEntry := some [] }
        (.initializeContract admin) 0
  | oracleSet {caller oracle} (admin : w.adminEntry = some caller) :
      Effect contract w { w with oracleEntry := some oracle } (.setOracle caller oracle) 0
  | backstopSet {caller backstop} (admin : w.adminEntry = some caller) :
      Effect contract w { w with backstopEntry := some backstop } (.setBackstop caller backstop) 0
  | withdrawn {caller token amount dst ledger} (admin : w.adminEntry = some caller)
      (pos : 0 < amount) (allowed : w.recipientStatusEntry dst = some .allowed)
      (moved : (w.tokens token).Moved ledger contract dst amount) :
      Effect contract w (w.move token ledger) (.withdraw caller token amount dst) 0
  | screened {op recipient status} (kind : op.screens = some (recipient, status)) :
      Effect contract w { w with
          recipientStatusEntry := Function.update w.recipientStatusEntry recipient status } op 0
  | appraised {op feeds tracked snapshot out} (kind : op.Appraises) :
      Effect contract w { w with
          assetFeedEntry := feeds, trackedAssetsEntry := tracked
          latestSnapshotEntry := snapshot } op out
  | seeded {caller token amount backstop ledger} (admin : w.adminEntry = some caller)
      (pos : 0 < amount) (configured : w.backstopEntry = some backstop)
      (moved : (w.tokens token).Moved ledger contract backstop amount) :
      Effect contract w { w.move token ledger with
          seededCapitalEntry := some (seededCapital w + amount) }
        (.seedBackstop caller token amount) 0
  | recalled {caller token amount backstop ledger} (admin : w.adminEntry = some caller)
      (pos : 0 < amount) (within : amount ≤ seededCapital w)
      (configured : w.backstopEntry = some backstop)
      (moved : (w.tokens token).Moved ledger backstop contract amount) :
      Effect contract w { w.move token ledger with
          seededCapitalEntry := some (seededCapital w - amount) }
        (.recallSeed caller token amount) 0
  | submitted {requester payee token amount purposeHash} (pos : 0 < amount) :
      Effect contract w { saveRequest w
            ⟨w.nextRequestIdEntry.getD 0, requester, payee, token, amount, purposeHash, .submitted,
              none, w.now⟩ with
          nextRequestIdEntry := some (w.nextRequestIdEntry.getD 0 + 1) }
        (.submitPaymentRequest requester payee token amount purposeHash)
        (w.nextRequestIdEntry.getD 0 : ℕ)
  | approved {approver id request} (admin : w.adminEntry = some approver)
      (found : w.requestEntry id = some request) (other : request.requester ≠ approver)
      (status : request.status = .submitted) :
      Effect contract w
        (saveRequest w { request with status := .approved, approver := some approver })
        (.approvePaymentRequest approver id) 0
  | rejected {approver id request} (admin : w.adminEntry = some approver)
      (found : w.requestEntry id = some request) (status : request.status = .submitted) :
      Effect contract w (saveRequest w { request with status := .rejected })
        (.rejectPaymentRequest approver id) 0
  | cancelled {id request} (found : w.requestEntry id = some request)
      (status : request.status = .submitted) :
      Effect contract w (saveRequest w { request with status := .cancelled })
        (.cancelPaymentRequest request.requester id) 0
  | executed {caller id request ledger} (admin : w.adminEntry = some caller)
      (found : w.requestEntry id = some request) (other : request.requester ≠ caller)
      (status : request.status = .approved)
      (moved : (w.tokens request.token).Moved ledger contract request.payee request.amount) :
      Effect contract w { (saveRequest w { request with status := .executed }).move request.token
            ledger with reentrancyLock := false }
        (.executePaymentRequest caller id) 0
  | advanced {seconds ledgers} :
      Effect contract w { w with now := w.now + seconds, sequence := w.sequence + ledgers }
        (.advance seconds ledgers) 0
  | priced {oracle feedId answer} :
      Effect contract w { w with
          prices := Function.update w.prices oracle
            (Function.update (w.prices oracle) feedId answer) }
        (.setPrice oracle feedId answer) 0
  | transferred {token src dst amount ledger} (outside : src ≠ contract)
      (moved : (w.tokens token).Moved ledger src dst amount) :
      Effect contract w (w.move token ledger) (.transfer token src dst amount) 0

variable {contract : Address} {signers : List Address} {w w' : World Address} {out : ℤ}

theorem requireAdmin_ok {caller : Address} {u : Unit} (h : requireAdmin signers w caller = .ok u) :
    w.adminEntry = some caller := by
  simp only [requireAdmin, bind_eq_ok, okOr_eq_ok, bail_eq_ok, not_not] at h
  obtain ⟨-, -, admin, hadmin, rfl⟩ := h
  exact hadmin

theorem transferToken_ok {token src dst : Address} {amount : ℤ}
    (h : transferToken w token src dst amount = .ok w') :
    ∃ ledger, (w.tokens token).Moved ledger src dst amount ∧ w' = w.move token ledger := by
  simp only [transferToken, bind_eq_ok, pure_eq_ok] at h
  obtain ⟨ledger, hmoved, rfl⟩ := h
  exact ⟨ledger, Token.transfer_ok hmoved, rfl⟩

theorem withdraw_ok {caller token dst : Address} {amount : ℤ}
    (h : withdraw contract signers w caller token amount dst = .ok w') :
    Effect contract w w' (.withdraw caller token amount dst) 0 := by
  simp only [withdraw, bind_eq_ok, bail_eq_ok, not_le] at h
  obtain ⟨_, hadmin, -, hpos, -, hallowed, -, -, hpaid⟩ := h
  obtain ⟨ledger, hmoved, rfl⟩ := transferToken_ok hpaid
  exact .withdrawn (requireAdmin_ok hadmin) hpos (by simpa [isAllowedInner] using hallowed) hmoved

theorem screenRecipient_ok {caller recipient : Address} {status : Option ScreeningStatus}
    {op : Op Address} (kind : op.screens = some (recipient, status))
    (h : screenRecipient signers w caller recipient status = .ok w') :
    Effect contract w w' op 0 := by
  simp only [screenRecipient, bind_eq_ok, pure_eq_ok] at h
  obtain ⟨-, -, rfl⟩ := h
  exact .screened kind

theorem registerAssetFeed_ok {caller token : Address} {feedId : Symbol}
    (h : registerAssetFeed signers w caller token feedId = .ok w') :
    Effect contract w w' (.registerAssetFeed caller token feedId) 0 := by
  simp only [registerAssetFeed, bind_eq_ok] at h
  obtain ⟨_, -, -, -, h⟩ := h
  split_ifs at h with htracked
  · obtain rfl := (pure_eq_ok _ _).mp h
    exact .appraised trivial
  · obtain rfl := (pure_eq_ok _ _).mp h
    exact .appraised trivial

theorem seedBackstop_ok {caller token : Address} {amount : ℤ}
    (h : seedBackstop contract signers w caller token amount = .ok w') :
    Effect contract w w' (.seedBackstop caller token amount) 0 := by
  simp only [seedBackstop, bind_eq_ok, bail_eq_ok, okOr_eq_ok, i128_eq_ok, not_le, pure_eq_ok] at h
  obtain ⟨_, hadmin, -, hpos, backstop, hbackstop, -, -, _, hpaid, _, ⟨-, rfl⟩, rfl⟩ := h
  obtain ⟨ledger, hmoved, rfl⟩ := transferToken_ok hpaid
  exact .seeded (requireAdmin_ok hadmin) hpos hbackstop hmoved

theorem recallSeed_ok {caller token : Address} {amount : ℤ}
    (h : recallSeed contract signers w caller token amount = .ok w') :
    Effect contract w w' (.recallSeed caller token amount) 0 := by
  simp only [recallSeed, bind_eq_ok, bail_eq_ok, okOr_eq_ok, i128_eq_ok, not_le, not_lt,
    pure_eq_ok] at h
  obtain ⟨_, hadmin, -, hpos, -, hwithin, backstop, hbackstop, -, -, _, hpaid, _, ⟨-, rfl⟩,
    rfl⟩ := h
  obtain ⟨ledger, hmoved, rfl⟩ := transferToken_ok hpaid
  exact .recalled (requireAdmin_ok hadmin) hpos hwithin hbackstop hmoved

theorem executePaymentRequest_ok {caller : Address} {id : ℕ}
    (h : executePaymentRequest contract signers w caller id = .ok w') :
    Effect contract w w' (.executePaymentRequest caller id) 0 := by
  simp only [executePaymentRequest, acquireReentrancyGuard, loadRequest, bind_eq_ok, bail_eq_ok,
    okOr_eq_ok, not_not, pure_eq_ok] at h
  obtain ⟨_, hadmin, _, ⟨-, -, rfl⟩, request, hfound, -, hother, -, hstatus, _, hpaid, rfl⟩ := h
  obtain ⟨ledger, hmoved, rfl⟩ := transferToken_ok hpaid
  exact .executed (requireAdmin_ok hadmin) hfound hother hstatus hmoved

/-- An accepted transaction has the effect of its entry point. -/
theorem step_effect {tx : Transaction Address} (h : step contract w tx = .ok (w', out)) :
    Effect contract w w' tx.op out := by
  obtain ⟨signers, op⟩ := tx
  cases op with
  | initializeContract admin =>
    simp only [step, initializeContract, bind_eq_ok, bail_eq_ok, pure_eq_ok, Prod.mk.injEq] at h
    obtain ⟨_, ⟨-, hfirst, -, -, rfl⟩, rfl, rfl⟩ := h
    exact .initialized (by simpa using hfirst)
  | setOracle caller oracle =>
    simp only [step, setOracle, bind_eq_ok, pure_eq_ok, Prod.mk.injEq] at h
    obtain ⟨_, ⟨_, hadmin, rfl⟩, rfl, rfl⟩ := h
    exact .oracleSet (requireAdmin_ok hadmin)
  | setBackstop caller backstop =>
    simp only [step, setBackstop, bind_eq_ok, pure_eq_ok, Prod.mk.injEq] at h
    obtain ⟨_, ⟨_, hadmin, rfl⟩, rfl, rfl⟩ := h
    exact .backstopSet (requireAdmin_ok hadmin)
  | withdraw caller token amount dst =>
    simp only [step, bind_eq_ok, pure_eq_ok, Prod.mk.injEq] at h
    obtain ⟨_, hw, rfl, rfl⟩ := h
    exact withdraw_ok hw
  | allowRecipient caller recipient =>
    simp only [step, allowRecipient, bind_eq_ok, pure_eq_ok, Prod.mk.injEq] at h
    obtain ⟨_, hs, rfl, rfl⟩ := h
    exact screenRecipient_ok rfl hs
  | blockRecipient caller recipient =>
    simp only [step, blockRecipient, bind_eq_ok, pure_eq_ok, Prod.mk.injEq] at h
    obtain ⟨_, hs, rfl, rfl⟩ := h
    exact screenRecipient_ok rfl hs
  | removeRecipient caller recipient =>
    simp only [step, removeRecipient, bind_eq_ok, pure_eq_ok, Prod.mk.injEq] at h
    obtain ⟨_, hs, rfl, rfl⟩ := h
    exact screenRecipient_ok rfl hs
  | registerAssetFeed caller token feedId =>
    simp only [step, bind_eq_ok, pure_eq_ok, Prod.mk.injEq] at h
    obtain ⟨_, hr, rfl, rfl⟩ := h
    exact registerAssetFeed_ok hr
  | deregisterAssetFeed caller token =>
    simp only [step, deregisterAssetFeed, bind_eq_ok, pure_eq_ok, Prod.mk.injEq] at h
    obtain ⟨_, ⟨_, -, rfl⟩, rfl, rfl⟩ := h
    exact .appraised trivial
  | takeNavSnapshot =>
    simp only [step, takeNavSnapshot, bind_eq_ok, pure_eq_ok, Prod.exists, Prod.mk.injEq] at h
    obtain ⟨_, -, _, _, -, rfl, rfl⟩ := h
    exact .appraised trivial
  | seedBackstop caller token amount =>
    simp only [step, bind_eq_ok, pure_eq_ok, Prod.mk.injEq] at h
    obtain ⟨_, hs, rfl, rfl⟩ := h
    exact seedBackstop_ok hs
  | recallSeed caller token amount =>
    simp only [step, bind_eq_ok, pure_eq_ok, Prod.mk.injEq] at h
    obtain ⟨_, hr, rfl, rfl⟩ := h
    exact recallSeed_ok hr
  | submitPaymentRequest requester payee token amount purposeHash =>
    simp only [step, submitPaymentRequest, bind_eq_ok, bail_eq_ok, u64_eq_ok, not_le, pure_eq_ok,
      Prod.exists, Prod.mk.injEq] at h
    obtain ⟨_, _, ⟨-, -, -, hpos, _, ⟨-, rfl⟩, rfl, rfl⟩, rfl, rfl⟩ := h
    exact .submitted hpos
  | approvePaymentRequest approver id =>
    simp only [step, approvePaymentRequest, loadRequest, bind_eq_ok, bail_eq_ok, okOr_eq_ok,
      not_not, pure_eq_ok, Prod.mk.injEq] at h
    obtain ⟨_, ⟨_, hadmin, request, hfound, -, hother, -, hstatus, rfl⟩, rfl, rfl⟩ := h
    exact .approved (requireAdmin_ok hadmin) hfound hother hstatus
  | rejectPaymentRequest approver id =>
    simp only [step, rejectPaymentRequest, loadRequest, bind_eq_ok, bail_eq_ok, okOr_eq_ok, not_not,
      pure_eq_ok, Prod.mk.injEq] at h
    obtain ⟨_, ⟨_, hadmin, request, hfound, -, hstatus, rfl⟩, rfl, rfl⟩ := h
    exact .rejected (requireAdmin_ok hadmin) hfound hstatus
  | cancelPaymentRequest requester id =>
    simp only [step, cancelPaymentRequest, loadRequest, bind_eq_ok, bail_eq_ok, okOr_eq_ok, not_not,
      pure_eq_ok, Prod.mk.injEq] at h
    obtain ⟨_, ⟨-, -, request, hfound, -, rfl, -, hstatus, rfl⟩, rfl, rfl⟩ := h
    exact .cancelled hfound hstatus
  | executePaymentRequest caller id =>
    simp only [step, bind_eq_ok, pure_eq_ok, Prod.mk.injEq] at h
    obtain ⟨_, he, rfl, rfl⟩ := h
    exact executePaymentRequest_ok he
  | advance seconds ledgers =>
    simp only [step, bind_eq_ok, u64_eq_ok, pure_eq_ok, Prod.mk.injEq] at h
    obtain ⟨_, ⟨-, rfl⟩, rfl, rfl⟩ := h
    exact .advanced
  | setPrice oracle feedId answer =>
    simp only [step, pure_eq_ok, Prod.mk.injEq] at h
    obtain ⟨rfl, rfl⟩ := h
    exact .priced
  | transfer token src dst amount =>
    simp only [step, bind_eq_ok, requireAuth_eq_ok, pure_eq_ok, Prod.mk.injEq] at h
    obtain ⟨-, hsigned, _, hpaid, rfl, rfl⟩ := h
    obtain ⟨ledger, hmoved, rfl⟩ := transferToken_ok hpaid
    exact .transferred (by simpa using (List.mem_filter.mp hsigned).2) hmoved

end RefractContracts.Treasury
