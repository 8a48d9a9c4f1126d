import RefractContracts.Host.History
import RefractContracts.Host.Storage
import RefractContracts.Treasury.Effects

/-! The life of a payment request. A request is paid as it was submitted, after an
approval, by administrators other than its requester, and is closed once: paid,
rejected or cancelled. No entry point replaces the administrator, and nothing here
depends on that, so the runs may replace the stored one between any two calls. -/

namespace RefractContracts.Treasury

open Host

variable {Address : Type}

/-- A request that may still be paid. -/
def PaymentStatus.Open : PaymentStatus → Prop
  | .submitted | .approved => True
  | _ => False

/-- The request that an operation pays, rejects or cancels. -/
def Op.closes : Op Address → Option ℕ
  | .executePaymentRequest _ id | .rejectPaymentRequest _ id | .cancelPaymentRequest _ id => some id
  | _ => none

/-- The id that an operation with this answer gives to a new request. -/
def Op.submits (op : Op Address) (out : ℤ) : Option ℤ :=
  match op with
  | .submitPaymentRequest .. => some out
  | _ => none

section Succession
variable [DecidableEq Address]

/-- The transactions of the contract, and replacements of the stored administrator. -/
def succession (contract : Address) :
    Contract (World Address) (Transaction Address ⊕ Address) ℤ TreasuryError := fun w call =>
  match call with
  | .inl tx => step contract w tx
  | .inr admin => pure ({ w with adminEntry := some admin }, 0)

end Succession

abbrev Event (Address : Type) := Receipt (World Address) (Transaction Address ⊕ Address) ℤ

/-- The operation of a call, unless it replaces the administrator. -/
def operation (x : Event Address) : Option (Op Address) :=
  match x.call with
  | .inl tx => some tx.op
  | .inr _ => none

def closes (x : Event Address) : Option ℕ := (operation x).bind Op.closes

def submits (x : Event Address) : Option ℤ := (operation x).bind (Op.submits · x.out)

/-- The call is an approval of the request by the administrator, who is not the requester. -/
def approves (id : ℕ) (requester : Address) (x : Event Address) : Prop :=
  ∃ approver, operation x = some (.approvePaymentRequest approver id) ∧
    x.pre.adminEntry = some approver ∧ approver ≠ requester

/-- The history submitted the request `id` with these data; `l` is what followed. -/
def SubmittedAs (h l : List (Event Address)) (id : ℕ) (requester payee token : Address)
    (amount : ℤ) : Prop :=
  ∃ g y purposeHash, h = g ++ y :: l ∧ y.out = id ∧
    operation y = some (.submitPaymentRequest requester payee token amount purposeHash)

/-- The call pays the request `id` as it was submitted and approved. -/
def PaidAsApproved (contract : Address) [DecidableEq Address] (g : List (Event Address))
    (x : Event Address) (caller : Address) (id : ℕ) : Prop :=
  ∃ l requester payee token amount, SubmittedAs g l id requester payee token amount ∧
    (∃ z ∈ l, approves id requester z) ∧ x.pre.adminEntry = some caller ∧ caller ≠ requester ∧
    (x.pre.tokens token).Moved (x.post.tokens token) contract payee amount

/-- A stored request is as it was submitted, and was approved if it says so. -/
structure Filed (h : List (Event Address)) (id : ℕ) (request : PaymentRequest Address) : Prop where
  id_eq : request.id = id
  submitted : ∃ l, SubmittedAs h l id request.requester request.payee request.token
    request.amount ∧ (request.status = .approved → ∃ z ∈ l, approves id request.requester z)

/-- What the stored requests say about the history. -/
structure Ledger (h : List (Event Address)) (w : World Address) : Prop where
  filed : ∀ id request, w.requestEntry id = some request → Filed h id request
  fresh : ∀ id, w.nextRequestIdEntry.getD 0 ≤ id → w.requestEntry id = none
  submitted : Once submits (· < ((w.nextRequestIdEntry.getD 0 : ℕ) : ℤ)) h
  closed : Once closes
    (fun id => ∃ request, w.requestEntry id = some request ∧ ¬ request.status.Open) h

variable {h : List (Event Address)} {x : Event Address} {id : ℕ} {w w' : World Address}
  {request : PaymentRequest Address}

theorem SubmittedAs.snoc {l : List (Event Address)} {requester payee token : Address} {amount : ℤ}
    (s : SubmittedAs h l id requester payee token amount) (x : Event Address) :
    SubmittedAs (h ++ [x]) (l ++ [x]) id requester payee token amount := by
  obtain ⟨g, y, purposeHash, rfl, hout, hop⟩ := s
  exact ⟨g, y, purposeHash, by simp, hout, hop⟩

theorem Filed.snoc (f : Filed h id request) (x : Event Address) : Filed (h ++ [x]) id request where
  id_eq := f.id_eq
  submitted := by
    obtain ⟨l, hs, happroved⟩ := f.submitted
    refine ⟨l ++ [x], hs.snoc x, fun hstatus => ?_⟩
    obtain ⟨z, hz, hby⟩ := happroved hstatus
    exact ⟨z, List.mem_append_left _ hz, hby⟩

/-- The request after the call `x` approved it. -/
theorem Filed.approve (f : Filed h id request) (approver : Address)
    (hx : approves id request.requester x) :
    Filed (h ++ [x]) id { request with status := .approved, approver := some approver } where
  id_eq := f.id_eq
  submitted := by
    obtain ⟨l, hs, -⟩ := f.submitted
    exact ⟨l ++ [x], hs.snoc x, fun _ => ⟨x, by simp, hx⟩⟩

/-- The request after the call `x` closed it. -/
theorem Filed.close (f : Filed h id request) (status : PaymentStatus) (hstatus : ¬ status.Open) :
    Filed (h ++ [x]) id { request with status } where
  id_eq := f.id_eq
  submitted := by
    obtain ⟨l, hs, -⟩ := f.submitted
    refine ⟨l ++ [x], hs.snoc x, ?_⟩
    rintro rfl
    exact absurd trivial hstatus

/-- A call that leaves the requests and their numbering. -/
theorem Ledger.keep (i : Ledger h w) (hcloses : closes x = none) (hsubmits : submits x = none)
    (hrequests : w'.requestEntry = w.requestEntry)
    (hnext : w'.nextRequestIdEntry = w.nextRequestIdEntry) : Ledger (h ++ [x]) w' where
  filed j r hr := (i.filed j r (hrequests ▸ hr)).snoc x
  fresh := by rw [hrequests, hnext]; exact i.fresh
  submitted := by
    rw [hnext]
    exact i.submitted.snoc (fun _ hk => hk) (by simp [hsubmits])
  closed := by
    rw [hrequests]
    exact i.closed.snoc (fun _ hk => hk) (by simp [hcloses])

/-- A call that rewrites an open request, and closes it or leaves it open. -/
theorem Ledger.rewrite {q : PaymentRequest Address} (i : Ledger h w)
    (found : w.requestEntry id = some request) (hopen : request.status.Open)
    (hcloses : ∀ j, closes x = some j → j = id ∧ ¬ q.status.Open) (hsubmits : submits x = none)
    (filed : Filed (h ++ [x]) id q)
    (hrequests : w'.requestEntry = Function.update w.requestEntry id (some q))
    (hnext : w'.nextRequestIdEntry = w.nextRequestIdEntry) : Ledger (h ++ [x]) w' where
  filed := forall_update (fun j r hr => (i.filed j r hr).snoc x) hrequests filed
  fresh j hj := by
    rw [hrequests]
    exact absent_update (i.fresh j (hnext ▸ hj)) found
  submitted := by
    rw [hnext]
    exact i.submitted.snoc (fun _ hk => hk) (by simp [hsubmits])
  closed := by
    refine i.closed.snoc (fun j hj => ?_) fun j hj => ?_
    · obtain ⟨old, hold, hshut⟩ := hj
      rw [hrequests]
      rcases stored_update hold found q with ⟨-, rfl, -⟩ | ⟨-, hnow⟩
      · exact absurd hopen hshut
      · exact ⟨old, hnow, hshut⟩
    · obtain ⟨rfl, hq⟩ := hcloses j hj
      refine ⟨?_, q, by rw [hrequests, Function.update_self], hq⟩
      rintro ⟨old, hold, hshut⟩
      obtain rfl : request = old := Option.some.inj (found.symm.trans hold)
      exact hshut hopen

/-- A call that closes an open request. -/
theorem Ledger.shut (i : Ledger h w) (status : PaymentStatus)
    (found : w.requestEntry id = some request) (hopen : request.status.Open)
    (hstatus : ¬ status.Open) (hcloses : closes x = some id) (hsubmits : submits x = none)
    (hrequests : w'.requestEntry =
      Function.update w.requestEntry request.id (some { request with status }))
    (hnext : w'.nextRequestIdEntry = w.nextRequestIdEntry) : Ledger (h ++ [x]) w' := by
  have f := i.filed id request found
  refine i.rewrite found hopen (fun j hj => ⟨?_, hstatus⟩) hsubmits
    (f.close status hstatus) ?_ hnext
  · exact Option.some.inj (hj.symm.trans hcloses)
  · rw [hrequests, f.id_eq]

variable [DecidableEq Address] {contract : Address}

theorem ledger_step (h : List (Event Address)) (x : Event Address)
    (accepted : succession contract x.pre x.call = .ok (x.post, x.out)) (i : Ledger h x.pre) :
    Ledger (h ++ [x]) x.post := by
  obtain ⟨pre, call, out, post⟩ := x
  simp only at accepted i ⊢
  cases call with
  | inr admin =>
    obtain ⟨rfl, rfl⟩ := Prod.mk.inj ((pure_eq_ok _ _).mp accepted)
    exact i.keep rfl rfl rfl rfl
  | inl tx =>
    have e := step_effect accepted
    obtain ⟨signers, op⟩ := tx
    simp only at e
    cases e with
    | @screened op recipient status kind =>
      have hkind : op.closes = none ∧ op.submits 0 = none := by
        cases op <;> first | exact ⟨rfl, rfl⟩ | cases kind
      exact i.keep hkind.1 hkind.2 rfl rfl
    | @appraised op feeds tracked snapshot out kind =>
      have hkind : op.closes = none ∧ op.submits out = none := by
        cases op <;> first | exact ⟨rfl, rfl⟩ | cases kind
      exact i.keep hkind.1 hkind.2 rfl rfl
    | @submitted requester payee token amount purposeHash pos =>
      have hnone := i.fresh _ le_rfl
      refine ⟨forall_update (fun j r hr => (i.filed j r hr).snoc _) rfl ⟨rfl, [], ?_, nofun⟩,
        fun j hj => ?_, i.submitted.snoc (fun k hk => ?_) (fun k hk => ?_),
        i.closed.snoc (fun j hj => ?_) nofun⟩
      · exact ⟨h, _, purposeHash, rfl, rfl, rfl⟩
      · change pre.nextRequestIdEntry.getD 0 + 1 ≤ j at hj
        exact (Function.update_of_ne (by simp only; omega) _ _).trans (i.fresh j (by omega))
      · exact lt_of_lt_of_le hk (by simp)
      · obtain rfl := Option.some.inj hk
        exact ⟨lt_irrefl _, by simp⟩
      · obtain ⟨old, hold, hshut⟩ := hj
        exact ⟨old, (Function.update_of_ne (ne_of_absent hnone hold) _ _).trans hold, hshut⟩
    | @approved approver id request admin found other status =>
      have f := i.filed id request found
      refine i.rewrite found (by rw [status]; trivial) nofun rfl
        (f.approve approver ⟨approver, rfl, admin, other.symm⟩) ?_ rfl
      simp only [saveRequest, f.id_eq]
    | @rejected approver id request admin found status =>
      exact i.shut .rejected found (by rw [status]; trivial) not_false rfl rfl rfl rfl
    | @cancelled id request found status =>
      exact i.shut .cancelled found (by rw [status]; trivial) not_false rfl rfl rfl rfl
    | @executed caller id request ledger admin found other status moved =>
      exact i.shut .executed found (by rw [status]; trivial) not_false rfl rfl rfl rfl
    | _ => exact i.keep rfl rfl rfl rfl

/-! ### Runs -/

/-- In every run, whoever becomes administrator, requests have distinct ids and are
closed once, and the paid ones are paid as submitted, by an administrator, after the
approval of an administrator, neither of whom is the requester. -/
theorem requests_paid (contract : Address) (now sequence : ℕ) (tokens : Address → Token Address)
    (prices : Address → Symbol → Option (ℤ × ℕ)) (calls : List (Transaction Address ⊕ Address)) :
    let r := run (succession contract) (deployed now sequence tokens prices) calls
    (r.2.filterMap submits).Nodup ∧ (r.2.filterMap closes).Nodup ∧
      ∀ g x l caller id, r.2 = g ++ x :: l →
        operation x = some (.executePaymentRequest caller id) →
          PaidAsApproved contract g x caller id := by
  intro r
  have tr : Trace (succession contract) (deployed now sequence tokens prices) r.2 r.1 :=
    run_trace _ _ calls
  have hledger : ∀ {h w}, Trace (succession contract) (deployed now sequence tokens prices) h w →
      Ledger h w := fun tr => tr.history ledger_step ⟨nofun, fun _ _ => rfl, .nil, .nil⟩
  refine ⟨(hledger tr).submitted.nodup, (hledger tr).closed.nodup,
    fun g x l caller id hsplit hop => ?_⟩
  rw [hsplit] at tr
  obtain ⟨before, accepted, -⟩ := tr.at_receipt
  have i := hledger before
  obtain ⟨pre, _ | admin, out, post⟩ := x
  · next tx =>
    have e := step_effect accepted
    obtain ⟨signers, op⟩ := tx
    obtain rfl : op = .executePaymentRequest caller id := Option.some.inj hop
    simp only at e i ⊢
    cases e with
    | @executed _ _ request ledger admin found other status moved =>
      obtain ⟨-, l', hs, happroved⟩ := i.filed id request found
      refine ⟨l', _, _, _, _, hs, happroved status, admin, other.symm, ?_⟩
      simpa [World.move] using moved
    | screened kind => cases kind
    | appraised kind => cases kind
  · cases hop

end RefractContracts.Treasury
