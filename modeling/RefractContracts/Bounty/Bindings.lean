import RefractContracts.Bounty.Register
import RefractContracts.Host.History

/-! Whom a commitment award is paid to. A claim reads the binding that the last
registration or rotation left, all of them by one owner, and an award is claimed
once. -/

namespace RefractContracts.Bounty

open Host

variable {Address Hash : Type}

/-- The commitment that an operation binds, its owner and the payout address. -/
def Op.binds (sha256 : Hash → Hash) : Op Address Hash → Option (Hash × Address × Address)
  | .registerPayoutAddress owner preimage payee | .rotatePayoutAddress owner preimage payee =>
    some (sha256 preimage, owner, payee)
  | _ => none

/-- The commitment that an operation awards. -/
def Op.pledges : Op Address Hash → Option Hash
  | .awardCommitment _ _ c _ => some c
  | _ => none

/-- The commitment whose award an operation claims. -/
def Op.redeems (sha256 : Hash → Hash) : Op Address Hash → Option Hash
  | .claimByCommitment _ preimage => some (sha256 preimage)
  | _ => none

/-- The freeze flag that a transaction writes for an address. -/
def Transaction.freezes [DecidableEq Address] (tx : Transaction Address Hash) (a : Address) :
    Option Bool :=
  match tx.op with
  | .freezePayoutAddress _ address frozen => if a = address then some frozen else none
  | _ => none

/-- The call registers or rotates the binding of `c`. -/
def Binds (sha256 : Hash → Hash) (c : Hash) (x : Event Address Hash) : Prop :=
  ∃ owner payee, x.call.op.binds sha256 = some (c, owner, payee)

/-- The latest binding of `c` is to `payee` and expires at `expires`; the owner signed it
and every other one. -/
structure BoundTo (sha256 : Hash → Hash) (h : List (Event Address Hash)) (c : Hash)
    (owner payee : Address) (expires : ℕ) : Prop where
  latest : ∃ y l, Latest (Binds sha256 c) h y l ∧
    y.call.op.binds sha256 = some (c, owner, payee) ∧ expires = expiry y.pre.now
  owned : ∀ z ∈ h, ∀ o a, z.call.op.binds sha256 = some (c, o, a) →
    o = owner ∧ owner ∈ z.call.signers

/-- What the stored bindings say about the history. -/
structure Bindings (sha256 : Hash → Hash) (h : List (Event Address Hash))
    (f : Hash → Option (PayoutBindingRecord Address)) : Prop where
  bound : ∀ c b, f c = some b → BoundTo sha256 h c b.owner b.payoutAddress b.expiresAt
  unbound : ∀ c, f c = none → ∀ z ∈ h, ¬ Binds sha256 c z

/-- The call awards the commitment `c`. -/
def Awards (c : Hash) (amount : ℤ) (x : Event Address Hash) : Prop :=
  ∃ caller report, x.call.op = .awardCommitment caller report c amount

/-- What the stored commitment awards say about the history. -/
structure Pledges (sha256 : Hash → Hash) (h : List (Event Address Hash))
    (f : Hash → Option (CommitmentAwardRecord Hash)) : Prop where
  awarded : ∀ c award, f c = some award → ∃ z ∈ h, Awards c award.amount z
  pledged : Once (fun x => x.call.op.pledges) (fun c => f c ≠ none) h
  redeemed : Once (fun x => x.call.op.redeems sha256)
    (fun c => ∃ award, f c = some award ∧ award.status ≠ .awarded) h

variable {sha256 : Hash → Hash} {h : List (Event Address Hash)} {x : Event Address Hash}
  {c : Hash} {owner payee : Address} {expires : ℕ}

/-- A call that does not bind the commitment. -/
theorem BoundTo.snoc (b : BoundTo sha256 h c owner payee expires) (hx : ¬ Binds sha256 c x) :
    BoundTo sha256 (h ++ [x]) c owner payee expires where
  latest := by
    obtain ⟨y, l, hlatest, hy⟩ := b.latest
    exact ⟨y, l ++ [x], hlatest.snoc hx, hy⟩
  owned := forall_mem_snoc b.owned fun o a hoa => absurd ⟨o, a, hoa⟩ hx

/-- A call that binds the commitment, whose earlier bindings were by the same owner. -/
theorem BoundTo.of_snoc (hx : x.call.op.binds sha256 = some (c, owner, payee))
    (signed : owner ∈ x.call.signers)
    (owned : ∀ z ∈ h, ∀ o a, z.call.op.binds sha256 = some (c, o, a) →
      o = owner ∧ owner ∈ z.call.signers) :
    BoundTo sha256 (h ++ [x]) c owner payee (expiry x.pre.now) where
  latest := ⟨x, [], .of_snoc h ⟨owner, payee, hx⟩, hx, rfl⟩
  owned := by
    refine forall_mem_snoc owned fun o a hoa => ?_
    obtain ⟨rfl, rfl⟩ := Prod.mk.inj (Prod.mk.inj (Option.some.inj (hx.symm.trans hoa))).2
    exact ⟨rfl, signed⟩

section Bindings
variable {f : Hash → Option (PayoutBindingRecord Address)}

theorem Bindings.snoc (i : Bindings sha256 h f) (hx : x.call.op.binds sha256 = none) :
    Bindings sha256 (h ++ [x]) f := by
  have hnone : ∀ c, ¬ Binds sha256 c x := fun c ⟨o, a, hoa⟩ => by
    rw [hx] at hoa
    cases hoa
  exact ⟨fun c b hb => (i.bound c b hb).snoc (hnone c),
    fun c hc => forall_mem_snoc (i.unbound c hc) (hnone c)⟩

/-- A call that binds a commitment, whose earlier bindings were by the same owner. -/
theorem Bindings.bind [DecidableEq Hash] (i : Bindings sha256 h f)
    (hx : x.call.op.binds sha256 = some (c, owner, payee)) (signed : owner ∈ x.call.signers)
    (owned : ∀ b, f c = some b → b.owner = owner) :
    Bindings sha256 (h ++ [x])
      (Function.update f c (some ⟨owner, payee, x.pre.now, expiry x.pre.now⟩)) := by
  have hother : ∀ j, j ≠ c → ¬ Binds sha256 j x := fun j hj ⟨o, a, hoa⟩ =>
    hj (Prod.mk.inj (Option.some.inj (hoa.symm.trans hx))).1
  refine ⟨fun j b hb => ?_, fun j hj => ?_⟩
  · rcases update_eq_some hb with ⟨rfl, rfl⟩ | ⟨hj, hb⟩
    · refine .of_snoc hx signed fun z hz o a hoa => ?_
      cases hf : f j with
      | none => exact absurd ⟨o, a, hoa⟩ (i.unbound j hf z hz)
      | some b => exact owned b hf ▸ (i.bound j b hf).owned z hz o a hoa
    · exact (i.bound j b hb).snoc (hother j hj)
  · by_cases hc : j = c
    · subst hc
      simp at hj
    · exact forall_mem_snoc (i.unbound j ((Function.update_of_ne hc _ _).symm.trans hj))
        (hother j hc)

end Bindings

section Pledges
variable {f : Hash → Option (CommitmentAwardRecord Hash)}

theorem Pledges.snoc (i : Pledges sha256 h f) (hpledges : x.call.op.pledges = none)
    (hredeems : x.call.op.redeems sha256 = none) : Pledges sha256 (h ++ [x]) f where
  awarded c award ha := by
    obtain ⟨z, hz, hop⟩ := i.awarded c award ha
    exact ⟨z, List.mem_append_left _ hz, hop⟩
  pledged := i.pledged.snoc (fun _ hk => hk) (by simp [hpledges])
  redeemed := i.redeemed.snoc (fun _ hk => hk) (by simp [hredeems])

/-- A call that awards a commitment for the first time. -/
theorem Pledges.pledge [DecidableEq Hash] {award : CommitmentAwardRecord Hash}
    (i : Pledges sha256 h f) (first : f c = none) (hx : Awards c award.amount x) :
    Pledges sha256 (h ++ [x]) (Function.update f c (some award)) := by
  obtain ⟨caller, report, hop⟩ := hx
  have hsome : ∀ j, f j ≠ none → Function.update f c (some award) j = f j := fun j hj =>
    Function.update_of_ne (fun hc => hj ((congrArg f hc).trans first)) _ _
  refine ⟨?_, i.pledged.snoc (fun j hj => (hsome j hj).trans_ne hj) fun j hj => ?_,
    i.redeemed.snoc ?_ fun j hj => ?_⟩
  · refine forall_update (fun j a ha => ?_) rfl ⟨x, List.mem_concat_self, caller, report, hop⟩
    obtain ⟨z, hz, hza⟩ := i.awarded j a ha
    exact ⟨z, List.mem_append_left _ hz, hza⟩
  · rw [hop] at hj
    obtain rfl := Option.some.inj hj
    exact ⟨not_not.mpr first, by simp⟩
  · rintro j ⟨a, ha, hclaimed⟩
    exact ⟨a, (hsome j (by simp [ha])).trans ha, hclaimed⟩
  · rw [hop] at hj
    cases hj

/-- A call that claims an award. -/
theorem Pledges.redeem [DecidableEq Hash] {award : CommitmentAwardRecord Hash} {caller : Address}
    {preimage : Hash} (i : Pledges sha256 h f) (found : f (sha256 preimage) = some award)
    (awarded : award.status = .awarded) (hop : x.call.op = .claimByCommitment caller preimage) :
    Pledges sha256 (h ++ [x])
      (Function.update f (sha256 preimage) (some { award with status := .claimed })) := by
  refine ⟨?_, i.pledged.snoc (fun j hj => ?_) fun j hj => ?_, i.redeemed.snoc ?_ fun j hj => ?_⟩
  · refine forall_update (fun j a ha => ?_) rfl ?_
    · obtain ⟨z, hz, hza⟩ := i.awarded j a ha
      exact ⟨z, List.mem_append_left _ hz, hza⟩
    · obtain ⟨z, hz, hza⟩ := i.awarded _ award found
      exact ⟨z, List.mem_append_left _ hz, hza⟩
  · by_cases hc : j = sha256 preimage
    · subst hc
      simp
    · rwa [Function.update_of_ne hc]
  · rw [hop] at hj
    cases hj
  · rintro j ⟨a, ha, hclaimed⟩
    rcases stored_update ha found { award with status := .claimed } with ⟨-, rfl, -⟩ | ⟨-, hkept⟩
    · exact absurd awarded hclaimed
    · exact ⟨a, hkept, hclaimed⟩
  · rw [hop] at hj
    obtain rfl := Option.some.inj hj
    refine ⟨?_, _, Function.update_self _ _ _, nofun⟩
    rintro ⟨a, ha, hclaimed⟩
    obtain rfl : award = a := Option.some.inj (found.symm.trans ha)
    exact hclaimed awarded

end Pledges

section Runs
variable [DecidableEq Address] [DecidableEq Hash] {H : Helpers Address Hash} {self : Address}

/-- What the register says about the history. -/
def Filed (sha256 : Hash → Hash) (h : List (Event Address Hash)) (d : Register Address Hash) :
    Prop :=
  Bindings sha256 h d.bindings ∧ Pledges sha256 h d.awards

theorem filed_step (h : List (Event Address Hash)) (x : Event Address Hash)
    (accepted : step H self x.pre x.call = .ok (x.post, x.out))
    (i : Filed H.hashPreimage h (register x.pre)) :
    Filed H.hashPreimage (h ++ [x]) (register x.post) := by
  have t := step_turn accepted
  obtain ⟨bindings, pledges⟩ := i
  obtain ⟨pre, ⟨signers, op⟩, out, post⟩ := x
  simp only at t bindings pledges ⊢
  generalize hd : register post = d at t ⊢
  cases t with
  | registered signed outside first =>
    refine ⟨bindings.bind rfl signed fun b hb => ?_, pledges.snoc rfl rfl⟩
    rw [first] at hb
    cases hb
  | rotated signed found fresh =>
    refine ⟨bindings.bind rfl signed fun b hb => ?_, pledges.snoc rfl rfl⟩
    rw [found] at hb
    exact congrArg _ (Option.some.inj hb).symm
  | @pledged _ caller r c amount first =>
    exact ⟨bindings.snoc rfl, pledges.pledge first ⟨caller, r, rfl⟩⟩
  | redeemed found awarded bound fresh =>
    exact ⟨bindings.snoc rfl, pledges.redeem found awarded rfl⟩
  | froze => exact ⟨bindings.snoc rfl, pledges.snoc rfl rfl⟩
  | advanced => exact ⟨bindings.snoc rfl, pledges.snoc rfl rfl⟩
  | idle kind =>
    have hop : op.binds H.hashPreimage = none ∧ op.pledges = none ∧
        op.redeems H.hashPreimage = none := by
      cases op <;> first | exact ⟨rfl, rfl, rfl⟩ | exact absurd trivial kind
    exact ⟨bindings.snoc hop.1, pledges.snoc hop.2.1 hop.2.2⟩

/-- The freeze flags are those that the last calls wrote. -/
theorem frozen_step (x : Event Address Hash)
    (accepted : step H self x.pre x.call = .ok (x.post, x.out)) (a : Address) :
    isFrozen x.post a = (x.call.freezes a).getD (isFrozen x.pre a) := by
  have t := step_turn accepted
  obtain ⟨pre, ⟨signers, op⟩, out, post⟩ := x
  have hpost : isFrozen post a = ((register post).frozen a).getD false := rfl
  simp only at t ⊢
  rw [hpost]
  generalize register post = d at t ⊢
  cases t with
  | @froze _ caller address frozen =>
    by_cases ha : a = address
    · subst ha
      simp [Transaction.freezes]
    · simp [Transaction.freezes, ha, register, isFrozen]
  | idle kind =>
    cases op <;> first | rfl | exact absurd trivial kind
  | _ => rfl

/-- The configured token moves the amount from the contract to the payee. -/
def PaysTo (self : Address) (w w' : World Address Hash) (payee : Address) (amount : ℤ) : Prop :=
  ∃ token ledger, w.tokenEntry = some token ∧ (w.tokens token).Moved ledger self payee amount ∧
    w'.tokens = Function.update w.tokens token ledger

/-- What an accepted claim of a commitment award does. -/
theorem claimByCommitment_pays (hH : H.Reads) (hF : H.ReadsFrozen) {signers : List Address}
    {w w' : World Address Hash} {caller : Address} {preimage : Hash} {out : ℤ}
    (accepted : claimByCommitment H self signers w caller preimage = .ok (w', out)) :
    ∃ award binding, w.commitmentAwardEntry (H.hashPreimage preimage) = some award ∧
      award.status = .awarded ∧ award.amount = out ∧
      w.payoutBindingEntry (H.hashPreimage preimage) = some binding ∧
      w.now ≤ binding.expiresAt ∧ isFrozen w binding.payoutAddress = false ∧
      PaysTo self w w' binding.payoutAddress out := by
  simp only [claimByCommitment, bind_eq_ok, okOr_eq_ok, bail_eq_ok, not_not, not_lt, pure_eq_ok,
    Prod.mk.injEq] at accepted
  obtain ⟨-, -, _, -, award, found, -, awarded, binding, bound, -, fresh, -, -, -, unfrozen, _, -,
    _, -, _, -, _, -, token, htoken, _, hpaid, rfl, rfl⟩ := accepted
  obtain ⟨ledger, moved, rfl⟩ := transferToken_ok hpaid
  have hstored := hH.token htoken
  rw [Bool.not_eq_true, hF] at unfrozen
  exact ⟨award, binding, found, awarded, rfl, bound, fresh, unfrozen, token, ledger, hstored, moved,
    rfl⟩

/-- After the history `g`, the call `x` pays the award of a commitment: the awarded amount,
to the address that its owner bound last, which is neither expired nor frozen. -/
structure Payment (sha256 : Hash → Hash) (contract : Address) (g : List (Event Address Hash))
    (x : Event Address Hash) (c : Hash) (owner payee : Address) : Prop where
  awarded : ∃ z ∈ g, Awards c x.out z
  bound : ∃ expires, BoundTo sha256 g c owner payee expires ∧ x.pre.now ≤ expires
  unfrozen : lastWrite Transaction.freezes g payee ≠ some true
  paid : PaysTo contract x.pre x.post payee x.out

/-- In every run each commitment is awarded and claimed once, and a claim pays what was
awarded to the address that is bound and neither expired nor frozen at that moment. -/
theorem claims_paid (hH : H.Reads) (hF : H.ReadsFrozen) (now : ℕ)
    (tokens : Address → Token Address) (txs : List (Transaction Address Hash)) :
    let r := run (step H self) (deployed Hash now tokens) txs
    (r.2.filterMap fun x => x.call.op.pledges).Nodup ∧
      (r.2.filterMap fun x => x.call.op.redeems H.hashPreimage).Nodup ∧
      ∀ g x l caller preimage, r.2 = g ++ x :: l →
        x.call.op = .claimByCommitment caller preimage →
          ∃ owner payee, Payment H.hashPreimage self g x (H.hashPreimage preimage) owner payee := by
  intro r
  have tr : Trace (step H self) (deployed Hash now tokens) r.2 r.1 := run_trace _ _ txs
  have hfiled : ∀ {h w}, Trace (step H self) (deployed Hash now tokens) h w →
      Filed H.hashPreimage h (register w) := fun tr =>
    tr.history (I := fun h w => Filed H.hashPreimage h (register w)) filed_step
      ⟨⟨nofun, fun _ _ => List.forall_mem_nil _⟩, nofun, .nil, .nil⟩
  refine ⟨(hfiled tr).2.pledged.nodup, (hfiled tr).2.redeemed.nodup,
    fun g x l caller preimage hsplit hop => ?_⟩
  rw [hsplit] at tr
  obtain ⟨before, accepted, -⟩ := tr.at_receipt
  obtain ⟨bindings, pledges⟩ := hfiled before
  obtain ⟨pre, ⟨signers, op⟩, out, post⟩ := x
  obtain rfl : op = .claimByCommitment caller preimage := hop
  obtain ⟨award, binding, found, -, rfl, bound, fresh, unfrozen, paid⟩ :=
    claimByCommitment_pays hH hF accepted
  refine ⟨binding.owner, binding.payoutAddress, pledges.awarded _ award found,
    ⟨_, bindings.bound _ binding bound, fresh⟩, fun hfrozen => ?_, paid⟩
  have hread := before.read_lastWrite frozen_step binding.payoutAddress
  rw [hfrozen, unfrozen] at hread
  cases hread

/-- An award of 40 is bound to the address 8, which is frozen, and then to 11. -/
def rotatedAway : List (Transaction ℕ ℕ) :=
  [⟨[1], .initializeContract 1 5⟩, ⟨[7], .fund 7 100⟩, ⟨[3], .registerPayoutAddress 3 6 8⟩,
    ⟨[1], .awardCommitment 1 4 6 40⟩, ⟨[1], .freezePayoutAddress 1 8 true⟩,
    ⟨[3], .claimByCommitment 3 6⟩, ⟨[3], .rotatePayoutAddress 3 6 11⟩,
    ⟨[3], .claimByCommitment 3 6⟩, ⟨[3], .claimByCommitment 3 6⟩]

theorem claims_paid_rotatedAway :
    let r := run (step (storedHelpers id) 9) (deployed ℕ 0 fun _ => Token.empty.mint 7 100)
      rotatedAway
    r.2.length = 7 ∧ (r.1.tokens 5).balance 8 = 0 ∧ (r.1.tokens 5).balance 11 = 40 ∧
      (r.2.filterMap fun x => x.call.op.redeems id).Nodup :=
  ⟨by decide +kernel, by decide +kernel, by decide +kernel,
    (claims_paid (storedHelpers_reads id) (storedHelpers_readsFrozen id) 0 _ rotatedAway).2.1⟩

end Runs

end RefractContracts.Bounty
