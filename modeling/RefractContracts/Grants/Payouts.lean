import RefractContracts.Grants.Effects

/-! Where the money of the grants goes. Every stored grant is a schedule, a claim
pays what is due on it, and the fee it keeps back is accrued until it is swept. So
the claimed amounts are what recipients and the treasury got and what is accrued. -/

namespace RefractContracts.Grants

open Host

variable {Address : Type}

/-- The stored grant of a schedule. -/
def OnchainGrant.ofSchedule (recipient : Address) (s : Schedule) : OnchainGrant Address :=
  ⟨recipient, s.amounts.sum, s.marks .mk, s.due.sum⟩

structure Stored (w : World Address) : Prop where
  scheduled : ∀ id grant, w.grantEntry id = some grant →
    ∃ recipient s, grant = .ofSchedule recipient s
  unused : ∀ id, nextGrantId w ≤ id → w.grantEntry id = none
  fresh : w.governanceEntry = none →
    (∀ id, w.grantEntry id = none) ∧ ∀ token, accruedFees w token = 0

/-- The amount of the claimed milestones of a grant. -/
def OnchainGrant.claimedAmount (grant : OnchainGrant Address) : ℤ :=
  ((grant.milestones.filter (·.claimed)).map (·.amount)).sum

def claimedOn (w : World Address) (id : ℕ) : ℤ :=
  ((w.grantEntry id).map (·.claimedAmount)).getD 0

def milestoneAmount (w : World Address) (m : ℕ × ℕ) : ℤ :=
  ((w.grantEntry m.1).bind fun grant => grant.milestones[m.2]?.map (·.amount)).getD 0

def isClaimed (w : World Address) (m : ℕ × ℕ) : Prop :=
  ∃ grant milestone, w.grantEntry m.1 = some grant ∧ grant.milestones[m.2]? = some milestone ∧
    milestone.claimed = true

abbrev GrantsReceipt (Address : Type) := Receipt (World Address) (Transaction Address) ℤ

/-- What an operation with this answer paid to a recipient. -/
def Op.paidOut (op : Op Address) (out : ℤ) : ℤ :=
  match op with
  | .claim _ _ => out
  | _ => 0

/-- What an operation with this answer paid to the treasury. -/
def Op.sweptOut (op : Op Address) (out : ℤ) : ℤ :=
  match op with
  | .sweepFees _ => out
  | _ => 0

/-- The indices of the confirmed and unclaimed milestones. -/
def OnchainGrant.pending (grant : OnchainGrant Address) : List ℕ :=
  (grant.milestones.zipIdx.filter fun m => m.1.confirmed && !m.1.claimed).map (·.2)

/-- The milestones that a transaction pays, each as its grant's id with its index. -/
def settles (x : GrantsReceipt Address) : List (ℕ × ℕ) :=
  match x.call.op with
  | .claim _ id => (((x.pre.grantEntry id).map (·.pending)).getD []).map (id, ·)
  | _ => []

/-! ### Schedules -/

theorem claimedAmount_ofSchedule (recipient : Address) (s : Schedule) :
    (OnchainGrant.ofSchedule recipient s).claimedAmount = s.paid.sum := by
  simp [OnchainGrant.claimedAmount, OnchainGrant.ofSchedule, Schedule.marks, List.filter_append,
    List.filter_map, Function.comp_def]

theorem settled_ofSchedule (recipient : Address) (s : Schedule) :
    (OnchainGrant.ofSchedule recipient s).settled = .ofSchedule recipient s.settle := by
  dsimp only [OnchainGrant.settled, OnchainGrant.ofSchedule]
  rw [s.marks_settle OnchainMilestone.mk (by simp) (by simp), Schedule.amounts_settle]
  simp [Schedule.settle]

theorem openGrant_eq (recipient : Address) {total : ℤ} {amounts : List ℤ}
    (h : sumMilestones amounts = .ok total) :
    ∃ hp hf,
      (openGrant recipient total amounts) = .ofSchedule recipient (.start amounts hp hf) := by
  obtain ⟨hp, rfl, hf⟩ := sumMilestones_ok h
  refine ⟨hp, hf, ?_⟩
  rw [OnchainGrant.ofSchedule, Schedule.marks_start, Schedule.amounts_start]
  rfl

theorem confirmed_ofSchedule {recipient : Address} {s : Schedule} {index : ℕ}
    {milestone : OnchainMilestone}
    (next : (OnchainGrant.ofSchedule recipient s).milestones[index]? = some milestone)
    (before : ∀ x ∈ (OnchainGrant.ofSchedule recipient s).milestones.take index, x.confirmed = true)
    (unconfirmed : milestone.confirmed = false) :
    ∃ a rest, ∃ h : s.ahead = a :: rest,
      (OnchainGrant.ofSchedule recipient s).confirmed index milestone =
        .ofSchedule recipient (s.confirm h) := by
  obtain ⟨a, rest, h, rfl, hset⟩ := s.next_of_confirmed (fun _ _ _ => rfl) next unconfirmed before
  refine ⟨a, rest, h, ?_⟩
  dsimp only [OnchainGrant.confirmed, OnchainGrant.ofSchedule]
  rw [hset, Schedule.amounts_confirm]
  simp [Schedule.confirm]

/-- Keeping the index of each element changes nothing about which ones are kept. -/
theorem map_filter_zipIdx {α : Type} (p : α → Bool) (l : List α) :
    (l.zipIdx.filter fun x => p x.1).map (·.1) = l.filter p := by
  calc _ = (l.zipIdx.map Prod.fst).filter p := by rw [List.filter_map]; rfl
    _ = l.filter p := by rw [List.zipIdx_map_fst]

theorem mem_pending {grant : OnchainGrant Address} {index : ℕ} :
    index ∈ grant.pending ↔ ∃ milestone, grant.milestones[index]? = some milestone ∧
      milestone.confirmed = true ∧ milestone.claimed = false := by
  simp [OnchainGrant.pending, List.mem_zipIdx_iff_getElem?]

theorem pending_nodup (grant : OnchainGrant Address) : grant.pending.Nodup := by
  have hindices : (grant.milestones.zipIdx.map Prod.snd).Nodup := by
    rw [List.zipIdx_map_snd]
    exact List.nodup_range' _
  exact hindices.sublist (List.filter_sublist.map Prod.snd)

/-- What is claimable is the amount of the pending milestones. -/
theorem sum_pending (recipient : Address) (s : Schedule) :
    ((OnchainGrant.ofSchedule recipient s).pending.map fun index =>
      ((s.marks OnchainMilestone.mk)[index]?.map (·.amount)).getD 0).sum = s.due.sum := by
  have hamounts : ∀ m ∈ (s.marks OnchainMilestone.mk).zipIdx.filter fun m =>
      m.1.confirmed && !m.1.claimed,
      ((s.marks OnchainMilestone.mk)[m.2]?.map (·.amount)).getD 0 = m.1.amount := by
    intro m hm
    rw [List.mem_zipIdx_iff_getElem?.mp (List.mem_filter.mp hm).1]
    rfl
  rw [OnchainGrant.pending, List.map_map]
  calc _ = (((s.marks OnchainMilestone.mk).zipIdx.filter fun m =>
        m.1.confirmed && !m.1.claimed).map fun m => m.1.amount).sum :=
        congrArg List.sum (List.map_congr_left hamounts)
    _ = ((((s.marks OnchainMilestone.mk).zipIdx.filter fun m =>
        m.1.confirmed && !m.1.claimed).map (·.1)).map (·.amount)).sum := by
        rw [List.map_map]
        rfl
    _ = s.due.sum := by
        rw [map_filter_zipIdx fun m : OnchainMilestone => m.confirmed && !m.claimed]
        simp [Schedule.marks, List.filter_append, List.filter_map, Function.comp_def]

/-! ### Writes -/

section Writes
variable {w w' : World Address} {id : ℕ} {grant grant' : OnchainGrant Address} {m : ℕ × ℕ}
  {x : GrantsReceipt Address}

theorem Stored.write {recipient : Address} {s : Schedule} (h : Stored w)
    (hid : w.grantEntry id ≠ none)
    (hgrants : w'.grantEntry = Function.update w.grantEntry id (some (.ofSchedule recipient s)))
    (hnext : nextGrantId w' = nextGrantId w) (hgov : w'.governanceEntry = w.governanceEntry) :
    Stored w' where
  scheduled := forall_update h.scheduled hgrants ⟨recipient, s, rfl⟩
  unused j hj := by
    obtain ⟨grant, hgrant⟩ := Option.ne_none_iff_exists'.mp hid
    rw [hgrants]
    exact absent_update (h.unused j (hnext ▸ hj)) hgrant
  fresh hnone := absurd ((h.fresh (hgov ▸ hnone)).1 id) hid

theorem claimedOn_write {claimed : ℤ} (h : HasTotal (claimedOn w) claimed)
    (hgrants : w'.grantEntry = Function.update w.grantEntry id (some grant)) :
    HasTotal (claimedOn w') (claimed - claimedOn w id + grant.claimedAmount) := by
  refine (h.update id grant.claimedAmount).congr (fun j => ?_) rfl
  by_cases hj : j = id
  · subst hj
    simp [claimedOn, hgrants]
  · simp [claimedOn, hgrants, hj]

/-- A write that keeps the claimed flags of a grant keeps them all. -/
theorem isClaimed_write (hm : isClaimed w m) (found : w.grantEntry id = some grant)
    (hgrants : w'.grantEntry = Function.update w.grantEntry id (some grant'))
    (hflags : ∀ (i : ℕ) (m : OnchainMilestone), grant.milestones[i]? = some m → m.claimed = true →
      ∃ m' : OnchainMilestone, grant'.milestones[i]? = some m' ∧ m'.claimed = true) :
    isClaimed w' m := by
  obtain ⟨g, milestone, hg, hmilestone, hclaimed⟩ := hm
  rcases stored_update hg found grant' with ⟨-, rfl, hnext⟩ | ⟨-, hkept⟩
  · obtain ⟨milestone', h', hclaimed'⟩ := hflags m.2 milestone hmilestone hclaimed
    exact ⟨grant', milestone', hgrants ▸ hnext, h', hclaimed'⟩
  · exact ⟨g, milestone, hgrants ▸ hkept, hmilestone, hclaimed⟩

theorem mem_settles (hm : m ∈ settles x) : ∃ recipient grant milestone,
    x.call.op = .claim recipient m.1 ∧ x.pre.grantEntry m.1 = some grant ∧
      grant.milestones[m.2]? = some milestone ∧ milestone.confirmed = true ∧
      milestone.claimed = false := by
  unfold settles at hm
  split at hm
  · next recipient id hop =>
    cases hgrant : x.pre.grantEntry id with
    | none => simp [hgrant] at hm
    | some grant =>
      simp only [hgrant, Option.map_some, Option.getD_some, List.mem_map] at hm
      obtain ⟨index, hindex, rfl⟩ := hm
      obtain ⟨milestone, hmilestone, hflags⟩ := mem_pending.mp hindex
      exact ⟨recipient, grant, milestone, hop, hgrant, hmilestone, hflags⟩
  · cases hm

/-- A transaction pays milestones that are unclaimed before. -/
theorem unclaimed_of_settles (hm : m ∈ settles x) : ¬ isClaimed x.pre m := by
  rintro ⟨grant, milestone, hgrant, hmilestone, hclaimed⟩
  obtain ⟨recipient, grant', milestone', -, hgrant', hmilestone', -, hun⟩ := mem_settles hm
  obtain rfl : grant = grant' := Option.some.inj (hgrant.symm.trans hgrant')
  obtain rfl : milestone = milestone' := Option.some.inj (hmilestone.symm.trans hmilestone')
  rw [hclaimed] at hun
  cases hun

theorem settles_nodup (x : GrantsReceipt Address) : (settles x).Nodup := by
  unfold settles
  split
  · next recipient id hop =>
    cases x.pre.grantEntry id with
    | none => exact List.nodup_nil
    | some grant => exact (pending_nodup grant).map (Prod.mk_right_injective id)
  · exact List.nodup_nil

end Writes

/-! ### Steps -/

section Steps
variable [DecidableEq Address] {self : Address} {w w' : World Address} {op : Op Address} {out : ℤ}

theorem Stored.step (h : Stored w) (e : Effect self w w' op out) : Stored w' := by
  cases e with
  | @initialized governance token first =>
    exact ⟨h.scheduled, fun id _ => (h.fresh first).1 id, nofun⟩
  | @created caller recipient total amounts governance allowed sum =>
    obtain ⟨hp, hf, hopen⟩ := openGrant_eq recipient sum
    rw [hopen]
    refine ⟨forall_update h.scheduled rfl ⟨recipient, _, rfl⟩, fun id hid => ?_, fun hgov => ?_⟩
    · have hlt : nextGrantId w + 1 ≤ id := hid
      exact (Function.update_of_ne (by omega) _ _).trans (h.unused id (by omega))
    · rw [show w.governanceEntry = none from hgov] at governance
      cases governance
  | @confirmed caller id index grant milestone governance found next before unconfirmed =>
    obtain ⟨recipient, s, rfl⟩ := h.scheduled id grant found
    obtain ⟨a, rest, hs, heq⟩ := confirmed_ofSchedule next before unconfirmed
    rw [heq]
    exact h.write (by simp [found]) rfl rfl rfl
  | @claimed recipient id grant token net fee tokens found =>
    obtain ⟨recipient', s, rfl⟩ := h.scheduled id grant found
    rw [settled_ofSchedule]
    exact h.write (by simp [found]) rfl rfl rfl
  | @swept token treasury ledger =>
    refine ⟨h.scheduled, h.unused, fun hgov => ⟨(h.fresh hgov).1, fun a => ?_⟩⟩
    change accruedFees (setAccruedFees w token 0) a = 0
    rw [accruedFees_setAccruedFees]
    by_cases ha : a = token
    · rw [ha, Function.update_self]
    · rw [Function.update_of_ne ha, (h.fresh hgov).2]
  | feeConfigured => exact ⟨h.1, h.2, h.3⟩
  | nothingSwept => exact h
  | screened => exact ⟨h.1, h.2, h.3⟩
  | rated => exact ⟨h.1, h.2, h.3⟩
  | transferred => exact ⟨h.1, h.2, h.3⟩

/-- A claim moves its gross amount to the claimed milestones, and everything it
does not pay out to the accrued fees. -/
theorem money_step (h : Stored w) (e : Effect self w w' op out) {claimed fees : ℤ}
    (hclaimed : HasTotal (claimedOn w) claimed) (hfees : HasTotal (accruedFees w) fees) :
    ∃ claimed' fees', HasTotal (claimedOn w') claimed' ∧ HasTotal (accruedFees w') fees' ∧
      claimed' - fees' = claimed - fees + op.paidOut out + op.sweptOut out := by
  cases e with
  | @initialized governance token first =>
    refine ⟨claimed, fees, hclaimed, ?_, by simp [Op.paidOut, Op.sweptOut]⟩
    rw [accruedFees_setAccruedFees]
    refine (hfees.update token 0).congr (fun _ => rfl) ?_
    simp [(h.fresh first).2]
  | @created caller recipient total amounts governance allowed sum =>
    refine ⟨claimed, fees, ?_, hfees, by simp [Op.paidOut, Op.sweptOut]⟩
    have hnew : claimedOn w (nextGrantId w) = 0 := by
      simp [claimedOn, h.unused (nextGrantId w) le_rfl]
    refine (claimedOn_write hclaimed rfl).congr (fun _ => rfl) ?_
    simp [hnew, openGrant, OnchainGrant.claimedAmount, List.filter_map, Function.comp_def]
  | @confirmed caller id index grant milestone governance found next before unconfirmed =>
    refine ⟨claimed, fees, ?_, hfees, by simp [Op.paidOut, Op.sweptOut]⟩
    obtain ⟨recipient, s, rfl⟩ := h.scheduled id grant found
    obtain ⟨a, rest, hs, heq⟩ := confirmed_ofSchedule next before unconfirmed
    refine (claimedOn_write hclaimed rfl).congr (fun _ => rfl) ?_
    rw [heq]
    simp [claimedOn, found, claimedAmount_ofSchedule, Schedule.confirm]
  | @claimed recipient id grant token net fee tokens found own due stored split fee_nonneg paid =>
    obtain ⟨recipient', s, rfl⟩ := h.scheduled id grant found
    refine ⟨_, _, claimedOn_write hclaimed rfl,
      (accruedFees_accrue w token fee_nonneg) ▸ hfees.update _ _, ?_⟩
    have hsplit : out + fee = s.due.sum := split
    simp only [settled_ofSchedule, claimedAmount_ofSchedule, claimedOn, found, Option.map_some,
      Option.getD_some, Schedule.settle, List.sum_append, Op.paidOut, Op.sweptOut]
    omega
  | @swept token treasury ledger =>
    refine ⟨claimed, _, hclaimed, (accruedFees_setAccruedFees w token 0) ▸ hfees.update _ _, ?_⟩
    simp only [Op.paidOut, Op.sweptOut]
    ring
  | @screened op recipient status kind =>
    have hkind : op.paidOut 0 = 0 ∧ op.sweptOut 0 = 0 := by
      cases op <;> simp [Op.paidOut, Op.sweptOut]
    exact ⟨claimed, fees, hclaimed, hfees, by simp [hkind]⟩
  | feeConfigured => exact ⟨claimed, fees, hclaimed, hfees, by simp [Op.paidOut, Op.sweptOut]⟩
  | nothingSwept => exact ⟨claimed, fees, hclaimed, hfees, by simp [Op.paidOut, Op.sweptOut]⟩
  | rated => exact ⟨claimed, fees, hclaimed, hfees, by simp [Op.paidOut, Op.sweptOut]⟩
  | transferred => exact ⟨claimed, fees, hclaimed, hfees, by simp [Op.paidOut, Op.sweptOut]⟩

/-- A claimed milestone stays claimed. -/
theorem isClaimed_step (h : Stored w) (e : Effect self w w' op out) {m : ℕ × ℕ}
    (hm : isClaimed w m) : isClaimed w' m := by
  cases e with
  | @created caller recipient total amounts governance allowed sum =>
    obtain ⟨grant, milestone, hgrant, hmilestone, hclaimed⟩ := hm
    have hne := ne_of_absent (h.unused (nextGrantId w) le_rfl) hgrant
    exact ⟨grant, milestone, (Function.update_of_ne hne _ _).trans hgrant, hmilestone, hclaimed⟩
  | @confirmed caller id index grant milestone governance found next before unconfirmed =>
    refine isClaimed_write hm found rfl fun i x hx hclaimed => ?_
    by_cases hi : index = i
    · subst hi
      obtain rfl : milestone = x := Option.some.inj (next.symm.trans hx)
      refine ⟨{ milestone with confirmed := true }, ?_, hclaimed⟩
      exact List.getElem?_set_self (List.getElem?_eq_some_iff.mp hx).1
    · exact ⟨x, (List.getElem?_set_ne hi).trans hx, hclaimed⟩
  | @claimed recipient id grant token net fee tokens found =>
    refine isClaimed_write hm found rfl fun i x hx hclaimed => ?_
    refine ⟨_, (List.getElem?_map ..).trans (congrArg _ hx), ?_⟩
    dsimp only
    split_ifs
    · rfl
    · exact hclaimed
  | initialized => exact hm
  | feeConfigured => exact hm
  | nothingSwept => exact hm
  | swept => exact hm
  | screened => exact hm
  | rated => exact hm
  | transferred => exact hm

end Steps

/-! ### Runs -/

section Runs
variable [DecidableEq Address] {self : Address} {x : GrantsReceipt Address} {m : ℕ × ℕ}

/-- And claimed after. -/
theorem claimed_of_settles (e : Effect self x.pre x.post x.call.op x.out) (hm : m ∈ settles x) :
    isClaimed x.post m := by
  obtain ⟨recipient, grant, milestone, hop, hgrant, hmilestone, hconf, -⟩ := mem_settles hm
  rw [hop] at e
  generalize x.post = w' at e ⊢
  generalize x.out = out at e
  cases e with
  | @claimed recipient id grant' token net fee tokens found =>
    obtain rfl : grant = grant' := Option.some.inj (hgrant.symm.trans found)
    refine ⟨grant.settled, { milestone with claimed := true }, ?_, ?_, rfl⟩
    · exact Function.update_self _ _ _
    · exact (List.getElem?_map ..).trans (by simp [hmilestone, hconf])
  | screened kind => cases kind

omit [DecidableEq Address] in
theorem stored_deployed (tokens : Address → Token Address) (feeRates : Address → Option ℕ) :
    Stored (deployed tokens feeRates) where
  scheduled _ _ h := by cases h
  unused _ _ := rfl
  fresh _ := ⟨fun _ => rfl, fun _ => rfl⟩

theorem stored_receipt (h : step self x.pre x.call = .ok (x.post, x.out)) (hs : Stored x.pre) :
    Stored x.post := hs.step (step_effect h)

/-- A claim pays its recipient the amounts that it settles, less a fee that is accrued. -/
structure Payout (contract : Address) (x : GrantsReceipt Address) (recipient : Address) : Prop where
  paid : ∃ token fee, x.pre.tokenEntry = some token ∧
    (x.out ≠ 0 → (x.pre.tokens token).Moved (x.post.tokens token) contract recipient x.out) ∧
    accruedFees x.post token = accruedFees x.pre token + fee ∧ 0 ≤ fee ∧
    x.out + fee = ((settles x).map (milestoneAmount x.pre)).sum

theorem payout_of_claim (hs : Stored x.pre) (e : Effect self x.pre x.post x.call.op x.out)
    {recipient : Address} {id : ℕ} (hop : x.call.op = .claim recipient id) :
    Payout self x recipient := by
  obtain ⟨w, tx, out, w'⟩ := x
  dsimp only at hs e hop
  rw [hop] at e
  cases e with
  | @claimed _ _ grant token net fee tokens found own due stored split fee_nonneg paid =>
    obtain ⟨recipient', s, rfl⟩ := hs.scheduled id grant found
    refine ⟨token, fee, stored, fun hne => ?_, ?_, fee_nonneg, ?_⟩
    · rcases paid with ⟨hzero, -⟩ | ⟨-, ledger, hmoved, rfl⟩
      · exact absurd hzero hne
      · simpa using hmoved
    · exact (congrFun (accruedFees_accrue w token fee_nonneg) token).trans (Function.update_self ..)
    · have hpending := sum_pending recipient' s
      have hgross : out + fee = s.due.sum := split
      simp only [settles, hop, found, Option.map_some, Option.getD_some, List.map_map]
      rw [hgross, ← hpending]
      congr 1
      refine List.map_congr_left fun index _ => ?_
      simp [milestoneAmount, found, OnchainGrant.ofSchedule]
  | screened kind => cases kind

/-- A sweep pays its answer to the treasury. -/
theorem payout_of_sweep (e : Effect self x.pre x.post x.call.op x.out) {token : Address}
    (hop : x.call.op = .sweepFees token) (hne : x.out ≠ 0) :
    ∃ treasury, x.pre.treasuryEntry = some treasury ∧
      (x.pre.tokens token).Moved (x.post.tokens token) self treasury x.out := by
  obtain ⟨w, tx, out, w'⟩ := x
  dsimp only at e hop hne ⊢
  rw [hop] at e
  cases e with
  | nothingSwept => exact absurd rfl hne
  | @swept _ treasury ledger stored configured moved =>
    exact ⟨treasury, configured, by simpa using moved⟩
  | screened kind => cases kind

/-- The books of the grants after a history of accepted transactions. -/
structure Conserved (contract : Address) (h : List (GrantsReceipt Address)) (w : World Address) :
    Prop where
  total : ∃ claimed fees, HasTotal (claimedOn w) claimed ∧ HasTotal (accruedFees w) fees ∧
    claimed = (h.map fun x => x.call.op.paidOut x.out).sum + fees +
      (h.map fun x => x.call.op.sweptOut x.out).sum
  claims : ∀ x ∈ h, ∀ recipient id, x.call.op = .claim recipient id → Payout contract x recipient
  sweeps : ∀ x ∈ h, ∀ token, x.call.op = .sweepFees token → x.out ≠ 0 →
    ∃ treasury, x.pre.treasuryEntry = some treasury ∧
      (x.pre.tokens token).Moved (x.post.tokens token) contract treasury x.out
  once : (h.flatMap settles).Nodup
  claimed : ∀ m ∈ h.flatMap settles, isClaimed w m
  within : ∀ id grant, w.grantEntry id = some grant → claimedOn w id ≤ grant.totalAmount

theorem total_step {h : List (GrantsReceipt Address)}
    (total : ∃ claimed fees,
      HasTotal (claimedOn x.pre) claimed ∧ HasTotal (accruedFees x.pre) fees ∧
      claimed = (h.map fun x => x.call.op.paidOut x.out).sum + fees +
        (h.map fun x => x.call.op.sweptOut x.out).sum)
    (hs : Stored x.pre) (e : Effect self x.pre x.post x.call.op x.out) :
    ∃ claimed fees, HasTotal (claimedOn x.post) claimed ∧ HasTotal (accruedFees x.post) fees ∧
      claimed = ((h ++ [x]).map fun x => x.call.op.paidOut x.out).sum + fees +
        ((h ++ [x]).map fun x => x.call.op.sweptOut x.out).sum := by
  obtain ⟨claimed, fees, hclaimed, hfees, heq⟩ := total
  obtain ⟨claimed', fees', hclaimed', hfees', heq'⟩ := money_step hs e hclaimed hfees
  refine ⟨claimed', fees', hclaimed', hfees', ?_⟩
  simp only [List.map_append, List.sum_append, List.map_cons, List.map_nil, List.sum_singleton]
  omega

omit [DecidableEq Address] in
theorem claimedOn_le {w : World Address} (hs : Stored w) {id : ℕ} {grant : OnchainGrant Address}
    (h : w.grantEntry id = some grant) : claimedOn w id ≤ grant.totalAmount := by
  obtain ⟨recipient, s, rfl⟩ := hs.scheduled id grant h
  have hclaimed : claimedOn w id = s.paid.sum := by
    simp [claimedOn, h, claimedAmount_ofSchedule]
  rw [hclaimed]
  exact s.paid_le

theorem conserved_step {h : List (GrantsReceipt Address)}
    (accepted : step self x.pre x.call = .ok (x.post, x.out)) (hs : Stored x.pre)
    (hc : Conserved self h x.pre) : Conserved self (h ++ [x]) x.post := by
  have e := step_effect accepted
  refine ⟨total_step hc.total hs e, ?_, ?_, ?_, ?_, fun id grant => claimedOn_le (hs.step e)⟩
  · exact forall_mem_snoc hc.claims fun recipient id hop => payout_of_claim hs e hop
  · exact forall_mem_snoc hc.sweeps fun token hop hne => payout_of_sweep e hop hne
  · simp only [List.flatMap_append, List.flatMap_singleton]
    refine hc.once.append (settles_nodup x) fun m hm hmx => ?_
    exact unclaimed_of_settles hmx (hc.claimed m hm)
  · intro m hm
    simp only [List.flatMap_append, List.flatMap_singleton, List.mem_append] at hm
    rcases hm with hm | hm
    · exact isClaimed_step hs e (hc.claimed m hm)
    · exact claimed_of_settles e hm

/-- In every run the claimed amounts are what recipients and the treasury were paid
and what is accrued, and no milestone is paid twice. -/
theorem payouts_conserved (self : Address) (tokens : Address → Token Address)
    (feeRates : Address → Option ℕ) (txs : List (Transaction Address)) :
    let r := run (step self) (deployed tokens feeRates) txs
    Conserved self r.2 r.1 := by
  intro r
  have init : Stored (deployed tokens feeRates) ∧ Conserved self [] (deployed tokens feeRates) := by
    refine ⟨stored_deployed tokens feeRates, ?_⟩
    exact ⟨⟨0, 0, .zero, .zero, by simp⟩, by simp, by simp, by simp, by simp, nofun⟩
  refine ((run_trace (step self) _ txs).history (I := fun h w => Stored w ∧ Conserved self h w)
    (fun h x accepted hx => ⟨stored_receipt accepted hx.1, conserved_step accepted hx.1 hx.2⟩)
    init).2

end Runs

end RefractContracts.Grants
