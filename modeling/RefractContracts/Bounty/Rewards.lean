import RefractContracts.Bounty.Writes
import RefractContracts.Host.Storage

/-! One reward per report. The records about reports form a book that four entry
points write. `award` looks for an award record only and `claimByCommitment` for
none, so a report is rewarded twice exactly when a direct award is accepted while
a commitment award of the report is open, and this one is claimed afterwards. -/

namespace RefractContracts.Bounty

open Host

/-! ### The book of reports -/

/-- The award records, the commitment awards, the commitments of the disclosures
and the payments for reports. -/
structure ReportBook (Address Hash : Type) where
  awards : Hash → Option (AwardRecord Address Hash)
  pledges : Hash → Option (CommitmentAwardRecord Hash)
  disclosures : Hash → Option Hash
  rewards : List (Reward Address Hash)

variable {Address Hash : Type}

def book (w : World Address Hash) : ReportBook Address Hash :=
  ⟨w.awardEntry, w.commitmentAwardEntry, w.disclosureCommitmentEntry, w.rewards⟩

/-- The entry points that write the book. -/
def Op.Books : Op Address Hash → Prop
  | .award .. | .submitDisclosure .. | .awardCommitment .. | .claimByCommitment .. => True
  | _ => False

/-- What an operation writes to the book, with the hash of preimages. -/
inductive Booked [DecidableEq Hash] (sha256 : Hash → Hash) (b : ReportBook Address Hash) :
    Op Address Hash → ReportBook Address Hash → Prop
  | awarded {caller researcher amount r time} (fresh : b.awards r = none) :
      Booked sha256 b (.award caller researcher amount r) { b with
        awards := Function.update b.awards r (some ⟨researcher, amount, r, time⟩)
        rewards := b.rewards ++ [⟨r, researcher, amount⟩] }
  | disclosed {submitter r c} (first : b.disclosures r = none) :
      Booked sha256 b (.submitDisclosure submitter r c)
        { b with disclosures := Function.update b.disclosures r (some c) }
  | pledged {caller r c amount time} (fresh : b.awards r = none) (first : b.pledges c = none)
      (bound : b.disclosures r = none ∨ b.disclosures r = some c) :
      Booked sha256 b (.awardCommitment caller r c amount) { b with
        disclosures := Function.update b.disclosures r (some c)
        pledges := Function.update b.pledges c (some ⟨r, c, amount, time, .awarded⟩) }
  | redeemed {caller preimage pledge payee time} (found : b.pledges (sha256 preimage) = some pledge)
      (awarded : pledge.status = .awarded) :
      Booked sha256 b (.claimByCommitment caller preimage) { b with
        pledges := Function.update b.pledges (sha256 preimage)
          (some { pledge with status := .claimed })
        awards := Function.update b.awards pledge.reportHash
          (some ⟨payee, pledge.amount, pledge.reportHash, time⟩)
        rewards := b.rewards ++ [⟨pledge.reportHash, payee, pledge.amount⟩] }
  | unbooked {op} (h : ¬ op.Books) : Booked sha256 b op b

section Refinement
variable [DecidableEq Address] [DecidableEq Hash] {H : Helpers Address Hash} {self : Address}
  {signers : List Address} {w w' : World Address Hash}

omit [DecidableEq Address] [DecidableEq Hash] in
/-- The other entry points write no entry of the book. -/
theorem Wrote.book_eq {op : Op Address Hash} (t : Wrote w op w') (kind : ¬ op.Books) :
    book w' = book w := by
  cases t with
  | award | submitDisclosure | awardCommitment | claimByCommitment => exact absurd trivial kind
  | _ => rfl

theorem award_booked {caller researcher : Address} {amount : ℤ} {r : Hash}
    (h : award H self signers w caller researcher amount r = .ok w') :
    Booked H.hashPreimage (book w) (.award caller researcher amount r) (book w') := by
  simp only [award, bind_eq_ok, bail_eq_ok, pure_eq_ok, Option.not_isSome_iff_eq_none] at h
  obtain ⟨_, -, -, -, -, fresh, -, -, _, -, -, -, _, -, _, -, _, -, _, ht, rfl⟩ := h
  obtain ⟨ledger, -, rfl⟩ := transferToken_ok ht
  exact .awarded fresh

theorem submitDisclosure_booked {submitter : Address} {r c : Hash}
    (h : submitDisclosure H signers w submitter r c = .ok w') :
    Booked H.hashPreimage (book w) (.submitDisclosure submitter r c) (book w') := by
  simp only [submitDisclosure, bind_eq_ok, bail_eq_ok, pure_eq_ok, not_or,
    Option.not_isSome_iff_eq_none] at h
  obtain ⟨-, -, _, -, -, ⟨first, -⟩, -, -, rfl⟩ := h
  exact .disclosed first

theorem awardCommitment_booked {caller : Address} {r c : Hash} {amount : ℤ}
    (h : awardCommitment H signers w caller r c amount = .ok w') :
    Booked H.hashPreimage (book w) (.awardCommitment caller r c amount) (book w') := by
  simp only [awardCommitment, bind_eq_ok, bail_eq_ok, pure_eq_ok,
    Option.not_isSome_iff_eq_none] at h
  obtain ⟨_, -, -, -, -, fresh, -, first, v, hv, _, -, -, -, _, -, _, -, rfl⟩ := h
  rcases adjudicate_ok hv with ⟨hd, rfl⟩ | ⟨hd, rfl⟩
  · have same : Function.update v.disclosureCommitmentEntry r (some c) =
        v.disclosureCommitmentEntry := by rw [← hd, Function.update_eq_self]
    have b := @Booked.pledged _ _ _ H.hashPreimage (book v) caller r c amount v.now fresh first
      (.inr hd)
    simp only [book, same] at b
    exact b
  · exact .pledged fresh first (.inl hd)

theorem claimByCommitment_booked {caller : Address} {preimage : Hash} {paid : ℤ}
    (h : claimByCommitment H self signers w caller preimage = .ok (w', paid)) :
    Booked H.hashPreimage (book w) (.claimByCommitment caller preimage) (book w') := by
  simp only [claimByCommitment, bind_eq_ok, okOr_eq_ok, bail_eq_ok, not_not, pure_eq_ok,
    Prod.mk.injEq] at h
  obtain ⟨-, -, _, -, pledge, found, -, awarded, _, -, -, -, -, -, -, -, _, -, _, -, _, -, _, -,
    _, -, _, ht, rfl, -⟩ := h
  obtain ⟨ledger, -, rfl⟩ := transferToken_ok ht
  exact .redeemed found awarded

/-- The contract keeps the book. -/
theorem step_booked {tx : Transaction Address Hash} {out : ℤ}
    (h : step H self w tx = .ok (w', out)) :
    Booked H.hashPreimage (book w) tx.op (book w') := by
  by_cases kind : tx.op.Books
  · obtain ⟨signers, op⟩ := tx
    cases op with
    | award caller researcher amount r =>
      simp only [step, bind_eq_ok, pure_eq_ok, Prod.mk.injEq] at h
      obtain ⟨_, ha, rfl, -⟩ := h
      exact award_booked ha
    | submitDisclosure submitter r c =>
      simp only [step, bind_eq_ok, pure_eq_ok, Prod.mk.injEq] at h
      obtain ⟨_, hd, rfl, -⟩ := h
      exact submitDisclosure_booked hd
    | awardCommitment caller r c amount =>
      simp only [step, bind_eq_ok, pure_eq_ok, Prod.mk.injEq] at h
      obtain ⟨_, ha, rfl, -⟩ := h
      exact awardCommitment_booked ha
    | claimByCommitment caller preimage => exact claimByCommitment_booked h
    | _ => exact kind.elim
  · rw [(step_wrote h).book_eq kind]
    exact .unbooked kind

end Refinement

/-! ### Single rewards -/

section Single
variable [DecidableEq Hash] {sha256 : Hash → Hash} {b b' : ReportBook Address Hash}
  {op : Op Address Hash} {c r : Hash} {pledge : CommitmentAwardRecord Hash}

/-- The disclosure of an awarded report is bound to the commitment of the award. -/
def Linked (b : ReportBook Address Hash) : Prop :=
  ∀ c pledge, b.pledges c = some pledge → b.disclosures pledge.reportHash = some c

theorem Booked.linked (h : Booked sha256 b op b') (l : Linked b) : Linked b' := by
  cases h with
  | awarded => exact l
  | @disclosed submitter r c first =>
    intro c' pledge hp
    have hr : pledge.reportHash ≠ r := ne_of_absent first (l c' pledge hp)
    simpa [hr] using l c' pledge hp
  | @pledged caller r c amount time fresh first bound =>
    intro c' pledge hp
    by_cases hc : c' = c
    · subst hc
      obtain rfl : _ = pledge := by simpa using hp
      exact Function.update_self _ _ _
    · have hold := l c' pledge (by simpa [hc] using hp)
      have hr : pledge.reportHash ≠ r := by
        rintro rfl
        rcases bound with hnone | hsome
        · simp [hnone] at hold
        · exact hc (Option.some.inj (hold.symm.trans hsome))
      simpa [hr] using hold
  | @redeemed caller preimage old payee time found awarded =>
    have same : b.disclosures old.reportHash = some (sha256 preimage) := l _ _ found
    exact forall_update l rfl same
  | unbooked => exact l

/-- Every payment has left an award record. -/
def Recorded (b : ReportBook Address Hash) : Prop :=
  ∀ e ∈ b.rewards, b.awards e.reportHash ≠ none

theorem Recorded.record {record : AwardRecord Address Hash} {e : Reward Address Hash}
    (i : Recorded b) (he : e.reportHash = r) :
    Recorded { b with
      awards := Function.update b.awards r (some record), rewards := b.rewards ++ [e] } := by
  intro d hd
  change Function.update b.awards r (some record) d.reportHash ≠ none
  by_cases hr : d.reportHash = r
  · simp [hr]
  · rcases List.mem_append.mp hd with hd | hd
    · simpa [hr] using i d hd
    · obtain rfl := List.mem_singleton.mp hd
      exact absurd he hr

theorem Booked.recorded (h : Booked sha256 b op b') (i : Recorded b) : Recorded b' := by
  cases h with
  | awarded => exact i.record rfl
  | redeemed => exact i.record rfl
  | _ => exact i

omit [DecidableEq Hash] in
/-- A payment for a report that has no award record yet. -/
theorem Recorded.nodup {e : Reward Address Hash} (i : Recorded b)
    (fresh : b.awards e.reportHash = none) (once : (b.rewards.map (·.reportHash)).Nodup) :
    ((b.rewards ++ [e]).map (·.reportHash)).Nodup := by
  rw [List.map_append]
  refine List.nodup_append'.mpr ⟨once, List.nodup_singleton _, fun s hs he => ?_⟩
  obtain rfl := List.mem_singleton.mp he
  obtain ⟨d, hd, hr⟩ := List.mem_map.mp hs
  exact i d hd (hr ▸ fresh)

omit [DecidableEq Hash] in
theorem Booked.rewards_prefix [DecidableEq Hash] (h : Booked sha256 b op b') :
    b.rewards <+: b'.rewards := by
  cases h with
  | awarded => exact List.prefix_append _ _
  | redeemed => exact List.prefix_append _ _
  | _ => exact List.prefix_rfl

/-- A commitment award stays on record, for the same report. -/
theorem Booked.pledge_kept (h : Booked sha256 b op b') (found : b.pledges c = some pledge) :
    ∃ pledge', b'.pledges c = some pledge' ∧ pledge'.reportHash = pledge.reportHash := by
  cases h with
  | awarded => exact ⟨pledge, found, rfl⟩
  | disclosed => exact ⟨pledge, found, rfl⟩
  | @pledged caller r c' amount time fresh first bound =>
    have hc : c ≠ c' := ne_of_absent first found
    exact ⟨pledge, by simpa [hc] using found, rfl⟩
  | @redeemed caller preimage old payee time hold awarded =>
    by_cases hc : c = sha256 preimage
    · subst hc
      obtain rfl := Option.some.inj (hold.symm.trans found)
      exact ⟨_, Function.update_self _ _ _, rfl⟩
    · exact ⟨pledge, by simpa [hc] using found, rfl⟩
  | unbooked => exact ⟨pledge, found, rfl⟩

end Single

abbrev Event (Address Hash : Type) := Receipt (World Address Hash) (Transaction Address Hash) ℤ

/-- What the book is for: no report is paid for twice, and no award record is
overwritten. -/
structure SingleReward (h : List (Event Address Hash)) (b : ReportBook Address Hash) : Prop where
  once : (b.rewards.map (·.reportHash)).Nodup
  kept : ∀ x ∈ h, ∀ r record, x.pre.awardEntry r = some record →
    x.post.awardEntry r = some record

/-- A direct award of the report whose commitment award at `c` is open. -/
def AwardsOpen (c : Hash) (x : Event Address Hash) : Prop :=
  ∃ caller researcher amount pledge,
    x.call.op = .award caller researcher amount pledge.reportHash ∧
      x.pre.commitmentAwardEntry c = some pledge ∧ pledge.status = .awarded

/-- Such an award, and later the claim of the commitment award. -/
def CrossRewarded (sha256 : Hash → Hash) (h : List (Event Address Hash)) : Prop :=
  ∃ g x l y k caller preimage, h = g ++ x :: (l ++ y :: k) ∧ AwardsOpen (sha256 preimage) x ∧
    y.call.op = .claimByCommitment caller preimage

section Histories
variable [DecidableEq Hash] {sha256 : Hash → Hash} {h : List (Event Address Hash)}
  {x : Event Address Hash} {b b' : ReportBook Address Hash} {op : Op Address Hash}

omit [DecidableEq Hash] in
theorem CrossRewarded.snoc (hc : CrossRewarded sha256 h) (x : Event Address Hash) :
    CrossRewarded sha256 (h ++ [x]) := by
  obtain ⟨g, y, l, z, k, caller, preimage, rfl, hy, hz⟩ := hc
  exact ⟨g, y, l, z, k ++ [x], caller, preimage, by simp, hy, hz⟩

/-- The book with the history that led to it: an open commitment award of a
rewarded report was open when the report was awarded directly. -/
structure Audited (sha256 : Hash → Hash) (h : List (Event Address Hash))
    (b : ReportBook Address Hash) : Prop where
  linked : Linked b
  recorded : Recorded b
  crossed : ∀ c pledge, b.pledges c = some pledge → pledge.status = .awarded →
    b.awards pledge.reportHash ≠ none → ∃ x ∈ h, AwardsOpen c x
  single : ¬ CrossRewarded sha256 h → SingleReward h b

omit [DecidableEq Hash] in
/-- A claimed report has no award record unless it was awarded beside the commitment. -/
theorem Audited.fresh_of_claim {caller : Address} {preimage : Hash}
    {pledge : CommitmentAwardRecord Hash} (i : Audited sha256 h b)
    (hop : x.call.op = .claimByCommitment caller preimage)
    (found : b.pledges (sha256 preimage) = some pledge) (awarded : pledge.status = .awarded)
    (hn : ¬ CrossRewarded sha256 (h ++ [x])) : b.awards pledge.reportHash = none := by
  by_contra hne
  obtain ⟨y, hy, hopen⟩ := i.crossed _ _ found awarded hne
  obtain ⟨g, l, rfl⟩ := List.append_of_mem hy
  exact hn ⟨g, y, l, x, [], caller, preimage, by simp, hopen, hop⟩

theorem Booked.crossed (hb : Booked sha256 b x.call.op b') (hpre : book x.pre = b)
    (i : Audited sha256 h b) (c : Hash) (pledge : CommitmentAwardRecord Hash)
    (found : b'.pledges c = some pledge) (awarded : pledge.status = .awarded)
    (hne : b'.awards pledge.reportHash ≠ none) : ∃ y ∈ h ++ [x], AwardsOpen c y := by
  have old : b.pledges c = some pledge → b.awards pledge.reportHash ≠ none →
      ∃ y ∈ h ++ [x], AwardsOpen c y := by
    intro hf hn
    obtain ⟨y, hy, hopen⟩ := i.crossed c pledge hf awarded hn
    exact ⟨y, List.mem_append_left _ hy, hopen⟩
  generalize hop : x.call.op = op at hb
  cases hb with
  | @awarded caller researcher amount r time fresh =>
    by_cases hr : pledge.reportHash = r
    · subst hr
      have hstored : x.pre.commitmentAwardEntry c = some pledge := by
        rw [← found, ← hpre]
        rfl
      exact ⟨x, by simp, caller, researcher, amount, pledge, hop, hstored, awarded⟩
    · exact old found (by simpa [hr] using hne)
  | disclosed => exact old found hne
  | @pledged caller r c' amount time fresh first bound =>
    by_cases hc : c = c'
    · subst hc
      obtain rfl : _ = pledge := by simpa using found
      exact absurd fresh hne
    · exact old (by simpa [hc] using found) hne
  | @redeemed caller preimage claimed payee time hclaimed hstatus =>
    have hc : c ≠ sha256 preimage := by
      rintro rfl
      obtain rfl : _ = pledge := by simpa using found
      cases awarded
    have hf : b.pledges c = some pledge := by simpa [hc] using found
    -- two commitment awards are never for one report
    have hr : pledge.reportHash ≠ claimed.reportHash := by
      intro he
      have h₁ := i.linked _ _ hf
      have h₂ := i.linked _ _ hclaimed
      rw [he, h₂] at h₁
      exact hc (Option.some.inj h₁).symm
    exact old hf (by simpa [hr] using hne)
  | unbooked => exact old found hne

theorem Booked.single (hb : Booked sha256 b x.call.op b') (hpre : book x.pre = b)
    (hpost : book x.post = b') (i : Audited sha256 h b)
    (hn : ¬ CrossRewarded sha256 (h ++ [x])) : SingleReward (h ++ [x]) b' := by
  have before := i.single fun hc => hn (hc.snoc x)
  have hawards : x.pre.awardEntry = b.awards := congrArg ReportBook.awards hpre
  have hawards' : x.post.awardEntry = b'.awards := congrArg ReportBook.awards hpost
  -- the new receipt overwrites no record if it writes only where there is none
  have extend : (b'.rewards.map (·.reportHash)).Nodup →
      (∀ r record, b.awards r = some record → b'.awards r = some record) →
      SingleReward (h ++ [x]) b' := by
    intro once kept
    refine ⟨once, forall_mem_snoc before.kept fun r record hr => ?_⟩
    rw [hawards] at hr
    rw [hawards']
    exact kept r record hr
  have write : ∀ {r : Hash} {new : AwardRecord Address Hash}, b.awards r = none →
      ∀ s record, b.awards s = some record →
        Function.update b.awards r (some new) s = some record := by
    intro r new fresh s record hs
    rwa [Function.update_of_ne (ne_of_absent fresh hs)]
  generalize hop : x.call.op = op at hb
  cases hb with
  | awarded fresh => exact extend (i.recorded.nodup fresh before.once) (write fresh)
  | disclosed => exact extend before.once fun _ _ hr => hr
  | pledged => exact extend before.once fun _ _ hr => hr
  | redeemed found awarded =>
    have fresh := i.fresh_of_claim hop found awarded hn
    exact extend (i.recorded.nodup fresh before.once) (write fresh)
  | unbooked => exact extend before.once fun _ _ hr => hr

end Histories

section Runs
variable [DecidableEq Address] [DecidableEq Hash] {H : Helpers Address Hash} {self : Address}
  {h : List (Event Address Hash)} {now : ℕ} {tokens : Address → Token Address}
  {w w' : World Address Hash}

theorem audited_step (h : List (Event Address Hash)) (x : Event Address Hash)
    (hx : step H self x.pre x.call = .ok (x.post, x.out))
    (i : Audited H.hashPreimage h (book x.pre)) :
    Audited H.hashPreimage (h ++ [x]) (book x.post) where
  linked := (step_booked hx).linked i.linked
  recorded := (step_booked hx).recorded i.recorded
  crossed := (step_booked hx).crossed rfl i
  single := (step_booked hx).single rfl rfl i

omit [DecidableEq Address] [DecidableEq Hash] in
theorem audited_deployed (sha256 : Hash → Hash) (now : ℕ) (tokens : Address → Token Address) :
    Audited sha256 [] (book (deployed Hash now tokens)) where
  linked _ _ found := nomatch found
  recorded _ he := nomatch he
  crossed _ _ found := nomatch found
  single _ := ⟨List.nodup_nil, fun _ hx => nomatch hx⟩

theorem audited_trace (tr : Trace (step H self) (deployed Hash now tokens) h w) :
    Audited H.hashPreimage h (book w) :=
  tr.history (I := fun h w => Audited H.hashPreimage h (book w))
    (fun h x hx i => audited_step h x hx i) (audited_deployed H.hashPreimage now tokens)

/-- Between two states of a run the payments grow and commitment awards stay. -/
theorem book_trace (tr : Trace (step H self) w h w') :
    (book w).rewards <+: (book w').rewards ∧ ∀ c pledge, (book w).pledges c = some pledge →
      ∃ pledge', (book w').pledges c = some pledge' ∧
        pledge'.reportHash = pledge.reportHash := by
  induction tr with
  | nil => exact ⟨List.prefix_rfl, fun c pledge found => ⟨pledge, found, rfl⟩⟩
  | snoc x _ hx ih =>
    have hb := step_booked hx
    refine ⟨ih.1.trans hb.rewards_prefix, fun c pledge found => ?_⟩
    obtain ⟨pledge₁, found₁, h₁⟩ := ih.2 c pledge found
    obtain ⟨pledge₂, found₂, h₂⟩ := hb.pledge_kept found₁
    exact ⟨pledge₂, found₂, h₂.trans h₁⟩

/-- After an award beside the commitment the claim pays for the same report again. -/
theorem not_nodup_of_crossRewarded (tr : Trace (step H self) w h w')
    (hc : CrossRewarded H.hashPreimage h) : ¬ ((book w').rewards.map (·.reportHash)).Nodup := by
  obtain ⟨g, x, l, y, k, caller, preimage, rfl, ⟨_, researcher, amount, pledge, hop, found, -⟩,
    hy⟩ := hc
  obtain ⟨-, hx, tail⟩ := tr.at_receipt
  obtain ⟨between, hclaim, rest⟩ := tail.at_receipt
  -- the direct award
  have first : pledge.reportHash ∈ (book x.post).rewards.map (·.reportHash) := by
    have hb := step_booked hx
    rw [hop] at hb
    generalize book x.post = b' at hb
    cases hb with
    | awarded => simp
    | unbooked hno => exact absurd trivial hno
  obtain ⟨pledge₁, found₁, h₁⟩ := (step_booked hx).pledge_kept found
  obtain ⟨grown, kept⟩ := book_trace between
  obtain ⟨pledge₂, found₂, h₂⟩ := kept _ _ found₁
  -- the claim
  have again : ∃ e : Reward Address Hash, e.reportHash = pledge.reportHash ∧
      (book y.post).rewards = (book y.pre).rewards ++ [e] := by
    have hb := step_booked hclaim
    rw [hy] at hb
    generalize book y.post = b' at hb
    cases hb with
    | redeemed found' =>
      obtain rfl := Option.some.inj (found'.symm.trans found₂)
      exact ⟨_, h₂.trans h₁, rfl⟩
    | unbooked hno => exact absurd trivial hno
  obtain ⟨e, he, hpaid⟩ := again
  intro nodup
  have twice : ((book y.post).rewards.map (·.reportHash)).Nodup :=
    nodup.sublist ((book_trace rest).1.map _).sublist
  rw [hpaid, List.map_append] at twice
  refine (List.nodup_append'.mp twice).2.2 ((grown.map _).subset first) ?_
  simp [he]

/-- Every report is rewarded once and no record is overwritten, exactly in the
runs that claim no commitment award beside which the report was awarded. -/
theorem singleReward_iff_not_crossRewarded (H : Helpers Address Hash) (self : Address) (now : ℕ)
    (tokens : Address → Token Address) (calls : List (Transaction Address Hash)) :
    SingleReward (run (step H self) (deployed Hash now tokens) calls).2
        (book (run (step H self) (deployed Hash now tokens) calls).1) ↔
      ¬ CrossRewarded H.hashPreimage (run (step H self) (deployed Hash now tokens) calls).2 := by
  have tr := run_trace (step H self) (deployed Hash now tokens) calls
  constructor
  · intro s hc
    exact not_nodup_of_crossRewarded tr hc s.once
  · exact (audited_trace tr).single

end Runs

/-- Governance 1 awards report 7 against commitment 5, then directly, and the
reporter claims the commitment award. -/
def awardedBeside : List (Transaction ℕ ℕ) :=
  [⟨[], .initializeContract 1 9⟩, ⟨[2], .fund 2 1000⟩, ⟨[], .screen 3 (some .allowed)⟩,
    ⟨[4], .submitDisclosure 4 7 5⟩, ⟨[4], .registerPayoutAddress 4 5 6⟩,
    ⟨[1], .awardCommitment 1 7 5 100⟩, ⟨[1], .award 1 3 100 7⟩, ⟨[4], .claimByCommitment 4 5⟩]

/-- Report 7 is paid for twice, and its award record names another researcher. -/
theorem awardedBeside_rewards_twice :
    let r := run (step (storedHelpers id) 0) (deployed ℕ 0 fun _ => Token.empty.mint 2 1000)
      awardedBeside
    r.1.rewards.map (fun e => (e.reportHash, e.payee, e.amount)) = [(7, 3, 100), (7, 6, 100)] ∧
      (r.1.awardEntry 7).map (·.researcher) = some 6 ∧ ¬ SingleReward r.2 (book r.1) := by
  intro r
  have hpaid : r.1.rewards.map (fun e => (e.reportHash, e.payee, e.amount)) =
      [(7, 3, 100), (7, 6, 100)] := by decide +kernel
  have htwice : ¬ (r.1.rewards.map (·.reportHash)).Nodup := by decide +kernel
  exact ⟨hpaid, by decide +kernel, fun s => htwice s.once⟩

end RefractContracts.Bounty
