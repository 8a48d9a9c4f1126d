import RefractContracts.Appeals.Effects
import RefractContracts.Host.Ballots
import RefractContracts.Host.Storage

/-! Appeal panels. The tallies of a round are the numbers of the members of its panel who
voted so under its version; a panel that replaces another starts without votes. What a
panel decides is the strict majority of all its members, once all of them have voted. -/

namespace RefractContracts.Appeals

open Host

variable {Address : Type}

instance : Fintype AppealVote where
  elems := {.uphold, .overturn, .escalate}
  complete vote := by cases vote <;> simp

theorem sum_votes (f : AppealVote → ℕ) :
    ∑ vote, f vote = f .uphold + f .overturn + f .escalate := by
  show ∑ vote ∈ {.uphold, .overturn, .escalate}, f vote = _
  simp [add_assoc]

namespace Appeal

/-- The tally of one kind of vote. -/
def tally (appeal : Appeal Address) : AppealVote → ℕ
  | .uphold => appeal.uphold
  | .overturn => appeal.overturn
  | .escalate => appeal.escalate

theorem tally_tallied (appeal : Appeal Address) (vote other : AppealVote) :
    (appeal.tallied vote).tally other = appeal.tally other + if vote = other then 1 else 0 := by
  cases vote <;> cases other <;> rfl

theorem tally_resolved (appeal : Appeal Address) (outcome : AppealOutcome) (now : ℕ) :
    (appeal.resolved outcome now).tally = appeal.tally := by
  funext vote
  cases vote <;> rfl

theorem tally_decided (appeal : Appeal Address) (outcome : AppealOutcome) (now : ℕ) (hash : Hash) :
    (appeal.decided outcome now hash).tally = appeal.tally := by
  funext vote
  cases vote <;> rfl

theorem voted_eq_sum (appeal : Appeal Address) : appeal.voted = ∑ vote, appeal.tally vote := by
  rw [sum_votes]
  rfl

end Appeal

namespace RefractGrants

/-- What the members voted in a round, under a version of its panel. -/
def votesUnder (s : RefractGrants Address) (appId round panelVersion : ℕ) (member : Address) :
    Option AppealVote :=
  (s.votes ⟨appId, round, panelVersion, member⟩).map AppealVoteRecord.vote

variable [DecidableEq Address]

/-- The members of the panel who voted so under its version. -/
def votersFor (s : RefractGrants Address) (appId round : ℕ) (appeal : Appeal Address)
    (vote : AppealVote) : Finset Address :=
  voters appeal.panel.toFinset (s.votesUnder appId round appeal.panelVersion) vote

/-- Every tally of the round is the number of members who voted so. -/
def Tallied (s : RefractGrants Address) (appId round : ℕ) (appeal : Appeal Address) : Prop :=
  ∀ vote, appeal.tally vote = (s.votersFor appId round appeal vote).card

/-- The applications with their appeals and votes. -/
structure Sound (s : RefractGrants Address) : Prop where
  bounded : ∀ appId app, s.applications appId = some app → app.appealsUsed ≤ app.appealsAllowed
  appealed : ∀ key appeal, s.appeals key = some appeal → ∃ app, s.applications key.1 = some app ∧
    key.2 ≤ app.appealsUsed ∧ ∀ m ∈ appeal.panel, m ≠ app.applicant ∧ m ∉ app.reviewers
  tallied : ∀ key appeal, s.appeals key = some appeal → s.Tallied key.1 key.2 appeal
  cast : ∀ key record, s.votes key = some record → ∃ appeal,
    s.appeals (key.appId, key.round) = some appeal ∧ key.panelVersion ≤ appeal.panelVersion

variable {s : RefractGrants Address} {appId round : ℕ} {appeal appeal' : Appeal Address}
  {app app' : Application Address} {member : Address} {record : AppealVoteRecord}

theorem Tallied.voted_eq (t : s.Tallied appId round appeal) :
    appeal.voted = ∑ vote, (s.votersFor appId round appeal vote).card := by
  rw [appeal.voted_eq_sum]
  exact Finset.sum_congr rfl fun vote _ => t vote

theorem Tallied.voted_le (t : s.Tallied appId round appeal) :
    appeal.voted ≤ appeal.panel.length := by
  rw [t.voted_eq]
  exact (sum_card_voters_le _ _).trans appeal.panel.toFinset_card_le

/-- A full count is a vote of everyone. -/
theorem Tallied.everyone (t : s.Tallied appId round appeal)
    (complete : appeal.voted = appeal.panel.length) :
    ∀ m ∈ appeal.panel, (s.votesUnder appId round appeal.panelVersion m).isSome := by
  have hcard : ∑ vote, (s.votersFor appId round appeal vote).card = appeal.panel.toFinset.card := by
    apply le_antisymm (sum_card_voters_le _ _)
    exact appeal.panel.toFinset_card_le.trans_eq (complete.symm.trans t.voted_eq)
  intro m hm
  exact forall_voted_iff.mpr hcard m (List.mem_toFinset.mpr hm)

/-- A vote of everyone on a panel without repetitions is a full count. -/
theorem Tallied.complete (t : s.Tallied appId round appeal) (distinct : appeal.panel.Nodup)
    (everyone : ∀ m ∈ appeal.panel, (s.votesUnder appId round appeal.panelVersion m).isSome) :
    appeal.voted = appeal.panel.length := by
  rw [t.voted_eq, ← List.toFinset_card_of_nodup distinct]
  exact forall_voted_iff.mp fun m hm => everyone m (List.mem_toFinset.mp hm)

/-! ### Writes -/

theorem votesUnder_putVote_self {panelVersion : ℕ} :
    (s.putVote ⟨appId, round, panelVersion, member⟩ record).votesUnder appId round panelVersion =
      Function.update (s.votesUnder appId round panelVersion) member (some record.vote) := by
  funext m
  by_cases h : m = member
  · subst h
    simp [votesUnder, putVote]
  · simp [votesUnder, putVote, h]

theorem votesUnder_putVote_of_ne {key : VoteKey Address}
    (h : (appId, round) ≠ (key.appId, key.round)) (panelVersion : ℕ) :
    (s.putVote key record).votesUnder appId round panelVersion =
      s.votesUnder appId round panelVersion := by
  funext m
  have hkey : (⟨appId, round, panelVersion, m⟩ : VoteKey Address) ≠ key := by
    rintro rfl
    exact h rfl
  simp [votesUnder, putVote, hkey]

namespace Sound

/-- A write of an application that keeps its applicant and its reviewers. -/
theorem after_writeApp (i : Sound s) (stored : s.applications appId = some app)
    (app' : Application Address) (applicant_eq : app'.applicant = app.applicant)
    (reviewers_eq : app'.reviewers = app.reviewers) (used : app.appealsUsed ≤ app'.appealsUsed)
    (bounded : app'.appealsUsed ≤ app'.appealsAllowed) : Sound (s.writeApp appId app') where
  bounded := forall_update i.bounded rfl bounded
  appealed key appeal happeal := by
    obtain ⟨app₀, happ₀, hround, hpanel⟩ := i.appealed key appeal happeal
    rcases stored_update happ₀ stored app' with ⟨-, rfl, h⟩ | ⟨-, h⟩
    · refine ⟨app', h, hround.trans used, ?_⟩
      rwa [applicant_eq, reviewers_eq]
    · exact ⟨app₀, h, hround, hpanel⟩
  tallied := i.tallied
  cast := i.cast

/-- A write of a round whose panel is independent, and as new as the one before it. -/
theorem after_putAppeal (i : Sound s) (stored : s.applications appId = some app)
    (hround : round ≤ app.appealsUsed)
    (independent : ∀ m ∈ appeal'.panel, m ≠ app.applicant ∧ m ∉ app.reviewers)
    (tallied : s.Tallied appId round appeal')
    (newer : ∀ a, s.appeals (appId, round) = some a → a.panelVersion ≤ appeal'.panelVersion) :
    Sound (s.putAppeal appId round appeal') where
  bounded := i.bounded
  appealed := forall_update i.appealed rfl ⟨app, stored, hround, independent⟩
  tallied := forall_update i.tallied rfl tallied
  cast key record hvote := by
    obtain ⟨a, ha, hle⟩ := i.cast key record hvote
    by_cases hkey : (key.appId, key.round) = (appId, round)
    · rw [hkey] at ha ⊢
      exact ⟨appeal', Function.update_self _ _ _, hle.trans (newer a ha)⟩
    · exact ⟨a, (Function.update_of_ne hkey _ _).trans ha, hle⟩

/-- A round is written with the panel and the tallies it had. -/
theorem rewrite (i : Sound s) (found : s.appeals (appId, round) = some appeal)
    (appeal' : Appeal Address) (panel_eq : appeal'.panel = appeal.panel)
    (version_eq : appeal'.panelVersion = appeal.panelVersion)
    (tally_eq : appeal'.tally = appeal.tally) : Sound (s.putAppeal appId round appeal') := by
  obtain ⟨app, stored, hround, independent⟩ := i.appealed _ _ found
  apply i.after_putAppeal stored hround
  · rwa [panel_eq]
  · intro vote
    rw [tally_eq, votersFor, panel_eq, version_eq]
    exact i.tallied _ _ found vote
  · intro a ha
    rw [version_eq, Option.some.inj (found.symm.trans ha)]

/-- A first vote of a member, with its count. -/
theorem castVote (i : Sound s) (record : AppealVoteRecord)
    (found : s.appeals (appId, round) = some appeal) (seated : member ∈ appeal.panel)
    (fresh : s.votes ⟨appId, round, appeal.panelVersion, member⟩ = none) :
    Sound ((s.putVote ⟨appId, round, appeal.panelVersion, member⟩ record).putAppeal appId round
      (appeal.tallied record.vote)) := by
  obtain ⟨app, stored, hround, independent⟩ := i.appealed _ _ found
  refine ⟨i.bounded, forall_update i.appealed rfl ?_, ?_, ?_⟩
  · refine ⟨app, stored, hround, ?_⟩
    rwa [Appeal.tallied_panel]
  · intro key a ha vote
    rcases update_eq_some ha with ⟨rfl, rfl⟩ | ⟨hkey, ha⟩
    · show _ = (voters (appeal.tallied record.vote).panel.toFinset
        ((s.putVote _ record).votesUnder appId round (appeal.tallied record.vote).panelVersion)
          vote).card
      rw [Appeal.tally_tallied, Appeal.tallied_panel, Appeal.tallied_panelVersion,
        votesUnder_putVote_self, card_voters_update (by simpa using seated)
          (by simp [votesUnder, fresh]), i.tallied _ _ found vote, votersFor]
    · show _ = (voters a.panel.toFinset ((s.putVote _ record).votesUnder key.1 key.2 _) vote).card
      rw [votesUnder_putVote_of_ne (by simpa using hkey)]
      exact i.tallied _ _ ha vote
  · have hcast : ∀ key record', s.votes key = some record' → ∃ a,
        Function.update s.appeals (appId, round) (some (appeal.tallied record.vote))
          (key.appId, key.round) = some a ∧ key.panelVersion ≤ a.panelVersion := by
      intro key record' hvote
      obtain ⟨a, ha, hle⟩ := i.cast key record' hvote
      rcases stored_update ha found (appeal.tallied record.vote) with ⟨-, rfl, h⟩ | ⟨-, h⟩
      · exact ⟨_, h, by rwa [Appeal.tallied_panelVersion]⟩
      · exact ⟨a, h, hle⟩
    refine forall_update hcast rfl ⟨_, Function.update_self _ _ _, ?_⟩
    rw [Appeal.tallied_panelVersion]

end Sound

/-! ### Transactions -/

variable {validatePanel : List Address → Outcome GrantsError Unit} {s' : RefractGrants Address}
  {tx : Transaction Address} {out : Answer}

theorem new_sound (applications : ℕ → Option (Application Address)) : Sound (new applications) := by
  refine ⟨fun appId app h => ?_, nofun, nofun, nofun⟩
  obtain ⟨app₀, -, rfl⟩ := Option.map_eq_some_iff.mp h
  exact Nat.zero_le _

/-- A new round has no votes to count. -/
theorem tallied_new {evidenceHash : Hash} {now : ℕ} :
    s.Tallied appId round (.new round evidenceHash now) := by
  intro vote
  rw [votersFor, voters_eq_empty (by simp [Appeal.new])]
  cases vote <;> rfl

/-- A new panel has no votes to count. -/
theorem Sound.tallied_impanelled (i : Sound s) (found : s.appeals (appId, round) = some appeal)
    (panel : List Address) (now : ℕ) : s.Tallied appId round (appeal.impanelled panel now) := by
  have hnone : ∀ m, s.votesUnder appId round (appeal.panelVersion + 1) m = none := by
    intro m
    rw [votesUnder, Option.map_eq_none_iff, Option.eq_none_iff_forall_ne_some]
    intro record hvote
    obtain ⟨a, ha, hle⟩ := i.cast _ record hvote
    obtain rfl := Option.some.inj (found.symm.trans ha)
    exact absurd hle (Nat.not_succ_le_self _)
  intro vote
  have hempty : s.votersFor appId round (appeal.impanelled panel now) vote = ∅ :=
    voters_eq_empty (fun m _ => hnone m) vote
  rw [hempty]
  cases vote <;> rfl

theorem Sound.of_effect (i : Sound s) (h : Effect validatePanel s s' tx out) : Sound s' := by
  cases h with
  | @submitted env applicant appId evidenceHash app stored own rejected allowed =>
    have happ := i.after_writeApp stored { app with
      appealsUsed := app.appealsUsed + 1, status := .appealSubmitted } rfl rfl
      (Nat.le_succ _) allowed
    refine happ.after_putAppeal (Function.update_self _ _ _) le_rfl nofun tallied_new fun a ha => ?_
    obtain ⟨app₀, happ₀, hround, -⟩ := i.appealed _ _ ha
    obtain rfl := Option.some.inj (stored.symm.trans happ₀)
    exact absurd hround (Nat.not_succ_le_self _)
  | @assigned env caller appId panel app appeal stored appealed valid independent found =>
    have happeal := i.after_putAppeal stored le_rfl independent
      (i.tallied_impanelled found panel env.now) fun a ha => ?_
    · exact happeal.after_writeApp stored _ rfl rfl le_rfl (i.bounded appId app stored)
    · rw [← Option.some.inj (found.symm.trans ha)]
      exact Nat.le_succ _
  | voted stored reviewed found seated fresh incomplete => exact i.castVote _ found seated fresh
  | @settled env member appId vote reviewHash app appeal stored reviewed found seated fresh
      complete =>
    have hcast := i.castVote ⟨vote, reviewHash, env.now⟩ found seated fresh
    have happeal := hcast.rewrite (Function.update_self _ _ _)
      ((appeal.tallied vote).resolved (appeal.tallied vote).majority.1 env.now) rfl rfl
      (Appeal.tally_resolved _ _ _)
    have happ := happeal.after_writeApp stored
      { app with status := (appeal.tallied vote).majority.2 } rfl rfl le_rfl
      (i.bounded appId app stored)
    simpa [writeApp, putAppeal, putVote] using happ
  | @escalated env appId app appeal stored appealed found =>
    have happeal := i.rewrite found (appeal.resolved .escalated env.now) rfl rfl
      (Appeal.tally_resolved _ _ _)
    exact happeal.after_writeApp stored _ rfl rfl le_rfl (i.bounded appId app stored)
  | @decided env caller appId overturn reasonHash app appeal authorised stored answered found =>
    have happeal := i.rewrite found (appeal.decided (verdict overturn).1 env.now reasonHash) rfl rfl
      (Appeal.tally_decided _ _ _ _)
    exact happeal.after_writeApp stored _ rfl rfl le_rfl (i.bounded appId app stored)
  | @reopened env caller appId app stored upheld =>
    have hbound := i.bounded appId app stored
    exact i.after_writeApp stored _ rfl rfl le_rfl (hbound.trans (Nat.le_succ _))
  | @funded env appId app stored =>
    exact i.after_writeApp stored _ rfl rfl le_rfl (i.bounded appId app stored)

/-! ### Outcomes -/

/-- Everyone on the panel has voted, and the round has the outcome of their votes. -/
structure PanelDecided (s : RefractGrants Address) (appId : ℕ) (app : Application Address)
    (appeal : Appeal Address) : Prop where
  everyone : ∀ m ∈ appeal.panel,
    (s.votesUnder appId app.appealsUsed appeal.panelVersion m).isSome = true
  overturned : appeal.outcome = .overturned ∧ app.status = .overturned ↔
    appeal.panel.length < 2 * appeal.overturn
  upheld : appeal.outcome = .upheld ∧ app.status = .upheld ↔
    appeal.panel.length < 2 * appeal.uphold
  escalated : appeal.outcome = .escalated ∧ app.status = .escalated ↔
    2 * appeal.overturn ≤ appeal.panel.length ∧ 2 * appeal.uphold ≤ appeal.panel.length

/-- A vote leaves the round open, with someone still to vote on a panel without
repetitions, or the panel has decided. -/
def Reviewed (s s' : RefractGrants Address) (appId : ℕ) : Prop :=
  ∃ app app' appeal appeal', s.applications appId = some app ∧
    s'.applications appId = some app' ∧ s.appeals (appId, app.appealsUsed) = some appeal ∧
    s'.appeals (appId, app'.appealsUsed) = some appeal' ∧
    ((app'.status = .underReReview ∧ appeal'.outcome = appeal.outcome ∧
      (appeal'.panel.Nodup → ∃ m ∈ appeal'.panel,
        s'.votesUnder appId app'.appealsUsed appeal'.panelVersion m = none)) ∨
      PanelDecided s' appId app' appeal')

/-- A full count that the round is resolved by is a decision of the panel. -/
theorem panelDecided_of_complete (t : s.Tallied appId app.appealsUsed appeal)
    (complete : appeal.voted = appeal.panel.length)
    (hmajority : (appeal.outcome, app.status) = appeal.majority) :
    s.PanelDecided appId app appeal := by
  have hsum : appeal.uphold + appeal.overturn + appeal.escalate = appeal.panel.length := complete
  have hcases : (appeal.panel.length < 2 * appeal.overturn ∧ appeal.outcome = .overturned ∧
      app.status = .overturned) ∨ (2 * appeal.overturn ≤ appeal.panel.length ∧
      appeal.panel.length < 2 * appeal.uphold ∧ appeal.outcome = .upheld ∧ app.status = .upheld) ∨
      (2 * appeal.overturn ≤ appeal.panel.length ∧ 2 * appeal.uphold ≤ appeal.panel.length ∧
        appeal.outcome = .escalated ∧ app.status = .escalated) := by
    unfold Appeal.majority at hmajority
    split_ifs at hmajority with hoverturn huphold
    · exact .inl ⟨by omega, Prod.mk.inj hmajority⟩
    · exact .inr (.inl ⟨by omega, by omega, Prod.mk.inj hmajority⟩)
    · exact .inr (.inr ⟨by omega, by omega, Prod.mk.inj hmajority⟩)
  refine ⟨t.everyone complete, ?_, ?_, ?_⟩
  · rcases hcases with ⟨h, ho, hs⟩ | ⟨h, h', ho, hs⟩ | ⟨h, h', ho, hs⟩ <;> simp [ho, hs] <;> omega
  · rcases hcases with ⟨h, ho, hs⟩ | ⟨h, h', ho, hs⟩ | ⟨h, h', ho, hs⟩ <;> simp [ho, hs] <;> omega
  · rcases hcases with ⟨h, ho, hs⟩ | ⟨h, h', ho, hs⟩ | ⟨h, h', ho, hs⟩ <;> simp [ho, hs] <;> omega

theorem Sound.reviewed (i : Sound s') {env : Env Address} {vote : AppealVote} {reviewHash : Hash}
    (h : Effect validatePanel s s' ⟨env, .submitAppealReview member appId vote reviewHash⟩ out) :
    Reviewed s s' appId := by
  cases h with
  | @voted _ _ _ _ _ app appeal stored reviewed found seated fresh incomplete =>
    refine ⟨app, app, appeal, appeal.tallied vote, stored, stored, found, ?_,
      .inl ⟨reviewed, ?_, fun distinct => ?_⟩⟩
    · exact Function.update_self _ _ _
    · cases vote <;> rfl
    · by_contra hall
      apply incomplete
      have t := i.tallied (appId, app.appealsUsed) _ (Function.update_self _ _ _)
      have hcomplete := t.complete distinct fun m hm =>
        Option.ne_none_iff_isSome.mp fun hnone => hall ⟨m, hm, hnone⟩
      rwa [Appeal.tallied_panel] at hcomplete
  | @settled _ _ _ _ _ app appeal stored reviewed found seated fresh complete =>
    have t := i.tallied (appId, app.appealsUsed) _ (Function.update_self _ _ _)
    refine ⟨app, _, appeal, _, stored, Function.update_self _ _ _, found,
      Function.update_self _ _ _, .inr (panelDecided_of_complete t ?_ rfl)⟩
    show (appeal.tallied vote).voted = (appeal.tallied vote).panel.length
    rw [complete, Appeal.tallied_panel]

/-- No other transaction applies an outcome, but a binding decision and a timeout. -/
theorem Effect.decides (h : Effect validatePanel s s' tx out)
    (stored : s.applications appId = some app) (stored' : s'.applications appId = some app')
    (changed : app'.status ≠ app.status)
    (decided : app'.status = .upheld ∨ app'.status = .overturned ∨ app'.status = .escalated) :
    (∃ member vote reviewHash, tx.call = .submitAppealReview member appId vote reviewHash) ∨
      (∃ caller overturn reasonHash, tx.call = .finalDecision caller appId overturn reasonHash) ∨
      (tx.call = .escalateStalled appId ∧ app'.status = .escalated) := by
  -- the transaction writes one application, and only its status counts
  have hwrite : ∀ {k : ℕ} {app₁ : Application Address},
      Function.update s.applications k (some app₁) appId = some app' → appId = k ∧ app' = app₁ := by
    intro k app₁ hk
    rcases update_eq_some hk with ⟨rfl, rfl⟩ | ⟨-, hk⟩
    · exact ⟨rfl, rfl⟩
    · rw [Option.some.inj (hk.symm.trans stored)] at changed
      exact absurd rfl changed
  cases h with
  | submitted stored₁ own rejected allowed =>
    obtain ⟨rfl, rfl⟩ := hwrite stored'
    rcases decided with h | h | h <;> cases h
  | assigned stored₁ appealed valid independent found =>
    obtain ⟨rfl, rfl⟩ := hwrite stored'
    rcases decided with h | h | h <;> cases h
  | voted stored₁ reviewed found seated fresh incomplete =>
    rw [Option.some.inj (stored'.symm.trans stored)] at changed
    exact absurd rfl changed
  | settled stored₁ reviewed found seated fresh complete =>
    obtain ⟨rfl, -⟩ := hwrite stored'
    exact .inl ⟨_, _, _, rfl⟩
  | escalated stored₁ appealed found =>
    obtain ⟨rfl, rfl⟩ := hwrite stored'
    exact .inr (.inr ⟨rfl, rfl⟩)
  | decided authorised stored₁ answered found =>
    obtain ⟨rfl, -⟩ := hwrite stored'
    exact .inr (.inl ⟨_, _, _, rfl⟩)
  | reopened stored₁ upheld =>
    obtain ⟨rfl, rfl⟩ := hwrite stored'
    rcases decided with h | h | h <;> cases h
  | funded stored₁ =>
    obtain ⟨rfl, rfl⟩ := hwrite stored'
    rcases decided with h | h | h <;> cases h

theorem sound_step (x : Receipt (RefractGrants Address) (Transaction Address) Answer)
    (accepted : step validatePanel x.pre x.call = .ok (x.post, x.out)) (i : Sound x.pre) :
    Sound x.post :=
  i.of_effect (step_effect accepted)

/-- In every state that a run of the appeals reaches, no application has used more
appeals than it is allowed, every tally of a round is the number of the members of its
panel who voted so under its version, together they are no more than the panel, and no
panel has the applicant or an original reviewer on it. A vote applies an outcome once
everyone on the panel has voted, and then the one of the strict majority. -/
theorem panels_count (validatePanel : List Address → Outcome GrantsError Unit)
    (applications : ℕ → Option (Application Address)) (txs : List (Transaction Address)) :
    let r := run (step validatePanel) (RefractGrants.new applications) txs
    (∀ appId app, r.1.applications appId = some app → app.appealsUsed ≤ app.appealsAllowed) ∧
      (∀ appId round appeal, r.1.appeals (appId, round) = some appeal →
        appeal.uphold = (r.1.votersFor appId round appeal .uphold).card ∧
        appeal.overturn = (r.1.votersFor appId round appeal .overturn).card ∧
        appeal.escalate = (r.1.votersFor appId round appeal .escalate).card ∧
        appeal.uphold + appeal.overturn + appeal.escalate ≤ appeal.panel.length ∧
        ∃ app, r.1.applications appId = some app ∧
          ∀ m ∈ appeal.panel, m ≠ app.applicant ∧ m ∉ app.reviewers) ∧
      (∀ x ∈ r.2, ∀ member appId vote reviewHash,
        x.call.call = .submitAppealReview member appId vote reviewHash →
        Reviewed x.pre x.post appId) ∧
      ∀ x ∈ r.2, ∀ appId app app', x.pre.applications appId = some app →
        x.post.applications appId = some app' → app'.status ≠ app.status →
        (app'.status = .upheld ∨ app'.status = .overturned ∨ app'.status = .escalated) →
        (∃ member vote reviewHash,
          x.call.call = .submitAppealReview member appId vote reviewHash) ∨
          (∃ caller overturn reasonHash,
            x.call.call = .finalDecision caller appId overturn reasonHash) ∨
          (x.call.call = .escalateStalled appId ∧ app'.status = .escalated) := by
  intro r
  have i : Sound r.1 := run_invariant sound_step (new_sound applications) txs
  refine ⟨i.bounded, ?_, ?_, ?_⟩
  · intro appId round appeal found
    have t := i.tallied _ appeal found
    obtain ⟨app, stored, -, independent⟩ := i.appealed _ appeal found
    exact ⟨t .uphold, t .overturn, t .escalate, t.voted_le, app, stored, independent⟩
  · rintro ⟨pre, ⟨env, call⟩, out, post⟩ hx member appId vote reviewHash rfl
    obtain ⟨hpre, accepted⟩ := run_receipt sound_step (new_sound applications) hx
    have heffect := step_effect accepted
    exact (hpre.of_effect heffect).reviewed heffect
  · intro x hx appId app app' stored stored' changed decided
    obtain ⟨-, accepted⟩ := run_receipt sound_step (new_sound applications) hx
    exact (step_effect accepted).decides stored stored' changed decided

end RefractGrants

end RefractContracts.Appeals
