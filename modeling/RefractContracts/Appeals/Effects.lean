import RefractContracts.Appeals.Contract

/-! What an accepted transaction on appeals does. The entry points are unfolded here;
properties of runs are case analyses on these effects. -/

namespace RefractContracts.Appeals

open Host

variable {Address : Type}

namespace Appeal

/-- The appeal with one more vote. -/
def tallied (appeal : Appeal Address) : AppealVote → Appeal Address
  | .uphold => { appeal with uphold := appeal.uphold + 1 }
  | .overturn => { appeal with overturn := appeal.overturn + 1 }
  | .escalate => { appeal with escalate := appeal.escalate + 1 }

def voted (appeal : Appeal Address) : ℕ := appeal.uphold + appeal.overturn + appeal.escalate

/-- What the votes amount to, with the status that goes with it. -/
def majority (appeal : Appeal Address) : AppealOutcome × ApplicationStatus :=
  if appeal.panel.length < appeal.overturn * 2 then (.overturned, .overturned)
  else if appeal.panel.length < appeal.uphold * 2 then (.upheld, .upheld)
  else (.escalated, .escalated)

/-- A new panel, with which the votes start over. -/
def impanelled (appeal : Appeal Address) (panel : List Address) (now : ℕ) : Appeal Address :=
  { appeal with
    panel
    panelVersion := appeal.panelVersion + 1
    panelAssignedAt := now
    uphold := 0
    overturn := 0
    escalate := 0 }

def resolved (appeal : Appeal Address) (outcome : AppealOutcome) (now : ℕ) : Appeal Address :=
  { appeal with outcome, resolvedAt := now }

/-- The appeal with a binding decision. -/
def decided (appeal : Appeal Address) (outcome : AppealOutcome) (now : ℕ) (reasonHash : Hash) :
    Appeal Address :=
  { appeal with outcome, resolvedAt := now, finalized := true, finalReasonHash := reasonHash }

variable {appeal appeal' : Appeal Address} {vote : AppealVote} {n : ℕ}
  {p : AppealOutcome × ApplicationStatus}

theorem count_ok (h : appeal.count vote = .ok appeal') : appeal' = appeal.tallied vote := by
  cases vote with
  | uphold =>
    simp only [count, bind_eq_ok, u32_eq_ok, pure_eq_ok] at h
    obtain ⟨_, ⟨-, rfl⟩, rfl⟩ := h
    rfl
  | overturn =>
    simp only [count, bind_eq_ok, u32_eq_ok, pure_eq_ok] at h
    obtain ⟨_, ⟨-, rfl⟩, rfl⟩ := h
    rfl
  | escalate =>
    simp only [count, bind_eq_ok, u32_eq_ok, pure_eq_ok] at h
    obtain ⟨_, ⟨-, rfl⟩, rfl⟩ := h
    rfl

theorem voteCount_ok (h : appeal.voteCount = .ok n) : n = appeal.voted := by
  simp only [voteCount, bind_eq_ok, u32_eq_ok] at h
  obtain ⟨_, ⟨-, rfl⟩, -, rfl⟩ := h
  rfl

theorem panelOutcome_ok (h : appeal.panelOutcome = .ok p) : p = appeal.majority := by
  simp only [panelOutcome, bind_eq_ok, u32_eq_ok] at h
  obtain ⟨_, ⟨-, rfl⟩, h⟩ := h
  unfold majority
  split at h
  · next hoverturn =>
    rw [if_pos hoverturn]
    exact (Except.ok.inj h).symm
  · next hoverturn =>
    rw [if_neg hoverturn]
    simp only [bind_eq_ok, u32_eq_ok] at h
    obtain ⟨_, ⟨-, rfl⟩, h⟩ := h
    split at h
    · next huphold =>
      rw [if_pos huphold]
      exact (Except.ok.inj h).symm
    · next huphold =>
      rw [if_neg huphold]
      exact (Except.ok.inj h).symm

@[simp] theorem tallied_panel : (appeal.tallied vote).panel = appeal.panel := by
  cases vote <;> rfl

@[simp] theorem tallied_panelVersion :
    (appeal.tallied vote).panelVersion = appeal.panelVersion := by
  cases vote <;> rfl

@[simp] theorem tallied_finalized : (appeal.tallied vote).finalized = appeal.finalized := by
  cases vote <;> rfl

@[simp] theorem impanelled_finalized {panel : List Address} {now : ℕ} :
    (appeal.impanelled panel now).finalized = appeal.finalized := rfl

@[simp] theorem resolved_finalized {outcome : AppealOutcome} {now : ℕ} :
    (appeal.resolved outcome now).finalized = appeal.finalized := rfl

end Appeal

/-- The outcome of a binding decision, with the status that goes with it. -/
def verdict (overturn : Bool) : AppealOutcome × ApplicationStatus :=
  if overturn then (.overturned, .overturned) else (.upheld, .upheld)

namespace RefractGrants

/-- What an accepted transaction does, and what it found. -/
inductive Effect [DecidableEq Address] (validatePanel : List Address → Outcome GrantsError Unit)
    (s : RefractGrants Address) : RefractGrants Address → Transaction Address → Answer → Prop
  | submitted {env applicant appId evidenceHash app} (stored : s.applications appId = some app)
      (own : app.applicant = applicant) (rejected : app.status = .rejected)
      (allowed : app.appealsUsed < app.appealsAllowed) :
      Effect validatePanel s
        ((s.putAppeal appId (app.appealsUsed + 1)
          (.new (app.appealsUsed + 1) evidenceHash env.now)).writeApp appId
            { app with appealsUsed := app.appealsUsed + 1, status := .appealSubmitted })
        ⟨env, .submitAppeal applicant appId evidenceHash⟩ (.round (app.appealsUsed + 1))
  | assigned {env caller appId panel app appeal} (stored : s.applications appId = some app)
      (appealed : app.status = .appealSubmitted ∨ app.status = .underReReview)
      (valid : validatePanel panel = .ok ())
      (independent : ∀ member ∈ panel, member ≠ app.applicant ∧ member ∉ app.reviewers)
      (found : s.appeals (appId, app.appealsUsed) = some appeal) :
      Effect validatePanel s
        ((s.putAppeal appId app.appealsUsed (appeal.impanelled panel env.now)).writeApp appId
          { app with status := .underReReview })
        ⟨env, .assignAppealPanel caller appId panel⟩ .done
  | voted {env member appId vote reviewHash app appeal} (stored : s.applications appId = some app)
      (reviewed : app.status = .underReReview)
      (found : s.appeals (appId, app.appealsUsed) = some appeal) (seated : member ∈ appeal.panel)
      (fresh : s.votes ⟨appId, app.appealsUsed, appeal.panelVersion, member⟩ = none)
      (incomplete : (appeal.tallied vote).voted ≠ appeal.panel.length) :
      Effect validatePanel s
        ((s.putVote ⟨appId, app.appealsUsed, appeal.panelVersion, member⟩
          ⟨vote, reviewHash, env.now⟩).putAppeal appId app.appealsUsed (appeal.tallied vote))
        ⟨env, .submitAppealReview member appId vote reviewHash⟩ (.status app.status)
  | settled {env member appId vote reviewHash app appeal} (stored : s.applications appId = some app)
      (reviewed : app.status = .underReReview)
      (found : s.appeals (appId, app.appealsUsed) = some appeal) (seated : member ∈ appeal.panel)
      (fresh : s.votes ⟨appId, app.appealsUsed, appeal.panelVersion, member⟩ = none)
      (complete : (appeal.tallied vote).voted = appeal.panel.length) :
      Effect validatePanel s
        (((s.putVote ⟨appId, app.appealsUsed, appeal.panelVersion, member⟩
          ⟨vote, reviewHash, env.now⟩).writeApp appId
            { app with status := (appeal.tallied vote).majority.2 }).putAppeal appId app.appealsUsed
              ((appeal.tallied vote).resolved (appeal.tallied vote).majority.1 env.now))
        ⟨env, .submitAppealReview member appId vote reviewHash⟩
        (.status (appeal.tallied vote).majority.2)
  | escalated {env appId app appeal} (stored : s.applications appId = some app)
      (appealed : app.status = .appealSubmitted ∨ app.status = .underReReview)
      (found : s.appeals (appId, app.appealsUsed) = some appeal) :
      Effect validatePanel s
        ((s.putAppeal appId app.appealsUsed (appeal.resolved .escalated env.now)).writeApp appId
          { app with status := .escalated })
        ⟨env, .escalateStalled appId⟩ .done
  | decided {env caller appId overturn reasonHash app appeal}
      (authorised : env.requireTimelock caller = .ok ())
      (stored : s.applications appId = some app)
      (answered : app.status = .escalated ∨ app.status = .upheld ∨ app.status = .overturned)
      (found : s.appeals (appId, app.appealsUsed) = some appeal) :
      Effect validatePanel s
        ((s.putAppeal appId app.appealsUsed
          (appeal.decided (verdict overturn).1 env.now reasonHash)).writeApp appId
            { app with status := (verdict overturn).2, finalized := true })
        ⟨env, .finalDecision caller appId overturn reasonHash⟩ (.status (verdict overturn).2)
  | reopened {env caller appId app} (stored : s.applications appId = some app)
      (upheld : app.status = .upheld) :
      Effect validatePanel s
        (s.writeApp appId
          { app with
            appealsAllowed := app.appealsAllowed + 1
            status := .rejected
            decidedAt := env.now
            finalized := false })
        ⟨env, .reopenAppeal caller appId⟩ .done
  | funded {env appId app} (stored : s.applications appId = some app) :
      Effect validatePanel s (s.writeApp appId { app with status := .funded })
        ⟨env, .fundApplication appId⟩ .done

variable [DecidableEq Address] {validatePanel : List Address → Outcome GrantsError Unit}
  {s s' : RefractGrants Address} {env : Env Address} {tx : Transaction Address} {out : Answer}
  {applicant caller member : Address} {appId round : ℕ} {evidenceHash reviewHash reasonHash : Hash}
  {panel : List Address} {vote : AppealVote} {overturn : Bool} {status : ApplicationStatus}

theorem submitAppeal_ok (h : submitAppeal env s applicant appId evidenceHash = .ok (s', round)) :
    Effect validatePanel s s' ⟨env, .submitAppeal applicant appId evidenceHash⟩ (.round round) := by
  simp only [submitAppeal, readApp, bind_eq_ok, requireAuth_eq_ok, okOr_eq_ok, bail_eq_ok, not_not,
    not_le, u32_eq_ok, pure_eq_ok, Prod.mk.injEq] at h
  obtain ⟨_, -, app, stored, _, own, _, rejected, _, allowed, _, -, _, ⟨-, rfl⟩, rfl, rfl⟩ := h
  exact .submitted stored own rejected allowed

theorem assignAppealPanel_ok
    (h : assignAppealPanel validatePanel env s caller appId panel = .ok s') :
    Effect validatePanel s s' ⟨env, .assignAppealPanel caller appId panel⟩ .done := by
  simp only [assignAppealPanel, readApp, readAppeal, bind_eq_ok, okOr_eq_ok, bail_eq_ok, u32_eq_ok,
    pure_eq_ok, not_and_or, not_not] at h
  obtain ⟨_, -, app, stored, _, appealed, _, valid, _, independent, appeal, found, _, ⟨-, rfl⟩,
    rfl⟩ := h
  refine .assigned stored appealed valid (fun member hm => ⟨fun heq => ?_, fun hmem => ?_⟩) found
  · exact independent ⟨member, hm, .inl heq⟩
  · exact independent ⟨member, hm, .inr hmem⟩

theorem submitAppealReview_ok
    (h : submitAppealReview env s member appId vote reviewHash = .ok (s', status)) :
    Effect validatePanel s s' ⟨env, .submitAppealReview member appId vote reviewHash⟩
      (.status status) := by
  simp only [submitAppealReview, readApp, readAppeal, bind_eq_ok, requireAuth_eq_ok, okOr_eq_ok,
    bail_eq_ok, not_not] at h
  obtain ⟨_, -, app, stored, _, reviewed, appeal, found, _, seated, _, fresh, appeal', hcount,
    voted, hvoted, h⟩ := h
  obtain rfl := Appeal.count_ok hcount
  obtain rfl := Appeal.voteCount_ok hvoted
  have fresh : s.votes ⟨appId, app.appealsUsed, appeal.panelVersion, member⟩ = none := by
    simpa using fresh
  have hn : (appeal.tallied vote).panel.length = appeal.panel.length := by
    rw [Appeal.tallied_panel]
  split at h
  · next complete =>
    simp only [bind_eq_ok, pure_eq_ok, Prod.mk.injEq] at h
    obtain ⟨p, hp, rfl, rfl⟩ := h
    obtain rfl := Appeal.panelOutcome_ok hp
    exact .settled stored reviewed found seated fresh (complete.trans hn)
  · next incomplete =>
    simp only [pure_eq_ok, Prod.mk.injEq] at h
    obtain ⟨rfl, rfl⟩ := h
    refine .voted stored reviewed found seated fresh fun complete => ?_
    exact incomplete (complete.trans hn.symm)

theorem escalateStalled_ok (h : escalateStalled env s appId = .ok s') :
    Effect validatePanel s s' ⟨env, .escalateStalled appId⟩ .done := by
  simp only [escalateStalled, readApp, readAppeal, bind_eq_ok, okOr_eq_ok, bail_eq_ok,
    pure_eq_ok] at h
  obtain ⟨app, stored, appeal, found, since, hsince, _, -, rfl⟩ := h
  refine .escalated stored ?_ found
  unfold waitingSince at hsince
  split at hsince
  · next hstatus => exact .inl hstatus
  · next hstatus => exact .inr hstatus
  · cases hsince

theorem finalDecision_ok
    (h : finalDecision env s caller appId overturn reasonHash = .ok (s', status)) :
    Effect validatePanel s s' ⟨env, .finalDecision caller appId overturn reasonHash⟩
      (.status status) := by
  simp only [finalDecision, readApp, readAppeal, bind_eq_ok, okOr_eq_ok, bail_eq_ok,
    pure_eq_ok, not_and_or, not_not] at h
  obtain ⟨_, authorised, app, stored, _, answered, appeal, found, h⟩ := h
  obtain ⟨rfl, rfl⟩ := Prod.mk.inj h
  exact .decided authorised stored answered found

theorem reopenAppeal_ok (h : reopenAppeal env s caller appId = .ok s') :
    Effect validatePanel s s' ⟨env, .reopenAppeal caller appId⟩ .done := by
  simp only [reopenAppeal, readApp, bind_eq_ok, okOr_eq_ok, bail_eq_ok, u32_eq_ok,
    pure_eq_ok, not_not] at h
  obtain ⟨_, -, app, stored, _, upheld, _, ⟨-, rfl⟩, rfl⟩ := h
  exact .reopened stored upheld

theorem fundApplication_ok (h : fundApplication s appId = .ok s') :
    Effect validatePanel s s' ⟨env, .fundApplication appId⟩ .done := by
  simp only [fundApplication, readApp, bind_eq_ok, okOr_eq_ok, pure_eq_ok] at h
  obtain ⟨app, stored, rfl⟩ := h
  exact .funded stored

/-- An accepted transaction has its effect. -/
theorem step_effect (h : step validatePanel s tx = .ok (s', out)) :
    Effect validatePanel s s' tx out := by
  obtain ⟨env, call⟩ := tx
  cases call with
    simp only [step, bind_eq_ok, pure_eq_ok, Prod.mk.injEq] at h
  | submitAppeal applicant appId evidenceHash =>
    obtain ⟨⟨_, _⟩, h, rfl, rfl⟩ := h
    exact submitAppeal_ok h
  | assignAppealPanel caller appId panel =>
    obtain ⟨_, h, rfl, rfl⟩ := h
    exact assignAppealPanel_ok h
  | submitAppealReview member appId vote reviewHash =>
    obtain ⟨⟨_, _⟩, h, rfl, rfl⟩ := h
    exact submitAppealReview_ok h
  | escalateStalled appId =>
    obtain ⟨_, h, rfl, rfl⟩ := h
    exact escalateStalled_ok h
  | finalDecision caller appId overturn reasonHash =>
    obtain ⟨⟨_, _⟩, h, rfl, rfl⟩ := h
    exact finalDecision_ok h
  | reopenAppeal caller appId =>
    obtain ⟨_, h, rfl, rfl⟩ := h
    exact reopenAppeal_ok h
  | fundApplication appId =>
    obtain ⟨_, h, rfl, rfl⟩ := h
    exact fundApplication_ok h

end RefractGrants

end RefractContracts.Appeals
