import RefractContracts.Appeals.Panels
import RefractContracts.Host.History

/-! Binding decisions. A decided round is settled, and its application stays decided until
it is reopened or funded, in every run in which no later decision of the same round
differs from it: nothing else touches a round that was decided, but a decision does not
look whether there was one before. -/

namespace RefractContracts.Appeals

open Host

variable {Address : Type}

theorem verdict_injective {overturn overturn' : Bool}
    (h : (verdict overturn).1 = (verdict overturn').1) : overturn = overturn' := by
  cases overturn <;> cases overturn' <;> first | rfl | cases h

abbrev Event (Address : Type) := Receipt (RefractGrants Address) (Transaction Address) Answer

/-- The event makes a binding decision of the round. -/
def Finalizes (x : Event Address) (appId round : ℕ) : Prop :=
  ∃ caller overturn reasonHash app, x.call.call = .finalDecision caller appId overturn reasonHash ∧
    x.pre.applications appId = some app ∧ app.appealsUsed = round

/-- The call takes a decided application on. -/
def Releases (call : Call Address) (appId : ℕ) : Prop :=
  call = .fundApplication appId ∨ ∃ caller, call = .reopenAppeal caller appId

/-- After each binding decision the outcome and the reason of its round stay, and so does
the status of the application, until it is reopened or funded. -/
def Binds (h : List (Event Address)) : Prop :=
  ∀ g x l, h = g ++ x :: l → ∀ appId round, Finalizes x appId round →
    (∀ y ∈ l, ∃ a b, x.post.appeals (appId, round) = some a ∧
      y.post.appeals (appId, round) = some b ∧ b.outcome = a.outcome ∧
      b.finalReasonHash = a.finalReasonHash) ∧
    ∀ m y l', l = m ++ y :: l' → (∀ z ∈ m ++ [y], ¬ Releases z.call.call appId) →
      (y.post.applications appId).map Application.status =
        (x.post.applications appId).map Application.status

namespace RefractGrants

/-- The transaction decides a round otherwise than it was decided before. -/
def Overrides (s : RefractGrants Address) (tx : Transaction Address) : Prop :=
  ∃ caller appId overturn reasonHash app appeal,
    tx.call = .finalDecision caller appId overturn reasonHash ∧
    tx.env.requireTimelock caller = .ok () ∧ s.applications appId = some app ∧
    (app.status = .escalated ∨ app.status = .upheld ∨ app.status = .overturned) ∧
    s.appeals (appId, app.appealsUsed) = some appeal ∧ appeal.finalized = true ∧
    (appeal.outcome ≠ (verdict overturn).1 ∨ appeal.finalReasonHash ≠ reasonHash)

/-- The statuses of an application whose current round is decided. -/
def Closed (status : ApplicationStatus) : Prop :=
  status = .upheld ∨ status = .overturned ∨ status = .funded ∨ status = .rejected

/-- An application whose current round is decided is not under appeal. -/
def Final (s : RefractGrants Address) : Prop :=
  ∀ appId app, s.applications appId = some app → ∀ appeal,
    s.appeals (appId, app.appealsUsed) = some appeal → appeal.finalized = true → Closed app.status

variable [DecidableEq Address] {s s' : RefractGrants Address} {tx : Transaction Address}
  {out : Answer} {validatePanel : List Address → Outcome GrantsError Unit}
  {app app' : Application Address} {appeal : Appeal Address} {appId round : ℕ}

omit [DecidableEq Address] in
theorem not_closed_of_appealed (h : app.status = .appealSubmitted ∨ app.status = .underReReview) :
    ¬ Closed app.status := by
  rcases h with h | h <;> rw [h] <;> rintro (h | h | h | h) <;> cases h

omit [DecidableEq Address] in
/-- A round under appeal is not decided. -/
theorem Final.undecided (f : Final s) (stored : s.applications appId = some app)
    (appealed : app.status = .appealSubmitted ∨ app.status = .underReReview)
    (found : s.appeals (appId, app.appealsUsed) = some appeal) : appeal.finalized = false := by
  by_contra h
  exact not_closed_of_appealed appealed
    (f appId app stored appeal found (by simpa using h))

/-- What a transaction does to a round: nothing, something before any decision of it, or
a decision. -/
inductive Round (s s' : RefractGrants Address) (tx : Transaction Address) (appId round : ℕ) : Prop
  | same (h : s'.appeals (appId, round) = s.appeals (appId, round))
  | undecided (before : ∀ a, s.appeals (appId, round) = some a → a.finalized = false)
      (after : ∀ a, s'.appeals (appId, round) = some a → a.finalized = false)
  | decided {caller overturn reasonHash app appeal}
      (call_eq : tx.call = .finalDecision caller appId overturn reasonHash)
      (authorised : tx.env.requireTimelock caller = .ok ())
      (stored : s.applications appId = some app)
      (answered : app.status = .escalated ∨ app.status = .upheld ∨ app.status = .overturned)
      (current : app.appealsUsed = round) (found : s.appeals (appId, round) = some appeal)
      (after : s'.appeals (appId, round) =
        some (appeal.decided (verdict overturn).1 tx.env.now reasonHash))

omit [DecidableEq Address] in
/-- A write of one round, that was not decided and is not. -/
theorem Round.write {k n : ℕ} {a : Appeal Address}
    (h : s'.appeals = Function.update s.appeals (k, n) (some a))
    (before : ∀ a₀, s.appeals (k, n) = some a₀ → a₀.finalized = false) (after : a.finalized = false)
    (appId round : ℕ) : Round s s' tx appId round := by
  by_cases hkey : (appId, round) = (k, n)
  · cases hkey
    refine .undecided before fun a₀ ha₀ => ?_
    rw [h, Function.update_self] at ha₀
    rwa [← Option.some.inj ha₀]
  · exact .same (by rw [h, Function.update_of_ne hkey])

omit [DecidableEq Address] in
/-- A write of a round that was found not to be decided. -/
theorem Round.rewrite {k n : ℕ} {a a' : Appeal Address} (found : s.appeals (k, n) = some a)
    (h : s'.appeals = Function.update s.appeals (k, n) (some a')) (before : a.finalized = false)
    (after : a'.finalized = false) (appId round : ℕ) : Round s s' tx appId round := by
  refine .write h (fun a₀ ha₀ => ?_) after appId round
  rwa [← Option.some.inj (found.symm.trans ha₀)]

theorem Effect.onRound (i : Sound s) (f : Final s) (h : Effect validatePanel s s' tx out)
    (appId round : ℕ) : Round s s' tx appId round := by
  cases h with
  | @submitted env applicant k evidenceHash app stored own rejected allowed =>
    refine .write rfl (fun a ha => ?_) rfl appId round
    obtain ⟨app₀, happ₀, hround, -⟩ := i.appealed _ a ha
    obtain rfl := Option.some.inj (stored.symm.trans happ₀)
    exact absurd hround (Nat.not_succ_le_self _)
  | assigned stored appealed valid independent found =>
    have hopen := f.undecided stored appealed found
    exact .rewrite found rfl hopen (Appeal.impanelled_finalized.trans hopen) appId round
  | voted stored reviewed found seated fresh incomplete =>
    have hopen := f.undecided stored (.inr reviewed) found
    exact .rewrite found rfl hopen (Appeal.tallied_finalized.trans hopen) appId round
  | settled stored reviewed found seated fresh complete =>
    have hopen := f.undecided stored (.inr reviewed) found
    apply Round.rewrite found rfl hopen
    rwa [Appeal.resolved_finalized, Appeal.tallied_finalized]
  | escalated stored appealed found =>
    have hopen := f.undecided stored appealed found
    exact .rewrite found rfl hopen (Appeal.resolved_finalized.trans hopen) appId round
  | @decided env caller k overturn reasonHash app a authorised stored answered found =>
    by_cases hkey : (appId, round) = (k, app.appealsUsed)
    · cases hkey
      exact .decided rfl authorised stored answered rfl found (Function.update_self _ _ _)
    · exact .same (Function.update_of_ne hkey _ _)
  | reopened stored upheld => exact .same rfl
  | funded stored => exact .same rfl

omit [DecidableEq Address] in
/-- A write of an application keeps the rounds of the others as final as they were. -/
theorem Final.of_writes (f : Final s) {k : ℕ}
    (apps : s'.applications = Function.update s.applications k (some app'))
    (others : ∀ key : ℕ × ℕ, key.1 ≠ k → s'.appeals key = s.appeals key)
    (current : ∀ a, s'.appeals (k, app'.appealsUsed) = some a → a.finalized = true →
      Closed app'.status) : Final s' := by
  intro appId app stored appeal found finalized
  rw [apps] at stored
  rcases update_eq_some stored with ⟨rfl, rfl⟩ | ⟨hne, stored⟩
  · exact current appeal found finalized
  · rw [others (appId, app.appealsUsed) hne] at found
    exact f appId app stored appeal found finalized

omit [DecidableEq Address] in
/-- A round is written along with its application. -/
theorem Final.of_round (f : Final s) {k : ℕ} {a : Appeal Address}
    (apps : s'.applications = Function.update s.applications k (some app'))
    (appeals : s'.appeals = Function.update s.appeals (k, app'.appealsUsed) (some a))
    (current : a.finalized = true → Closed app'.status) : Final s' := by
  apply f.of_writes apps
  · intro key hne
    rw [appeals]
    exact Function.update_of_ne (fun h => hne (congrArg Prod.fst h)) _ _
  · intro a' ha' finalized
    rw [appeals, Function.update_self] at ha'
    rw [← Option.some.inj ha'] at finalized
    exact current finalized

theorem Final.of_effect (f : Final s) (h : Effect validatePanel s s' tx out) : Final s' := by
  cases h with
  | submitted stored own rejected allowed => exact f.of_round rfl rfl nofun
  | assigned stored appealed valid independent found =>
    refine f.of_round rfl rfl fun finalized => ?_
    exact absurd finalized (by simpa [Appeal.impanelled] using f.undecided stored appealed found)
  | @voted env member k vote reviewHash app a stored reviewed found seated fresh incomplete =>
    have hopen : (a.tallied vote).finalized = false :=
      Appeal.tallied_finalized.trans (f.undecided stored (.inr reviewed) found)
    intro appId app' stored' appeal found' finalized
    rcases update_eq_some found' with ⟨-, rfl⟩ | ⟨-, found'⟩
    · rw [hopen] at finalized
      cases finalized
    · exact f appId app' stored' appeal found' finalized
  | @settled env member k vote reviewHash app a stored reviewed found seated fresh complete =>
    have hopen : (a.tallied vote).finalized = false :=
      Appeal.tallied_finalized.trans (f.undecided stored (.inr reviewed) found)
    refine f.of_round rfl rfl fun finalized => ?_
    exact absurd finalized (by simpa [Appeal.resolved] using hopen)
  | escalated stored appealed found =>
    refine f.of_round rfl rfl fun finalized => ?_
    exact absurd finalized (by simpa [Appeal.resolved] using f.undecided stored appealed found)
  | @decided env caller k overturn reasonHash app a authorised stored answered found =>
    refine f.of_round rfl rfl fun _ => ?_
    cases overturn
    · exact .inl rfl
    · exact .inr (.inl rfl)
  | reopened stored upheld =>
    exact f.of_writes rfl (fun _ _ => rfl) fun _ _ _ => .inr (.inr (.inr rfl))
  | funded stored =>
    exact f.of_writes rfl (fun _ _ => rfl) fun _ _ _ => .inr (.inr (.inl rfl))

/-! ### Decided rounds -/

/-- The round is decided, with this outcome and for this reason. -/
def Decided (s : RefractGrants Address) (appId round : ℕ) (outcome : AppealOutcome)
    (reasonHash : Hash) : Prop :=
  ∃ a, s.appeals (appId, round) = some a ∧ a.finalized = true ∧ a.outcome = outcome ∧
    a.finalReasonHash = reasonHash

/-- The decision of the current round holds: the application has the status it gave. -/
def Held (s : RefractGrants Address) (appId round : ℕ) (overturn : Bool) (reasonHash : Hash) :
    Prop :=
  s.Decided appId round (verdict overturn).1 reasonHash ∧
    ∃ app, s.applications appId = some app ∧ app.appealsUsed = round ∧
      app.status = (verdict overturn).2

variable {outcome : AppealOutcome} {overturn : Bool} {reasonHash : Hash}

/-- Without an overriding decision a decided round stays as it is. -/
theorem Decided.of_effect (i : Sound s) (f : Final s) (h : Effect validatePanel s s' tx out)
    (binding : ¬ s.Overrides tx) (d : s.Decided appId round outcome reasonHash) :
    s'.Decided appId round outcome reasonHash := by
  obtain ⟨a, found, finalized, houtcome, hreason⟩ := d
  cases h.onRound i f appId round with
  | same hsame => exact ⟨a, hsame.trans found, finalized, houtcome, hreason⟩
  | undecided before after =>
    rw [before a found] at finalized
    cases finalized
  | @decided caller overturn' reasonHash' app a' call_eq authorised stored answered current found'
      after =>
    obtain rfl := Option.some.inj (found.symm.trans found')
    subst current
    refine ⟨_, after, rfl, ?_, ?_⟩
    · by_contra hne
      exact binding ⟨caller, appId, overturn', reasonHash', app, a, call_eq, authorised, stored,
        answered, found, finalized, .inl fun h => hne (h.symm.trans houtcome)⟩
    · by_contra hne
      exact binding ⟨caller, appId, overturn', reasonHash', app, a, call_eq, authorised, stored,
        answered, found, finalized, .inr fun h => hne (h.symm.trans hreason)⟩

/-- A decided application that is not taken on keeps its status, or is decided again. -/
theorem Effect.onDecided (h : Effect validatePanel s s' tx out)
    (stored : s.applications appId = some app)
    (status_eq : app.status = .upheld ∨ app.status = .overturned)
    (kept : ¬ Releases tx.call appId) :
    s'.applications appId = some app ∨ ∃ overturn a,
      s'.appeals (appId, app.appealsUsed) = some a ∧ a.outcome = (verdict overturn).1 ∧
      s'.applications appId =
        some { app with status := (verdict overturn).2, finalized := true } := by
  -- a write for an application in another status is none of this one
  have hother : ∀ {k : ℕ} {app₁ app₂ : Application Address}, s.applications k = some app₁ →
      app₁.status ≠ .upheld → app₁.status ≠ .overturned →
      Function.update s.applications k (some app₂) appId = some app := by
    intro k app₁ app₂ stored₁ hupheld hoverturned
    rcases stored_update stored stored₁ app₂ with ⟨-, rfl, -⟩ | ⟨-, h⟩
    · rcases status_eq with h | h
      · exact absurd h hupheld
      · exact absurd h hoverturned
    · exact h
  cases h with
  | submitted stored₁ own rejected allowed =>
    exact .inl (hother stored₁ (by simp [rejected]) (by simp [rejected]))
  | assigned stored₁ appealed valid independent found =>
    refine .inl (hother stored₁ ?_ ?_) <;> rcases appealed with h | h <;> simp [h]
  | voted stored₁ reviewed found seated fresh incomplete => exact .inl stored
  | settled stored₁ reviewed found seated fresh complete =>
    exact .inl (hother stored₁ (by simp [reviewed]) (by simp [reviewed]))
  | escalated stored₁ appealed found =>
    refine .inl (hother stored₁ ?_ ?_) <;> rcases appealed with h | h <;> simp [h]
  | @decided env caller k overturn reasonHash app₁ a authorised stored₁ answered found =>
    rcases stored_update stored stored₁ { app₁ with
      status := (verdict overturn).2, finalized := true } with ⟨rfl, rfl, h⟩ | ⟨-, h⟩
    · exact .inr ⟨overturn, _, Function.update_self _ _ _, rfl, h⟩
    · exact .inl h
  | @reopened env caller k app₁ stored₁ upheld =>
    rcases stored_update stored stored₁ _ with ⟨rfl, -, -⟩ | ⟨-, h⟩
    · exact absurd (.inr ⟨caller, rfl⟩) kept
    · exact .inl h
  | funded stored₁ =>
    rcases stored_update stored stored₁ _ with ⟨rfl, -, -⟩ | ⟨-, h⟩
    · exact absurd (.inl rfl) kept
    · exact .inl h

omit [DecidableEq Address] in
theorem verdict_status (overturn : Bool) :
    (verdict overturn).2 = .upheld ∨ (verdict overturn).2 = .overturned := by
  cases overturn
  · exact .inl rfl
  · exact .inr rfl

/-- Without an overriding decision it holds until the application is taken on. -/
theorem Held.of_effect (i : Sound s) (f : Final s) (h : Effect validatePanel s s' tx out)
    (binding : ¬ s.Overrides tx) (kept : ¬ Releases tx.call appId)
    (held : s.Held appId round overturn reasonHash) :
    s'.Held appId round overturn reasonHash := by
  obtain ⟨d, app, stored, rfl, hstatus⟩ := held
  have d' := d.of_effect i f h binding
  refine ⟨d', ?_⟩
  rcases h.onDecided stored (hstatus ▸ verdict_status overturn) kept with
    h | ⟨overturn', a, found, hverdict, h⟩
  · exact ⟨app, h, rfl, hstatus⟩
  · refine ⟨_, h, rfl, ?_⟩
    obtain ⟨a', found', -, houtcome, -⟩ := d'
    obtain rfl := Option.some.inj (found.symm.trans found')
    rw [verdict_injective (hverdict.symm.trans houtcome)]

/-! ### Runs -/

omit [DecidableEq Address] in
theorem Held.status_eq (held : s.Held appId round overturn reasonHash) :
    (s.applications appId).map Application.status = some (verdict overturn).2 := by
  obtain ⟨-, app, stored, -, hstatus⟩ := held
  rw [stored, Option.map_some, hstatus]

/-- A decision holds when it is made. -/
theorem Effect.held {env : Env Address} {caller : Address}
    (h : Effect validatePanel s s' ⟨env, .finalDecision caller appId overturn reasonHash⟩ out)
    (stored : s.applications appId = some app) :
    s'.Held appId app.appealsUsed overturn reasonHash := by
  cases h with
  | decided authorised stored₁ answered found =>
    obtain rfl := Option.some.inj (stored.symm.trans stored₁)
    refine ⟨⟨_, Function.update_self _ _ _, rfl, rfl, rfl⟩, ?_⟩
    exact ⟨_, Function.update_self _ _ _, rfl, rfl⟩

theorem held_of_decision {x : Event Address} {caller : Address}
    (accepted : step validatePanel x.pre x.call = .ok (x.post, x.out))
    (call_eq : x.call.call = .finalDecision caller appId overturn reasonHash)
    (stored : x.pre.applications appId = some app) :
    x.post.Held appId app.appealsUsed overturn reasonHash := by
  obtain ⟨pre, ⟨env, call⟩, out, post⟩ := x
  obtain rfl : call = _ := call_eq
  exact (step_effect accepted).held stored

/-- Every decided round was decided by an event of the history, as it is. -/
def Traced (h : List (Event Address)) (s : RefractGrants Address) : Prop :=
  ∀ appId round a, s.appeals (appId, round) = some a → a.finalized = true →
    ∃ x ∈ h, Finalizes x appId round ∧ x.post.Decided appId round a.outcome a.finalReasonHash

theorem Traced.snoc {h : List (Event Address)} {x : Event Address} (t : Traced h x.pre)
    (i : Sound x.pre) (f : Final x.pre)
    (accepted : step validatePanel x.pre x.call = .ok (x.post, x.out)) :
    Traced (h ++ [x]) x.post := by
  intro appId round a found finalized
  cases (step_effect accepted).onRound i f appId round with
  | same hsame =>
    obtain ⟨y, hy, hdecided⟩ := t appId round a (hsame.symm.trans found) finalized
    exact ⟨y, List.mem_append_left _ hy, hdecided⟩
  | undecided before after =>
    rw [after a found] at finalized
    cases finalized
  | @decided caller overturn reasonHash app a₀ call_eq authorised stored answered current found₀
      after =>
    refine ⟨x, by simp, ⟨caller, overturn, reasonHash, app, call_eq, stored, current⟩, ?_⟩
    exact ⟨a, found, finalized, rfl, rfl⟩

/-- What every state of a run has. -/
structure Valid (h : List (Event Address)) (s : RefractGrants Address) : Prop where
  sound : Sound s
  final : Final s
  traced : Traced h s

theorem new_valid (applications : ℕ → Option (Application Address)) :
    Valid [] (new applications) where
  sound := new_sound applications
  final _ _ _ _ found := nomatch found
  traced _ _ _ found := nomatch found

theorem valid_step (h : List (Event Address)) (x : Event Address)
    (accepted : step validatePanel x.pre x.call = .ok (x.post, x.out)) (v : Valid h x.pre) :
    Valid (h ++ [x]) x.post where
  sound := v.sound.of_effect (step_effect accepted)
  final := v.final.of_effect (step_effect accepted)
  traced := v.traced.snoc v.sound v.final accepted

variable {applications : ℕ → Option (Application Address)} {h : List (Event Address)}

/-- A decision that overrides an earlier one of its round breaks it. -/
theorem not_overrides_of_binds (tr : Trace (step validatePanel) (new applications) h s)
    (hbinds : Binds h) : ∀ x ∈ h, ¬ x.pre.Overrides x.call := by
  rintro x hx ⟨caller, appId, overturn, reasonHash, app, a, call_eq, -, stored, -, found, finalized,
    hother⟩
  obtain ⟨g, l, rfl⟩ := List.append_of_mem hx
  obtain ⟨hist, accepted, -⟩ := tr.at_receipt
  have v : Valid g x.pre := hist.history valid_step (new_valid applications)
  obtain ⟨y, hy, hfinalizes, a₁, found₁, -, houtcome, hreason⟩ :=
    v.traced appId app.appealsUsed a found finalized
  obtain ⟨g₁, g₂, rfl⟩ := List.append_of_mem hy
  -- the later decision is in force, and the earlier one is not
  obtain ⟨⟨b, foundb, -, houtcomeb, hreasonb⟩, -⟩ := held_of_decision accepted call_eq stored
  obtain ⟨a₂, b₁, found₂, foundb₁, hsame, hsamereason⟩ :=
    (hbinds g₁ y (g₂ ++ x :: l) (by simp) appId app.appealsUsed hfinalizes).1 x (by simp)
  obtain rfl := Option.some.inj (found₁.symm.trans found₂)
  obtain rfl := Option.some.inj (foundb.symm.trans foundb₁)
  rcases hother with hne | hne
  · exact hne (houtcome.symm.trans (hsame.symm.trans houtcomeb))
  · exact hne (hreason.symm.trans (hsamereason.symm.trans hreasonb))

/-- What the rest of a run keeps. -/
theorem posts_of_valid {g l : List (Event Address)} {I : RefractGrants Address → Prop}
    {P : Event Address → Prop} (tr : Trace (step validatePanel) s l s') (v : Valid g s)
    (step : ∀ x, P x → Sound x.pre → Final x.pre → Effect validatePanel x.pre x.post x.call x.out →
      I x.pre → I x.post) (hP : ∀ x ∈ l, P x) (init : I s) : ∀ x ∈ l, I x.post := by
  have hposts := tr.posts_of (I := fun s => Sound s ∧ Final s ∧ I s) (P := P)
    (fun x hx accepted ⟨i, f, hI⟩ => ⟨i.of_effect (step_effect accepted),
      f.of_effect (step_effect accepted), step x hx i f (step_effect accepted) hI⟩)
    hP ⟨v.sound, v.final, init⟩
  exact fun x hx => (hposts x hx).2.2

theorem binds_of_not_overrides (tr : Trace (step validatePanel) (new applications) h s)
    (hbinding : ∀ x ∈ h, ¬ x.pre.Overrides x.call) : Binds h := by
  rintro g x l rfl appId _ ⟨caller, overturn, reasonHash, app, call_eq, stored, rfl⟩
  obtain ⟨hist, accepted, rest⟩ := tr.at_receipt
  have v := valid_step g x accepted (hist.history valid_step (new_valid applications))
  have held := held_of_decision accepted call_eq stored
  have hrest : ∀ y ∈ l, ¬ y.pre.Overrides y.call := fun y hy => hbinding y (by simp [hy])
  constructor
  · have hposts := posts_of_valid rest v
      (I := fun s => s.Decided appId app.appealsUsed (verdict overturn).1 reasonHash)
      (fun y binding i f heffect d => Decided.of_effect i f heffect binding d) hrest held.1
    intro y hy
    obtain ⟨b, foundb, -, houtcomeb, hreasonb⟩ := hposts y hy
    obtain ⟨a, found, -, houtcome, hreason⟩ := held.1
    exact ⟨a, b, found, foundb, houtcomeb.trans houtcome.symm, hreasonb.trans hreason.symm⟩
  · rintro m y l' rfl kept
    rw [show m ++ y :: l' = m ++ [y] ++ l' by simp] at rest
    obtain ⟨_, upto, -⟩ := rest.split
    have hposts := posts_of_valid upto v
      (I := fun s => s.Held appId app.appealsUsed overturn reasonHash)
      (P := fun y => ¬ y.pre.Overrides y.call ∧ ¬ Releases y.call.call appId)
      (fun y hy i f heffect held => Held.of_effect i f heffect hy.1 hy.2 held)
      (fun z hz => ⟨hrest z (by simpa using List.mem_append_left l' hz), kept z hz⟩) held
    rw [(hposts y (by simp)).status_eq, held.status_eq]

/-- In every run of the appeals, binding decisions bind exactly if none of them is made
of a round that was decided before with another outcome or for another reason. -/
theorem decisions_bind_iff (validatePanel : List Address → Outcome GrantsError Unit)
    (applications : ℕ → Option (Application Address)) (txs : List (Transaction Address)) :
    let r := run (step validatePanel) (RefractGrants.new applications) txs
    Binds r.2 ↔ ∀ x ∈ r.2, ¬ x.pre.Overrides x.call :=
  have tr := run_trace (step validatePanel) (RefractGrants.new applications) txs
  ⟨not_overrides_of_binds tr, binds_of_not_overrides tr⟩

/-! ### A second decision -/

/-- Application 0, rejected at time 0, and with one appeal. -/
def rejectedOnce : ℕ → Option (Application ℕ)
  | 0 => some ⟨1, [2], .rejected, 0, 0, 1, false⟩
  | _ => none

/-- The appeal waits for a panel until it is escalated; the timelock upholds the rejection
for one reason and overturns it for another. -/
def decidedTwice : List (Transaction ℕ) :=
  let env : ℕ → Env ℕ := fun now =>
    ⟨[1], now, fun _ => .error (.error .unauthorized), fun _ => .ok ()⟩
  [⟨env 0, .submitAppeal 1 0 (.replicate 32 7)⟩,
    ⟨env (rereviewTimeoutSecs + 1), .escalateStalled 0⟩,
    ⟨env (rereviewTimeoutSecs + 2), .finalDecision 9 0 false (.replicate 32 1)⟩,
    ⟨env (rereviewTimeoutSecs + 3), .finalDecision 9 0 true (.replicate 32 2)⟩]

/-- The rejection that was upheld is overturned in the same round. -/
theorem decidedTwice_not_binding :
    let r := run (step fun _ => .ok ()) (RefractGrants.new rejectedOnce) decidedTwice
    ¬ Binds r.2 := by
  intro r h
  have hlast : ∃ g x y, r.2 = g ++ [x, y] ∧ Finalizes x 0 1 ∧
      (x.post.appeals (0, 1)).map Appeal.outcome = some .upheld ∧
      (y.post.appeals (0, 1)).map Appeal.outcome = some .overturned :=
    ⟨[_, _], _, _, rfl, ⟨9, false, _, _, rfl, rfl, rfl⟩, rfl, rfl⟩
  obtain ⟨g, x, y, hr, hfinalizes, hupheld, hoverturned⟩ := hlast
  obtain ⟨a, b, found, foundb, hsame, -⟩ := (h g x [y] hr 0 1 hfinalizes).1 y (by simp)
  rw [found, Option.map_some, Option.some.injEq] at hupheld
  rw [foundb, Option.map_some, Option.some.injEq, hsame, hupheld] at hoverturned
  cases hoverturned

end RefractGrants

end RefractContracts.Appeals
