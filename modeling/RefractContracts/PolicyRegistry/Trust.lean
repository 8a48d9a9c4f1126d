import RefractContracts.Host.History
import RefractContracts.PolicyRegistry.Effects

/-! The pool the registry trusts. A proposal is pending with the delay in force when it
was made; a later proposal takes its place, and a confirmation or a cancellation ends
it. So after the initialisation the trusted pool is replaced only by the confirmation
of the latest proposal, once its delay is over. -/

namespace RefractContracts.PolicyRegistry

open Host

variable {Address : Type}

/-- The call is a proposal. -/
def Proposes (x : Event Address) : Prop :=
  ∃ caller pool, x.call.op = .proposePoolContract caller pool

/-- The call ends a proposal. -/
def Settles (x : Event Address) : Prop :=
  ∃ caller, x.call.op = .confirmPoolContract caller ∨ x.call.op = .cancelPoolContract caller

/-- In the history `h` the latest proposal is of `pool`, nothing has settled it, and the
delay in force when it was made ends at `readyAt`. -/
def Proposed (h : List (Event Address)) (pool : Address) (readyAt : ℕ) : Prop :=
  ∃ y l, Latest Proposes h y l ∧ (∃ caller, y.call.op = .proposePoolContract caller pool) ∧
    readyAt = y.pre.now + poolContractChangeDelay y.pre ∧ ∀ z ∈ l, ¬ Settles z

/-- After the history `h`, `x` replaces the trusted pool by that of a proposal whose
delay is over. -/
def ConfirmsInTime (h : List (Event Address)) (x : Event Address) : Prop :=
  ∃ caller pool readyAt, x.call.op = .confirmPoolContract caller ∧
    x.post.poolContractEntry = some pool ∧ Proposed h pool readyAt ∧ readyAt ≤ x.pre.now

/-- The pending entry is the latest proposal. -/
def PendingLogged (h : List (Event Address)) (w : World Address) : Prop :=
  ∀ pending, w.pendingPoolContractEntry = some pending →
    Proposed h pending.poolContract pending.executableAt

variable {h : List (Event Address)} {x : Event Address} {pool : Address} {readyAt : ℕ}

theorem Proposed.snoc (p : Proposed h pool readyAt) (hp : ¬ Proposes x) (hs : ¬ Settles x) :
    Proposed (h ++ [x]) pool readyAt := by
  obtain ⟨y, l, hy, hop, hready, hl⟩ := p
  exact ⟨y, l ++ [x], hy.snoc hp, hop, hready, forall_mem_snoc hl hs⟩

variable [DecidableEq Address]

theorem pendingLogged_step (h : List (Event Address)) (x : Event Address)
    (accepted : step x.pre x.call = .ok (x.post, x.out)) (i : PendingLogged h x.pre) :
    PendingLogged (h ++ [x]) x.post := by
  have e := step_effect accepted
  obtain ⟨pre, ⟨signers, op⟩, out, post⟩ := x
  simp only at e i ⊢
  have keep : ∀ {op : Op Address} {out : ℕ} {w : World Address},
      (∀ caller pool, op ≠ .proposePoolContract caller pool) →
      (∀ caller, op ≠ .confirmPoolContract caller ∧ op ≠ .cancelPoolContract caller) →
      w.pendingPoolContractEntry = pre.pendingPoolContractEntry →
      PendingLogged (h ++ [⟨pre, ⟨signers, op⟩, out, w⟩]) w := by
    intro op out w hp hs hsame pending hpending
    refine (i pending (hsame ▸ hpending)).snoc ?_ ?_
    · exact fun ⟨caller, pool, hop⟩ => hp caller pool hop
    · exact fun ⟨caller, hop⟩ => hop.elim (hs caller).1 (hs caller).2
  cases e with
  | @proposed caller pool =>
    intro pending hpending
    obtain rfl := Option.some.inj hpending
    exact ⟨_, [], .of_snoc h ⟨caller, pool, rfl⟩, ⟨caller, rfl⟩, rfl, List.forall_mem_nil _⟩
  | confirmed => exact nofun
  | cancelled => exact nofun
  | administered kind =>
    exact keep (fun _ _ hop => by simp [hop, Op.Handover] at kind)
      (fun _ => ⟨fun hop => by simp [hop, Op.Handover] at kind,
        fun hop => by simp [hop, Op.Handover] at kind⟩) rfl
  | _ => exact keep (fun _ _ => nofun) (fun _ => ⟨nofun, nofun⟩) rfl

theorem pendingLogged_run (now : ℕ) (txs : List (Transaction Address)) :
    PendingLogged (run step (deployed Address now) txs).2 (run step (deployed Address now) txs).1 :=
  (run_trace step _ txs).history pendingLogged_step nofun

/-- The trusted pool is set by the initialisation and by confirmations. -/
theorem poolContract_changes (accepted : step x.pre x.call = .ok (x.post, x.out))
    (i : PendingLogged h x.pre) (init : x.pre.adminEntry.isSome)
    (changed : x.post.poolContractEntry ≠ x.pre.poolContractEntry) : ConfirmsInTime h x := by
  have e := step_effect accepted
  obtain ⟨pre, ⟨signers, op⟩, out, post⟩ := x
  simp only at e i init changed
  cases e with
  | initialized first => simp [first] at init
  | @confirmed caller pending stored ready =>
    exact ⟨caller, pending.poolContract, pending.executableAt, rfl, rfl, i pending stored, ready⟩
  | _ => exact absurd rfl changed

/-- In every run, after the initialisation the trusted pool is only replaced by the
confirmation of the latest proposal, when the delay in force at that proposal is over
and nothing has confirmed or cancelled it since. -/
theorem trusted_pool_delayed (now : ℕ) (txs : List (Transaction Address)) :
    let r := run step (deployed Address now) txs
    ∀ g x l, r.2 = g ++ x :: l → x.pre.adminEntry.isSome →
      x.post.poolContractEntry ≠ x.pre.poolContractEntry → ConfirmsInTime g x := by
  intro r g x l hsplit init changed
  obtain ⟨txs', -, -, hg, accepted⟩ := run_split hsplit
  have hlogged := pendingLogged_run now txs'
  rw [hg] at hlogged
  exact poolContract_changes accepted hlogged init changed

/-- A proposal that is overwritten, and the confirmation of the second after its delay. -/
def repointed : List (Transaction ℕ) :=
  [⟨[1], .initializeContract 1 5⟩, ⟨[1], .setPoolContractChangeDelay 1 60⟩,
    ⟨[1], .proposePoolContract 1 6⟩, ⟨[1], .proposePoolContract 1 7⟩,
    ⟨[1], .setPoolContractChangeDelay 1 0⟩, ⟨[], .advance 60⟩, ⟨[1], .confirmPoolContract 1⟩]

theorem trusted_pool_delayed_repointed :
    ∃ g x, (run step (deployed ℕ 0) repointed).2 = g ++ [x] ∧
      x.post.poolContractEntry = some 7 ∧ ConfirmsInTime g x :=
  ⟨[_, _, _, _, _, _], _, rfl, rfl,
    trusted_pool_delayed 0 repointed [_, _, _, _, _, _] _ [] rfl rfl (by decide)⟩

end RefractContracts.PolicyRegistry
