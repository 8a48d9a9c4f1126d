import RefractContracts.Host.History
import RefractContracts.Host.Total
import RefractContracts.Treasury.Effects

/-! The capital seeded to the backstop. `SeededCapital` is one number for all tokens:
the total of what is left of each token's seed. A recall is bounded by the number and
not by the seed of its own token, so the recalls of a token stay within its seed
exactly when no call recalls more than is left of it. -/

namespace RefractContracts.Treasury

open Host

variable {Address : Type}

/-- The token and the amount that an operation sends to the backstop. -/
def Op.seeds : Op Address → Option (Address × ℤ)
  | .seedBackstop _ token amount => some (token, amount)
  | _ => none

/-- The token and the amount that an operation takes back from the backstop. -/
def Op.recalls : Op Address → Option (Address × ℤ)
  | .recallSeed _ token amount => some (token, amount)
  | _ => none

/-- An accepted transaction. -/
abbrev Accepted (Address : Type) := Receipt (World Address) (Transaction Address) ℤ

variable [DecidableEq Address]

/-- What was seeded of each token. -/
def seeded (h : List (Accepted Address)) : Address → ℤ := tally (·.call.op.seeds) h

/-- What was recalled of each token. -/
def recalled (h : List (Accepted Address)) : Address → ℤ := tally (·.call.op.recalls) h

/-- Of no token more was recalled than was seeded. -/
def Covered (h : List (Accepted Address)) : Prop := ∀ token, recalled h token ≤ seeded h token

/-- The administrator and the backstop sign for a recall that is within the seeded
capital and within the backstop's balance. -/
structure Recallable (contract : Address) (w : World Address) (signers : List Address)
    (caller backstop token : Address) (amount : ℤ) : Prop where
  admin : w.adminEntry = some caller
  configured : w.backstopEntry = some backstop
  signed : caller ∈ signers ∧ backstop ∈ signers
  outside : caller ≠ contract ∧ backstop ≠ contract
  pos : 0 < amount
  within : amount ≤ seededCapital w
  covered : amount ≤ (w.tokens token).balance backstop
  fits : (w.tokens token).balance contract + amount ≤ maxI128

/-- After a run, the call recalls more of a token than is left of its seed, but no more
than is left of the seeds of all tokens. -/
def Overdraws (contract : Address) (r : World Address × List (Accepted Address))
    (tx : Transaction Address) : Prop :=
  ∃ caller backstop token amount, tx.op = .recallSeed caller token amount ∧
    Recallable contract r.1 tx.signers caller backstop token amount ∧
    seeded r.2 token - recalled r.2 token < amount

variable {contract : Address} {w w' : World Address} {h : List (Accepted Address)}
  {x : Accepted Address}

theorem recallSeed_iff {signers : List Address} {caller token : Address} {amount : ℤ}
    (hcapital : seededCapital w ≤ maxI128) :
    (∃ w', step contract w ⟨signers, .recallSeed caller token amount⟩ = .ok (w', 0)) ↔
      ∃ backstop, Recallable contract w signers caller backstop token amount := by
  simp only [step, recallSeed, requireAdmin, transferToken, bind_eq_ok, requireAuth_eq_ok,
    okOr_eq_ok, bail_eq_ok, i128_eq_ok, pure_eq_ok, not_le, not_lt, not_not, List.mem_filter,
    decide_eq_true_eq, Prod.mk.injEq]
  constructor
  · rintro ⟨_, _, ⟨_, ⟨-, hcaller, _, hadmin, rfl⟩, -, hpos, -, hwithin, backstop, hbackstop, -,
      hsigned, _, ⟨ledger, hmoved, -⟩, -⟩, -⟩
    obtain ⟨-, hcovered, hfits⟩ := (Token.exists_transfer hsigned.2).mp ⟨ledger, hmoved⟩
    exact ⟨backstop, hadmin, hbackstop, ⟨hcaller.1, hsigned.1⟩, ⟨hcaller.2, hsigned.2⟩, hpos,
      hwithin, hcovered, hfits⟩
  · rintro ⟨backstop, q⟩
    obtain ⟨ledger, hmoved⟩ : ∃ ledger, ((w.tokens token).transfer backstop contract amount :
        Call (Token Address)) = .ok ledger :=
      (Token.exists_transfer q.outside.2).mpr ⟨q.pos.le, q.covered, q.fits⟩
    have hrange : minI128 ≤ seededCapital w - amount ∧ seededCapital w - amount ≤ maxI128 := by
      have hpos := q.pos
      have hwithin := q.within
      have hmin := minI128_le_zero
      omega
    exact ⟨_, _, ⟨(), ⟨(), ⟨q.signed.1, q.outside.1⟩, caller, q.admin, rfl⟩, (), q.pos, (),
      q.within, backstop, q.configured, (), ⟨q.signed.2, q.outside.2⟩, _, ⟨ledger, hmoved, rfl⟩, _,
      ⟨hrange, rfl⟩, rfl⟩, rfl, trivial⟩

/-- An accepted seeding leaves a seeded capital in the `i128` range. -/
theorem seedBackstop_le {signers : List Address} {caller token : Address} {amount out : ℤ}
    (accepted : step contract w ⟨signers, .seedBackstop caller token amount⟩ = .ok (w', out)) :
    seededCapital w' ≤ maxI128 := by
  simp only [step, seedBackstop, bind_eq_ok, i128_eq_ok, pure_eq_ok, Prod.mk.injEq] at accepted
  obtain ⟨_, ⟨_, -, _, -, _, -, _, -, _, -, _, ⟨hrange, rfl⟩, rfl⟩, rfl, rfl⟩ := accepted
  exact hrange.2

/-- The seeded capital is the total of what is left of the seeds. -/
structure Capital (h : List (Accepted Address)) (w : World Address) : Prop where
  total : HasTotal (fun token => seeded h token - recalled h token) (seededCapital w)
  nonneg : 0 ≤ seededCapital w
  le_max : seededCapital w ≤ maxI128
  idle : w.adminEntry = none → seededCapital w = 0

theorem left_snoc (h : List (Accepted Address)) (x : Accepted Address) (token : Address) :
    seeded (h ++ [x]) token - recalled (h ++ [x]) token =
      seeded h token - recalled h token +
        (booked x.call.op.seeds token - booked x.call.op.recalls token) := by
  unfold seeded recalled
  rw [tally_snoc, tally_snoc]
  ring

/-- What is left of the seeds, after a call that seeds or recalls one token. -/
theorem left_total (token : Address) {n m : ℤ}
    (i : HasTotal (fun token => seeded h token - recalled h token) n)
    (hothers : ∀ j, j ≠ token → booked x.call.op.seeds j = booked x.call.op.recalls j)
    (hm : m = n + (booked x.call.op.seeds token - booked x.call.op.recalls token)) :
    HasTotal (fun token => seeded (h ++ [x]) token - recalled (h ++ [x]) token) m := by
  refine (i.change token fun j hj => ?_).congr (fun _ => rfl) ?_
  · simp only [left_snoc, hothers j hj, sub_self, add_zero]
  · rw [left_snoc, hm]
    ring

/-- A call that neither seeds nor recalls. -/
theorem Capital.keep (i : Capital h w) (hseeds : x.call.op.seeds = none)
    (hrecalls : x.call.op.recalls = none) (hcapital : seededCapital w' = seededCapital w)
    (hadmin : w'.adminEntry = none → w.adminEntry = none) : Capital (h ++ [x]) w' where
  total := by
    refine i.total.congr (fun token => ?_) hcapital.symm
    rw [left_snoc, hseeds, hrecalls, booked_none, sub_self, add_zero]
  nonneg := hcapital ▸ i.nonneg
  le_max := hcapital ▸ i.le_max
  idle h := hcapital.trans (i.idle (hadmin h))

theorem Capital.step (accepted : Treasury.step contract x.pre x.call = .ok (x.post, x.out))
    (i : Capital h x.pre) : Capital (h ++ [x]) x.post := by
  have e := step_effect accepted
  obtain ⟨pre, ⟨signers, op⟩, out, post⟩ := x
  simp only at accepted e i ⊢
  cases e with
  | initialized first =>
    refine i.keep rfl rfl (i.idle first).symm ?_
    rintro ⟨⟩
  | screened kind =>
    cases op <;> first | exact i.keep rfl rfl rfl id | cases kind
  | appraised kind =>
    cases op <;> first | exact i.keep rfl rfl rfl id | cases kind
  | @seeded caller token amount backstop ledger admin pos configured moved =>
    refine ⟨?_, add_nonneg i.nonneg pos.le, seedBackstop_le accepted, fun hadmin => ?_⟩
    · refine left_total token i.total (fun j hj => booked_of_ne hj _) ?_
      simp [Op.seeds, Op.recalls, seededCapital]
    · cases hadmin.symm.trans admin
  | @recalled caller token amount backstop ledger admin pos within configured moved =>
    refine ⟨?_, sub_nonneg.mpr within, (sub_le_self _ pos.le).trans i.le_max, fun hadmin => ?_⟩
    · refine left_total token i.total (fun j hj => (booked_of_ne hj _).symm) ?_
      simp [Op.seeds, Op.recalls, seededCapital, sub_eq_add_neg]
    · cases hadmin.symm.trans admin
  | _ => exact i.keep rfl rfl rfl id

theorem capital_run (contract : Address) (now sequence : ℕ) (tokens : Address → Token Address)
    (prices : Address → Symbol → Option (ℤ × ℕ)) (txs : List (Transaction Address)) :
    let r := run (Treasury.step contract) (deployed now sequence tokens prices) txs
    Capital r.2 r.1 :=
  (run_trace _ _ txs).history (fun _ _ => Capital.step)
    ⟨HasTotal.zero, le_rfl, zero_le_maxI128, fun _ => rfl⟩

/-! ### The recalls of each token -/

/-- A call that recalls no more of any token than it seeds or than is left of it. -/
theorem covered_snoc
    (hx : ∀ token, booked x.call.op.recalls token ≤
      booked x.call.op.seeds token + (seeded h token - recalled h token)) : Covered (h ++ [x]) := by
  intro token
  have hleft := left_snoc h x token
  have hbooked := hx token
  omega

/-- A call that does not overdraw leaves the seeds covered. -/
theorem covered_of_accepted (hh : Covered h) (i : Capital h x.pre)
    (accepted : step contract x.pre x.call = .ok (x.post, x.out))
    (hkept : ¬ Overdraws contract (x.pre, h) x.call) : Covered (h ++ [x]) := by
  have e := step_effect accepted
  obtain ⟨pre, ⟨signers, op⟩, out, post⟩ := x
  simp only at accepted e i hkept
  refine covered_snoc fun token => ?_
  have hleft := sub_nonneg.mpr (hh token)
  have hidle : 0 ≤ 0 + (seeded h token - recalled h token) := hleft.trans_eq (zero_add _).symm
  cases e with
  | screened kind =>
    cases op <;> first | exact hidle | cases kind
  | appraised kind =>
    cases op <;> first | exact hidle | cases kind
  | @seeded caller seed amount backstop ledger admin pos configured moved =>
    refine add_nonneg ?_ hleft
    by_cases ht : token = seed
    · subst ht
      exact pos.le.trans_eq (booked_self token amount).symm
    · exact (booked_of_ne ht _).ge
  | @recalled caller seed amount backstop ledger admin pos within configured moved =>
    refine le_of_le_of_eq ?_ (zero_add _).symm
    by_cases ht : token = seed
    · subst ht
      obtain ⟨backstop, hrecall⟩ := (recallSeed_iff i.le_max).mp ⟨_, accepted⟩
      refine (booked_self token amount).trans_le (not_lt.mp fun hover => hkept ?_)
      exact ⟨caller, backstop, token, amount, rfl, hrecall, hover⟩
    · exact (booked_of_ne ht _).trans_le hleft
  | _ => exact hidle

/-- A call that overdraws is accepted, and leaves the seed of its token uncovered. -/
theorem Overdraws.uncovers {r : World Address × List (Accepted Address)} {tx : Transaction Address}
    (o : Overdraws contract r tx) (i : Capital r.2 r.1) :
    ∃ w', step contract r.1 tx = .ok (w', 0) ∧ ¬ Covered (r.2 ++ [⟨r.1, tx, 0, w'⟩]) := by
  obtain ⟨signers, op⟩ := tx
  obtain ⟨caller, backstop, token, amount, rfl, hrecall, hover⟩ := o
  obtain ⟨w', accepted⟩ := (recallSeed_iff i.le_max).mpr ⟨backstop, hrecall⟩
  refine ⟨w', accepted, fun hcovered => ?_⟩
  have hleft := left_snoc r.2 ⟨r.1, ⟨signers, .recallSeed caller token amount⟩, 0, w'⟩ token
  have hle := hcovered token
  simp only [Op.seeds, Op.recalls, booked_none, booked_self] at hleft
  omega

/-- The recalls of each token stay within its seed in exactly the runs in which no call
recalls more of a token than is left of it. -/
theorem recalls_covered_iff (contract : Address) (now sequence : ℕ)
    (tokens : Address → Token Address) (prices : Address → Symbol → Option (ℤ × ℕ))
    (txs : List (Transaction Address)) :
    let r := run (Treasury.step contract) (deployed now sequence tokens prices)
    (∀ g l, txs = g ++ l → Covered (r g).2) ↔
      ∀ g tx l, txs = g ++ tx :: l → ¬ Overdraws contract (r g) tx := by
  intro r
  have hcapital : ∀ g, Capital (r g).2 (r g).1 := capital_run contract now sequence tokens prices
  constructor
  · rintro hcovered g tx l rfl hover
    obtain ⟨w', accepted, hnot⟩ := hover.uncovers (hcapital g)
    have hlast := hcovered (g ++ [tx]) l (by simp)
    rw [show r (g ++ [tx]) = _ from run_accepted accepted] at hlast
    exact hnot hlast
  · intro hkept g
    induction g using List.reverseRecOn with
    | nil => exact fun _ _ _ => le_rfl
    | append_singleton g tx ih =>
      rintro l rfl
      have hcovered := ih (tx :: l) (by simp)
      have hnot := hkept g tx l (by simp)
      rw [show r (g ++ [tx]) = _ from run_snoc _ g tx]
      unfold commit
      split
      · next w' out accepted =>
        exact covered_of_accepted (x := ⟨_, tx, out, w'⟩) hcovered (hcapital g) accepted hnot
      · exact hcovered

/-- In a run that seeds and recalls one token only, the recalls stay within the seed. -/
theorem recalls_covered_of_single (contract : Address) (now sequence : ℕ)
    (tokens : Address → Token Address) (prices : Address → Symbol → Option (ℤ × ℕ))
    (token : Address) {txs : List (Transaction Address)}
    (single : ∀ tx ∈ txs, ∀ j, j ≠ token → booked tx.op.seeds j = 0 ∧ booked tx.op.recalls j = 0) :
    Covered (run (Treasury.step contract) (deployed now sequence tokens prices) txs).2 := by
  have i := capital_run contract now sequence tokens prices txs
  set r := run (Treasury.step contract) (deployed now sequence tokens prices) txs
  have hothers : ∀ j, j ≠ token → seeded r.2 j = 0 ∧ recalled r.2 j = 0 := fun j hj =>
    ⟨tally_eq_zero fun x hx => (single x.call (mem_run_call hx) j hj).1,
      tally_eq_zero fun x hx => (single x.call (mem_run_call hx) j hj).2⟩
  intro j
  by_cases hj : j = token
  · subst hj
    have hall : seeded r.2 j - recalled r.2 j = seededCapital r.1 := by
      refine (Finset.sum_singleton _ j).symm.trans (i.total.sum_eq fun k hk => ?_)
      rw [(hothers k (by simpa using hk)).1, (hothers k (by simpa using hk)).2, sub_zero]
    exact sub_nonneg.mp (hall ▸ i.nonneg)
  · rw [(hothers j hj).1, (hothers j hj).2]

/-- The backstop holds 100 of the tokens 20 and 21. The treasury seeds 100 of token 20
and recalls 100 of token 21. -/
def crossed : List (Transaction ℕ) :=
  [⟨[1], .initializeContract 1⟩, ⟨[1], .setBackstop 1 5⟩, ⟨[1], .seedBackstop 1 20 100⟩,
    ⟨[1, 5], .recallSeed 1 21 100⟩]

/-- The treasury 9 and the backstop 5 hold 100 of each token. -/
def hundreds : ℕ → Token ℕ := fun _ => (Token.empty.mint 9 100).mint 5 100

/-- The treasury recalls a token of which it never seeded anything. -/
theorem crossed_uncovered :
    let r := run (step 9) (deployed 0 0 hundreds fun _ _ => none) crossed
    seeded r.2 21 = 0 ∧ recalled r.2 21 = 100 ∧ ¬ Covered r.2 := by
  intro r
  have hseeded : seeded r.2 21 = 0 := by decide +kernel
  have hrecalled : recalled r.2 21 = 100 := by decide +kernel
  refine ⟨hseeded, hrecalled, fun hcovered => ?_⟩
  have hle := hcovered 21
  omega

end RefractContracts.Treasury
