import Mathlib.Tactic

/-! Fallible contract calls. A call returns its value, returns an error of the
contract's own error type, or traps in the host. Machine integers are modelled
by `ℤ` and `ℕ` with a range check after every operation: the contracts are built
with overflow checks, so a result out of range traps. -/

namespace RefractContracts.Host

/-- Why a call does not succeed. -/
inductive Fault (ε : Type*) where
  | error (e : ε)
  | trap
  deriving DecidableEq, Repr

abbrev Outcome (ε α : Type*) := Except (Fault ε) α

universe u

variable {ε : Type*} {α β : Type u}

/-! ### Guards -/

/-- `if p { return Err(e) }`. -/
def bail (p : Prop) [Decidable p] (e : ε) : Outcome ε Unit :=
  if p then .error (.error e) else .ok ()

/-- `.ok_or(e)?`. -/
def okOr (o : Option α) (e : ε) : Outcome ε α :=
  match o with
  | some a => .ok a
  | none => .error (.error e)

/-- The host traps unless `p`. -/
def demand (p : Prop) [Decidable p] : Outcome ε Unit :=
  if p then .ok () else .error .trap

/-- `address.require_auth()`, with the addresses that authorised the call. -/
def requireAuth [DecidableEq α] (signers : List α) (a : α) : Outcome ε Unit :=
  demand (a ∈ signers)

/-- `.map_err(|_| e)`; a trap stays a trap. -/
def mapErr {ε' : Type*} (x : Outcome ε' α) (e : ε) : Outcome ε α :=
  match x with
  | .ok a => .ok a
  | .error (.error _) => .error (.error e)
  | .error .trap => .error .trap

/-- The same outcome with its errors embedded in another type. -/
def embed {ε' : Type*} (f : ε' → ε) (x : Outcome ε' α) : Outcome ε α :=
  match x with
  | .ok a => .ok a
  | .error (.error e) => .error (.error (f e))
  | .error .trap => .error .trap

/-- `env.invoke_contract(..)`: the caller traps on any failure of the callee. -/
def invoke {ε' : Type*} (x : Outcome ε' α) : Outcome ε α :=
  match x with
  | .ok a => .ok a
  | .error _ => .error .trap

@[simp] theorem bind_eq_ok (x : Outcome ε α) (f : α → Outcome ε β) (b : β) :
    (x >>= f) = .ok b ↔ ∃ a, x = .ok a ∧ f a = .ok b := by
  cases x <;> simp [bind, Except.bind]

/-- An outcome has one value. -/
theorem ok_unique {x : Outcome ε α} {a b : α} (ha : x = .ok a) (hb : x = .ok b) : a = b :=
  Except.ok.inj (ha.symm.trans hb)

theorem ok_bind (a : α) (f : α → Outcome ε β) : ((.ok a : Outcome ε α) >>= f) = f a := rfl

theorem exists_bind_eq_ok {x : Outcome ε α} {f : α → Outcome ε β} {a : α} (hx : x = .ok a)
    (hf : ∃ b, f a = .ok b) : ∃ b, (x >>= f) = .ok b := by
  rw [hx, ok_bind]
  exact hf

theorem bail_of {p : Prop} [Decidable p] (h : p) (e : ε) : bail p e = .error (.error e) := if_pos h

theorem bail_of_not {p : Prop} [Decidable p] (h : ¬ p) (e : ε) : bail p e = .ok () := if_neg h

@[simp] theorem map_eq_ok (f : α → β) (x : Outcome ε α) (b : β) :
    f <$> x = .ok b ↔ ∃ a, x = .ok a ∧ f a = b := by
  cases x <;> simp [Functor.map, Except.map]

@[simp] theorem pure_eq_ok (a b : α) : (pure a : Outcome ε α) = .ok b ↔ a = b := by
  simp [pure, Except.pure]

@[simp] theorem throw_ne_ok (e : Fault ε) (a : α) : ¬ (throw e : Outcome ε α) = .ok a := by
  simp [throw, throwThe, MonadExceptOf.throw]

@[simp] theorem bail_eq_ok (p : Prop) [Decidable p] (e : ε) (u : Unit) :
    bail p e = .ok u ↔ ¬ p := by
  unfold bail; split <;> simp [*]

@[simp] theorem okOr_eq_ok (o : Option α) (e : ε) (a : α) : okOr o e = .ok a ↔ o = some a := by
  cases o <;> simp [okOr]

@[simp] theorem mapErr_eq_ok {ε' : Type*} (x : Outcome ε' α) (e : ε) (a : α) :
    mapErr x e = .ok a ↔ x = .ok a := by
  rcases x with (_ | _) | _ <;> simp [mapErr]

@[simp] theorem embed_eq_ok {ε' : Type*} (f : ε' → ε) (x : Outcome ε' α) (a : α) :
    embed f x = .ok a ↔ x = .ok a := by
  rcases x with (_ | _) | _ <;> simp [embed]

@[simp] theorem invoke_eq_ok {ε' : Type*} (x : Outcome ε' α) (a : α) :
    (invoke x : Outcome ε α) = .ok a ↔ x = .ok a := by
  cases x <;> simp [invoke]

@[simp] theorem demand_eq_ok (p : Prop) [Decidable p] (u : Unit) :
    (demand p : Outcome ε Unit) = .ok u ↔ p := by
  unfold demand; split <;> simp [*]

@[simp] theorem requireAuth_eq_ok [DecidableEq α] (signers : List α) (a : α) (u : Unit) :
    (requireAuth signers a : Outcome ε Unit) = .ok u ↔ a ∈ signers := by
  simp [requireAuth]

/-- A loop of checks passes exactly when every check does. -/
theorem forM_eq_ok {ι : Type*} {l : List ι} {f : ι → Outcome ε Unit} :
    forM l f = .ok () ↔ ∀ i ∈ l, f i = .ok () := by
  induction l with
  | nil => simp [pure, Except.pure]
  | cons i l ih =>
    rw [List.forM_cons, bind_eq_ok, List.forall_mem_cons, ← ih]
    exact ⟨fun ⟨_, hi, hl⟩ => ⟨hi, hl⟩, fun ⟨hi, hl⟩ => ⟨(), hi, hl⟩⟩

/-! ### Machine integers -/

def maxI128 : ℤ := 2 ^ 127 - 1

def minI128 : ℤ := -2 ^ 127

theorem minI128_eq : minI128 = -170141183460469231731687303715884105728 := by norm_num [minI128]

theorem maxI128_eq : maxI128 = 170141183460469231731687303715884105727 := by norm_num [maxI128]

theorem zero_le_maxI128 : 0 ≤ maxI128 := by decide

theorem minI128_le_zero : minI128 ≤ 0 := by decide

/-- The values of an `i128` argument. -/
abbrev I128 : Type := {x : ℤ // minI128 ≤ x ∧ x ≤ maxI128}

def maxU128 : ℕ := 2 ^ 128 - 1

def maxU64 : ℕ := 2 ^ 64 - 1

def maxU32 : ℕ := 2 ^ 32 - 1

theorem maxU64_eq : maxU64 = 18446744073709551615 := by norm_num [maxU64]

/-- The result of an `i128` operation whose exact value is `x`. -/
def i128 (x : ℤ) : Outcome ε ℤ :=
  if minI128 ≤ x ∧ x ≤ maxI128 then .ok x else .error .trap

/-- The same for a checked operation, with `.ok_or(e)`. -/
def i128Checked (x : ℤ) (e : ε) : Outcome ε ℤ :=
  if minI128 ≤ x ∧ x ≤ maxI128 then .ok x else .error (.error e)

/-- The same for a checked operation that answers `None` on overflow. -/
def i128Option (x : ℤ) : Option ℤ :=
  if minI128 ≤ x ∧ x ≤ maxI128 then some x else none

/-- The result of a `u64` operation whose exact value is `n`. -/
def u64 (n : ℕ) : Outcome ε ℕ :=
  if n ≤ maxU64 then .ok n else .error .trap

/-- The result of a `u32` operation whose exact value is `n`. -/
def u32 (n : ℕ) : Outcome ε ℕ :=
  if n ≤ maxU32 then .ok n else .error .trap

/-- The result of a `u128` operation whose exact value is `n`. -/
def u128 (n : ℕ) : Outcome ε ℕ :=
  if n ≤ maxU128 then .ok n else .error .trap

/-- `a - b` on unsigned integers. -/
def uSub (a b : ℕ) : Outcome ε ℕ :=
  if b ≤ a then .ok (a - b) else .error .trap

/-- `u64::saturating_add`. -/
def u64SaturatingAdd (a b : ℕ) : ℕ := min (a + b) maxU64

/-- `u64::saturating_mul`. -/
def u64SaturatingMul (a b : ℕ) : ℕ := min (a * b) maxU64

/-- `u32::saturating_add`. -/
def u32SaturatingAdd (a b : ℕ) : ℕ := min (a + b) maxU32

/-- `i128::saturating_add`. -/
def i128SaturatingAdd (a b : ℤ) : ℤ := max minI128 (min (a + b) maxI128)

/-- `i128::saturating_sub`. -/
def i128SaturatingSub (a b : ℤ) : ℤ := max minI128 (min (a - b) maxI128)

/-- `i128::saturating_mul`. -/
def i128SaturatingMul (a b : ℤ) : ℤ := max minI128 (min (a * b) maxI128)

/-- `i128::checked_div`. -/
def i128CheckedDiv (a b : ℤ) : Option ℤ := if b = 0 then none else i128Option (a.tdiv b)

@[simp] theorem i128_eq_ok (x y : ℤ) :
    (i128 x : Outcome ε ℤ) = .ok y ↔ (minI128 ≤ x ∧ x ≤ maxI128) ∧ x = y := by
  unfold i128; split <;> simp [*]

@[simp] theorem i128Checked_eq_ok (x y : ℤ) (e : ε) :
    i128Checked x e = .ok y ↔ (minI128 ≤ x ∧ x ≤ maxI128) ∧ x = y := by
  unfold i128Checked; split <;> simp [*]

@[simp] theorem i128Option_eq_some (x y : ℤ) :
    i128Option x = some y ↔ (minI128 ≤ x ∧ x ≤ maxI128) ∧ x = y := by
  unfold i128Option; split <;> simp [*]

theorem i128_of_nonneg {x : ℤ} (h0 : 0 ≤ x) (hmax : x ≤ maxI128) : (i128 x : Outcome ε ℤ) = .ok x :=
  if_pos ⟨minI128_le_zero.trans h0, hmax⟩

theorem i128Checked_of_nonneg {x : ℤ} (h0 : 0 ≤ x) (hmax : x ≤ maxI128) (e : ε) :
    i128Checked x e = .ok x :=
  if_pos ⟨minI128_le_zero.trans h0, hmax⟩

theorem i128Option_of_nonneg {x : ℤ} (h0 : 0 ≤ x) (hmax : x ≤ maxI128) : i128Option x = some x :=
  if_pos ⟨minI128_le_zero.trans h0, hmax⟩

@[simp] theorem u64_eq_ok (n m : ℕ) : (u64 n : Outcome ε ℕ) = .ok m ↔ n ≤ maxU64 ∧ n = m := by
  unfold u64; split <;> simp [*]

@[simp] theorem u32_eq_ok (n m : ℕ) : (u32 n : Outcome ε ℕ) = .ok m ↔ n ≤ maxU32 ∧ n = m := by
  unfold u32; split <;> simp [*]

@[simp] theorem u128_eq_ok (n m : ℕ) : (u128 n : Outcome ε ℕ) = .ok m ↔ n ≤ maxU128 ∧ n = m := by
  unfold u128; split <;> simp [*]

@[simp] theorem uSub_eq_ok (a b n : ℕ) :
    (uSub a b : Outcome ε ℕ) = .ok n ↔ b ≤ a ∧ a - b = n := by
  unfold uSub; split <;> simp [*]

theorem i128SaturatingAdd_eq {a b : ℤ} (hl : minI128 ≤ a + b) (hu : a + b ≤ maxI128) :
    i128SaturatingAdd a b = a + b := by
  rw [i128SaturatingAdd, min_eq_left hu, max_eq_right hl]

theorem i128SaturatingSub_eq {a b : ℤ} (hl : minI128 ≤ a - b) (hu : a - b ≤ maxI128) :
    i128SaturatingSub a b = a - b := by
  rw [i128SaturatingSub, min_eq_left hu, max_eq_right hl]

/-- Amounts added up with saturation are cut off at the largest value. -/
theorem foldl_i128SaturatingAdd {l : List ℤ} {acc : ℤ} (hacc : 0 ≤ acc) (hl : ∀ x ∈ l, 0 ≤ x) :
    l.foldl i128SaturatingAdd (min acc maxI128) = min (acc + l.sum) maxI128 := by
  induction l generalizing acc with
  | nil => simp
  | cons x l ih =>
    rw [List.forall_mem_cons] at hl
    have hmin := minI128_le_zero
    have hmax := zero_le_maxI128
    have hstep : i128SaturatingAdd (min acc maxI128) x = min (acc + x) maxI128 := by
      unfold i128SaturatingAdd
      omega
    rw [List.foldl_cons, hstep, ih (add_nonneg hacc hl.1) hl.2, List.sum_cons, add_assoc]

theorem foldl_i128SaturatingAdd_zero {l : List ℤ} (hl : ∀ x ∈ l, 0 ≤ x) :
    l.foldl i128SaturatingAdd 0 = min l.sum maxI128 := by
  have hfold := foldl_i128SaturatingAdd le_rfl hl
  rwa [min_eq_left zero_le_maxI128, zero_add] at hfold

/-! ### Errors that a call does not end in -/

section Errors
variable {e e' : ε}

theorem bind_eq_error {x : Outcome ε α} {f : α → Outcome ε β} {fault : Fault ε} :
    (x >>= f) = .error fault ↔ x = .error fault ∨ ∃ a, x = .ok a ∧ f a = .error fault := by
  cases x <;> simp [bind, Except.bind]

theorem bail_eq_error {p : Prop} [Decidable p] {fault : Fault ε} :
    bail p e = .error fault ↔ p ∧ .error e = fault := by
  unfold bail
  split <;> simp [*]

theorem bind_ne_error {x : Outcome ε α} {f : α → Outcome ε β} {fault : Fault ε}
    (hx : x ≠ .error fault) (hf : ∀ a, x = .ok a → f a ≠ .error fault) :
    (x >>= f) ≠ .error fault := by
  cases x with
  | ok a => exact hf a rfl
  | error other =>
    rintro ⟨⟩
    exact hx rfl

theorem okOr_ne_error {o : Option α} (h : o = none → e ≠ e') :
    okOr o e ≠ .error (.error e') := by
  cases o with
  | some a => nofun
  | none =>
    rintro ⟨⟩
    exact h rfl rfl

theorem i128Checked_ne_error {x : ℤ} (h : e ≠ e') : i128Checked x e ≠ .error (.error e') := by
  unfold i128Checked
  split_ifs
  · nofun
  · rintro ⟨⟩
    exact h rfl

/-- A loop ends in no error that none of its rounds ends in. -/
theorem foldlM_ne_error {ι : Type*} {f : β → ι → Outcome ε β} {l : List ι} {fault : Fault ε}
    (h : ∀ i ∈ l, ∀ b, f b i ≠ .error fault) (b : β) : l.foldlM f b ≠ .error fault := by
  induction l generalizing b with
  | nil => nofun
  | cons i l ih =>
    rw [List.foldlM_cons]
    exact bind_ne_error (h i List.mem_cons_self b)
      fun b' _ => ih (fun j hj => h j (List.mem_cons_of_mem i hj)) b'

end Errors

/-! ### What a call ensures -/

/-- What the call returns, if it returns, has `Q`. -/
def Ensures (x : Outcome ε α) (Q : α → Prop) : Prop := ∀ a, x = .ok a → Q a

section Ensures
variable {x : Outcome ε α} {f : α → Outcome ε β} {Q : α → Prop} {R : β → Prop} {a : α}

theorem ensures_pure (h : Q a) : Ensures (pure a : Outcome ε α) Q := by
  rintro _ ⟨⟩
  exact h

theorem ensures_bind (h : ∀ a, x = .ok a → Ensures (f a) R) : Ensures (x >>= f) R := by
  intro b hb
  obtain ⟨a, ha, hf⟩ := (bind_eq_ok x f b).mp hb
  exact h a ha b hf

end Ensures

end RefractContracts.Host
