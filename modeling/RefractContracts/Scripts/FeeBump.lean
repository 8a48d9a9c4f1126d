import Mathlib.Algebra.BigOperators.Group.List.Basic
import RefractContracts.Scripts.MerkleBatch
import RefractContracts.Xtask.Schema

/-! The fee-bump relay. A claimant's inner transaction is relayed if it matches the commitment
and the sponsor's policy has room for its amount. The policy is charged with the amount of the
envelope, once and with its sign, so the ceiling bounds what the operations move where amounts
are not negative and an envelope has at most one operation. An error is a `RelayError`; any
other exception of Python is a trap. -/

namespace RefractContracts.Scripts

open Host

/-! ### Python values -/

/-- The part of Python that is not spelled out: floats, lists and dicts as values, and the
decimal digits of Unicode. -/
structure Python where
  Other : Type
  str : Other → String
  /-- Of a float that is finite. -/
  int : Other → Option ℤ
  eq : Other → Other → Bool
  eqInt : Other → ℤ → Bool
  lt : Other → Other → Bool
  ltInt : Other → ℤ → Bool
  intLt : ℤ → Other → Bool
  truthy : Other → Bool
  decimal : Char → Option ℕ

/-- What `json.load` gives. -/
inductive PyValue (py : Python) where
  | none
  | bool (b : Bool)
  | int (n : ℤ)
  | str (s : String)
  | other (x : py.Other)

/-- `str.isspace` of a character. -/
def isSpace (c : Char) : Bool := Xtask.isWhitespace c ∨ (0x1C ≤ c.toNat ∧ c.toNat ≤ 0x1F)

section Int
variable (decimal : Char → Option ℕ)

/-- The digits after one of a number; an underscore may stand between two. -/
def intDigits (acc : ℕ) : List Char → Option ℕ
  | [] => some acc
  | ['_'] => none
  | '_' :: c :: s => (decimal c).bind fun d => intDigits (10 * acc + d) s
  | c :: s => (decimal c).bind fun d => intDigits (10 * acc + d) s

def intUnsigned : List Char → Option ℕ
  | [] => none
  | c :: s => (decimal c).bind fun d => intDigits decimal d s

/-- `int(s)` of a text. -/
def intOfText (s : String) : Option ℤ :=
  match (s.toList.dropWhile isSpace).rdropWhile isSpace with
  | '-' :: s => (intUnsigned decimal s).map fun n => -(n : ℤ)
  | '+' :: s => (intUnsigned decimal s).map Int.ofNat
  | s => (intUnsigned decimal s).map Int.ofNat

end Int

namespace PyValue

variable {py : Python}

/-- `str(v)`. -/
def text : PyValue py → String
  | none => "None"
  | bool b => if b then "True" else "False"
  | int n => toString n
  | str s => s
  | other x => py.str x

def toInt? : PyValue py → Option ℤ
  | none => .none
  | bool b => some (if b then 1 else 0)
  | int n => some n
  | str s => intOfText py.decimal s
  | other x => py.int x

/-- `int(v)`. -/
def toInt (v : PyValue py) : Outcome String ℤ :=
  match v.toInt? with
  | some n => pure n
  | .none => .error .trap

/-- `bool(v)`. -/
def truthy : PyValue py → Bool
  | none => false
  | bool b => b
  | int n => n ≠ 0
  | str s => s ≠ ""
  | other x => py.truthy x

/-- The number that `v` equals. -/
def number? : PyValue py → Option ℤ
  | bool b => some (if b then 1 else 0)
  | int n => some n
  | _ => .none

/-- `v == w`. -/
def eq : PyValue py → PyValue py → Bool
  | none, none => true
  | str s, str t => s = t
  | other x, other y => py.eq x y
  | other x, w => w.number?.any (py.eqInt x)
  | v, other y => v.number?.any (py.eqInt y)
  | v, w => v.number?.isSome ∧ v.number? = w.number?

end PyValue

/-! ### The relay -/

abbrev Relay (α : Type) := Outcome String α

variable {py : Python}

/-- What is read of an operation. -/
structure Operation (py : Python) where
  destination : Option (PyValue py)
  amount : Option (PyValue py)
  memo : Option (PyValue py)

/-- A claimant's inner transaction. Iterating over the operations may fail, and an item may be
no object. -/
structure Inner (py : Python) where
  destination : PyValue py
  amount : PyValue py
  memo : PyValue py
  commitment : PyValue py
  operations : Option (List (Option (Operation py)))
  funded : Option (PyValue py)

/-- What is read and written of a policy. -/
structure Policy (py : Python) where
  revoked : Option (PyValue py)
  ceiling : Option (PyValue py)
  spent : Option (PyValue py)
  ceilingApproached : Option (PyValue py)

structure InnerEnvelope (py : Python) where
  destination : PyValue py
  amount : String
  memo : PyValue py
  commitment : PyValue py
  operations : List (Option (Operation py))
  funded : Bool

structure Envelope (py : Python) where
  sponsor : String
  fee : ℤ
  inner : InnerEnvelope py

/-- Two lower case hex digits. -/
def hexByte (b : UInt8) : List Char := [Nat.digitChar (b.toNat / 16), Nat.digitChar (b.toNat % 16)]

def hexdigest (d : Digest32) : String := .ofList (d.toList.flatMap hexByte)

/-- What a claimant commits to, before it is hashed. -/
def commitmentText (destination amount memo : String) : String :=
  destination ++ "|" ++ amount ++ "|" ++ memo

/-- `str.encode`. -/
def encode (s : String) : Bytes := s.toUTF8.data.toList

/-- The item as an object; of another one `get` does not exist. -/
def asObject (item : Option (Operation py)) : Relay (Operation py) :=
  match item with
  | some op => pure op
  | none => .error .trap

section Relay
variable (sha256 : Bytes → Digest32)

def commitment (destination amount memo : String) : String :=
  hexdigest (sha256 (encode (commitmentText destination amount memo)))

/-- One round of the loop over the operations. -/
def checkOperation (inner : Inner py) (item : Option (Operation py)) : Relay Unit := do
  let op ← asObject item
  bail (¬ (op.destination.getD .none).eq inner.destination)
    "refusing to submit: an operation destination differs from the commitment"
  bail ((op.amount.getD .none).text ≠ inner.amount.text)
    "refusing to submit: an operation amount differs from the commitment"
  bail (¬ (op.memo.getD inner.memo).eq inner.memo)
    "refusing to submit: an operation memo differs from the commitment"

/-- Iterate over the operations. -/
def iterate (items : Option (List (Option (Operation py)))) :
    Relay (List (Option (Operation py))) :=
  match items with
  | some items => pure items
  | none => .error .trap

/-- Refuse a relay that would change destination, amount or memo. -/
def checkUnmodified (inner : Inner py) : Relay Unit := do
  let expected := commitment sha256 inner.destination.text inner.amount.text inner.memo.text
  bail (¬ inner.commitment.eq (.str expected))
    "refusing to submit: destination, amount, or memo does not match the signed commitment"
  let items ← iterate inner.operations
  forM items (checkOperation inner)

/-- `int(policy["ceiling"])`. -/
def Policy.ceilingValue (policy : Policy py) : Relay ℤ :=
  match policy.ceiling with
  | some ceiling => ceiling.toInt
  | none => .error .trap

/-- `int(policy.get("spent", 0))`. -/
def Policy.spentValue (policy : Policy py) : Relay ℤ := (policy.spent.getD (.int 0)).toInt

def checkPolicy (policy : Policy py) (amount : ℤ) : Relay (Policy py) := do
  bail ((policy.revoked.getD .none).truthy) "sponsorship revoked"
  let ceiling ← policy.ceilingValue
  let spent ← policy.spentValue
  let nxt := spent + amount
  bail (nxt > ceiling) "sponsor ceiling reached"
  pure { policy with
    spent := some (.int nxt)
    ceilingApproached := some (.bool (nxt * 5 ≥ ceiling * 4)) }

/-- Build a fee-bump envelope; the operations are copied. -/
def feeBump (inner : Inner py) (sponsor : String) (fee : ℤ) : Relay (Envelope py) := do
  let items ← iterate inner.operations
  pure ⟨sponsor, fee, ⟨inner.destination, inner.amount.text, inner.memo, inner.commitment, items,
    (inner.funded.getD (.bool false)).truthy⟩⟩

/-- What is done with one inner transaction before it is submitted. -/
def relay (sponsor : String) (fee : ℤ) (policy : Policy py) (inner : Inner py) :
    Relay (Policy py × Envelope py) := do
  checkUnmodified sha256 inner
  let amount ← inner.amount.toInt
  let updated ← checkPolicy policy amount
  let envelope ← feeBump inner sponsor fee
  pure (updated, envelope)

/-- Relay one inner transaction after the other, each under the policy the one before left. -/
def relayAll (sponsor : String) (fee : ℤ) :
    Policy py → List (Inner py) → Relay (Policy py × List (Envelope py))
  | policy, [] => pure (policy, [])
  | policy, inner :: inners => do
    let first ← relay sha256 sponsor fee policy inner
    let rest ← relayAll sponsor fee first.1 inners
    pure (rest.1, first.2 :: rest.2)

end Relay

/-! ### One relay -/

section Step
variable {sha256 : Bytes → Digest32} {sponsor : String} {fee : ℤ} {policy policy' : Policy py}
variable {inner : Inner py} {envelope : Envelope py}

theorem toInt_eq_ok {v : PyValue py} {n : ℤ} : v.toInt = .ok n ↔ v.toInt? = some n := by
  rw [PyValue.toInt]
  cases v.toInt? <;> simp

theorem iterate_eq_ok {o : Option (List (Option (Operation py)))}
    {items : List (Option (Operation py))} : iterate o = .ok items ↔ o = some items := by
  cases o <;> simp [iterate]

/-- The operation is for what the transaction names, as Python compares the two. -/
structure Operation.Agrees (op : Operation py) (inner : Inner py) : Prop where
  destination : (op.destination.getD .none).eq inner.destination = true
  amount : (op.amount.getD .none).text = inner.amount.text
  memo : (op.memo.getD inner.memo).eq inner.memo = true

theorem checkOperation_eq_ok {item : Option (Operation py)} :
    checkOperation inner item = .ok () ↔ ∃ op, item = some op ∧ op.Agrees inner := by
  simp only [checkOperation, bind_eq_ok, bail_eq_ok, not_not]
  constructor
  · rintro ⟨op, hop, _, hdestination, _, hamount, hmemo⟩
    cases item with
    | none => cases hop
    | some op' =>
      cases hop
      exact ⟨op, rfl, hdestination, hamount, hmemo⟩
  · rintro ⟨op, rfl, h⟩
    exact ⟨op, rfl, (), h.destination, (), h.amount, h.memo⟩

/-- What is relayed has the commitment of its three fields, and every operation is for them. -/
theorem checkUnmodified_eq_ok {u : Unit} : checkUnmodified sha256 inner = .ok u ↔
    inner.commitment.eq (.str (commitment sha256 inner.destination.text inner.amount.text
      inner.memo.text)) = true ∧
    ∃ items, inner.operations = some items ∧
      ∀ item ∈ items, ∃ op, item = some op ∧ op.Agrees inner := by
  cases u
  simp only [checkUnmodified, bind_eq_ok, bail_eq_ok, not_not, iterate_eq_ok, forM_eq_ok,
    checkOperation_eq_ok]
  constructor
  · rintro ⟨_, heq, items, hitems, hall⟩
    exact ⟨heq, items, hitems, hall⟩
  · rintro ⟨heq, items, hitems, hall⟩
    exact ⟨(), heq, items, hitems, hall⟩

/-- An item of an operation with the amount of the envelope. -/
def HasAmount (text : String) (item : Option (Operation py)) : Prop :=
  ∃ op, item = some op ∧ (op.amount.getD .none).text = text

/-- What a relay does: the operations have the amount of the envelope, which is charged once. -/
structure Relayed (policy : Policy py) (inner : Inner py) (policy' : Policy py)
    (envelope : Envelope py) (n s c : ℤ) : Prop where
  amount : inner.amount.toInt? = some n
  operations : inner.operations = some envelope.inner.operations
  hasAmount : ∀ item ∈ envelope.inner.operations, HasAmount inner.amount.text item
  spent : policy.spentValue = .ok s
  ceiling : policy.ceilingValue = .ok c
  room : s + n ≤ c
  spent' : policy'.spentValue = .ok (s + n)
  ceiling' : policy'.ceilingValue = .ok c

theorem relay_relayed (h : relay sha256 sponsor fee policy inner = .ok (policy', envelope)) :
    ∃ amount spent ceiling, Relayed policy inner policy' envelope amount spent ceiling := by
  simp only [relay, checkUnmodified_eq_ok, checkPolicy, feeBump, bind_eq_ok, bail_eq_ok,
    pure_eq_ok, iterate_eq_ok, toInt_eq_ok, Prod.mk.injEq] at h
  obtain ⟨_, ⟨-, items, hitems, hchecked⟩, amount, hamount, updated,
    ⟨_, -, ceiling, hceiling, spent, hspent, _, hroom, rfl⟩, _, ⟨items', hitems', rfl⟩, rfl,
    rfl⟩ := h
  obtain rfl : items = items' := Option.some.inj (hitems.symm.trans hitems')
  exact ⟨amount, spent, ceiling, {
    amount := hamount
    operations := hitems
    hasAmount := fun item hitem =>
      (hchecked item hitem).imp fun _ hop => ⟨hop.1, hop.2.amount⟩
    spent := hspent
    ceiling := hceiling
    room := not_lt.mp hroom
    spent' := rfl
    ceiling' := hceiling }⟩

end Step

/-! ### The ceiling -/

section Ceiling
variable (worth : String → ℚ)
variable {sha256 : Bytes → Digest32} {sponsor : String} {fee : ℤ} {policy policy' : Policy py}
variable {inner : Inner py} {envelope : Envelope py} {amount spent ceiling : ℤ}

/-- What an item moves, by the worth of its amount. -/
def itemWorth (item : Option (Operation py)) : ℚ :=
  match item with
  | some op => worth (op.amount.getD .none).text
  | none => 0

/-- What the operations of an envelope move. -/
def Envelope.moved (envelope : Envelope py) : ℚ :=
  (envelope.inner.operations.map (itemWorth worth)).sum

/-- The amount is not negative, and the operations, each of the amount, add up to no more. -/
def Inner.Covered (inner : Inner py) : Prop :=
  ∀ amount items, inner.amount.toInt? = some amount → inner.operations = some items →
    0 ≤ amount ∧ items.length * worth inner.amount.text ≤ amount

theorem Relayed.moved_eq (h : Relayed policy inner policy' envelope amount spent ceiling) :
    envelope.moved worth = envelope.inner.operations.length * worth inner.amount.text := by
  have hworth : ∀ x ∈ envelope.inner.operations.map (itemWorth worth),
      x = worth inner.amount.text := by
    refine List.forall_mem_map.mpr fun item hitem => ?_
    obtain ⟨op, rfl, hop⟩ := h.hasAmount item hitem
    rw [← hop]
    rfl
  rw [Envelope.moved, List.sum_eq_card_nsmul _ _ hworth, List.length_map, nsmul_eq_mul]

/-- Covered envelopes move at most what the policy is charged. -/
theorem Relayed.moved_le (h : Relayed policy inner policy' envelope amount spent ceiling)
    (hinner : inner.Covered worth) : 0 ≤ amount ∧ envelope.moved worth ≤ amount := by
  rw [h.moved_eq]
  exact hinner _ _ h.amount h.operations

/-- A run of covered envelopes moves at most what it is charged. -/
theorem relayAll_moved (inners : List (Inner py)) {policy : Policy py}
    {envelopes : List (Envelope py)} {spent : ℤ}
    (hrun : relayAll sha256 sponsor fee policy inners = .ok (policy', envelopes))
    (hspent : policy.spentValue = .ok spent) (hceiling : policy.ceilingValue = .ok ceiling)
    (hinners : ∀ inner ∈ inners, inner.Covered worth) :
    ∃ spent', policy'.spentValue = .ok spent' ∧ spent ≤ spent' ∧
      (envelopes.map (Envelope.moved worth)).sum ≤ (spent' - spent : ℤ) ∧
      (inners ≠ [] → spent' ≤ ceiling) := by
  induction inners generalizing policy envelopes spent with
  | nil =>
    cases hrun
    exact ⟨spent, hspent, le_rfl, by simp, fun hne => absurd rfl hne⟩
  | cons inner inners ih =>
    simp only [relayAll, bind_eq_ok, pure_eq_ok, Prod.mk.injEq] at hrun
    obtain ⟨⟨mid, envelope⟩, hfirst, ⟨policy'', rest⟩, hrest, rfl, rfl⟩ := hrun
    obtain ⟨hinner, hinners⟩ := List.forall_mem_cons.mp hinners
    obtain ⟨amount, _, _, hrelayed⟩ := relay_relayed hfirst
    obtain rfl := ok_unique hspent hrelayed.spent
    obtain rfl := ok_unique hceiling hrelayed.ceiling
    obtain ⟨hnonneg, hmoved⟩ := hrelayed.moved_le worth hinner
    obtain ⟨spent', hspent', hle, hsum, hroom⟩ := ih hrest hrelayed.spent' hrelayed.ceiling' hinners
    refine ⟨spent', hspent', by omega, ?_, fun _ => ?_⟩
    · rw [List.map_cons, List.sum_cons]
      push_cast at hsum ⊢
      linarith
    · cases inners with
      | nil =>
        cases hrest
        obtain rfl := ok_unique hspent' hrelayed.spent'
        exact hrelayed.room
      | cons _ _ => exact hroom (List.cons_ne_nil _ _)

/-- As long as every envelope is covered, what is recorded as spent only grows, and what the
operations move stays within the ceiling. -/
theorem ceiling_kept (sha256 : Bytes → Digest32) (worth : String → ℚ) (sponsor : String) (fee : ℤ)
    (policy policy' : Policy py) (inners : List (Inner py)) (envelopes : List (Envelope py))
    (spent ceiling : ℤ)
    (hrun : relayAll sha256 sponsor fee policy inners = .ok (policy', envelopes))
    (hspent : policy.spentValue = .ok spent) (hceiling : policy.ceilingValue = .ok ceiling)
    (hstart : inners ≠ [] ∨ spent ≤ ceiling) (hinners : ∀ inner ∈ inners, inner.Covered worth) :
    ∃ spent', policy'.spentValue = .ok spent' ∧ spent ≤ spent' ∧
      (envelopes.map (Envelope.moved worth)).sum ≤ (ceiling - spent : ℤ) := by
  obtain ⟨spent', hspent', hle, hsum, hroom⟩ :=
    relayAll_moved worth inners hrun hspent hceiling hinners
  have hwithin : spent' ≤ ceiling := by
    by_cases hne : inners = []
    · subst hne
      cases hrun
      obtain rfl := ok_unique hspent hspent'
      exact hstart.resolve_left (not_not.mpr rfl)
    · exact hroom hne
  exact ⟨spent', hspent', hle, hsum.trans (by exact_mod_cast Int.sub_le_sub_right hwithin spent)⟩

/-- Where the room is used up, an envelope that is not covered breaks one or the other. -/
theorem Relayed.kept_iff (h : Relayed policy inner policy' envelope amount spent ceiling)
    (hfull : spent + amount = ceiling) :
    (spent ≤ spent + amount ∧ envelope.moved worth ≤ (ceiling - spent : ℤ)) ↔
      inner.Covered worth := by
  have hcast : ((ceiling - spent : ℤ) : ℚ) = amount := by rw [← hfull, add_sub_cancel_left]
  rw [hcast, h.moved_eq]
  constructor
  · rintro ⟨hle, hmoved⟩ amount' items hamount hitems
    obtain rfl := Option.some.inj (h.amount.symm.trans hamount)
    obtain rfl := Option.some.inj (h.operations.symm.trans hitems)
    exact ⟨by omega, hmoved⟩
  · intro hinner
    obtain ⟨hnonneg, hle⟩ := hinner _ _ h.amount h.operations
    exact ⟨by omega, hle⟩

/-- Of amounts that are worth what they are read as: they are not negative, and more than one
operation has only the amount zero. -/
theorem covered_iff {items : List (Option (Operation py))}
    (hamount : inner.amount.toInt? = some amount) (hitems : inner.operations = some items)
    (hworth : worth inner.amount.text = amount) :
    inner.Covered worth ↔ 0 ≤ amount ∧ (items.length ≤ 1 ∨ amount = 0) := by
  have hsame : inner.Covered worth ↔ 0 ≤ amount ∧ (items.length * amount : ℤ) ≤ amount := by
    constructor
    · intro h
      obtain ⟨hnonneg, hle⟩ := h _ _ hamount hitems
      rw [hworth] at hle
      exact ⟨hnonneg, by exact_mod_cast hle⟩
    · rintro ⟨hnonneg, hle⟩ amount' items' hamount' hitems'
      obtain rfl := Option.some.inj (hamount.symm.trans hamount')
      obtain rfl := Option.some.inj (hitems.symm.trans hitems')
      rw [hworth]
      exact ⟨hnonneg, by exact_mod_cast hle⟩
  rw [hsame]
  refine and_congr_right fun hnonneg => ⟨fun hle => ?_, ?_⟩
  · by_contra hno
    obtain ⟨hmany, hne⟩ := not_or.mp hno
    have htwo : (2 : ℤ) ≤ items.length := by omega
    have hdouble := mul_le_mul_of_nonneg_right htwo hnonneg
    exact hne (le_antisymm (by linarith) hnonneg)
  · rintro (hone | rfl)
    · have hle : (items.length : ℤ) ≤ 1 := by exact_mod_cast hone
      simpa using mul_le_mul_of_nonneg_right hle hnonneg
    · rw [mul_zero]

end Ceiling

/-- Python without values of other kinds, and the digits of ASCII. -/
def plainPython : Python where
  Other := Empty
  str := nofun
  int := nofun
  eq := nofun
  eqInt := nofun
  lt := nofun
  ltInt := nofun
  intLt := nofun
  truthy := nofun
  decimal c := if c.isDigit then some (c.toNat - '0'.toNat) else none

/-- The worth of a text that is a number. -/
def textWorth (s : String) : ℚ := ((intOfText plainPython.decimal s).getD 0 : ℤ)

/-- SHA-256 on one commitment. -/
def claimDigest (m : Bytes) : Digest32 :=
  if m = encode "GCLAIMANT|40|claim" then
    #v[242, 244, 229, 201, 14, 252, 28, 220, 194, 150, 191, 126, 62, 27, 103, 61, 167, 1, 97, 69,
      111, 236, 195, 223, 147, 143, 244, 219, 53, 200, 167, 59]
  else Vector.replicate 32 0

def claimOperation : Operation plainPython :=
  ⟨some (.str "GCLAIMANT"), some (.str "40"), some (.str "claim")⟩

/-- A claim of 40, with some operations of 40 each. -/
def claimInner (operations : ℕ) : Inner plainPython where
  destination := .str "GCLAIMANT"
  amount := .str "40"
  memo := .str "claim"
  commitment := .str "f2f4e5c90efc1cdcc296bf7e3e1b673da70161456fecc3df938ff4db35c8a73b"
  operations := some (List.replicate operations (some claimOperation))
  funded := none

def claimEnvelope (operations : ℕ) : Envelope plainPython where
  sponsor := "multisig"
  fee := 100
  inner := ⟨.str "GCLAIMANT", "40", .str "claim",
    .str "f2f4e5c90efc1cdcc296bf7e3e1b673da70161456fecc3df938ff4db35c8a73b",
    List.replicate operations (some claimOperation), false⟩

def openPolicy (ceiling spent : ℤ) (approached : Option (PyValue plainPython)) :
    Policy plainPython where
  revoked := none
  ceiling := some (.int ceiling)
  spent := some (.int spent)
  ceilingApproached := approached

theorem checkUnmodified_claim (operations : ℕ) (h : operations ≤ 2) :
    checkUnmodified claimDigest (claimInner operations) = .ok () := by
  interval_cases operations <;> decide +kernel

theorem relay_claim {operations : ℕ} (h : operations ≤ 2) {ceiling spent : ℤ}
    (hroom : spent + 40 ≤ ceiling) (approached : Option (PyValue plainPython)) :
    relay claimDigest "multisig" 100 (openPolicy ceiling spent approached)
        (claimInner operations) =
      .ok (openPolicy ceiling (spent + 40) (some (.bool ((spent + 40) * 5 ≥ ceiling * 4))),
        claimEnvelope operations) := by
  have hamount : (claimInner operations).amount.toInt = .ok 40 :=
    show (PyValue.str "40" : PyValue plainPython).toInt = .ok 40 by decide +kernel
  have hpolicy : checkPolicy (openPolicy ceiling spent approached) 40 =
      .ok (openPolicy ceiling (spent + 40) (some (.bool ((spent + 40) * 5 ≥ ceiling * 4)))) := by
    show bail (spent + 40 > ceiling) "sponsor ceiling reached" >>= _ = _
    rw [bail_of_not (not_lt.mpr hroom)]
    rfl
  rw [relay, checkUnmodified_claim operations h, hamount]
  simp only [ok_bind, hpolicy]
  rfl

/-- Two claims of 40 under a ceiling of 100. -/
theorem relayAll_twoClaims :
    relayAll claimDigest "multisig" 100 (openPolicy 100 0 none) [claimInner 1, claimInner 1] =
      .ok (openPolicy 100 80 (some (.bool true)), [claimEnvelope 1, claimEnvelope 1]) := by
  rw [relayAll, relay_claim (by decide) (by decide), ok_bind, relayAll,
    relay_claim (by decide) (by decide)]
  rfl

theorem ceiling_kept_twoClaims :
    ∃ spent', (openPolicy 100 80 (some (.bool true))).spentValue = .ok spent' ∧ 0 ≤ spent' ∧
      ([claimEnvelope 1, claimEnvelope 1].map (Envelope.moved textWorth)).sum ≤ (100 - 0 : ℤ) := by
  have hworth : textWorth (claimInner 1).amount.text = (40 : ℤ) := by decide +kernel
  have hamount : (claimInner 1).amount.toInt? = some 40 := by decide +kernel
  have hcovered : (claimInner 1).Covered textWorth :=
    (covered_iff textWorth hamount rfl hworth).mpr ⟨by decide, .inl (by decide)⟩
  exact ceiling_kept claimDigest textWorth "multisig" 100 (openPolicy 100 0 none) _
    [claimInner 1, claimInner 1] _ 0 100 relayAll_twoClaims rfl rfl (.inl (List.cons_ne_nil _ _))
    (List.forall_mem_cons.mpr ⟨hcovered, List.forall_mem_singleton.mpr hcovered⟩)

/-- Two operations of 40 pass a ceiling of 50. -/
theorem two_operations_overspend : ¬ ∀ (policy policy' : Policy plainPython)
    (inners : List (Inner plainPython)) (envelopes : List (Envelope plainPython))
    (spent ceiling : ℤ),
    relayAll claimDigest "multisig" 100 policy inners = .ok (policy', envelopes) →
    policy.spentValue = .ok spent → policy.ceilingValue = .ok ceiling →
    inners ≠ [] ∨ spent ≤ ceiling → ∃ spent', policy'.spentValue = .ok spent' ∧ spent ≤ spent' ∧
      (envelopes.map (Envelope.moved textWorth)).sum ≤ (ceiling - spent : ℤ) := by
  intro h
  have hrun : relayAll claimDigest "multisig" 100 (openPolicy 50 0 none) [claimInner 2] =
      .ok (openPolicy 50 40 (some (.bool true)), [claimEnvelope 2]) := by
    rw [relayAll, relay_claim (by decide) (by decide)]
    rfl
  obtain ⟨_, -, -, hmoved⟩ := h (openPolicy 50 0 none) _ [claimInner 2] _ 0 50 hrun rfl rfl
    (.inr (by decide))
  have hsum : ([claimEnvelope 2].map (Envelope.moved textWorth)).sum = 80 := by decide +kernel
  rw [hsum] at hmoved
  exact absurd hmoved (by norm_num)

end RefractContracts.Scripts
