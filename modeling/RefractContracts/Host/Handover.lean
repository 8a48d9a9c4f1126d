import Mathlib.Data.Option.Basic

/-! A two-step change of hands. The holder offers, and who has the offer takes it; as long as
neither makes another offer, what has been offered stays on offer until it is taken, and what has
been taken stays with the one who took it. -/

namespace RefractContracts.Host

variable {α : Type*}

/-- One step from a holder and an offer to the next ones. Without a holder anybody may be
appointed; who makes an offer has `P`. -/
inductive Passes (P : α → Prop) : Option α × Option α → Option α × Option α → Prop
  | kept {p} : Passes P p p
  | appointed {offer p} : Passes P (none, offer) p
  | proposed {a b offer} (may : P a) : Passes P (some a, offer) (some a, some b)
  | accepted {holder b} : Passes P (holder, some b) (some b, none)

/-- On the way from `a` to `b`: offered, or taken. -/
def Heading (a b : α) (p : Option α × Option α) : Prop :=
  p = (some a, some b) ∨ p = (some b, none)

variable {P Q : α → Prop} {a b : α} {p q : Option α × Option α}

theorem Passes.mono (hp : Passes P p q) (hPQ : ∀ a, P a → Q a) : Passes Q p q := by
  cases hp with
  | kept => exact .kept
  | appointed => exact .appointed
  | proposed may => exact .proposed (hPQ _ may)
  | accepted => exact .accepted

theorem Passes.taken (hp : Passes P (some b, none) q) (hb : ¬ P b) : q = (some b, none) := by
  cases hp with
  | kept => rfl
  | proposed may => exact absurd may hb

theorem Passes.heading (hp : Passes P p q) (h : Heading a b p) (ha : ¬ P a) (hb : ¬ P b) :
    Heading a b q := by
  rcases h with rfl | rfl
  · cases hp with
    | kept => exact .inl rfl
    | proposed may => exact absurd may ha
    | accepted => exact .inr rfl
  · exact .inr (hp.taken hb)

end RefractContracts.Host
