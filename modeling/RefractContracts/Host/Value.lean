import Mathlib.Data.Int.Notation
import Mathlib.Data.Nat.Notation

/-! Values as contracts pass them to each other. Contracts that forward calls
store the callee, the function's name and encoded arguments; the callee decodes
the arguments when the call reaches it. -/

namespace RefractContracts.Host

abbrev Symbol := String

/-- The encoded values the contracts forward. -/
inductive Val (Address : Type) where
  | void
  | u32 (n : ℕ)
  | u64 (n : ℕ)
  | i128 (x : ℤ)
  | symbol (s : Symbol)
  | address (a : Address)
  | vec (vals : List (Val Address))

/-- A call that a contract makes: `env.invoke_contract(contract, function, args)`. -/
structure Invocation (Address : Type) where
  contract : Address
  function : Symbol
  args : List (Val Address)

end RefractContracts.Host
