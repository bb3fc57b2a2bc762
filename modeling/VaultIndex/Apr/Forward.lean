import VaultIndex.Decimal.Basic

/-!
# Forward APYs

What a vault is expected to yield over a year, and by which method that was found.
-/

namespace VaultIndex

inductive ForwardApyKind where
  /-- Nothing could be computed: the chain is unknown or has no oracle. -/
  | unavailable
  | onchainOracle
deriving DecidableEq, Inhabited

/-- The two yields of which one becomes the net yield. -/
structure CompositeApy where
  /-- The compounded APR of the oracle. -/
  oracle : Decimal := .zero
  /-- The compounded APR weighted by debt ratios. -/
  debtRatio : Decimal := .zero
deriving DecidableEq, Inhabited

structure ForwardApy where
  kind : ForwardApyKind := .unavailable
  net : Decimal := .zero
  composite : CompositeApy := {}
deriving DecidableEq, Inhabited

namespace ForwardApy

/-- The yield of a vault about which nothing can be computed. -/
def unavailable : ForwardApy := {}

/-- Whether this is the yield of a vault about which nothing can be computed; the forms of zero are
one number. -/
def isUnavailable (apy : ForwardApy) : Bool :=
  apy.kind = .unavailable && apy.net.isZero && apy.composite.oracle.isZero &&
    apy.composite.debtRatio.isZero

end ForwardApy

end VaultIndex
