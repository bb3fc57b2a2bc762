import VaultIndex.Evm.Word

/-!
# Fee events

The events by which a vault announces a new fee, and where on the chain they stand.
-/

namespace VaultIndex

inductive EventKind where
  | managementFee
  | performanceFee
deriving DecidableEq, Inhabited

namespace EventKind

/-- The name of a kind in texts and in JSON. -/
def name : EventKind → String
  | managementFee => "updateManagementFee"
  | performanceFee => "updatePerformanceFee"

def all : List EventKind := [managementFee, performanceFee]

/-- Reads a name. -/
def ofText? (s : String) : Option EventKind := all.find? (·.name = s)

/-- The declaration of the event, with the types of what it carries. -/
def declaration : EventKind → String
  | managementFee => "UpdateManagementFee(uint256)"
  | performanceFee => "UpdatePerformanceFee(uint256)"

/-- The hash of the declaration, which is the first topic of the event's logs. -/
def signature : EventKind → Hash
  | managementFee => ⟨0x7a7883b0074f96e2c7fab65eb25abf624c488761a5db889e3bb84855dcc6daaf⟩
  | performanceFee => ⟨0x0810a1c261ca2c0cd86a0152c51c43ba9dc329639d2349f98140891b2ea798eb⟩

end EventKind

/-- An event and the place at which it was found. -/
structure EventRecord where
  kind : EventKind
  txHash : Hash
  block : UInt64
  txIndex : UInt64
  logIndex : UInt64
  /-- The new fee, in ten-thousandths. -/
  value : U256
deriving DecidableEq, Inhabited

namespace EventRecord

/-- Where in its block an event stands. -/
def position (r : EventRecord) : UInt64 × UInt64 := (r.txIndex, r.logIndex)

/-- Whether an event stands no later in its block than another. -/
def notAfter (a b : EventRecord) : Bool :=
  a.txIndex < b.txIndex || (a.txIndex == b.txIndex && a.logIndex ≤ b.logIndex)

end EventRecord

end VaultIndex
