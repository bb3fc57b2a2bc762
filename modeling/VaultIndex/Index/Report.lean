import VaultIndex.Apr.Codec
import VaultIndex.Event.Codec
import VaultIndex.Text.Timestamp

/-!
# Reports

What a pass over all chains has found.
-/

namespace VaultIndex

structure ChainReport where
  managementFees : EventHistory
  performanceFees : EventHistory
  forwardApys : Table Address ForwardApy
deriving DecidableEq, Inhabited

structure IndexReport where
  generatedAt : Timestamp
  chains : Table ChainId ChainReport
deriving DecidableEq, Inhabited

namespace ChainReport

def json (r : ChainReport) : Json :=
  .ofFields
    [("managementFees", r.managementFees.json),
      ("performanceFees", r.performanceFees.json),
      ("forwardApy", .ofAddressTable ForwardApy.json r.forwardApys)]

end ChainReport

namespace IndexReport

def json (r : IndexReport) : Json :=
  .ofFields
    [("generatedAt", .ofString r.generatedAt.text),
      ("chains", .ofNumberTable ChainReport.json r.chains)]

/-- The text of a report. -/
def text (r : IndexReport) : String := r.json.pretty

end IndexReport

end VaultIndex
