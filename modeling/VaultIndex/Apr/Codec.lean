import VaultIndex.Apr.Forward
import VaultIndex.Json.Number
import VaultIndex.Json.Print
import VaultIndex.Json.Record

/-!
# Forward APYs in JSON
-/

namespace VaultIndex

open Json (Reader Record)

namespace ForwardApyKind

/-- The name of a kind in texts and in JSON. -/
def name : ForwardApyKind → String
  | unavailable => ""
  | onchainOracle => "v3:onchainOracle"

def all : List ForwardApyKind := [unavailable, onchainOracle]

/-- Reads a name. -/
def ofText? (s : String) : Option ForwardApyKind := all.find? (·.name = s)

def json (k : ForwardApyKind) : Json := .ofString k.name

def reader : Reader ForwardApyKind := Json.variant (all.map fun k => (k.name, k))

end ForwardApyKind

namespace CompositeApy

def json (c : CompositeApy) : Json :=
  .ofFields
    [("v3OracleCurrentApr", .ofDecimal c.oracle), ("v3OracleStratRatioApr", .ofDecimal c.debtRatio)]

def record : Record CompositeApy :=
  (Record.make CompositeApy.mk)
    |>.required "v3OracleCurrentApr" Json.decimal
    |>.required "v3OracleStratRatioApr" Json.decimal

def reader : Reader CompositeApy := record.reader

end CompositeApy

namespace ForwardApy

def json (apy : ForwardApy) : Json :=
  .ofFields
    [("type", apy.kind.json), ("netApy", .ofDecimal apy.net), ("composite", apy.composite.json)]

def record : Record ForwardApy :=
  (Record.make ForwardApy.mk)
    |>.required "type" ForwardApyKind.reader
    |>.required "netApy" Json.decimal
    |>.required "composite" CompositeApy.reader

def reader : Reader ForwardApy := record.reader

end ForwardApy

end VaultIndex
