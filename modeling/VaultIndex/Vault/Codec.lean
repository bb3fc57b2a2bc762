import VaultIndex.Evm.Codec
import VaultIndex.Json.Number
import VaultIndex.Json.Record
import VaultIndex.Vault.Basic

/-!
# Vaults and strategies as texts and in JSON
-/

namespace VaultIndex

open Json (Reader Record)

namespace VaultKind

/-- The name under which a kind is shown. -/
def shown : VaultKind → String
  | legacy => "Legacy"
  | single => "Single"
  | multiple => "Multiple"

/-- The name of a kind in JSON. -/
def name : VaultKind → String
  | legacy => "legacy"
  | single => "single"
  | multiple => "multiple"

def all : List VaultKind := [legacy, single, multiple]

/-- Reads a name in any mixture of cases. -/
def ofText? (s : String) : Option VaultKind :=
  all.find? fun k => s.toList.map Char.toLower = k.name.toList

def json (k : VaultKind) : Json := .ofString k.name

def reader : Reader VaultKind := Json.variant (all.map fun k => (k.name, k))

end VaultKind

namespace VaultMetadata

def json (m : VaultMetadata) : Json := .ofFields [("shouldUseV2APR", .bool m.prefersDebtRatio)]

def record : Record VaultMetadata :=
  (Record.make VaultMetadata.mk).withDefault "shouldUseV2APR" Json.boolean false

def reader : Reader VaultMetadata := record.reader

end VaultMetadata

namespace Vault

def json (v : Vault) : Json :=
  .ofFields
    [("chainId", .ofWord64 v.chainId),
      ("address", v.address.json),
      ("version", .ofString v.version),
      ("kind", v.kind.json),
      ("activation", .ofWord64 v.activation),
      ("lastTotalAssets", .ofOption .ofDecimal v.lastTotalAssets),
      ("metadata", v.metadata.json)]

def record : Record Vault :=
  (Record.make Vault.mk)
    |>.required "chainId" Json.word64
    |>.required "address" Address.reader
    |>.required "version" Json.text
    |>.withDefault "kind" VaultKind.reader .legacy
    |>.withDefault "activation" Json.word64 0
    |>.withDefault "lastTotalAssets" (Json.optional Json.decimal) none
    |>.withDefault "metadata" VaultMetadata.reader {}

def reader : Reader Vault := record.reader

end Vault

namespace Strategy

def json (s : Strategy) : Json :=
  .ofFields
    [("address", s.address.json),
      ("vaultAddress", s.vaultAddress.json),
      ("lastDebtRatio", .ofOption U256.json s.lastDebtRatio),
      ("lastPerformanceFee", s.lastPerformanceFee.json)]

def record : Record Strategy :=
  (Record.make Strategy.mk)
    |>.required "address" Address.reader
    |>.required "vaultAddress" Address.reader
    |>.withDefault "lastDebtRatio" (Json.optional U256.reader) none
    |>.withDefault "lastPerformanceFee" U256.reader 0

def reader : Reader Strategy := record.reader

end Strategy

end VaultIndex
