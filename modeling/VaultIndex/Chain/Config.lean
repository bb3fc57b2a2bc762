import VaultIndex.Evm.Codec
import VaultIndex.Json.Record
import VaultIndex.Text.Duration
import VaultIndex.Url.Basic

/-!
# Chain configurations
-/

namespace VaultIndex

open Json (Reader Record)

namespace Url

def json (u : Url) : Json := .ofString u.text

def reader : Reader Url := Json.textual ofText?

end Url

/-- How a chain is reached, and what is asked of it. -/
structure ChainConfig where
  chainId : ChainId
  name : String
  rpcUrl : Url
  /-- Zero where no APR oracle is deployed. -/
  aprOracle : Address := .zero
  /-- The most blocks of which logs are requested at once. -/
  maxBlockRange : UInt64 := 100000
  rpcTimeoutSecs : UInt64 := 30
deriving DecidableEq, Inhabited

namespace ChainConfig

/-- The address of the APR oracle, where one is deployed. -/
def aprOracle? (c : ChainConfig) : Option Address :=
  if c.aprOracle.isZero then none else some c.aprOracle

def rpcTimeout (c : ChainConfig) : Duration := .ofSeconds c.rpcTimeoutSecs.toNat

def json (c : ChainConfig) : Json :=
  .ofFields
    [("chainId", .ofWord64 c.chainId),
      ("name", .ofString c.name),
      ("rpcUrl", c.rpcUrl.json),
      ("aprOracle", c.aprOracle.json),
      ("maxBlockRange", .ofWord64 c.maxBlockRange),
      ("rpcTimeoutSecs", .ofWord64 c.rpcTimeoutSecs)]

def record : Record ChainConfig :=
  (Record.make ChainConfig.mk)
    |>.required "chainId" Json.word64
    |>.required "name" Json.text
    |>.required "rpcUrl" Url.reader
    |>.withDefault "aprOracle" Address.reader .zero
    |>.withDefault "maxBlockRange" Json.word64 100000
    |>.withDefault "rpcTimeoutSecs" Json.word64 30

def reader : Reader ChainConfig := record.reader

end ChainConfig

end VaultIndex
