import VaultIndex.Apr.Calculator
import VaultIndex.Harvest.Basic
import VaultIndex.Index.Report
import VaultIndex.Notify.Basic
import VaultIndex.Snapshot.Basic

/-!
# Indexing

A pass visits the chains of a snapshot that are registered, in ascending order, and reports on each.
Passes are repeated at an interval, or there is only one. Between chains and between passes a run
looks whether it has been cancelled.
-/

namespace VaultIndex

/-- What a run needs from outside besides the chains. -/
structure Surroundings (m : Type → Type) (ε : Type) where
  source : ChainSource m
  isCancelled : m Bool
  now : m Timestamp
  notify : String → m Unit
  /-- Hands a report over, which may fail. -/
  publish : IndexReport → m (Except ε Unit)
  /-- Waits between two passes; tells whether the run has been cancelled meanwhile. -/
  pause : Duration → m Bool

/-- What is indexed, and how. -/
structure Indexer where
  registry : ChainRegistry
  snapshot : VaultSnapshot
  range : Harvest.Range := {}
  /-- The time between two passes; `none` for a single pass. -/
  interval : Option Duration := none

namespace Indexer

variable {m : Type → Type} [Monad m] {ε : Type}

/-- How many chains of the snapshot are registered. -/
def indexedChains (x : Indexer) : Nat := x.snapshot.chains.keys.countP x.registry.contains

/-- Reports on a chain. -/
def indexChain (x : Indexer) (source : ChainSource m) (chain : ChainId) (c : ChainSnapshot) :
    Activity m ChainReport := do
  let vaults := c.vaultsByAddress
  let managementFees ← harvestManagementFees source chain x.range vaults
  let performanceFees ← harvestPerformanceFees source chain x.range vaults
  let forwardApys ← forwardApys x.registry source vaults c.strategiesByVault
  return { managementFees, performanceFees, forwardApys }

/-- What a pass has come to: the reports so far, and the announcements of a first pass. -/
structure Pass where
  chains : Table ChainId ChainReport := ∅
  tracker : InitializationTracker

/-- Visits chains until the run is cancelled; `announces` holds in the first pass. -/
def visit (x : Indexer) (out : Surroundings m ε) (announces : Bool) :
    List (ChainId × ChainSnapshot) → Pass → Activity m Pass
  | [], pass => return pass
  | (chain, c) :: rest, pass => do
    if ← Activity.outside out.isCancelled then return pass
    if x.registry.contains chain then
      let report ← x.indexChain out.source chain c
      let pass := { pass with chains := pass.chains.insert chain report }
      if announces then
        let (tracker, message) := pass.tracker.chainInitialized chain
        Activity.outside (out.notify message)
        x.visit out announces rest { pass with tracker }
      else x.visit out announces rest pass
    else x.visit out announces rest pass

/-- One pass over all chains. -/
def runOnce (x : Indexer) (out : Surroundings m ε) (announces : Bool)
    (tracker : InitializationTracker) : Activity m (IndexReport × InitializationTracker) := do
  let pass ← x.visit out announces x.snapshot.chains.entries { tracker }
  return (⟨← Activity.outside out.now, pass.chains⟩, pass.tracker)

/-- At most `limit` passes; `none` if the run would go on after them. With an interval a report that
cannot be handed over is given up for the next one. -/
def runPasses (x : Indexer) (out : Surroundings m ε) :
    Nat → Bool → InitializationTracker → Activity m (Option (Except ε Unit))
  | 0, _, _ => return none
  | limit + 1, isFirst, tracker => do
    if ← Activity.outside out.isCancelled then return some (.ok ())
    let (report, tracker) ← x.runOnce out isFirst tracker
    let written ← Activity.outside (out.publish report)
    match x.interval with
    | none => return some written
    | some interval =>
      if ← Activity.outside (out.pause interval) then return some (.ok ())
      x.runPasses out limit false tracker

/-- A whole run of at most `limit` passes. -/
def run (x : Indexer) (out : Surroundings m ε) (limit : Nat) :
    Activity m (Option (Except ε Unit)) :=
  x.runPasses out limit true { total := x.indexedChains }

end Indexer

end VaultIndex
