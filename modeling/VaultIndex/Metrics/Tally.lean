import VaultIndex.Event.Basic

/-!
# Counters

What a run has counted. A tally keeps every addition, in order; the total of a counter is their sum.
-/

namespace VaultIndex

inductive Counter where
  /-- Events taken in from logs. -/
  | eventsHarvested (chain : ChainId) (kind : EventKind)
  /-- Log queries, and decodings of single logs, that failed. -/
  | logQueriesFailed (chain : ChainId) (kind : EventKind)
  /-- Second questions to the oracle about a vault. -/
  | oracleFallbacks (chain : ChainId)
  /-- Questions about a strategy that the oracle did not answer. -/
  | strategyAprFailures (chain : ChainId)
deriving DecidableEq

namespace Counter

def name : Counter → String
  | eventsHarvested .. => "events_harvested_total"
  | logQueriesFailed .. => "log_queries_failed_total"
  | oracleFallbacks _ => "oracle_fallbacks_total"
  | strategyAprFailures _ => "strategy_apr_failures_total"

/-- What a counter is about, under the names of its labels. -/
def labels : Counter → List (String × String)
  | eventsHarvested chain kind | logQueriesFailed chain kind =>
    [("chain_id", String.ofList (Digits.write 10 chain.toNat)), ("event_type", kind.name)]
  | oracleFallbacks chain | strategyAprFailures chain =>
    [("chain_id", String.ofList (Digits.write 10 chain.toNat))]

/-- The name of a counter with its labels. -/
def text (c : Counter) : String :=
  c.name ++ "\x7b" ++ ",".intercalate (c.labels.map fun l => l.1 ++ "=" ++ l.2) ++ "\x7d"

end Counter

/-- Additions to counters, in order. -/
structure Tally where
  additions : List (Counter × Nat) := []
deriving DecidableEq, Inhabited

namespace Tally

def empty : Tally := {}

/-- Adds to a counter; a counter to which only zeros were added has been touched all the same. -/
def add (t : Tally) (c : Counter) (n : Nat) : Tally := ⟨t.additions ++ [(c, n)]⟩

/-- Adds all that a second tally has counted. -/
def append (t u : Tally) : Tally := ⟨t.additions ++ u.additions⟩

/-- The total of a counter. -/
def total (t : Tally) (c : Counter) : Nat :=
  (t.additions.filter (·.1 = c)).foldl (fun n addition => n + addition.2) 0

/-- The counters that were touched, each once. -/
def counters (t : Tally) : List Counter := (t.additions.map (·.1)).eraseDups

/-- The totals of the counters that were touched. -/
def totals (t : Tally) : List (Counter × Nat) := t.counters.map fun c => (c, t.total c)

end Tally

/-! ### Activities -/

/-- Something that is done while counters run; `m` is what can be done with the world outside. -/
abbrev Activity (m : Type → Type) (α : Type) := StateT Tally m α

namespace Activity

variable {m : Type → Type} [Monad m]

/-- An exchange with the world outside. -/
def outside {α : Type} (act : m α) : Activity m α := StateT.lift act

/-- Adds to a counter. -/
def count (c : Counter) (n : Nat) : Activity m Unit := modify fun t => t.add c n

end Activity

end VaultIndex
