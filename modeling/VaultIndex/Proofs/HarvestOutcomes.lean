import VaultIndex.Proofs.Harvests

/-!
# The outcome of a harvest

Whatever a harvest comes to, it is the history that asking one vault after the other makes
(`Outcome.history_eq`), and a harvest always comes to something (`exists_outcome`).
-/

namespace VaultIndex.Harvest

variable {source : ChainSource Id} {events : EventSource Id} {chain : ChainId} {kind : EventKind}
  {range : Range} {maxConcurrency : Nat} {vaults : Table Address Vault} {before after : Tally}
  {history : EventHistory}

namespace Outcome

lemma isHarvest (hs : source.eventSource chain = pure (.ok events))
    (h : Outcome source chain kind range maxConcurrency vaults before history after) :
    IsHarvest chain kind range events vaults history := by
  cases h with
  | refused refusal => cases hs.symm.trans refusal
  | harvested had ho run ended he =>
    obtain rfl := Except.ok.inj (hs.symm.trans had)
    have balanced := run.preserves (fun move => Pool.Balanced.move (.of_move? move))
      (Pool.balanced_start (nodup_filters ho) _)
    exact isHarvest_filed ho (balanced.holds_contents ended) he

lemma history_eq (h : Outcome source chain kind range maxConcurrency vaults before history after)
    (tally : Tally) : history = (harvest source chain kind range vaults tally).1 := by
  cases hs : (source.eventSource chain : Except ChainError (EventSource Id)) with
  | error cause =>
    have refused : (harvest source chain kind range vaults tally).1 = .empty := by
      rw [harvest, hs]
      rfl
    cases h with
    | refused => exact refused.symm
    | harvested had => cases hs.symm.trans had
  | ok events =>
    apply (h.isHarvest hs).unique
    exact isHarvest_harvest hs tally

end Outcome

lemma exists_outcome (source : ChainSource Id) (chain : ChainId) (kind : EventKind) (range : Range)
    (maxConcurrency : Nat) (vaults : Table Address Vault) (before : Tally) :
    ∃ history after,
      Outcome source chain kind range maxConcurrency vaults before history after := by
  cases hs : (source.eventSource chain : Except ChainError (EventSource Id)) with
  | error cause => exact ⟨_, _, .refused hs⟩
  | ok events =>
    obtain ⟨p, run, ended⟩ := Pool.exists_reaches_over chain events (permits_pos maxConcurrency)
      (.start (filters chain kind range vaults.entries) before)
    exact ⟨_, _, .harvested hs (.refl _) run ended (.refl _)⟩

end VaultIndex.Harvest
