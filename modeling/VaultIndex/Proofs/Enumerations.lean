import VaultIndex.Proofs.Listings

/-!
# How strategies are enumerated

Computing a forward APY adds the same to the counters and to the journal whatever they hold before.
It does so in whatever order the strategies are enumerated, also where the replies of the oracle
depend on all that it was asked before (`forwardApy_of_any_enumeration`).
-/

namespace VaultIndex

variable {σ : Type}

/-- Work comes to one value in a world and adds the same to the counters and to the journal,
whatever they hold before. -/
def Appends (α : Type) (x _y : Consulting σ α) : Prop :=
  ∀ s, ∃ value added exchanges s', ∀ t j,
    x t j s = (((value, t.append added), j ++ exchanges), s')

namespace Appends

lemma isCongruence : Activity.IsCongruence (@Appends σ) where
  done a := by
    intro s
    refine ⟨a, {}, [], s, fun t j => ?_⟩
    rw [Tally.append_empty, List.append_nil]
    rfl
  count c k := by
    intro s
    refine ⟨(), ⟨[(c, k)]⟩, [], s, fun t j => ?_⟩
    rw [List.append_nil]
    rfl
  bind {α β x y f g} hx hf := by
    intro s
    obtain ⟨value, added, exchanges, s', first⟩ := hx s
    obtain ⟨value', added', exchanges', s'', later⟩ := hf value s'
    refine ⟨value', added.append added', exchanges ++ exchanges', s'', fun t j => ?_⟩
    rw [Consulting.bind_run, first, later, Tally.append_assoc, List.append_assoc]

lemma related (a : OracleAdapter (StateM σ)) :
    OracleAdapter.Related (@Appends σ) a.journaled a.journaled where
  chain_eq := rfl
  ask call := by
    intro s
    obtain ⟨reply, s', asks⟩ : ∃ reply s', a.ask call s = (reply, s') := ⟨_, _, rfl⟩
    refine ⟨reply, {}, [⟨call, reply⟩], s', fun t j => ?_⟩
    rw [Tally.append_empty, Consulting.ask_run, asks]

variable (registry : ChainRegistry) (source : ChainSource (StateM σ))

/-- An oracle is reached or not whatever was counted and noted before. -/
lemma connect? (chain : ChainId) (s : σ) :
    ∃ (connected : Option (OracleAdapter (StateM σ))) (s' : σ), ∀ t j,
      OracleAdapter.connect? registry source.journaled chain t j s =
        (((connected.map OracleAdapter.journaled, t), j), s') := by
  cases deployed : (registry.get? chain).bind ChainConfig.aprOracle? with
  | none =>
    refine ⟨none, s, fun t j => ?_⟩
    simp only [OracleAdapter.connect?, deployed]
    rfl
  | some address =>
    obtain ⟨reply, s', had⟩ : ∃ reply s', source.aprOracle chain address s = (reply, s') :=
      ⟨_, _, rfl⟩
    cases reply with
    | ok oracle =>
      refine ⟨some ⟨chain, oracle⟩, s', fun t j => ?_⟩
      rw [Observes.connect?, connect?_run deployed had]
    | error cause =>
      refine ⟨none, s', fun t j => ?_⟩
      simp only [OracleAdapter.connect?, deployed]
      rw [Consulting.bind_run, Consulting.outside_run, source.aprOracle_journaled, had]
      rfl

lemma forwardApy (v : Vault) (strategies : List Strategy) :
    Appends _ (VaultIndex.forwardApy registry source.journaled v strategies)
      (VaultIndex.forwardApy registry source.journaled v strategies) := by
  apply isCongruence.forwardApy
  intro β f g unreached reached s
  obtain ⟨connected, s', run⟩ := connect? registry source v.chainId s
  simp only [Consulting.bind_run, run]
  cases connected with
  | none => exact unreached s'
  | some a => exact reached a.journaled a.journaled (related a) s'

end Appends

/-- The forward APY of a vault, the calls that it takes and what they are answered, and what is
counted meanwhile are one and the same in whatever order the vault's strategies are enumerated, and
whatever was counted and noted before. -/
theorem forwardApy_of_any_enumeration (registry : ChainRegistry) (source : ChainSource (StateM σ))
    (v : Vault) {strategies : List Strategy} (keyed : (strategies.map (·.address)).Nodup) (s : σ) :
    ∃ apy added exchanges s', ∀ listed : List Strategy, listed.Perm strategies →
      ∀ tally journal,
        forwardApy registry source.journaled v listed tally journal s =
          (((apy, tally.append added), journal ++ exchanges), s') ∧
        forwardApy registry source v listed tally s = ((apy, tally.append added), s') := by
  obtain ⟨apy, added, exchanges, s', run⟩ := Appends.forwardApy registry source v strategies s
  refine ⟨apy, added, exchanges, s', fun listed same tally journal => ?_⟩
  rw [forwardApy_eq_of_perm registry source.journaled v keyed same]
  refine ⟨run tally journal, ?_⟩
  rw [Observes.forwardApy v listed tally journal s,
    forwardApy_eq_of_perm registry source.journaled v keyed same, run]

/-- An oracle that answers by the number of earlier calls and does not answer the third one. Two
enumerations of three strategies, of which one has no share, come to the same. -/
theorem forwardApy_of_any_enumeration_of_three_strategies :
    let config : ChainConfig := ⟨1, "Ethereum", default, ⟨7⟩, 100000, 30⟩
    let registry : ChainRegistry := ⟨.ofList [(1, config)]⟩
    let oracle : AprOracle (StateM Nat) := fun _ calls =>
      (if calls = 2 then .error (.rpc "eth_call" "reverted") else .ok (.ofNat 256 (calls + 1)),
        calls + 1)
    let source : ChainSource (StateM Nat) :=
      ⟨fun chain => return .error (.unknownChain chain), fun _ _ => return .ok oracle⟩
    let v : Vault := { Vault.new 1 ⟨10⟩ "3.0.0" with
      kind := .multiple, lastTotalAssets := some (.ofInt 1000) }
    let eleventh : Strategy := ⟨⟨11⟩, ⟨10⟩, some 6000, 0⟩
    let twelfth : Strategy := ⟨⟨12⟩, ⟨10⟩, none, 0⟩
    let thirteenth : Strategy := ⟨⟨13⟩, ⟨10⟩, some 4000, 0⟩
    let run (listed : List Strategy) := forwardApy registry source.journaled v listed {} [] 0
    run [thirteenth, twelfth, eleventh] = run [eleventh, twelfth, thirteenth] ∧
      (run [eleventh, twelfth, thirteenth]).1.2.map (·.call) =
        [.strategyApr ⟨10⟩ 0, .strategyApr ⟨11⟩ 0, .strategyApr ⟨13⟩ 0] ∧
      (run [eleventh, twelfth, thirteenth]).1.1.2.total (.strategyAprFailures 1) = 1 := by
  intro config registry oracle source v eleventh twelfth thirteenth run
  have keyed : ([eleventh, twelfth, thirteenth].map (·.address)).Nodup := by decide
  have backwards : [thirteenth, twelfth, eleventh].Perm [eleventh, twelfth, thirteenth] :=
    List.reverse_perm [eleventh, twelfth, thirteenth]
  obtain ⟨apy, added, exchanges, s', outcome⟩ :=
    forwardApy_of_any_enumeration registry source v keyed 0
  have sorted : orderedStrategies [eleventh, twelfth, thirteenth] =
      [eleventh, twelfth, thirteenth] :=
    orderedStrategies_eq (.refl _) (by decide)
  refine ⟨?_, ?_, ?_⟩
  · exact (outcome _ backwards {} []).1.trans (outcome _ (.refl _) {} []).1.symm
  · simp only [run, forwardApy, strategiesApr, debtRatioApr, sorted]
    rfl
  · simp only [run, forwardApy, strategiesApr, debtRatioApr, sorted]
    rfl

end VaultIndex
