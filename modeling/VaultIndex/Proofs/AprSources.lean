import VaultIndex.Proofs.OracleCalls

/-!
# The two sources of a forward APY

A forward APY is made of what the oracle says about the vault and of what it says about the vault's
strategies. Neither leaks into the other: the net yield follows the one that the vault prefers
(`forwardApy_by_source`), and without an oracle there is neither.
-/

namespace VaultIndex

variable {σ τ : Type}

/-! ### Chains without an oracle -/

/-- The ways in which a chain comes to have no oracle that could be asked. -/
inductive NoOracle (registry : ChainRegistry) (source : ChainSource (StateM σ)) (chain : ChainId)
    (s : σ) : Prop where
  | unknownChain (unknown : registry.get? chain = none)
  | zeroAddress (config : ChainConfig) (known : registry.get? chain = some config)
      (zero : config.aprOracle = .zero)
  | unreachable (config : ChainConfig) (cause : ChainError)
      (known : registry.get? chain = some config) (deployed : config.aprOracle ≠ .zero)
      (failed : (source.aprOracle chain config.aprOracle s).1 = .error cause)

/-- The oracle of a chain, and the world once it has been reached. -/
def HasOracle (registry : ChainRegistry) (source : ChainSource (StateM σ)) (chain : ChainId) (s : σ)
    (oracle : AprOracle (StateM σ)) (reached : σ) : Prop :=
  ∃ address, (registry.get? chain).bind ChainConfig.aprOracle? = some address ∧
    source.aprOracle chain address s = (.ok oracle, reached)

lemma ChainConfig.aprOracle?_eq (c : ChainConfig) :
    c.aprOracle? = if c.aprOracle = .zero then none else some c.aprOracle := by
  have zero : c.aprOracle.isZero = true ↔ c.aprOracle = .zero := by
    rw [Address.isZero, beq_iff_eq, Address.zero, Address.mk.injEq]
  simp only [aprOracle?, zero]

section

variable {registry : ChainRegistry} {source : ChainSource (StateM σ)} {chain : ChainId} {s : σ}

variable (registry source chain s) in
lemma noOracle_or_hasOracle : NoOracle registry source chain s ∨
    ∃ oracle reached, HasOracle registry source chain s oracle reached := by
  cases known : registry.get? chain with
  | none => exact .inl (.unknownChain known)
  | some config =>
    by_cases zero : config.aprOracle = .zero
    · exact .inl (.zeroAddress config known zero)
    have deployed : (registry.get? chain).bind ChainConfig.aprOracle? = some config.aprOracle := by
      rw [known, Option.bind_some, config.aprOracle?_eq, if_neg zero]
    obtain ⟨reply, reached, had⟩ : ∃ reply reached,
        source.aprOracle chain config.aprOracle s = (reply, reached) := ⟨_, _, rfl⟩
    cases reply with
    | ok oracle => exact .inr ⟨oracle, reached, config.aprOracle, deployed, had⟩
    | error cause => exact .inl (.unreachable config cause known zero (by rw [had]))

lemma NoOracle.connect? (h : NoOracle registry source chain s) (t : Tally) :
    ∃ s', OracleAdapter.connect? registry source chain t s = ((none, t), s') := by
  have absent (none : (registry.get? chain).bind ChainConfig.aprOracle? = none) :
      OracleAdapter.connect? registry source chain t s = ((.none, t), s) := by
    simp only [OracleAdapter.connect?, none]
    rfl
  cases h with
  | unknownChain unknown =>
    exact ⟨s, absent (by rw [unknown, Option.bind_none])⟩
  | zeroAddress config known zero =>
    exact ⟨s, absent (by rw [known, Option.bind_some, config.aprOracle?_eq, if_pos zero])⟩
  | unreachable config cause known deployed failed =>
    refine ⟨(source.aprOracle chain config.aprOracle s).2, ?_⟩
    simp only [OracleAdapter.connect?, known, Option.bind_some, config.aprOracle?_eq, deployed,
      if_false]
    rw [Activity.bind_run, Activity.outside_run, failed]
    rfl

end

/-! ### Courses of a forward APY -/

section

variable {registry : ChainRegistry} {source : ChainSource (StateM σ)} {v : Vault} {s : σ}

lemma forwardApy_of_noOracle (h : NoOracle registry source v.chainId s) (strategies : List Strategy)
    (t : Tally) (j : List OracleExchange) :
    ∃ s', forwardApy registry source.journaled v strategies t j s =
      (((.unavailable, t), j), s') := by
  obtain ⟨s', run⟩ := h.connect? t
  refine ⟨s', ?_⟩
  rw [forwardApy, Consulting.bind_run, Observes.connect?, run]
  rfl

/-- The vault is asked about first, its strategies in the world that this leaves. -/
lemma forwardApy_of_hasOracle {oracle : AprOracle (StateM σ)} {reached : σ}
    (h : HasOracle registry source v.chainId s oracle reached) (strategies : List Strategy)
    (t : Tally) :
    let a : OracleAdapter (StateM σ) := ⟨v.chainId, oracle⟩
    ∃ t' s', (forwardApy registry source v strategies t s).1.1 =
      .ofAprs v (a.vaultApr v.address t reached).1.1 (strategiesApr a v strategies t' s').1.1 := by
  intro a
  obtain ⟨address, deployed, had⟩ := h
  refine ⟨(a.vaultApr v.address t reached).1.2, (a.vaultApr v.address t reached).2, ?_⟩
  rw [forwardApy, Activity.bind_run, connect?_run deployed had]
  rfl

end

/-! ### Replies about the vault -/

/-- Two oracles, each in a world of its own, that say the same about a vault. The second call counts
only where the first reply is a failure or zero, so that it is made. -/
structure AprOracle.AlikeAbout (vault : Address) (oracle : AprOracle (StateM σ)) (s : σ)
    (other : AprOracle (StateM τ)) (u : τ) : Prop where
  first : (oracle (.strategyApr vault 0) s).1 = (other (.strategyApr vault 0) u).1
  second : (∀ n, (oracle (.strategyApr vault 0) s).1 = .ok n → n = 0) →
    (oracle (.currentApr vault) (oracle (.strategyApr vault 0) s).2).1 =
      (other (.currentApr vault) (other (.strategyApr vault 0) u).2).1

section

variable {a : OracleAdapter (StateM σ)} {b : OracleAdapter (StateM τ)} {vault : Address} {s : σ}
  {u : τ}

lemma fallbackApr_eq (same : (a.ask (.currentApr vault) s).1 = (b.ask (.currentApr vault) u).1)
    (t t' : Tally) : (a.fallbackApr vault t s).1.1 = (b.fallbackApr vault t' u).1.1 := by
  obtain ⟨reply, s₁, asked⟩ : ∃ reply s₁, a.ask (.currentApr vault) s = (reply, s₁) := ⟨_, _, rfl⟩
  obtain ⟨reply', u₁, asked'⟩ : ∃ reply u₁, b.ask (.currentApr vault) u = (reply, u₁) := ⟨_, _, rfl⟩
  rw [asked, asked'] at same
  obtain rfl : reply = reply' := same
  simp only [OracleAdapter.fallbackApr, Activity.bind_run, Activity.count_run,
    Activity.outside_run, asked, asked']
  cases reply <;> rfl

/-- The replies about a vault tell its APR. -/
lemma vaultApr_eq_of_alikeAbout (alike : AprOracle.AlikeAbout vault a.ask s b.ask u)
    (t t' : Tally) : (a.vaultApr vault t s).1.1 = (b.vaultApr vault t' u).1.1 := by
  obtain ⟨first, second⟩ := alike
  rw [OracleAdapter.vaultApr_eq, OracleAdapter.vaultApr_eq, Activity.bind_run, Activity.bind_run,
    Activity.outside_run, Activity.outside_run, ← first]
  cases reply : (a.ask (.strategyApr vault 0) s).1 with
  | error cause =>
    rw [reply] at second
    exact fallbackApr_eq (second nofun) t t'
  | ok n =>
    rw [reply] at second
    by_cases zero : n = 0
    · simp only [zero, if_true]
      refine fallbackApr_eq (second ?_) t t'
      rintro _ ⟨⟩
      exact zero
    · simp only [zero, if_false]
      rfl

end

/-! ### Replies about the strategies -/

/-- Every call to an oracle is answered on its own, whatever was asked before. -/
def AprOracle.AnswersBy (oracle : AprOracle (StateM σ))
    (answer : OracleCall → Except ChainError U256) : Prop :=
  ∀ call s, (oracle call s).1 = answer call

/-- Work that comes to one value whatever was counted before and whatever the world is. -/
def SameValue (α : Type) (x : Activity (StateM σ) α) (y : Activity (StateM τ) α) : Prop :=
  ∀ t t' s u, (x t s).1.1 = (y t' u).1.1

lemma SameValue.isCongruence : Activity.IsCongruence (@SameValue σ τ) where
  done _ := fun _ _ _ _ => rfl
  count _ _ := fun _ _ _ _ => rfl
  bind {α β x y f g} hx hf := by
    intro t t' s u
    rw [Activity.bind_run, Activity.bind_run, hx t t' s u]
    exact hf _ _ _ _ _

/-- Answers about the strategies tell the APR by the strategies. -/
lemma strategiesApr_sameValue {a : OracleAdapter (StateM σ)} {b : OracleAdapter (StateM τ)}
    {f g : OracleCall → Except ChainError U256} (chain : a.chain = b.chain)
    (ha : a.ask.AnswersBy f) (hb : b.ask.AnswersBy g) (v : Vault) {strategies : List Strategy}
    (agree : ∀ x ∈ strategies, f (.strategyApr x.address 0) = g (.strategyApr x.address 0)) :
    SameValue Decimal (strategiesApr a v strategies) (strategiesApr b v strategies) := by
  apply SameValue.isCongruence.strategiesApr v
  refine ⟨chain, fun x hx t t' s u => ?_⟩
  rw [Activity.outside_run, Activity.outside_run, ha, hb, agree x hx]

/-! ### Independence -/

/-- The strategies of a vault that does not allocate to many make no difference to anything. -/
lemma forwardApy_eq_of_kind_ne {m : Type → Type} [Monad m] {v : Vault} (h : v.kind ≠ .multiple)
    (registry : ChainRegistry) (source : ChainSource m) (strategies others : List Strategy) :
    forwardApy registry source v strategies = forwardApy registry source v others := by
  have alone (a : OracleAdapter m) : strategiesApr a v strategies = strategiesApr a v others := by
    unfold strategiesApr
    cases hk : v.kind with
    | multiple => exact absurd hk h
    | single => rfl
    | legacy => rfl
  simp only [forwardApy, alone]

/-- The net yield is the composite that the vault prefers. -/
lemma forwardApy_net (registry : ChainRegistry) (source : ChainSource (StateM σ)) (v : Vault)
    (strategies : List Strategy) (t : Tally) (s : σ) :
    (forwardApy registry source v strategies t s).1.1.net =
      if v.metadata.prefersDebtRatio then
        (forwardApy registry source v strategies t s).1.1.composite.debtRatio
      else (forwardApy registry source v strategies t s).1.1.composite.oracle := by
  rcases noOracle_or_hasOracle registry source v.chainId s with none | ⟨oracle, reached, has⟩
  · obtain ⟨s', run⟩ := forwardApy_of_noOracle none strategies t []
    rw [Observes.forwardApy v strategies t [] s, run]
    exact (ite_self _).symm
  · obtain ⟨_, _, run⟩ := forwardApy_of_hasOracle has strategies t
    rw [run]
    exact apply_ite compoundApr _ _ _

section

variable {registry registry' : ChainRegistry} {source : ChainSource (StateM σ)}
  {source' : ChainSource (StateM τ)} {v : Vault} {s reached : σ} {s' reached' : τ}
  {oracle : AprOracle (StateM σ)} {oracle' : AprOracle (StateM τ)}
  (has : HasOracle registry source v.chainId s oracle reached)
  (has' : HasOracle registry' source' v.chainId s' oracle' reached')

include has has'

/-- What the oracle says about the vault does not depend on its strategies. -/
lemma composite_oracle_eq (alike : AprOracle.AlikeAbout v.address oracle reached oracle' reached')
    (strategies others : List Strategy) (t t' : Tally) :
    (forwardApy registry' source' v others t' s').1.1.composite.oracle =
      (forwardApy registry source v strategies t s).1.1.composite.oracle := by
  obtain ⟨_, _, run⟩ := forwardApy_of_hasOracle has strategies t
  obtain ⟨_, _, run'⟩ := forwardApy_of_hasOracle has' others t'
  have same := vaultApr_eq_of_alikeAbout (a := ⟨v.chainId, oracle⟩) (b := ⟨v.chainId, oracle'⟩)
    alike t t'
  rw [run, run', ForwardApy.ofAprs, ForwardApy.ofAprs, same]

/-- What it says about the strategies does not depend on what it says about the vault. -/
lemma composite_debtRatio_eq {f g : OracleCall → Except ChainError U256}
    (answers : oracle.AnswersBy f) (answers' : oracle'.AnswersBy g)
    (agree : ∀ call, call.subject ≠ v.address → f call = g call) {strategies : List Strategy}
    (apart : v.address ∉ strategies.map (·.address)) (t t' : Tally) :
    (forwardApy registry' source' v strategies t' s').1.1.composite.debtRatio =
      (forwardApy registry source v strategies t s).1.1.composite.debtRatio := by
  obtain ⟨_, _, run⟩ := forwardApy_of_hasOracle has strategies t
  obtain ⟨_, _, run'⟩ := forwardApy_of_hasOracle has' strategies t'
  have others : ∀ x ∈ strategies, f (.strategyApr x.address 0) = g (.strategyApr x.address 0) := by
    intro x hx
    apply agree
    rintro (own : x.address = v.address)
    exact apart (own ▸ List.mem_map_of_mem hx)
  have same := strategiesApr_sameValue (a := ⟨v.chainId, oracle⟩) (b := ⟨v.chainId, oracle'⟩) rfl
    answers answers' v others
  rw [run, run', ForwardApy.ofAprs, ForwardApy.ofAprs, same]

end

/-- Where a forward APY comes from. It is unavailable exactly if there is no oracle, and then
nothing is asked or counted. Otherwise strategies matter only to vaults that allocate to many; the
net yield is one of the two composites, and does not depend on the replies that the other one is
made of. -/
theorem forwardApy_by_source (registry : ChainRegistry) (source : ChainSource (StateM σ))
    (v : Vault) (strategies : List Strategy) (tally : Tally) (journal : List OracleExchange)
    (s : σ) :
    let run := forwardApy registry source.journaled v strategies tally journal s
    let apy := run.1.1.1
    (apy = .unavailable ↔ NoOracle registry source v.chainId s) ∧
    (NoOracle registry source v.chainId s → run.1.1.2 = tally ∧ run.1.2 = journal) ∧
    (¬NoOracle registry source v.chainId s → apy.kind = .onchainOracle) ∧
    (v.kind ≠ .multiple → ∀ others,
      forwardApy registry source.journaled v others tally journal s = run) ∧
    (v.metadata.prefersDebtRatio = false → apy.net = apy.composite.oracle ∧
      ∀ oracle reached, HasOracle registry source v.chainId s oracle reached →
      ∀ (τ : Type) (registry' : ChainRegistry) (source' : ChainSource (StateM τ)) (s' : τ)
        oracle' reached', HasOracle registry' source' v.chainId s' oracle' reached' →
      AprOracle.AlikeAbout v.address oracle reached oracle' reached' →
      ∀ others tally',
        let apy' := (forwardApy registry' source' v others tally' s').1.1
        apy'.net = apy.net ∧ apy'.composite.oracle = apy.composite.oracle) ∧
    (v.metadata.prefersDebtRatio = true → apy.net = apy.composite.debtRatio ∧
      ∀ oracle reached, HasOracle registry source v.chainId s oracle reached →
      ∀ (τ : Type) (registry' : ChainRegistry) (source' : ChainSource (StateM τ)) (s' : τ)
        oracle' reached', HasOracle registry' source' v.chainId s' oracle' reached' →
      ∀ f g, oracle.AnswersBy f → oracle'.AnswersBy g →
      (∀ call, call.subject ≠ v.address → f call = g call) →
      v.address ∉ strategies.map (·.address) →
      ∀ tally',
        let apy' := (forwardApy registry' source' v strategies tally' s').1.1
        apy'.net = apy.net ∧ apy'.composite.debtRatio = apy.composite.debtRatio) := by
  intro run apy
  have observed : apy = (forwardApy registry source v strategies tally s).1.1 :=
    congrArg (·.1.1) (Observes.forwardApy v strategies tally journal s).symm
  have net := forwardApy_net registry source v strategies tally s
  rw [← observed] at net
  have without (none : NoOracle registry source v.chainId s) :
      apy = .unavailable ∧ run.1.1.2 = tally ∧ run.1.2 = journal := by
    obtain ⟨s', course⟩ := forwardApy_of_noOracle none strategies tally journal
    simp only [apy, run, course, and_self]
  have withOracle {oracle reached} (has : HasOracle registry source v.chainId s oracle reached) :
      apy.kind = .onchainOracle := by
    obtain ⟨_, _, course⟩ := forwardApy_of_hasOracle has strategies tally
    rw [observed, course]
    rfl
  refine ⟨⟨?_, fun none => (without none).1⟩, fun none => (without none).2, ?_, ?_, ?_, ?_⟩
  · intro unavailable
    refine (noOracle_or_hasOracle registry source v.chainId s).resolve_right ?_
    rintro ⟨oracle, reached, has⟩
    have kind := withOracle has
    rw [unavailable] at kind
    cases kind
  · intro some
    obtain ⟨oracle, reached, has⟩ := (noOracle_or_hasOracle _ _ _ _).resolve_left some
    exact withOracle has
  · intro alone others
    exact congrFun (congrFun (congrFun
      (forwardApy_eq_of_kind_ne alone registry source.journaled others strategies) tally) journal) s
  · intro preference
    rw [preference, if_neg Bool.false_ne_true] at net
    refine ⟨net, ?_⟩
    intro oracle reached has τ registry' source' s' oracle' reached' has' alike others tally' apy'
    have net' := forwardApy_net registry' source' v others tally' s'
    rw [preference, if_neg Bool.false_ne_true] at net'
    have same := composite_oracle_eq has has' alike strategies others tally tally'
    rw [← observed] at same
    exact ⟨net'.trans (same.trans net.symm), same⟩
  · intro preference
    rw [preference, if_pos rfl] at net
    refine ⟨net, ?_⟩
    intro oracle reached has τ registry' source' s' oracle' reached' has' f g answers answers' agree
      apart tally' apy'
    have net' := forwardApy_net registry' source' v strategies tally' s'
    rw [preference, if_pos rfl] at net'
    have same := composite_debtRatio_eq has has' answers answers' agree apart tally tally'
    rw [← observed] at same
    exact ⟨net'.trans (same.trans net.symm), same⟩

/-- An oracle that counts its calls and one that always says the same agree about the vault itself;
the last one agrees with the second about all but the vault. -/
theorem forwardApy_by_source_of_two_oracles :
    let config : ChainConfig := ⟨1, "Ethereum", default, ⟨7⟩, 100000, 30⟩
    let registry : ChainRegistry := ⟨.ofList [(1, config)]⟩
    let had (σ : Type) (oracle : AprOracle (StateM σ)) : ChainSource (StateM σ) :=
      ⟨fun chain => return .error (.unknownChain chain), fun _ _ => return .ok oracle⟩
    let counting : AprOracle (StateM Nat) := fun _ calls => (.ok (.ofNat 256 calls), calls + 1)
    let steady : AprOracle (StateM Unit) := fun call s =>
      (match call with | .strategyApr .. => .ok 0 | .currentApr _ => .ok 1, s)
    let silent : AprOracle (StateM Unit) := fun call s =>
      if call.subject = ⟨10⟩ then (.error (.rpc "eth_call" "reverted"), s) else steady call s
    let v : Vault := { Vault.new 1 ⟨10⟩ "3.0.0" with kind := .multiple }
    let w : Vault := { v with metadata := ⟨true⟩ }
    let strategies : List Strategy := [.new ⟨12⟩ ⟨10⟩, .new ⟨11⟩ ⟨10⟩]
    AprOracle.AlikeAbout v.address counting 0 steady () ∧
    (forwardApy registry (had Unit steady) v strategies {} ()).1.1.net =
      (forwardApy registry (had Nat counting).journaled v [] {} [] 0).1.1.1.net ∧
    v.address ∉ strategies.map (·.address) ∧
    (forwardApy registry (had Unit silent) w strategies {} ()).1.1.net =
      (forwardApy registry (had Unit steady).journaled w strategies {} [] ()).1.1.1.net := by
  intro config registry had counting steady silent v w strategies
  have alike : AprOracle.AlikeAbout v.address counting 0 steady () := ⟨rfl, fun _ => rfl⟩
  have apart : v.address ∉ strategies.map (·.address) := by decide
  have reaches (σ : Type) (oracle : AprOracle (StateM σ)) (s : σ) :
      HasOracle registry (had σ oracle) 1 s oracle s := ⟨⟨7⟩, rfl, rfl⟩
  have answers : steady.AnswersBy fun call => (steady call ()).1 := fun _ _ => rfl
  have answers' : silent.AnswersBy fun call => (silent call ()).1 := fun _ _ => rfl
  have agree : ∀ call : OracleCall, call.subject ≠ w.address →
      (steady call ()).1 = (silent call ()).1 := by
    intro call other
    have elsewhere : call.subject ≠ ⟨10⟩ := other
    simp only [silent, if_neg elsewhere]
  obtain ⟨-, -, -, -, byOracle, -⟩ :=
    forwardApy_by_source registry (had Nat counting) v [] {} [] 0
  obtain ⟨-, -, -, -, -, byStrategies⟩ :=
    forwardApy_by_source registry (had Unit steady) w strategies {} [] ()
  refine ⟨alike, ?_, apart, ?_⟩
  · exact ((byOracle rfl).2 counting 0 (reaches Nat counting 0) Unit registry (had Unit steady) ()
      steady () (reaches Unit steady ()) alike strategies {}).1
  · exact ((byStrategies rfl).2 steady () (reaches Unit steady ()) Unit registry (had Unit silent)
      () silent () (reaches Unit silent ()) _ _ answers answers' agree apart {}).1

end VaultIndex
