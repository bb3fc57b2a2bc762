import Mathlib.Data.List.TakeWhile
import VaultIndex.Proofs.ApyMoves
import VaultIndex.Proofs.OracleCalls
import VaultIndex.Proofs.Snapshots
import VaultIndex.Proofs.Tallies

/-!
# What a calculation comes to

Computing a forward APY does not depend on what was counted before, and the tasks of a calculation
share nothing but their results. A calculation therefore files for each vault what computing it
alone comes to, and counts what these computations count, in whatever order they go on
(`ForwardApy.forwardApys_as_computed_alone`).
-/

namespace VaultIndex

/-! ### Vaults of the third generation -/

namespace Vault

/-- The version of a vault is the given one, or it starts with it and a point. -/
def HasMajorVersion (v : Vault) (major : String) : Prop :=
  v.version = major ∨ ∃ rest, v.version = major ++ "." ++ rest

lemma majorVersion_eq_iff {v : Vault} {major : String} (whole : '.' ∉ major.toList) :
    v.majorVersion = major ↔ v.HasMajorVersion major := by
  have none : ∀ c ∈ major.toList, (decide (c ≠ '.')) = true := by
    intro c hc
    apply decide_eq_true
    rintro rfl
    exact whole hc
  have upTo : v.majorVersion = major ↔
      v.version.toList.takeWhile (· ≠ '.') = major.toList := by
    rw [← String.toList_inj, majorVersion, String.toList_ofList]
  rw [upTo, HasMajorVersion]
  constructor
  · intro h
    have split := List.takeWhile_append_dropWhile (p := (· ≠ '.')) (l := v.version.toList)
    have stop := List.head?_dropWhile_not (· ≠ '.') v.version.toList
    rw [h] at split
    cases hrest : v.version.toList.dropWhile (· ≠ '.') with
    | nil =>
      left
      rw [hrest, List.append_nil] at split
      exact String.toList_inj.1 split.symm
    | cons c rest =>
      right
      rw [hrest] at split stop
      obtain rfl : c = '.' := by simpa using stop
      refine ⟨String.ofList rest, String.toList_inj.1 ?_⟩
      simp [← split]
  · rintro (h | ⟨rest, h⟩)
    · rw [h]
      exact List.takeWhile_eq_self_iff.2 none
    · rw [h, String.toList_append, String.toList_append, List.append_assoc,
        List.takeWhile_append_of_pos none]
      simp

lemma isV3_iff (v : Vault) :
    v.isV3 = true ↔ v.kind = .single ∨ v.kind = .multiple ∨ v.HasMajorVersion "3" ∨
      v.HasMajorVersion "~3" := by
  rw [← majorVersion_eq_iff (by decide), ← majorVersion_eq_iff (by decide)]
  simp [isV3, or_assoc]

end Vault

/-! ### What was counted before -/

namespace Activity

/-- Work adds to the counters what other work adds, on top of what was counted before. -/
def AddsTo (t : Tally) (α : Type) (x y : Activity Id α) : Prop :=
  ∀ u, x (t.append u) = ((y u).1, t.append (y u).2)

variable {t : Tally}

lemma AddsTo.isCongruence : IsCongruence (AddsTo t) where
  done _ := fun _ => rfl
  count c k := by
    intro u
    have left : (count c k : Activity Id Unit) (t.append u) = ((), (t.append u).add c k) := rfl
    rw [left, ← Tally.append_add]
    rfl
  bind {α β x y f g} hx hf := by
    intro u
    have left : (x >>= f) (t.append u) = f (x (t.append u)).1 (x (t.append u)).2 := rfl
    rw [left, hx, hf]
    rfl

lemma AddsTo.connect (registry : ChainRegistry) (source : ChainSource Id) (chain : ChainId)
    {β : Type} {f g : Option (OracleAdapter Id) → Activity Id β}
    (unreached : AddsTo t β (f none) (g none))
    (reached : ∀ a b, OracleAdapter.Related (AddsTo t) a b → AddsTo t β (f (some a)) (g (some b))) :
    AddsTo t β (OracleAdapter.connect? registry source chain >>= f)
      (OracleAdapter.connect? registry source chain >>= g) := by
  have same (a : OracleAdapter Id) : OracleAdapter.Related (AddsTo t) a a := ⟨rfl, fun _ _ => rfl⟩
  cases deployed : (registry.get? chain).bind ChainConfig.aprOracle? with
  | none =>
    simp only [OracleAdapter.connect?, deployed]
    exact unreached
  | some address =>
    simp only [OracleAdapter.connect?, deployed]
    cases (source.aprOracle chain address : Except ChainError (AprOracle Id)) with
    | error cause => exact unreached
    | ok ask => exact reached _ _ (same ⟨chain, ask⟩)

end Activity

lemma forwardApy_eq_append (registry : ChainRegistry) (source : ChainSource Id) (v : Vault)
    (strategies : List Strategy) (t : Tally) :
    forwardApy registry source v strategies t =
      ((forwardApy registry source v strategies {}).1,
        t.append (forwardApy registry source v strategies {}).2) := by
  have adds : Activity.AddsTo t _ (forwardApy registry source v strategies)
      (forwardApy registry source v strategies) :=
    Activity.AddsTo.isCongruence.forwardApy v strategies
      (Activity.AddsTo.connect registry source v.chainId)
  have step := adds {}
  rwa [Tally.append_empty] at step

namespace ForwardApy

/-! ### Results of single computations -/

/-- What computing the forward APY of a vault alone comes to and counts. -/
def computedAlone (registry : ChainRegistry) (source : ChainSource Id)
    (listed : Vault → List Strategy) (v : Vault) : ForwardApy × Tally :=
  forwardApy registry source v (listed v) {}

/-- Each vault of a list has its forward APY filed under its address, and the counters have grown by
what was counted for all of them. -/
structure Files (alone : Vault → ForwardApy × Tally) (vaults : List Vault) (before : Tally)
    (apys : Table Address ForwardApy) (after : Tally) : Prop where
  get?_iff : ∀ address apy, apys.get? address = some apy ↔
    ∃ v ∈ vaults, v.address = address ∧ (alone v).1 = apy
  total_eq : ∀ c, after.total c = before.total c + (vaults.map fun v => (alone v).2.total c).sum

variable {alone : Vault → ForwardApy × Tally} {vaults : List Vault} {before after : Tally}
  {apys : Table Address ForwardApy}

namespace Files

/-- The order of the vaults does not matter. -/
lemma perm {order : List Vault} (ho : order.Perm vaults) (h : Files alone order before apys after) :
    Files alone vaults before apys after := by
  constructor
  · intro address apy
    simp only [h.get?_iff, ho.mem_iff]
  · intro c
    rw [h.total_eq, (ho.map _).sum_nat]

end Files

/-! ### One vault after the other -/

variable {registry : ChainRegistry} {source : ChainSource Id}

/-- The forward APYs that were there stay, unless there is one of a vault in their place. -/
lemma get?_addAll (strategies : Table Address (Table Address Strategy)) {vaults : List Vault}
    (distinct : (vaults.map (·.address)).Nodup) (apys : Table Address ForwardApy) (t : Tally)
    (address : Address) (apy : ForwardApy) :
    (addAll registry source strategies vaults apys t).1.get? address = some apy ↔
      (∃ v ∈ vaults, v.address = address ∧
        (computedAlone registry source (strategiesOf strategies) v).1 = apy) ∨
      (∀ v ∈ vaults, v.address ≠ address) ∧ apys.get? address = some apy := by
  induction vaults generalizing apys t with
  | nil =>
    have step : addAll registry source strategies [] apys t = (apys, t) := rfl
    simp [step]
  | cons v rest ih =>
    rw [List.map_cons, List.nodup_cons] at distinct
    obtain ⟨fresh, distinct⟩ := distinct
    have later : ∀ w ∈ rest, w.address ≠ v.address := by
      intro w hw h
      exact fresh (h ▸ List.mem_map_of_mem hw)
    let result := forwardApy registry source v (strategiesOf strategies v) t
    have step : addAll registry source strategies (v :: rest) apys t =
        addAll registry source strategies rest (apys.insert v.address result.1) result.2 := rfl
    have same : result.1 = (computedAlone registry source (strategiesOf strategies) v).1 := by
      simp only [result, computedAlone]
      rw [forwardApy_eq_append]
    rw [step, ih distinct, same]
    by_cases h : v.address = address
    · subst h
      rw [Table.get?_insert_self]
      simp only [List.mem_cons, exists_eq_or_imp, forall_eq_or_imp, Option.some.injEq]
      constructor
      · rintro (hw | hw)
        · exact .inl (.inr hw)
        · exact .inl (.inl ⟨trivial, hw.2⟩)
      · rintro ((hw | hw) | hw)
        · exact .inr ⟨later, hw.2⟩
        · exact .inl hw
        · exact absurd rfl hw.1.1
    · rw [Table.get?_insert_ne _ _ h]
      simp [h]

lemma total_addAll (strategies : Table Address (Table Address Strategy)) (vaults : List Vault)
    (apys : Table Address ForwardApy) (t : Tally) (c : Counter) :
    (addAll registry source strategies vaults apys t).2.total c = t.total c +
      (vaults.map fun v =>
        (computedAlone registry source (strategiesOf strategies) v).2.total c).sum := by
  induction vaults generalizing apys t with
  | nil => rfl
  | cons v rest ih =>
    let result := forwardApy registry source v (strategiesOf strategies v) t
    have step : addAll registry source strategies (v :: rest) apys t =
        addAll registry source strategies rest (apys.insert v.address result.1) result.2 := rfl
    have counted : result.2 =
        t.append (computedAlone registry source (strategiesOf strategies) v).2 := by
      simp only [result, computedAlone]
      rw [forwardApy_eq_append]
    rw [step, ih, counted, Tally.total_append, List.map_cons, List.sum_cons, Nat.add_assoc]

/-- Computing one vault after the other files what is computed for each alone. -/
lemma files_addAll (strategies : Table Address (Table Address Strategy)) {vaults : List Vault}
    (distinct : (vaults.map (·.address)).Nodup) (before : Tally) :
    Files (computedAlone registry source (strategiesOf strategies)) vaults before
      (addAll registry source strategies vaults ∅ before).1
      (addAll registry source strategies vaults ∅ before).2 := by
  constructor
  · intro address apy
    rw [get?_addAll strategies distinct]
    simp
  · intro c
    exact total_addAll strategies vaults ∅ before c

/-! ### Many vaults at the same time -/

/-- What a task has counted for its vault once it is over. -/
def Task.counted (alone : Vault → ForwardApy × Tally) (c : Counter) (t : Task) : Nat :=
  if t.progress.isOver then (alone t.vault).2.total c else 0

namespace Pool

variable {listed : Vault → List Strategy} {bound : Nat} {p q : Pool} {i : Nat}

/-- What is still to be asked about a vault comes to what is computed for it alone, and for the
tasks that are over this is filed and counted. -/
structure Settled (source : ChainSource Id) (alone : Vault → ForwardApy × Tally)
    (vaults : List Vault) (before : Tally) (p : Pool) : Prop where
  vaults_eq : p.tasks.map (·.vault) = vaults
  value_eq : ∀ v rest, ⟨v, .asking rest⟩ ∈ p.tasks → rest.value source.answers = alone v
  get?_iff : ∀ address apy, p.apys.get? address = some apy ↔
    ∃ v, ⟨v, .finished⟩ ∈ p.tasks ∧ v.address = address ∧ (alone v).1 = apy
  total_eq : ∀ c, p.tally.total c = before.total c + (p.tasks.map (Task.counted alone c)).sum

lemma settled_start (source : ChainSource Id) (alone : Vault → ForwardApy × Tally)
    (vaults : List Vault) (before : Tally) :
    (start vaults before).Settled source alone vaults before := by
  constructor
  · simp [start, Function.comp_def]
  · intro v rest h
    simp [start] at h
  · intro address apy
    simp [start]
  · intro c
    simp [start, Function.comp_def, Task.counted, Progress.isOver]

/-- A task may go on if what it then has still to ask comes to the same. -/
lemma Settled.goesOn {v : Vault} {old : Progress} {rest : Dialogue (ForwardApy × Tally)}
    (h : p.Settled source alone vaults before) (ht : p.tasks[i]? = some ⟨v, old⟩)
    (unfinished : old.isOver = false) (hv : rest.value source.answers = alone v) :
    { p with tasks := p.tasks.set i ⟨v, .asking rest⟩ }.Settled source alone vaults before := by
  constructor
  · rw [map_set_of_eq (b := ⟨v, .asking rest⟩) ht rfl, h.vaults_eq]
  · intro w next hw
    rcases List.mem_or_eq_of_mem_set hw with hw | hw
    · exact h.value_eq w next hw
    · cases hw
      exact hv
  · intro address apy
    rw [h.get?_iff]
    have same (w : Vault) : ⟨w, .finished⟩ ∈ p.tasks.set i ⟨v, .asking rest⟩ ↔
        ⟨w, .finished⟩ ∈ p.tasks := by
      constructor
      · intro hw
        rcases List.mem_or_eq_of_mem_set hw with hw | hw
        · exact hw
        · cases hw
      · intro hw
        apply mem_set_of_ne ht hw
        rintro ⟨⟩
        cases unfinished
    simp only [same]
  · intro c
    have replaced := sum_map_set (f := Task.counted alone c) (b := ⟨v, .asking rest⟩) ht
    have nothing (progress : Progress) (unfinished : progress.isOver = false) :
        Task.counted alone c ⟨v, progress⟩ = 0 := by simp [Task.counted, unfinished]
    rw [nothing old unfinished, nothing (.asking rest) rfl] at replaced
    rw [h.total_eq, ← Nat.add_zero (List.sum _), ← replaced]
    rfl

/-- Where a task has come to its end, the finished tasks are this one and those of before. -/
lemma Settled.finished_mem_set_iff {v w : Vault} {old : Progress}
    (h : p.Settled source alone vaults before) (distinct : (vaults.map (·.address)).Nodup)
    (ht : p.tasks[i]? = some ⟨v, old⟩) :
    (⟨w, .finished⟩ : Task) ∈ p.tasks.set i ⟨v, .finished⟩ ↔
      w = v ∨ ⟨w, .finished⟩ ∈ p.tasks ∧ w.address ≠ v.address := by
  constructor
  · intro hw
    have addresses : (p.tasks.map (·.vault.address)).Nodup := by
      rw [← h.vaults_eq, List.map_map] at distinct
      exact distinct
    rcases mem_set_cases (f := (·.vault.address)) (b := ⟨v, .finished⟩) ht rfl addresses hw with
      same | other
    · cases same
      exact .inl rfl
    · exact .inr other
  · rintro (rfl | ⟨hw, other⟩)
    · exact List.mem_set (List.getElem?_eq_some_iff.1 ht).1 _
    · apply mem_set_of_ne ht hw
      rintro ⟨⟩
      exact other rfl

/-- A task may file its forward APY if it is what is computed for its vault alone. -/
lemma Settled.files {v : Vault} {old : Progress} {apy : ForwardApy} {counted : Tally}
    (h : p.Settled source alone vaults before) (distinct : (vaults.map (·.address)).Nodup)
    (ht : p.tasks[i]? = some ⟨v, old⟩) (unfinished : old.isOver = false)
    (hv : alone v = (apy, counted)) :
    Settled source alone vaults before
      { tasks := p.tasks.set i ⟨v, .finished⟩
        apys := p.apys.insert v.address apy
        tally := p.tally.append counted } := by
  constructor
  · rw [map_set_of_eq (b := ⟨v, .finished⟩) ht rfl, h.vaults_eq]
  · intro w next hw
    rcases List.mem_or_eq_of_mem_set hw with hw | hw
    · exact h.value_eq w next hw
    · cases hw
  · intro address apy'
    simp only [h.finished_mem_set_iff distinct ht]
    by_cases ha : v.address = address
    · subst ha
      rw [Table.get?_insert_self, Option.some.injEq]
      constructor
      · rintro rfl
        exact ⟨v, .inl rfl, rfl, by rw [hv]⟩
      · rintro ⟨w, rfl | ⟨-, other⟩, same, rfl⟩
        · rw [hv]
        · exact absurd same other
    · rw [Table.get?_insert_ne _ _ ha, h.get?_iff]
      constructor
      · rintro ⟨w, hw, rfl, rfl⟩
        exact ⟨w, .inr ⟨hw, Ne.symm ha⟩, rfl, rfl⟩
      · rintro ⟨w, rfl | ⟨hw, -⟩, same, rfl⟩
        · exact absurd same ha
        · exact ⟨w, hw, same, rfl⟩
  · intro c
    have replaced := sum_map_set (f := Task.counted alone c) (b := ⟨v, .finished⟩) ht
    have nothing : Task.counted alone c ⟨v, old⟩ = 0 := by simp [Task.counted, unfinished]
    have all : Task.counted alone c ⟨v, .finished⟩ = counted.total c := by
      simp [Task.counted, Progress.isOver, hv]
    rw [nothing, all, Nat.add_zero] at replaced
    rw [Tally.total_append, h.total_eq, replaced, Nat.add_assoc]

lemma Settled.move (distinct : (vaults.map (·.address)).Nodup)
    (hm : Move registry listed source.answers bound p i q)
    (h : p.Settled source (computedAlone registry source listed) vaults before) :
    q.Settled source (computedAlone registry source listed) vaults before := by
  cases hm with
  | begins ht hb =>
    apply h.goesOn ht rfl
    exact Dialogue.value_forwardApy registry source _ _ {}
  | asks ht =>
    have whole := h.value_eq _ _ (List.mem_of_getElem? ht)
    exact h.goesOn ht rfl whole
  | files ht =>
    apply h.files distinct ht rfl
    exact (h.value_eq _ _ (List.mem_of_getElem? ht)).symm

/-- When all tasks are over, everything has been filed and counted. -/
lemma Settled.files_of_isOver (h : p.Settled source alone vaults before) (ended : p.isOver = true) :
    Files alone vaults before p.apys p.tally := by
  have finished : ∀ t ∈ p.tasks, t = ⟨t.vault, .finished⟩ := by
    rintro ⟨v, progress⟩ ht
    rw [isOver, List.all_eq_true] at ended
    have hover := ended _ ht
    cases progress with
    | finished => rfl
    | waiting | asking => cases hover
  constructor
  · intro address apy
    rw [h.get?_iff]
    constructor
    · rintro ⟨v, hv, same, value⟩
      exact ⟨v, h.vaults_eq ▸ List.mem_map_of_mem hv, same, value⟩
    · rintro ⟨v, hv, same, value⟩
      rw [← h.vaults_eq] at hv
      obtain ⟨t, ht, rfl⟩ := List.mem_map.1 hv
      exact ⟨t.vault, finished t ht ▸ ht, same, value⟩
  · intro c
    rw [h.total_eq, ← h.vaults_eq, List.map_map]
    congr 2
    apply List.map_congr_left
    intro t ht
    rw [finished t ht]
    rfl

end Pool

/-! ### The vaults of a table -/

/-- Each vault of the third generation has its forward APY under its address, no other address has
one, and the counters have grown by what was counted for these vaults. -/
structure IsCalculation (alone : Vault → ForwardApy × Tally) (vaults : Table Address Vault)
    (before : Tally) (apys : Table Address ForwardApy) (after : Tally) : Prop where
  isSome_iff : ∀ address, (apys.get? address).isSome = true ↔
    ∃ v, vaults.get? address = some v ∧ v.isV3 = true
  get?_eq : ∀ {address v}, vaults.get? address = some v → v.isV3 = true →
    apys.get? address = some (alone v).1
  total_eq : ∀ c, after.total c = before.total c +
    ((vaults.values.filter Vault.isV3).map fun v => (alone v).2.total c).sum

section Vaults

variable {vaults : Table Address Vault}

/-- There is one table of forward APYs. -/
lemma IsCalculation.unique {before' after' : Tally} {apys' : Table Address ForwardApy}
    (h : IsCalculation alone vaults before apys after)
    (h' : IsCalculation alone vaults before' apys' after') : apys = apys' := by
  apply Table.ext_get?
  intro address
  by_cases known : ∃ v, vaults.get? address = some v ∧ v.isV3 = true
  · obtain ⟨v, counts, third⟩ := known
    rw [h.get?_eq counts third, h'.get?_eq counts third]
  · have absent := known
    rw [← h.isSome_iff, Option.not_isSome_iff_eq_none] at known
    rw [← h'.isSome_iff, Option.not_isSome_iff_eq_none] at absent
    rw [known, absent]

lemma nodup_addresses (keyed : ∀ address v, vaults.get? address = some v → v.address = address) :
    ((vaults.values.filter Vault.isV3).map (·.address)).Nodup := by
  have distinct : (vaults.values.map (·.address)).Nodup := Table.nodup_map_values keyed
  exact distinct.sublist (List.filter_sublist.map _)

lemma Files.isCalculation (keyed : ∀ address v, vaults.get? address = some v → v.address = address)
    (h : Files alone (vaults.values.filter Vault.isV3) before apys after) :
    IsCalculation alone vaults before apys after := by
  have filed (address : Address) (apy : ForwardApy) : apys.get? address = some apy ↔
      ∃ v, vaults.get? address = some v ∧ v.isV3 = true ∧ (alone v).1 = apy := by
    rw [h.get?_iff]
    simp only [List.mem_filter, Table.mem_values_iff]
    constructor
    · rintro ⟨v, ⟨⟨key, counts⟩, third⟩, rfl, value⟩
      obtain rfl := keyed key v counts
      exact ⟨v, counts, third, value⟩
    · rintro ⟨v, counts, third, value⟩
      exact ⟨v, ⟨⟨address, counts⟩, third⟩, keyed address v counts, value⟩
  constructor
  · intro address
    simp only [Option.isSome_iff_exists, filed]
    constructor
    · rintro ⟨_, v, counts, third, -⟩
      exact ⟨v, counts, third⟩
    · rintro ⟨v, counts, third⟩
      exact ⟨_, v, counts, third, rfl⟩
  · intro address v counts third
    exact (filed address _).2 ⟨v, counts, third, rfl⟩
  · exact h.total_eq

lemma isCalculation_forwardApys (registry : ChainRegistry) (source : ChainSource Id)
    (keyed : ∀ address v, vaults.get? address = some v → v.address = address)
    (strategies : Table Address (Table Address Strategy)) (before : Tally) :
    IsCalculation (computedAlone registry source (strategiesOf strategies)) vaults before
      (forwardApys registry source vaults strategies before).1
      (forwardApys registry source vaults strategies before).2 := by
  apply Files.isCalculation keyed
  exact files_addAll strategies (nodup_addresses keyed) before

lemma Outcome.isCalculation {listed : Vault → List Strategy} {maxConcurrency : Nat}
    (keyed : ∀ address v, vaults.get? address = some v → v.address = address)
    (h : Outcome registry source listed maxConcurrency vaults before apys after) :
    IsCalculation (computedAlone registry source listed) vaults before apys after := by
  cases h with
  | computed ho run ended =>
    have same := ho.filter Vault.isV3
    have distinct := ((same.map (·.address)).nodup_iff).2 (nodup_addresses keyed)
    have settled := run.preserves (fun move => Pool.Settled.move distinct (.of_move? move))
      (Pool.settled_start ..)
    exact Files.isCalculation keyed ((settled.files_of_isOver ended).perm same)

/-- However many vaults are computed at the same time and in whatever order that goes on, every
third-generation vault has the forward APY that computing it alone comes to, with the strategies
filed under its address if there are any; no other vault has one, what was counted is what these
computations count, and a calculation can always be ended. Where the strategies of each vault have
different addresses, neither the order in which they are listed nor that of the computations
matters: all comes out as from one vault after the other. -/
theorem forwardApys_as_computed_alone (registry : ChainRegistry) (source : ChainSource Id)
    (keyed : ∀ address v, vaults.get? address = some v → v.address = address)
    (strategies : Table Address (Table Address Strategy)) (before : Tally) :
    let own (v : Vault) : List Strategy :=
      match strategies.get? v.address with
      | some filed => filed.values
      | none => []
    let sequential := forwardApys registry source vaults strategies before
    (∀ v : Vault, v.isV3 = true ↔
      v.kind = .single ∨ v.kind = .multiple ∨ v.HasMajorVersion "3" ∨ v.HasMajorVersion "~3") ∧
    IsCalculation (computedAlone registry source own) vaults before sequential.1 sequential.2 ∧
    ∀ listed : Vault → List Strategy, (∀ v, (listed v).Perm (own v)) →
      ∀ maxConcurrency,
        (∀ p, ∃ q, Pool.Reaches registry listed source.answers (slots maxConcurrency) p q ∧
          q.isOver = true) ∧
        ∀ apys after, Outcome registry source listed maxConcurrency vaults before apys after →
          IsCalculation (computedAlone registry source listed) vaults before apys after ∧
          ((∀ v, ((own v).map (·.address)).Nodup) →
            apys = sequential.1 ∧ ∀ c, after.total c = sequential.2.total c) := by
  intro own sequential
  have filed : strategiesOf strategies = own := by
    funext v
    simp only [strategiesOf, own]
    cases strategies.get? v.address <;> rfl
  have calculation : IsCalculation (computedAlone registry source own) vaults before sequential.1
      sequential.2 := by
    rw [← filed]
    exact isCalculation_forwardApys registry source keyed strategies before
  refine ⟨Vault.isV3_iff, calculation, ?_⟩
  intro listed lists maxConcurrency
  constructor
  · exact Pool.exists_reaches_over registry listed source.answers (slots_pos maxConcurrency)
  · intro apys after h
    refine ⟨h.isCalculation keyed, fun distinct => ?_⟩
    have same : computedAlone registry source listed = computedAlone registry source own := by
      funext v
      rw [computedAlone, computedAlone, forwardApy_eq_of_perm _ _ v (distinct v) (lists v)]
    have computed := h.isCalculation keyed
    rw [same] at computed
    exact ⟨computed.unique calculation, fun c => by rw [computed.total_eq, calculation.total_eq]⟩

/-- Of three vaults two are of the third generation, by the version and by the kind. For the second
one strategies are filed, one of which the oracle answers for; they are listed backwards, and its
net yield is theirs. For the first one none are filed, and the oracle knows nothing of it. -/
theorem forwardApys_of_three_vaults :
    let config : ChainConfig := ⟨1, "Ethereum", default, ⟨7⟩, 100000, 30⟩
    let registry : ChainRegistry := ⟨.ofList [(1, config)]⟩
    let oracle : AprOracle Id := fun call =>
      if call = .strategyApr ⟨3⟩ 0 then .ok 50000000000000000
      else if call = .strategyApr ⟨4⟩ 0 then .ok 100000000000000000
      else .error (.rpc "eth_call" "reverted")
    let source : ChainSource Id :=
      ⟨fun chain => .error (.unknownChain chain), fun _ _ => .ok oracle⟩
    let beta := Vault.new 1 ⟨2⟩ "~3.0.1"
    let multiple := { Vault.new 1 ⟨3⟩ "" with
      kind := .multiple, lastTotalAssets := some (.ofInt 1000), metadata := ⟨true⟩ }
    let vaults := ChainSnapshot.byAddress [.new 1 ⟨1⟩ "0.4.6", beta, multiple]
    let fourth : Strategy := ⟨⟨4⟩, ⟨3⟩, some 4000, 2000⟩
    let fifth : Strategy := ⟨⟨5⟩, ⟨3⟩, some 6000, 0⟩
    let strategies : Table Address (Table Address Strategy) :=
      .ofList [(⟨3⟩, .ofList [(⟨4⟩, fourth), (⟨5⟩, fifth)])]
    let listed (v : Vault) : List Strategy := if v.address = ⟨3⟩ then [fifth, fourth] else []
    ∃ apys after, Outcome registry source listed 0 vaults {} apys after ∧
      apys.get? ⟨1⟩ = none ∧
      apys.get? ⟨2⟩ = some (.ofAprs beta .zero .zero) ∧
      apys.get? ⟨3⟩ =
        some (.ofAprs multiple ⟨50000000000000000, 18⟩ ⟨28800000000000000000000000, 27⟩) ∧
      after.total (.oracleFallbacks 1) = 1 ∧
      after.total (.strategyAprFailures 1) = 1 ∧
      apys = (forwardApys registry source vaults strategies {}).1 := by
  intro config registry oracle source beta multiple vaults fourth fifth strategies listed
  have keyed : ∀ address v, vaults.get? address = some v → v.address = address := by
    intro address v counts
    exact (ChainSnapshot.mem_of_get?_vaultsByAddress (c := { vaults := _ }) counts).2
  obtain ⟨-, -, calculations⟩ := forwardApys_as_computed_alone registry source keyed strategies {}
  let own (v : Vault) : List Strategy :=
    match strategies.get? v.address with
    | some filed => filed.values
    | none => []
  have filed (v : Vault) : (listed v = [fifth, fourth] ∧ own v = [fourth, fifth]) ∨
      (listed v = [] ∧ own v = []) := by
    by_cases known : v.address = ⟨3⟩
    · left
      constructor
      · exact if_pos known
      · simp only [own, known]
        rfl
    · right
      have absent : strategies.get? v.address = none := Table.get?_insert_ne _ _ (Ne.symm known)
      constructor
      · exact if_neg known
      · simp only [own, absent]
  have lists (v : Vault) : (listed v).Perm (own v) := by
    obtain ⟨h, h'⟩ | ⟨h, h'⟩ := filed v
    · rw [h, h']
      exact .swap ..
    · rw [h, h']
  have distinct (v : Vault) : ((own v).map (·.address)).Nodup := by
    obtain ⟨-, h⟩ | ⟨-, h⟩ := filed v
    · rw [h]
      decide
    · rw [h]
      exact .nil
  obtain ⟨ends, calculations⟩ := calculations listed lists 0
  obtain ⟨p, run, ended⟩ := ends (.start (vaults.values.filter Vault.isV3) {})
  have outcome : Outcome registry source listed 0 vaults {} p.apys p.tally :=
    .computed (.refl _) run ended
  obtain ⟨calculation, sequential⟩ := calculations p.apys p.tally outcome
  have sorted : orderedStrategies [fifth, fourth] = [fourth, fifth] :=
    orderedStrategies_eq (.swap ..) (by decide)
  let apr : Decimal × Tally := OracleAdapter.vaultApr ⟨1, oracle⟩ ⟨3⟩ {}
  let shares : Decimal × Tally := DebtRatio.weightedSum ⟨1, oracle⟩ [fourth, fifth] .zero apr.2
  have alone : computedAlone registry source listed multiple =
      (.ofAprs multiple apr.1 (shares.1 * haircut), shares.2) := by
    have steps : computedAlone registry source listed multiple =
        let sum : Decimal × Tally :=
          DebtRatio.weightedSum ⟨1, oracle⟩ (orderedStrategies [fifth, fourth]) .zero apr.2
        (.ofAprs multiple apr.1 (sum.1 * haircut), sum.2) := rfl
    rw [steps, sorted]
  have aprs : apr.1 = ⟨50000000000000000, 18⟩ ∧
      shares.1 * haircut = ⟨28800000000000000000000000, 27⟩ := by decide +kernel
  rw [aprs.1, aprs.2] at alone
  have younger : vaults.values.filter Vault.isV3 = [beta, multiple] := by decide +kernel
  refine ⟨p.apys, p.tally, outcome, ?_, ?_, ?_, ?_, ?_, ?_⟩
  · rw [← Option.not_isSome_iff_eq_none, calculation.isSome_iff]
    rintro ⟨v, counts, third⟩
    obtain rfl : Vault.new 1 ⟨1⟩ "0.4.6" = v := Option.some.inj counts
    exact absurd third (by decide +kernel)
  · exact calculation.get?_eq (v := beta) rfl (by decide +kernel)
  · rw [calculation.get?_eq (v := multiple) rfl (by decide +kernel), alone]
  · rw [calculation.total_eq, younger, List.map_cons, List.map_singleton, alone]
    decide +kernel
  · rw [calculation.total_eq, younger, List.map_cons, List.map_singleton, alone]
    decide +kernel
  · exact (sequential distinct).1

end Vaults

end ForwardApy

end VaultIndex
