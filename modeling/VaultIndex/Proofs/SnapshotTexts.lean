import VaultIndex.Apr.Codec
import VaultIndex.Proofs.DecimalTexts
import VaultIndex.Proofs.WordTexts
import VaultIndex.Snapshot.Basic

/-!
# Texts of vaults, strategies, yields and snapshots

What is written of a vault, a strategy or a forward APY is read back as the same: decimals may
change their form, everything else stays as it is. A snapshot put together from such texts is read
into the vaults and strategies that were written (`exports_read_back`).
-/

namespace VaultIndex

open Json (readText Reader)
open Json.Record (Reads)

/-- A value is read from its text in either layout. -/
def Json.ReadsAs {α : Type} (reader : Reader α) (v : Json) (a : α) : Prop :=
  readText reader v.compact = .ok a ∧ readText reader v.pretty = .ok a

lemma Json.Written.readsAs {α : Type} {reader : Reader α} {v : Json} {a : α} (written : v.Written)
    (read : reader v = .ok a) : Json.ReadsAs reader v a := by
  obtain ⟨compact, pretty⟩ := written.readText_eq reader
  exact ⟨compact.trans read, pretty.trans read⟩

lemma Json.decimal_ofDecimal {d : Decimal} (h : Decimal.scaleInRange d.scale = true) :
    Json.decimal (.ofDecimal d) = .ok d.reread :=
  Json.textual_ofString (Decimal.ofText?_text h)

/-! ### Vaults -/

namespace VaultKind

lemma reader_json (k : VaultKind) : reader k.json = .ok k := by
  apply Json.variant_ofString
  cases k <;> rfl

end VaultKind

namespace VaultMetadata

lemma written_json (m : VaultMetadata) : m.json.Written := by
  apply Json.Written.ofFields
  simp only [List.forall_mem_cons, List.not_mem_nil, false_imp_iff, implies_true, and_true]
  exact .bool _

lemma reader_json (m : VaultMetadata) : reader m.json = .ok m := by
  obtain ⟨prefers⟩ := m
  have boolean : Json.boolean (.bool prefers) = .ok prefers := rfl
  have reads : record.Reads _ (mk prefers) := (Reads.make mk).withDefault boolean
  exact reads.reader_eq (by decide)

end VaultMetadata

namespace Vault

/-- Whether the total assets have a scale that a decimal can have. -/
def InRange (v : Vault) : Prop := ∀ d ∈ v.lastTotalAssets, Decimal.scaleInRange d.scale = true

/-- Vaults that differ at most in the form of their total assets. -/
structure Same (v w : Vault) : Prop where
  assets : Option.Rel Decimal.Same v.lastTotalAssets w.lastTotalAssets
  rest : w = { v with lastTotalAssets := w.lastTotalAssets }

/-- What a vault is read back as. -/
def reread (v : Vault) : Vault := { v with lastTotalAssets := v.lastTotalAssets.map .reread }

lemma same_reread (v : Vault) : v.Same v.reread where
  assets := by
    unfold reread
    cases v.lastTotalAssets with
    | none => exact .none
    | some d => exact .some d.same_reread.symm
  rest := rfl

lemma written_json (v : Vault) : v.json.Written := by
  apply Json.Written.ofFields
  simp only [List.forall_mem_cons, List.not_mem_nil, false_imp_iff, implies_true, and_true]
  exact ⟨.ofNat _, v.address.written_json, .ofString _, .ofString _, .ofNat _,
    .ofOption fun _ _ => .ofString _, v.metadata.written_json⟩

lemma reader_json {v : Vault} (h : v.InRange) : reader v.json = .ok v.reread := by
  obtain ⟨chainId, address, version, kind, activation, assets, metadata⟩ := v
  have decimals : Json.optional Json.decimal (.ofOption .ofDecimal assets) =
      .ok (assets.map .reread) :=
    Json.optional_ofOption fun d hd => ⟨nofun, Json.decimal_ofDecimal (h d hd)⟩
  have reads : record.Reads _
      (mk chainId address version kind activation (assets.map .reread) metadata) :=
    (Reads.make mk).required (Json.word64_ofWord64 chainId) |>.required address.reader_json
      |>.required (Json.text_ofString version) |>.withDefault kind.reader_json
      |>.withDefault (Json.word64_ofWord64 activation) |>.withDefault decimals
      |>.withDefault metadata.reader_json
  exact reads.reader_eq (by decide)

end Vault

/-! ### Strategies -/

namespace Strategy

lemma written_json (s : Strategy) : s.json.Written := by
  apply Json.Written.ofFields
  simp only [List.forall_mem_cons, List.not_mem_nil, false_imp_iff, implies_true, and_true]
  exact ⟨s.address.written_json, s.vaultAddress.written_json,
    .ofOption fun n _ => U256.written_json n, U256.written_json _⟩

lemma reader_json (s : Strategy) : reader s.json = .ok s := by
  obtain ⟨address, vaultAddress, debtRatio, fee⟩ := s
  have ratio : Json.optional U256.reader (.ofOption U256.json debtRatio) = .ok debtRatio := by
    have read : Json.optional U256.reader (.ofOption U256.json debtRatio) =
        .ok (debtRatio.map id) :=
      Json.optional_ofOption fun n _ => ⟨nofun, U256.reader_json n⟩
    rwa [Option.map_id] at read
  have reads : record.Reads _ (mk address vaultAddress debtRatio fee) :=
    (Reads.make mk).required address.reader_json |>.required vaultAddress.reader_json
      |>.withDefault ratio |>.withDefault (U256.reader_json fee)
  exact reads.reader_eq (by decide)

end Strategy

/-! ### Forward APYs -/

namespace ForwardApyKind

lemma reader_json (k : ForwardApyKind) : reader k.json = .ok k := by
  apply Json.variant_ofString
  cases k <;> rfl

end ForwardApyKind

namespace CompositeApy

lemma written_json (c : CompositeApy) : c.json.Written := by
  apply Json.Written.ofFields
  simp only [List.forall_mem_cons, List.not_mem_nil, false_imp_iff, implies_true, and_true]
  exact ⟨.ofString _, .ofString _⟩

lemma reader_json {c : CompositeApy} (oracle : Decimal.scaleInRange c.oracle.scale = true)
    (debtRatio : Decimal.scaleInRange c.debtRatio.scale = true) :
    reader c.json = .ok ⟨c.oracle.reread, c.debtRatio.reread⟩ := by
  have reads : record.Reads _ (mk c.oracle.reread c.debtRatio.reread) :=
    (Reads.make mk).required (Json.decimal_ofDecimal oracle)
      |>.required (Json.decimal_ofDecimal debtRatio)
  exact reads.reader_eq (by decide)

end CompositeApy

namespace ForwardApy

/-- Whether the three decimals have scales that decimals can have. -/
structure InRange (apy : ForwardApy) : Prop where
  net : Decimal.scaleInRange apy.net.scale = true
  oracle : Decimal.scaleInRange apy.composite.oracle.scale = true
  debtRatio : Decimal.scaleInRange apy.composite.debtRatio.scale = true

/-- Yields of one kind with the same numbers. -/
structure Same (a b : ForwardApy) : Prop where
  kind : a.kind = b.kind
  net : a.net.Same b.net
  oracle : a.composite.oracle.Same b.composite.oracle
  debtRatio : a.composite.debtRatio.Same b.composite.debtRatio

/-- What a yield is read back as. -/
def reread (apy : ForwardApy) : ForwardApy :=
  ⟨apy.kind, apy.net.reread, ⟨apy.composite.oracle.reread, apy.composite.debtRatio.reread⟩⟩

lemma same_reread (apy : ForwardApy) : apy.Same apy.reread where
  kind := rfl
  net := apy.net.same_reread.symm
  oracle := apy.composite.oracle.same_reread.symm
  debtRatio := apy.composite.debtRatio.same_reread.symm

lemma written_json (apy : ForwardApy) : apy.json.Written := by
  apply Json.Written.ofFields
  simp only [List.forall_mem_cons, List.not_mem_nil, false_imp_iff, implies_true, and_true]
  exact ⟨.ofString _, .ofString _, apy.composite.written_json⟩

lemma reader_json {apy : ForwardApy} (h : apy.InRange) : reader apy.json = .ok apy.reread := by
  have composite := CompositeApy.reader_json h.oracle h.debtRatio
  have reads : record.Reads _ apy.reread :=
    (Reads.make mk).required apy.kind.reader_json |>.required (Json.decimal_ofDecimal h.net)
      |>.required composite
  exact reads.reader_eq (by decide)

end ForwardApy

/-! ### Documents -/

/-- Strategies under a text of their vault's address, which may be spelled in any mixture of cases.
-/
structure StrategyEntry where
  key : String
  address : Address
  strategies : List Strategy
  keyed : Address.ofText? key = some address

/-- A chain of a snapshot, its vaults and strategies in the order in which they are written. -/
structure ChainEntry where
  chainId : ChainId
  vaults : List Vault
  strategies : List StrategyEntry
  inRange : ∀ v ∈ vaults, v.InRange
  distinct : (strategies.map (·.address)).Nodup

/-- The chains of a snapshot in the order in which they are written. -/
structure SnapshotDocument where
  chains : List ChainEntry
  distinct : (chains.map (·.chainId)).Nodup

namespace ChainEntry

def json (c : ChainEntry) : Json :=
  .ofFields
    [("vaults", .ofList Vault.json c.vaults),
      ("strategies",
        .ofFields (c.strategies.map fun e => (e.key, .ofList Strategy.json e.strategies)))]

/-- A chain that holds the vaults and the strategies that are written. -/
structure Describes (c : ChainEntry) (chain : ChainSnapshot) : Prop where
  vaults : List.Forall₂ Vault.Same c.vaults chain.vaults
  strategies : chain.strategies.entries.Perm (c.strategies.map fun e => (e.address, e.strategies))

/-- What a chain is read as. -/
def snapshot (c : ChainEntry) : ChainSnapshot where
  vaults := c.vaults.map .reread
  strategies := .ofList (c.strategies.map fun e => (e.address, e.strategies))

lemma describes_snapshot (c : ChainEntry) : c.Describes c.snapshot where
  vaults := by
    rw [snapshot, List.forall₂_map_right_iff, List.forall₂_same]
    exact fun v _ => v.same_reread
  strategies := by
    apply Table.perm_entries_ofList
    rw [List.map_map]
    exact c.distinct

lemma written_json (c : ChainEntry) : c.json.Written := by
  apply Json.Written.ofFields
  simp only [List.forall_mem_cons, List.not_mem_nil, false_imp_iff, implies_true, and_true]
  refine ⟨.ofList fun v _ => v.written_json, .ofFields fun f hf => ?_⟩
  obtain ⟨e, -, rfl⟩ := List.mem_map.1 hf
  exact .ofList fun s _ => s.written_json

lemma reader_json (c : ChainEntry) : ChainSnapshot.reader c.json = .ok c.snapshot := by
  have vaults : Json.list Vault.reader (.ofList Vault.json c.vaults) =
      .ok (c.vaults.map .reread) :=
    Json.list_ofList fun v hv => Vault.reader_json (c.inRange v hv)
  have strategies : Json.addressTable (Json.list Strategy.reader)
      (.ofFields (c.strategies.map fun e => (e.key, .ofList Strategy.json e.strategies))) =
      .ok (.ofList (c.strategies.map fun e => (e.address, e.strategies))) := by
    apply Json.table_ofFields
    intro e _
    constructor
    · rw [Json.textualKey?, Json.unquote?_quote, Option.bind_some, e.keyed]
    · rw [Json.list_ofList (f := id) fun s _ => s.reader_json, List.map_id]
  have reads : ChainSnapshot.record.Reads _ c.snapshot :=
    (Reads.make ChainSnapshot.mk).withDefault vaults |>.withDefault strategies
  exact reads.reader_eq (by decide)

end ChainEntry

namespace SnapshotDocument

def json (d : SnapshotDocument) : Json :=
  .ofFields (d.chains.map fun c => (Json.word64Key c.chainId, c.json))

/-- A snapshot of the chains that are written and of no other. -/
structure Describes (d : SnapshotDocument) (s : VaultSnapshot) : Prop where
  chainIds : s.chains.keys.Perm (d.chains.map (·.chainId))
  chains : ∀ c ∈ d.chains, ∃ chain, s.chains.get? c.chainId = some chain ∧ c.Describes chain

/-- What a document is read as. -/
def snapshot (d : SnapshotDocument) : VaultSnapshot :=
  ⟨.ofList (d.chains.map fun c => (c.chainId, c.snapshot))⟩

lemma describes_snapshot (d : SnapshotDocument) : d.Describes d.snapshot := by
  have perm : d.snapshot.chains.entries.Perm (d.chains.map fun c => (c.chainId, c.snapshot)) := by
    apply Table.perm_entries_ofList
    rw [List.map_map]
    exact d.distinct
  constructor
  · have keys := perm.map (·.1)
    rwa [List.map_map] at keys
  · intro c hc
    refine ⟨c.snapshot, ?_, c.describes_snapshot⟩
    rw [Table.get?_eq_some_iff, perm.mem_iff]
    exact List.mem_map_of_mem (f := fun c => (c.chainId, c.snapshot)) hc

lemma written_json (d : SnapshotDocument) : d.json.Written := by
  apply Json.Written.ofFields
  intro f hf
  obtain ⟨c, -, rfl⟩ := List.mem_map.1 hf
  exact c.written_json

lemma reader_json (d : SnapshotDocument) : VaultSnapshot.reader d.json = .ok d.snapshot := by
  have chains : Json.numberTable ChainSnapshot.reader d.json = .ok d.snapshot.chains :=
    Json.table_ofFields fun c _ => ⟨Json.word64Key?_quote c.chainId, c.reader_json⟩
  rw [VaultSnapshot.reader, chains]
  rfl

end SnapshotDocument

/-- Vaults, strategies and yields are read back from their texts, and so is a snapshot that is put
together from them. -/
theorem exports_read_back :
    (∀ v : Vault, v.InRange → ∃ w, Json.ReadsAs Vault.reader v.json w ∧ v.Same w) ∧
    (∀ s : Strategy, Json.ReadsAs Strategy.reader s.json s) ∧
    (∀ apy : ForwardApy, apy.InRange →
      ∃ apy', Json.ReadsAs ForwardApy.reader apy.json apy' ∧ apy.Same apy') ∧
    ∀ d : SnapshotDocument, ∃ s,
      VaultSnapshot.ofText d.json.compact = .ok s ∧ VaultSnapshot.ofText d.json.pretty = .ok s ∧
      d.Describes s := by
  refine ⟨?_, ?_, ?_, ?_⟩
  · intro v h
    exact ⟨v.reread, v.written_json.readsAs (Vault.reader_json h), v.same_reread⟩
  · intro s
    exact s.written_json.readsAs s.reader_json
  · intro apy h
    exact ⟨apy.reread, apy.written_json.readsAs (ForwardApy.reader_json h), apy.same_reread⟩
  · intro d
    obtain ⟨compact, pretty⟩ := d.written_json.readsAs d.reader_json
    exact ⟨d.snapshot, compact, pretty, d.describes_snapshot⟩

/-- Decimals at the ends of the range of scales, a zero with a scale, and a document whose second
chain is empty and whose strategies stand under an address in capitals. -/
theorem exports_read_back_of_extremes :
    let v : Vault :=
      { chainId := 18446744073709551615
        address := ⟨.allOnes 160⟩
        version := "3.0\n\"\\é"
        kind := .multiple
        lastTotalAssets := some ⟨-500, -16⟩
        metadata := ⟨true⟩ }
    let apy : ForwardApy :=
      ⟨.onchainOracle, ⟨0, 18⟩, ⟨⟨-12, 9223372036854775807⟩, ⟨7, -9223372036854775808⟩⟩⟩
    (v.InRange ∧ ∃ w, Json.ReadsAs Vault.reader v.json w ∧ v.Same w) ∧
    (apy.InRange ∧ ∃ apy', Json.ReadsAs ForwardApy.reader apy.json apy' ∧ apy.Same apy') ∧
    ∃ d : SnapshotDocument, d.chains.map (·.chainId) = [10, 1] ∧
      d.chains.map (·.vaults) = [[v, v], []] ∧ ∃ s,
      VaultSnapshot.ofText d.json.compact = .ok s ∧ VaultSnapshot.ofText d.json.pretty = .ok s ∧
      d.Describes s := by
  intro v apy
  have vaultInRange : v.InRange := by
    rintro d ⟨⟩
    decide
  have apyInRange : apy.InRange := ⟨by decide, by decide, by decide⟩
  obtain ⟨vaults, -, yields, documents⟩ := exports_read_back
  refine ⟨⟨vaultInRange, vaults v vaultInRange⟩, ⟨apyInRange, yields apy apyInRange⟩, ?_⟩
  let strategies : StrategyEntry :=
    { key := "0xFFFFFFFFFFFFFFFFFFFFFFFFFFFFFFFFFFFFFFFF"
      address := ⟨.allOnes 160⟩
      strategies := [.new .zero ⟨.allOnes 160⟩]
      keyed := by decide }
  let first : ChainEntry :=
    { chainId := 10
      vaults := [v, v]
      strategies := [strategies]
      inRange := by simpa using vaultInRange
      distinct := by decide }
  let second : ChainEntry := ⟨1, [], [], by simp, .nil⟩
  let d : SnapshotDocument := ⟨[first, second], show ([10, 1] : List ChainId).Nodup by decide⟩
  exact ⟨d, rfl, rfl, documents d⟩

end VaultIndex
