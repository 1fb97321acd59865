import Mathlib.Data.List.Pairwise
import Chaincode.Proofs.Mapping
import Chaincode.Registry

/-!
# What registration guarantees

Registration checks each mapping, refuses a second mapping of an entity type, and refuses a
mapping that would occupy a namespace already owned. `Registry.WellFormed` collects what follows
for every registry built from the empty one: every mapping is valid, the entity types are
distinct, the namespace sets of two mappings are disjoint, and the owner table records exactly
the occupied namespaces, each with the short name of its entity type.

Disjointness is what keeps the keys of the ledger apart: a key composed for one mapping and role
is never the encoding of, nor a segment prefix of, a key composed for another, and for one
mapping and role the encoding determines the identifying value. Index namespaces are built by
concatenation (`A` and `B_C` give `A_B_C`, as do `A_B` and `C`), so this rests on the owner check
seeing every namespace of every earlier mapping, and on names without the separator.
-/

namespace Chaincode

namespace Registry

variable {α : Type} {r r' : Registry α} {m : Mapping α}

/-- What registration keeps of a registry. -/
structure WellFormed (r : Registry α) : Prop where
  valid : ∀ m ∈ r.mappings, m.Valid
  distinct_types : (r.mappings.map (·.kind.typeName)).Nodup
  disjoint : r.mappings.Pairwise fun m m' => m.namespaces.Disjoint m'.namespaces
  ownerOf_of_mem : ∀ m ∈ r.mappings, ∀ ns ∈ m.namespaces, r.ownerOf ns = some m.entity
  ownerOf_of_not_mem : ∀ ns, (∀ m ∈ r.mappings, ns ∉ m.namespaces) → r.ownerOf ns = none

theorem wellFormed_empty : (empty : Registry α).WellFormed where
  valid := by simp [empty]
  distinct_types := by simp [empty]
  disjoint := by simp [empty]
  ownerOf_of_mem := by simp [empty]
  ownerOf_of_not_mem := by simp [empty, ownerOf]

theorem firstOwned_eq_none_iff {names : List String} :
    r.firstOwned names = none ↔ ∀ ns ∈ names, r.ownerOf ns = none := by
  induction names with
  | nil => simp [firstOwned]
  | cons ns rest ih =>
      rw [firstOwned]
      cases owner : r.ownerOf ns <;> simp [owner, ih]

/-- The owners recorded for a list of namespaces taken by one entity type. -/
theorem lookup_map_owner {names : List String} {ns entity : String} :
    (names.map fun name => (name, entity)).lookup ns =
      if ns ∈ names then some entity else none := by
  induction names with
  | nil => simp
  | cons name rest ih =>
      by_cases same : ns = name
      · simp [same]
      · have differ : (ns == name) = false := by simp [same]
        simp [same, List.lookup_cons, differ, ih]

theorem lookup_eq_none_iff {typeName : String} :
    r.lookup typeName = none ↔ ∀ m ∈ r.mappings, m.kind.typeName ≠ typeName := by
  simp [lookup, List.find?_eq_none]

theorem mapping_eq_ok_iff {kind : EntityKind α} :
    r.mapping kind = .ok m ↔ r.lookup kind.typeName = some m := by
  rw [mapping]
  cases r.lookup kind.typeName <;> simp

/-- An entity kind has no mapping exactly when its type name is not registered, and the failure
blames the schema. -/
theorem mapping_eq_error_iff {kind : EntityKind α} {err : StateError} :
    r.mapping kind = .error err ↔
      r.lookup kind.typeName = none ∧
        err = .invalidKeySchema kind.shortName "entity type not registered" := by
  rw [mapping]
  cases r.lookup kind.typeName <;> simp [eq_comm]

/-- The mapping found for an entity kind is a registered mapping of the kind's type name. -/
theorem mem_of_mapping_eq_ok {kind : EntityKind α} (found : r.mapping kind = .ok m) :
    m ∈ r.mappings ∧ m.kind.typeName = kind.typeName := by
  rw [mapping] at found
  cases looked : r.lookup kind.typeName with
  | none => simp [looked] at found
  | some m' =>
      rw [looked] at found
      cases found
      exact ⟨List.mem_of_find?_eq_some looked, by simpa using List.find?_some looked⟩

/-- A successful registration: the mapping is valid, its entity type and its namespaces are new,
and it is appended with an owner entry for each of its namespaces. -/
theorem register_eq_ok (registered : r.register m = .ok r') :
    m.Valid ∧ r.lookup m.kind.typeName = none ∧ (∀ ns ∈ m.namespaces, r.ownerOf ns = none) ∧
      r' = ⟨r.mappings ++ [m], r.owners ++ m.namespaces.map fun ns => (ns, m.entity)⟩ := by
  rw [register] at registered
  cases validated : m.validate with
  | error e => simp [validated] at registered
  | ok u =>
      have valid : m.Valid := m.validate_eq_ok_iff.mp validated
      cases known : r.contains m.kind.typeName with
      | true => simp [validated, known] at registered
      | false =>
          have fresh : r.lookup m.kind.typeName = none := by
            simpa [contains, Option.isSome_iff_ne_none] using known
          cases owned : r.firstOwned m.namespaces with
          | some clash => simp [validated, known, owned] at registered
          | none =>
              simp only [validated, known, owned, Except.ok_bind, Bool.false_eq_true, if_false,
                Except.pure_eq, Except.ok.injEq] at registered
              exact ⟨valid, fresh, firstOwned_eq_none_iff.mp owned, registered.symm⟩

/-- Registration keeps a registry well formed. -/
theorem WellFormed.register (wf : r.WellFormed) (registered : r.register m = .ok r') :
    r'.WellFormed := by
  obtain ⟨valid, fresh, free, rfl⟩ := register_eq_ok registered
  -- a namespace of the new mapping is owned by no earlier mapping
  have apart : ∀ m' ∈ r.mappings, ∀ ns ∈ m.namespaces, ns ∉ m'.namespaces := by
    intro m' mem ns taken occupied
    have owner := wf.ownerOf_of_mem m' mem ns occupied
    rw [free ns taken] at owner
    cases owner
  refine ⟨?_, ?_, ?_, ?_, ?_⟩
  · intro m' mem
    rcases List.mem_append.mp mem with old | new
    · exact wf.valid m' old
    · rw [List.mem_singleton.mp new]
      exact valid
  · rw [List.map_append, List.nodup_append]
    refine ⟨wf.distinct_types, by simp, ?_⟩
    simp only [List.mem_map, List.mem_singleton]
    rintro _ ⟨m', mem, rfl⟩ _ ⟨_, rfl, rfl⟩ same
    exact lookup_eq_none_iff.mp fresh m' mem same
  · refine List.pairwise_append.mpr ⟨wf.disjoint, List.pairwise_singleton _ _, ?_⟩
    intro m' mem new occupiedNew
    rw [List.mem_singleton.mp occupiedNew]
    exact List.disjoint_symm (List.disjoint_left.mpr fun ns taken => apart m' mem ns taken)
  · intro m' mem ns occupied
    simp only [ownerOf, List.lookup_append, lookup_map_owner]
    rcases List.mem_append.mp mem with old | new
    · have owner := wf.ownerOf_of_mem m' old ns occupied
      simp only [ownerOf] at owner
      simp [owner]
    · rw [List.mem_singleton.mp new] at occupied ⊢
      have owner := free ns occupied
      simp only [ownerOf] at owner
      simp [owner, occupied]
  · intro ns unowned
    have old := wf.ownerOf_of_not_mem ns fun m' mem => unowned m' (List.mem_append_left _ mem)
    have new : ns ∉ m.namespaces := unowned m (List.mem_append_right _ (List.mem_singleton_self m))
    simp only [ownerOf] at old ⊢
    simp [List.lookup_append, lookup_map_owner, old, new]

/-- Every registry built by successful registrations from a well-formed one is well formed. -/
theorem WellFormed.foldlM_register {ms : List (Mapping α)} (wf : r.WellFormed)
    (built : ms.foldlM Registry.register r = .ok r') : r'.WellFormed := by
  induction ms generalizing r with
  | nil =>
      cases built
      exact wf
  | cons m rest ih =>
      rw [List.foldlM_cons] at built
      cases registered : r.register m with
      | error e => simp [registered] at built
      | ok next =>
          simp only [registered, Except.ok_bind] at built
          exact ih (wf.register registered) built

/-- Registration appends: a registry built by successful registrations holds the mappings it
started with and then every registered mapping, in order. -/
theorem mappings_of_foldlM_register {ms : List (Mapping α)}
    (built : ms.foldlM Registry.register r = .ok r') : r'.mappings = r.mappings ++ ms := by
  induction ms generalizing r with
  | nil =>
      cases built
      simp
  | cons m rest ih =>
      rw [List.foldlM_cons] at built
      cases registered : r.register m with
      | error e => simp [registered] at built
      | ok next =>
          simp only [registered, Except.ok_bind] at built
          obtain ⟨-, -, -, rfl⟩ := register_eq_ok registered
          simp [ih built]

/-- A registry built by successful registrations from the empty one is well formed. -/
theorem wellFormed_of_built {ms : List (Mapping α)}
    (built : ms.foldlM Registry.register empty = .ok r) : r.WellFormed :=
  wellFormed_empty.foldlM_register built

/-! ## Consequences -/

variable (wf : r.WellFormed)
include wf

theorem WellFormed.ownerOf_eq_none_iff {ns : String} :
    r.ownerOf ns = none ↔ ∀ m ∈ r.mappings, ns ∉ m.namespaces := by
  refine ⟨fun unowned m mem occupied => ?_, wf.ownerOf_of_not_mem ns⟩
  rw [wf.ownerOf_of_mem m mem ns occupied] at unowned
  cases unowned

/-- Two registered mappings that share a namespace are the same mapping. -/
theorem WellFormed.eq_of_mem_namespaces {m₁ m₂ : Mapping α} {ns : String}
    (mem₁ : m₁ ∈ r.mappings) (mem₂ : m₂ ∈ r.mappings)
    (occupied₁ : ns ∈ m₁.namespaces) (occupied₂ : ns ∈ m₂.namespaces) : m₁ = m₂ := by
  by_contra different
  have : Std.Symm fun m m' : Mapping α => m.namespaces.Disjoint m'.namespaces :=
    ⟨fun _ _ apart => List.disjoint_symm apart⟩
  exact wf.disjoint.forall mem₁ mem₂ different occupied₁ occupied₂

/-- A registered mapping is the one found for its entity type. -/
theorem WellFormed.lookup_eq_some (mem : m ∈ r.mappings) :
    r.lookup m.kind.typeName = some m :=
  find?_image_eq_some wf.distinct_types mem

theorem WellFormed.mapping_eq_ok (mem : m ∈ r.mappings) : r.mapping m.kind = .ok m := by
  rw [mapping, wf.lookup_eq_some mem]

/-- Keys composed for registered mappings and roles are apart: when the encodings agree, or one
key extends the other segment by segment, the mapping, the role and the value are the same. -/
theorem WellFormed.compose_eq_of_overlap {m₁ m₂ : Mapping α} {role₁ role₂ : KeyRole α}
    {value₁ value₂ k₁ k₂ : Key} (mem₁ : m₁ ∈ r.mappings) (mem₂ : m₂ ∈ r.mappings)
    (has₁ : m₁.HasRole role₁) (has₂ : m₂.HasRole role₂)
    (composed₁ : m₁.compose role₁ value₁ = .ok k₁) (composed₂ : m₂.compose role₂ value₂ = .ok k₂)
    (overlap : k₁.toComposite = k₂.toComposite ∨ k₂.startsWith k₁ = true) :
    m₁ = m₂ ∧ role₁ = role₂ ∧ value₁ = value₂ := by
  have free₁ := Mapping.separatorFree_of_compose (wf.valid m₁ mem₁) has₁ composed₁
  have free₂ := Mapping.separatorFree_of_compose (wf.valid m₂ mem₂) has₂ composed₂
  obtain ⟨width₁, -, rfl⟩ := m₁.compose_eq_ok_iff.mp composed₁
  obtain ⟨width₂, -, rfl⟩ := m₂.compose_eq_ok_iff.mp composed₂
  -- both ways of overlapping agree on the namespace, and the value of the first is a prefix
  have agree :
      m₁.roleNamespace role₁ = m₂.roleNamespace role₂ ∧ value₂.startsWith value₁ = true := by
    rcases overlap with same | extended
    · obtain ⟨sameNs, rfl⟩ := Key.prepend_inj.mp (Key.toComposite_injective free₁ free₂ same)
      exact ⟨sameNs, by simp [Key.startsWith]⟩
    · exact Key.startsWith_prepend.mp extended
  obtain ⟨sameNs, prefixed⟩ := agree
  have sameMapping : m₁ = m₂ := wf.eq_of_mem_namespaces mem₁ mem₂
    (m₁.roleNamespace_mem_namespaces has₁) (sameNs ▸ m₂.roleNamespace_mem_namespaces has₂)
  subst sameMapping
  have sameRole : role₁ = role₂ :=
    Mapping.role_eq_of_roleNamespace_eq (wf.valid m₁ mem₁) has₁ has₂ sameNs
  subst sameRole
  -- a prefix of the same width is the whole value
  have whole : value₁.segments = value₂.segments :=
    (List.isPrefixOf_iff_prefix.mp prefixed).eq_of_length (by simp_all [Key.length])
  exact ⟨rfl, rfl, by cases value₁; cases value₂; simp_all⟩

end Registry

variable {α : Type}

/-- Every registry that successful registrations build from the empty one holds exactly the
registered mappings and keeps their keys apart: each mapping is valid and occupies each of its
namespaces once, the namespace sets of two mappings are disjoint, the owner table names the
entity type of exactly the occupied namespaces, and two keys composed for registered mappings and
roles that have the same encoding, or of which one extends the other, come from the same mapping,
role and value. -/
theorem built_registry_keys_apart {ms : List (Mapping α)} {r : Registry α}
    (built : ms.foldlM Registry.register Registry.empty = .ok r) :
    r.mappings = ms ∧
    (∀ m ∈ r.mappings, m.validate = .ok () ∧ m.Valid ∧ m.namespaces.Nodup) ∧
    r.mappings.Pairwise (fun m m' => m.namespaces.Disjoint m'.namespaces) ∧
    (∀ m ∈ r.mappings, ∀ ns ∈ m.namespaces, r.ownerOf ns = some m.entity) ∧
    (∀ ns, r.ownerOf ns = none ↔ ∀ m ∈ r.mappings, ns ∉ m.namespaces) ∧
    (∀ m₁ ∈ r.mappings, ∀ m₂ ∈ r.mappings, ∀ (role₁ role₂ : KeyRole α) (value₁ value₂ k₁ k₂ : Key),
      m₁.HasRole role₁ → m₂.HasRole role₂ →
      m₁.compose role₁ value₁ = .ok k₁ → m₂.compose role₂ value₂ = .ok k₂ →
      (k₁.toComposite = k₂.toComposite ∨ k₂.startsWith k₁ = true) →
      m₁ = m₂ ∧ role₁ = role₂ ∧ value₁ = value₂) := by
  have wf := Registry.wellFormed_of_built built
  refine ⟨by simpa [Registry.empty] using Registry.mappings_of_foldlM_register built, ?_,
    wf.disjoint,
    wf.ownerOf_of_mem, fun _ => wf.ownerOf_eq_none_iff, ?_⟩
  · intro m mem
    have valid := wf.valid m mem
    exact ⟨m.validate_eq_ok_iff.mpr valid, valid, Mapping.namespaces_nodup valid⟩
  · intro m₁ mem₁ m₂ mem₂ role₁ role₂ value₁ value₂ k₁ k₂ has₁ has₂ composed₁ composed₂ overlap
    exact wf.compose_eq_of_overlap mem₁ mem₂ has₁ has₂ composed₁ composed₂ overlap

/-- Two entity types whose namespaces concatenate alike: `A` with the unique key `B_C` occupies
`A_B_C`, and `A_B` with the unique key `D` occupies `A_B_D`. -/
def concatenatedMappings : List (Mapping String) :=
  [(Mapping.new ⟨⟨"sample::Alpha", Bytes.ofString, fun _ => .ok ""⟩, fun _ => .ok (), ""⟩ "A"
      ["id"] Key.single).withUniqueKey "B_C" ["tag"] Key.single,
    (Mapping.new ⟨⟨"sample::Beta", Bytes.ofString, fun _ => .ok ""⟩, fun _ => .ok (), ""⟩ "A_B"
      ["id"] Key.single).withUniqueKey "D" ["tag"] Key.single]

theorem concatenatedMappings_keys_apart :
    ∃ r : Registry String, concatenatedMappings.foldlM Registry.register Registry.empty = .ok r ∧
    (r.mappings = concatenatedMappings ∧
    (∀ m ∈ r.mappings, m.validate = .ok () ∧ m.Valid ∧ m.namespaces.Nodup) ∧
    r.mappings.Pairwise (fun m m' => m.namespaces.Disjoint m'.namespaces) ∧
    (∀ m ∈ r.mappings, ∀ ns ∈ m.namespaces, r.ownerOf ns = some m.entity) ∧
    (∀ ns, r.ownerOf ns = none ↔ ∀ m ∈ r.mappings, ns ∉ m.namespaces) ∧
    (∀ m₁ ∈ r.mappings, ∀ m₂ ∈ r.mappings,
      ∀ (role₁ role₂ : KeyRole String) (value₁ value₂ k₁ k₂ : Key),
      m₁.HasRole role₁ → m₂.HasRole role₂ →
      m₁.compose role₁ value₁ = .ok k₁ → m₂.compose role₂ value₂ = .ok k₂ →
      (k₁.toComposite = k₂.toComposite ∨ k₂.startsWith k₁ = true) →
      m₁ = m₂ ∧ role₁ = role₂ ∧ value₁ = value₂)) :=
  ⟨_, rfl, built_registry_keys_apart rfl⟩

end Chaincode
