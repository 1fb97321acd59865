import Mathlib.Data.List.Nodup
import Chaincode.Proofs.Key
import Chaincode.Mapping

/-!
# Well-formed mappings and the keys they compose

`Mapping.validate` is read here as a declarative condition, `Mapping.Valid`, and every key a
mapping composes (a primary key from an identifier, an index key from a unique value) is
described by one equation: the value, checked for its number of segments and for separators,
behind the namespace of its role.

On a valid mapping those namespaces are separator-free and pairwise different, so a composed
key is separator-free and its first segment names its role.
-/

namespace Chaincode

namespace Except

variable {ε α β : Type}

@[simp] theorem ok_bind (a : α) (f : α → Except ε β) : (Except.ok a >>= f) = f a := rfl

@[simp] theorem error_bind (e : ε) (f : α → Except ε β) : (Except.error e >>= f) = .error e := rfl

@[simp] theorem throw_eq (e : ε) : (throw e : Except ε α) = .error e := rfl

@[simp] theorem pure_eq (a : α) : (pure a : Except ε α) = .ok a := rfl

@[simp] theorem mapError_eq_ok {ε' : Type} {x : Except ε α} {f : ε → ε'} {a : α} :
    x.mapError f = .ok a ↔ x = .ok a := by
  cases x <;> simp [Except.mapError]

theorem bind_eq_ok {x : Except ε α} {f : α → Except ε β} {b : β} :
    x >>= f = .ok b ↔ ∃ a, x = .ok a ∧ f a = .ok b := by
  cases x <;> simp

end Except

variable {α : Type}

/-- In a list whose images are pairwise different, searching by the image of a member finds that
member. -/
theorem find?_image_eq_some {β γ : Type} [DecidableEq γ] {f : β → γ} {l : List β} {x : β}
    (distinct : (l.map f).Nodup) (mem : x ∈ l) : l.find? (fun y => f y = f x) = some x := by
  rw [List.find?_eq_some_iff_append]
  obtain ⟨before, after, split⟩ := List.append_of_mem mem
  refine ⟨by simp, before, after, split, ?_⟩
  rw [split, List.map_append, List.map_cons, List.nodup_append] at distinct
  intro y earlier
  simpa using distinct.2.2 _ (List.mem_map_of_mem earlier) _ List.mem_cons_self

/-- A unique key has a non-empty name without the separator, and at least one field. -/
def UniqueKey.Valid (u : UniqueKey α) : Prop :=
  u.name ≠ "" ∧ Key.separator ∉ u.name.toList ∧ u.fields ≠ []

/-- Which keys of an entity type a mapping composes: its primary keys, or the index keys of one
of its unique keys. -/
inductive KeyRole (α : Type) where
  | primary
  | unique (u : UniqueKey α)

namespace Mapping

variable (m : Mapping α)

/-- What `validate` accepts: a namespace of non-empty text without the separator, at least one
key field, and valid unique keys of pairwise different names. -/
structure Valid : Prop where
  ns_ne_empty : m.ns ≠ ""
  ns_free : Key.separator ∉ m.ns.toList
  keyFields_ne_nil : m.keyFields ≠ []
  uniqueKeys_valid : ∀ u ∈ m.uniqueKeys, u.Valid
  uniqueKey_names_nodup : (m.uniqueKeys.map (·.name)).Nodup

theorem validateUnique_cons_eq_ok_iff {seen : List String} {u : UniqueKey α}
    {rest : List (UniqueKey α)} :
    m.validateUnique seen (u :: rest) = .ok () ↔
      u.Valid ∧ u.name ∉ seen ∧ m.validateUnique (seen ++ [u.name]) rest = .ok () := by
  rw [validateUnique]
  cases blank : (u.name.isEmpty || u.fields.isEmpty) <;>
    cases separated : Text.containsChar u.name Key.separator <;>
    cases repeated : seen.contains u.name <;>
    simp_all [UniqueKey.Valid, Text.containsChar, String.isEmpty_iff]
  -- left: a refused key with a missing name or no fields, as a disjunction
  grind

/-- The unique keys pass from a list of names already seen exactly when each is valid and new,
and no two share a name. -/
theorem validateUnique_eq_ok_iff {seen : List String} {keys : List (UniqueKey α)} :
    m.validateUnique seen keys = .ok () ↔
      (∀ u ∈ keys, u.Valid ∧ u.name ∉ seen) ∧ (keys.map (·.name)).Nodup := by
  induction keys generalizing seen with
  | nil => simp [validateUnique]
  | cons u rest ih =>
      rw [validateUnique_cons_eq_ok_iff, ih]
      simp only [List.forall_mem_cons, List.map_cons, List.nodup_cons, List.mem_append,
        List.mem_singleton, List.mem_map, not_or, not_exists, not_and]
      grind

/-- `validate` accepts exactly the valid mappings. -/
theorem validate_eq_ok_iff : m.validate = .ok () ↔ m.Valid := by
  have valid_iff : m.Valid ↔ (m.ns ≠ "" ∧ Key.separator ∉ m.ns.toList) ∧ m.keyFields ≠ [] ∧
      (∀ u ∈ m.uniqueKeys, u.Valid) ∧ (m.uniqueKeys.map (·.name)).Nodup :=
    ⟨fun ⟨a, b, c, d, e⟩ => ⟨⟨a, b⟩, c, d, e⟩, fun ⟨⟨a, b⟩, c, d, e⟩ => ⟨a, b, c, d, e⟩⟩
  rw [valid_iff, validate]
  cases named : (m.ns.isEmpty || Text.containsChar m.ns Key.separator) <;>
    cases fields : m.keyFields.isEmpty <;>
    simp_all [validateUnique_eq_ok_iff, Text.containsChar, String.isEmpty_iff]
  -- left: a refused namespace that is empty or holds the separator, as a disjunction
  grind

/-! ## Composing keys -/

theorem checkSegments_eq_ok_iff {k : Key} : m.checkSegments k = .ok () ↔ k.SeparatorFree := by
  rw [← Key.invalidSegment?_eq_none_iff, checkSegments]
  split <;> simp_all

/-- A segment check that fails blames the identifying value. -/
theorem checkSegments_error_blames {k : Key} {err : StateError}
    (refused : m.checkSegments k = .error err) :
    ∃ reason, err = .invalidIdentifyingValue m.entity reason := by
  unfold checkSegments at refused
  cases found : k.invalidSegment? with
  | none => simp [found] at refused
  | some i =>
    simp only [found, Except.error.injEq] at refused
    exact ⟨_, refused.symm⟩

/-- A primary key is the identifier, of one segment per key field and without separators,
behind the namespace. -/
theorem keyFor_eq_ok_iff {id k : Key} :
    m.keyFor id = .ok k ↔
      id.length = m.keyFields.length ∧ id.SeparatorFree ∧ k = id.prepend m.ns := by
  rw [← checkSegments_eq_ok_iff, keyFor]
  by_cases width : id.length = m.keyFields.length
  · cases m.checkSegments id <;> simp [width, eq_comm]
  · simp [width]

/-- An index key is the unique value, of one segment per field of the unique key and without
separators, behind the index namespace. -/
theorem indexKey_eq_ok_iff {u : UniqueKey α} {value k : Key} :
    m.indexKey u value = .ok k ↔
      value.length = u.fields.length ∧ value.SeparatorFree ∧
        k = value.prepend (m.indexNamespace u) := by
  rw [← checkSegments_eq_ok_iff, indexKey]
  by_cases width : value.length = u.fields.length
  · cases m.checkSegments value <;> simp [width, eq_comm]
  · simp [width]

/-- A primary key fails to form exactly when the identifier has the wrong number of segments or
a segment holds the separator. -/
theorem keyFor_eq_error_iff {id : Key} :
    (∃ err, m.keyFor id = .error err) ↔ id.length ≠ m.keyFields.length ∨ ¬ id.SeparatorFree := by
  rw [← not_iff_not, not_exists]
  constructor
  · intro formed
    cases keyed : m.keyFor id with
    | error err => exact absurd keyed (formed err)
    | ok k =>
      obtain ⟨width, free, -⟩ := (m.keyFor_eq_ok_iff).mp keyed
      simp [width, free]
  · intro shaped err refused
    simp only [not_or, not_not] at shaped
    have formed := (m.keyFor_eq_ok_iff (k := id.prepend m.ns)).mpr ⟨shaped.1, shaped.2, rfl⟩
    rw [formed] at refused
    cases refused

/-- A primary key that fails to form blames the identifying value. -/
theorem keyFor_error_blames {id : Key} {err : StateError} (refused : m.keyFor id = .error err) :
    ∃ reason, err = .invalidIdentifyingValue m.entity reason := by
  rw [keyFor] at refused
  by_cases width : id.length = m.keyFields.length
  · simp only [width, ne_eq, not_true_eq_false, if_false] at refused
    cases checked : m.checkSegments id with
    | error e =>
      simp only [checked, Except.error_bind, Except.error.injEq] at refused
      exact refused ▸ m.checkSegments_error_blames checked
    | ok _ => simp [checked] at refused
  · simp [width, identifying] at refused
    exact ⟨_, refused.symm⟩

/-- An index key fails to form exactly when the unique value has the wrong number of segments
or a segment holds the separator. -/
theorem indexKey_eq_error_iff {u : UniqueKey α} {value : Key} :
    (∃ err, m.indexKey u value = .error err) ↔
      value.length ≠ u.fields.length ∨ ¬ value.SeparatorFree := by
  rw [← not_iff_not, not_exists]
  constructor
  · intro formed
    cases composed : m.indexKey u value with
    | error err => exact absurd composed (formed err)
    | ok k =>
      obtain ⟨width, free, -⟩ := (m.indexKey_eq_ok_iff).mp composed
      simp [width, free]
  · intro shaped err refused
    simp only [not_or, not_not] at shaped
    have formed := (m.indexKey_eq_ok_iff (k := value.prepend (m.indexNamespace u))).mpr
      ⟨shaped.1, shaped.2, rfl⟩
    rw [formed] at refused
    cases refused

/-- An index key that fails to form blames the identifying value. -/
theorem indexKey_error_blames {u : UniqueKey α} {value : Key} {err : StateError}
    (refused : m.indexKey u value = .error err) :
    ∃ reason, err = .invalidIdentifyingValue m.entity reason := by
  rw [indexKey] at refused
  by_cases width : value.length = u.fields.length
  · simp only [width, ne_eq, not_true_eq_false, if_false] at refused
    cases checked : m.checkSegments value with
    | error e =>
      simp only [checked, Except.error_bind, Except.error.injEq] at refused
      exact refused ▸ m.checkSegments_error_blames checked
    | ok _ => simp [checked] at refused
  · simp [width, identifying] at refused
    exact ⟨_, refused.symm⟩

/-- The width check of a partial identifier refuses exactly the identifiers of no segment or of
more segments than there are key fields. -/
theorem prefixWidth_refused_iff {part : Key} :
    (part.isEmpty || decide (part.length > m.keyFields.length)) = true ↔
      ¬ (1 ≤ part.length ∧ part.length ≤ m.keyFields.length) := by
  cases part with
  | mk segments => cases segments <;> simp [Key.isEmpty, Key.length]

/-- A key prefix is the partial identifier, of one to as many segments as there are key fields
and without separators, behind the namespace. -/
theorem prefixFor_eq_ok_iff {part k : Key} :
    m.prefixFor part = .ok k ↔
      (1 ≤ part.length ∧ part.length ≤ m.keyFields.length) ∧ part.SeparatorFree ∧
        k = part.prepend m.ns := by
  rw [← checkSegments_eq_ok_iff, prefixFor]
  by_cases width : 1 ≤ part.length ∧ part.length ≤ m.keyFields.length
  · have accepted := mt (m.prefixWidth_refused_iff).mp (not_not.mpr width)
    cases m.checkSegments part <;> simp [accepted, width, eq_comm]
  · have refused := (m.prefixWidth_refused_iff).mpr width
    simp [refused, width]

/-- A key prefix that fails to form blames the identifying value. -/
theorem prefixFor_error_blames {part : Key} {err : StateError}
    (refused : m.prefixFor part = .error err) :
    ∃ reason, err = .invalidIdentifyingValue m.entity reason := by
  rw [prefixFor] at refused
  by_cases width : (part.isEmpty || decide (part.length > m.keyFields.length)) = true
  · simp only [width, if_true, Except.throw_eq, Except.error_bind, Except.error.injEq,
      identifying] at refused
    exact ⟨_, refused.symm⟩
  · simp only [width, Bool.false_eq_true, if_false] at refused
    cases checked : m.checkSegments part with
    | error e =>
      simp only [checked, Except.error_bind, Except.error.injEq] at refused
      exact refused ▸ m.checkSegments_error_blames checked
    | ok _ => simp [checked] at refused

theorem primaryKey_eq_ok_iff {e : α} {k : Key} :
    m.primaryKey e = .ok k ↔
      (m.primary e).length = m.keyFields.length ∧ (m.primary e).SeparatorFree ∧
        k = (m.primary e).prepend m.ns :=
  m.keyFor_eq_ok_iff

/-- The namespace of a role's keys. -/
def roleNamespace : KeyRole α → String
  | .primary => m.ns
  | .unique u => m.indexNamespace u

/-- The number of segments of a role's identifying values. -/
def roleWidth : KeyRole α → Nat
  | .primary => m.keyFields.length
  | .unique u => u.fields.length

/-- The key a mapping composes for a role from an identifying value. -/
def compose : KeyRole α → Key → Except StateError Key
  | .primary, id => m.keyFor id
  | .unique u, value => m.indexKey u value

/-- The roles of a mapping: the primary role, and one per declared unique key. -/
def HasRole : KeyRole α → Prop
  | .primary => True
  | .unique u => u ∈ m.uniqueKeys

/-- Every composed key is its checked value behind its role's namespace. -/
theorem compose_eq_ok_iff {role : KeyRole α} {value k : Key} :
    m.compose role value = .ok k ↔
      value.length = m.roleWidth role ∧ value.SeparatorFree ∧
        k = value.prepend (m.roleNamespace role) := by
  cases role with
  | primary => exact m.keyFor_eq_ok_iff
  | unique u => exact m.indexKey_eq_ok_iff

theorem roleNamespace_mem_namespaces {role : KeyRole α} (has : m.HasRole role) :
    m.roleNamespace role ∈ m.namespaces := by
  cases role with
  | primary => exact List.mem_cons_self
  | unique u => exact List.mem_cons_of_mem _ (List.mem_map_of_mem has)

/-! ## Namespaces of a valid mapping -/

variable {m}

theorem indexNamespace_toList (u : UniqueKey α) :
    (m.indexNamespace u).toList = m.ns.toList ++ '_' :: u.name.toList := by
  simp [indexNamespace, String.toList_append]

/-- An index namespace is longer than the namespace, so never equal to it. -/
theorem ns_ne_indexNamespace (u : UniqueKey α) : m.ns ≠ m.indexNamespace u := by
  intro equal
  have lengths := congrArg (·.toList.length) equal
  simp [indexNamespace_toList] at lengths

theorem indexNamespace_inj {u v : UniqueKey α} :
    m.indexNamespace u = m.indexNamespace v ↔ u.name = v.name := by
  rw [← String.toList_inj, indexNamespace_toList, indexNamespace_toList]
  simp [String.toList_inj]

theorem roleNamespace_free (valid : m.Valid) {role : KeyRole α} (has : m.HasRole role) :
    Key.separator ∉ (m.roleNamespace role).toList := by
  cases role with
  | primary => exact valid.ns_free
  | unique u =>
      have named := valid.uniqueKeys_valid u has
      simp only [roleNamespace, indexNamespace_toList, List.mem_append, List.mem_cons, not_or]
      exact ⟨valid.ns_free, by decide, named.2.1⟩

/-- On a valid mapping two declared roles with the same namespace are the same role: unique key
names are pairwise different, and no index namespace is the namespace. -/
theorem role_eq_of_roleNamespace_eq (valid : m.Valid) {role role' : KeyRole α}
    (has : m.HasRole role) (has' : m.HasRole role')
    (equal : m.roleNamespace role = m.roleNamespace role') : role = role' := by
  cases role with
  | primary =>
      cases role' with
      | primary => rfl
      | unique u' => exact absurd equal (ns_ne_indexNamespace u')
  | unique u =>
      cases role' with
      | primary => exact absurd equal.symm (ns_ne_indexNamespace u)
      | unique u' =>
          have sameName : u.name = u'.name := indexNamespace_inj.mp equal
          rw [List.inj_on_of_nodup_map valid.uniqueKey_names_nodup has has' sameName]

/-- A valid mapping occupies each of its namespaces once. -/
theorem namespaces_nodup (valid : m.Valid) : m.namespaces.Nodup := by
  refine List.nodup_cons.mpr ⟨?_, ?_⟩
  · simp only [List.mem_map, not_exists, not_and]
    exact fun u _ equal => ns_ne_indexNamespace u equal.symm
  · refine List.Nodup.map_on ?_ valid.uniqueKey_names_nodup.of_map
    intro u has u' has' equal
    exact List.inj_on_of_nodup_map valid.uniqueKey_names_nodup has has'
      (indexNamespace_inj.mp equal)

/-- On a valid mapping a declared unique key is the one found by its name. -/
theorem uniqueKey?_eq_some (valid : m.Valid) {u : UniqueKey α} (has : u ∈ m.uniqueKeys) :
    m.uniqueKey? u.name = some u :=
  find?_image_eq_some valid.uniqueKey_names_nodup has

/-- A key composed by a valid mapping for one of its roles is separator-free. -/
theorem separatorFree_of_compose (valid : m.Valid) {role : KeyRole α} (has : m.HasRole role)
    {value k : Key} (composed : m.compose role value = .ok k) : k.SeparatorFree := by
  obtain ⟨-, free, rfl⟩ := m.compose_eq_ok_iff.mp composed
  exact Key.separatorFree_prepend.mpr ⟨roleNamespace_free valid has, free⟩

end Mapping

end Chaincode
