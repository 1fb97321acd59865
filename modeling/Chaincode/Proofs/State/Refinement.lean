import Chaincode.Proofs.State.Index

/-!
# The ledger refines a store of entities

An abstract store keeps entities under their primary keys and enforces unique keys directly: an
entity may not take a unique value that another stored entity of its type has. Its `insert`, `put`
and `delete` fail with the errors of the ledger operations, in the same order of precedence.

As long as no successful `put` changes a unique value of the entity it replaces, the ledger holds
exactly the entries of the store (one primary entry and one index entry per unique key for each
stored entity), and every write answers on the ledger as it answers on the store. A `put` that
changes a unique value leaves an index entry the store has no counterpart for, which is why the
side condition is needed.
-/

namespace Chaincode

variable {α : Type}

/-- An abstract store: the stored entities, each under its primary key. -/
abbrev Store (α : Type) := List (Key × α)

namespace Store

/-- Whether an entity is stored under a key. -/
def contains (M : Store α) (key : Key) : Bool := M.any fun entry => entry.1 == key

/-- Stores an entity under a key, replacing the one stored there. -/
def set (M : Store α) (key : Key) (e : α) : Store α :=
  (key, e) :: M.filter fun entry => entry.1 != key

/-- Removes the entity stored under a key. -/
def erase (M : Store α) (key : Key) : Store α := M.filter fun entry => entry.1 != key

/-- Whether an entity of `m`'s type, stored under a key other than `key`, has the value of `e` for
the unique key `u`. -/
def shares (M : Store α) (m : Mapping α) (u : UniqueKey α) (e : α) (key : Key) : Bool :=
  M.any fun entry =>
    entry.1 != key && entry.1.segments.head? == some m.ns && u.extract entry.2 == u.extract e

/-- The index keys of an entity's unique values, in declaration order, failing at the first value
that does not form a key or that another stored entity of the type has. -/
def claim (M : Store α) (m : Mapping α) (e : α) (key : Key) :
    List (UniqueKey α) → Except StateError (List Key)
  | [] => .ok []
  | u :: rest => do
    let index ← m.indexKey u (u.extract e)
    if shares M m u e key then throw (.keyAlreadyExists index)
    return index :: (← claim M m e key rest)

/-- Stores a new entity: it must validate, its keys must form, its primary key must be free and
no stored entity of its type may have one of its unique values. -/
def insert (reg : Registry α) (kind : EntityKind α) (e : α) (M : Store α) :
    Except StateError (Store α) := do
  (kind.validate e).mapError .validation
  let m ← reg.mapping kind
  let key ← m.primaryKey e
  if contains M key then throw (.keyAlreadyExists key)
  let _ ← claim M m e key m.uniqueKeys
  return set M key e

/-- Stores an entity, replacing the one under its primary key: it must validate, its keys must
form and no entity stored under another key may have one of its unique values. -/
def put (reg : Registry α) (kind : EntityKind α) (e : α) (M : Store α) :
    Except StateError (Store α) := do
  (kind.validate e).mapError .validation
  let m ← reg.mapping kind
  let key ← m.primaryKey e
  let _ ← claim M m e key m.uniqueKeys
  return set M key e

/-- Removes a stored entity by its identifier. -/
def delete (reg : Registry α) (kind : EntityKind α) (id : Key) (M : Store α) :
    Except StateError (Store α) := do
  let m ← reg.mapping kind
  let key ← m.keyFor id
  if contains M key then return erase M key
  throw (.notFound key)

/-- The outcome of a write on the store: its failure, or the store after it. Reads have none. -/
def write? (reg : Registry α) : StateOp α → Store α → Option (Except StateError (Store α))
  | .insert kind e, M => some (insert reg kind e M)
  | .put kind e, M => some (put reg kind e M)
  | .delete kind id, M => some (delete reg kind id M)
  | _, _ => none

/-- The store after an operation: a write that succeeds replaces it, a failed write and a read
leave it. -/
def step (reg : Registry α) (op : StateOp α) (M : Store α) : Store α :=
  match write? reg op M with
  | some (.ok M') => M'
  | _ => M

/-- The store after operations run in order. -/
def runOps (reg : Registry α) (ops : List (StateOp α)) (M : Store α) : Store α :=
  ops.foldl (fun M op => step reg op M) M

/-! ### Membership -/

theorem contains_eq_true_iff {M : Store α} {key : Key} :
    contains M key = true ↔ ∃ e, (key, e) ∈ M := by
  simp [contains]

theorem mem_set {M : Store α} {key k : Key} {e e' : α} :
    (k, e') ∈ set M key e ↔ (k = key ∧ e' = e) ∨ (k ≠ key ∧ (k, e') ∈ M) := by
  simp [set, and_comm]

theorem mem_erase {M : Store α} {key k : Key} {e : α} :
    (k, e) ∈ erase M key ↔ k ≠ key ∧ (k, e) ∈ M := by
  simp [erase, and_comm]

theorem shares_eq_true_iff {M : Store α} {m : Mapping α} {u : UniqueKey α} {e : α} {key : Key} :
    shares M m u e key = true ↔ ∃ k e', (k, e') ∈ M ∧ k ≠ key ∧
      k.segments.head? = some m.ns ∧ u.extract e' = u.extract e := by
  simp [shares, and_assoc]

/-! ### The store's operations, declaratively -/

theorem claim_eq_ok_iff {M : Store α} {m : Mapping α} {e : α} {key : Key}
    {keys : List (UniqueKey α)} {indexes : List Key} :
    claim M m e key keys = .ok indexes ↔
      List.Forall₂ (fun u index => m.indexKey u (u.extract e) = .ok index ∧
        shares M m u e key = false) keys indexes := by
  induction keys generalizing indexes with
  | nil => cases indexes <;> simp [claim]
  | cons u rest ih =>
      cases composed : m.indexKey u (u.extract e) with
      | error err => cases indexes <;> simp [claim, composed]
      | ok index =>
          cases shared : shares M m u e key <;> cases indexes <;>
            simp [claim, composed, shared, Except.bind_eq_ok, ih]
          -- left: the two halves of the pairing, in the other order
          exact And.comm

/-- The claim goes through exactly when every unique value forms its index key and no other
stored entity of the type has it. -/
theorem claim_isOk_iff {M : Store α} {m : Mapping α} {e : α} {key : Key}
    {keys : List (UniqueKey α)} :
    (∃ indexes, claim M m e key keys = .ok indexes) ↔
      ∀ u ∈ keys, (∃ index, m.indexKey u (u.extract e) = .ok index) ∧
        shares M m u e key = false := by
  simp only [claim_eq_ok_iff]
  constructor
  · rintro ⟨indexes, claimed⟩ u has
    obtain ⟨index, -, composed, free⟩ := exists_of_forall₂_left claimed has
    exact ⟨⟨index, composed⟩, free⟩
  · intro each
    exact exists_forall₂ fun u has =>
      (each u has).1.imp fun _ composed => ⟨composed, (each u has).2⟩

/-- `insert` succeeds exactly when the entity validates, its keys form, its primary key is free
and no stored entity of its type has one of its unique values; it then stores the entity. -/
theorem insert_eq_ok_iff {reg : Registry α} {kind : EntityKind α} {e : α} {M M' : Store α} :
    insert reg kind e M = .ok M' ↔
      kind.validate e = .ok () ∧ ∃ m key, reg.mapping kind = .ok m ∧ m.primaryKey e = .ok key ∧
        (∀ u ∈ m.uniqueKeys, (∃ index, m.indexKey u (u.extract e) = .ok index) ∧
          shares M m u e key = false) ∧
        contains M key = false ∧ M' = set M key e := by
  simp only [insert, Except.bind_eq_ok, Except.mapError_eq_ok]
  constructor
  · rintro ⟨⟨⟩, validated, m, mapped, key, keyed, rest⟩
    split at rest
    · simp at rest
    · next absent =>
        simp only [Except.bind_eq_ok, Except.pure_eq, Except.ok.injEq] at rest
        obtain ⟨indexes, claimed, rfl⟩ := rest
        exact ⟨validated, m, key, mapped, keyed, claim_isOk_iff.mp ⟨indexes, claimed⟩,
          by simpa using absent, rfl⟩
  · rintro ⟨validated, m, key, mapped, keyed, each, absent, rfl⟩
    obtain ⟨indexes, claimed⟩ := claim_isOk_iff.mpr each
    refine ⟨(), validated, m, mapped, key, keyed, ?_⟩
    rw [if_neg (by simp [absent])]
    simp [claimed]

/-- `put` succeeds exactly when the entity validates, its keys form and no entity of its type
stored under another key has one of its unique values; it then stores the entity. -/
theorem put_eq_ok_iff {reg : Registry α} {kind : EntityKind α} {e : α} {M M' : Store α} :
    put reg kind e M = .ok M' ↔
      kind.validate e = .ok () ∧ ∃ m key, reg.mapping kind = .ok m ∧ m.primaryKey e = .ok key ∧
        (∀ u ∈ m.uniqueKeys, (∃ index, m.indexKey u (u.extract e) = .ok index) ∧
          shares M m u e key = false) ∧ M' = set M key e := by
  simp only [put, Except.bind_eq_ok, Except.mapError_eq_ok, Except.pure_eq, Except.ok.injEq]
  constructor
  · rintro ⟨⟨⟩, validated, m, mapped, key, keyed, indexes, claimed, rfl⟩
    exact ⟨validated, m, key, mapped, keyed, claim_isOk_iff.mp ⟨indexes, claimed⟩, rfl⟩
  · rintro ⟨validated, m, key, mapped, keyed, each, rfl⟩
    obtain ⟨indexes, claimed⟩ := claim_isOk_iff.mpr each
    exact ⟨(), validated, m, mapped, key, keyed, indexes, claimed, rfl⟩

/-- `delete` succeeds exactly when an entity is stored under the key of the identifier; it then
removes it. -/
theorem delete_eq_ok_iff {reg : Registry α} {kind : EntityKind α} {id : Key} {M M' : Store α} :
    delete reg kind id M = .ok M' ↔
      ∃ m key, reg.mapping kind = .ok m ∧ m.keyFor id = .ok key ∧ contains M key = true ∧
        M' = erase M key := by
  simp only [delete, Except.bind_eq_ok]
  constructor
  · rintro ⟨m, mapped, key, keyed, rest⟩
    split at rest
    · next present =>
        cases rest
        exact ⟨m, key, mapped, keyed, present, rfl⟩
    · simp at rest
  · rintro ⟨m, key, mapped, keyed, present, rfl⟩
    exact ⟨m, mapped, key, keyed, by rw [if_pos present]; rfl⟩

/-! ### What a step leaves in the store -/

/-- After an insert, the store holds what it held, or the inserted entity, which validates, under
its primary key, where nothing was stored. -/
theorem mem_step_insert {reg : Registry α} {kind : EntityKind α} {e x : α} {M : Store α}
    {k : Key} (mem : (k, x) ∈ step reg (.insert kind e) M) :
    (k, x) ∈ M ∨ (x = e ∧ kind.validate e = .ok () ∧
      (∃ m, reg.mapping kind = .ok m ∧ m.primaryKey e = .ok k) ∧ contains M k = false) := by
  simp only [step, write?] at mem
  cases inserted : insert reg kind e M with
  | error err => rw [inserted] at mem; exact .inl mem
  | ok M' =>
    rw [inserted] at mem
    obtain ⟨validated, m, key, mapped, keyed, -, absent, rfl⟩ := insert_eq_ok_iff.mp inserted
    rcases mem_set.mp mem with ⟨rfl, rfl⟩ | ⟨-, old⟩
    · exact .inr ⟨rfl, validated, ⟨m, mapped, keyed⟩, absent⟩
    · exact .inl old

/-- After a put, the store holds what it held, or the entity put, which validates, under its
primary key. -/
theorem mem_step_put {reg : Registry α} {kind : EntityKind α} {e x : α} {M : Store α}
    {k : Key} (mem : (k, x) ∈ step reg (.put kind e) M) :
    (k, x) ∈ M ∨ (x = e ∧ kind.validate e = .ok () ∧
      ∃ m, reg.mapping kind = .ok m ∧ m.primaryKey e = .ok k) := by
  simp only [step, write?] at mem
  cases stored : put reg kind e M with
  | error err => rw [stored] at mem; exact .inl mem
  | ok M' =>
    rw [stored] at mem
    obtain ⟨validated, m, key, mapped, keyed, -, rfl⟩ := put_eq_ok_iff.mp stored
    rcases mem_set.mp mem with ⟨rfl, rfl⟩ | ⟨-, old⟩
    · exact .inr ⟨rfl, validated, m, mapped, keyed⟩
    · exact .inl old

/-- A delete leaves the store with part of what it held. -/
theorem mem_step_delete {reg : Registry α} {kind : EntityKind α} {id : Key} {x : α}
    {M : Store α} {k : Key} (mem : (k, x) ∈ step reg (.delete kind id) M) : (k, x) ∈ M := by
  simp only [step, write?] at mem
  cases erased : delete reg kind id M with
  | error err => rw [erased] at mem; exact mem
  | ok M' =>
    rw [erased] at mem
    obtain ⟨m, key, -, -, -, rfl⟩ := delete_eq_ok_iff.mp erased
    exact (mem_erase.mp mem).2

end Store

/-! ## Ledgers that hold a store -/

/-- The ledger entries of a store: each stored entity's primary entry holds its encoding, and each
of its index entries holds the encoding of its primary key. -/
def Image (reg : Registry α) (M : Store α) (k : String) (b : Bytes) : Prop :=
  ∃ key e, (key, e) ∈ M ∧ ∃ m ∈ reg.mappings, m.primaryKey e = .ok key ∧
    ((k = key.toComposite ∧ b = m.kind.codec.encode e) ∨
      ∃ u ∈ m.uniqueKeys, ∃ index, m.indexKey u (u.extract e) = .ok index ∧
        k = index.toComposite ∧ b = Bytes.ofString key.toComposite)

/-- A ledger refines a store when writes go through, every stored entity is one of a registered
type whose index keys all form, and the ledger holds exactly the entries of the store. -/
structure Refines (reg : Registry α) (M : Store α) (s : Stub) : Prop where
  failing : s.failing = []
  stored : ∀ key e, (key, e) ∈ M → ∃ m ∈ reg.mappings, m.primaryKey e = .ok key ∧
    ∀ u ∈ m.uniqueKeys, ∃ index, m.indexKey u (u.extract e) = .ok index
  exact : ∀ k b, s.get? k = some b ↔ Image reg M k b

theorem refines_empty (reg : Registry α) : Refines reg [] Stub.empty where
  failing := rfl
  stored := fun _ _ stored => by cases stored
  exact := fun k b => by simp [Image, Stub.empty, Stub.get?]

/-- A put that goes through keeps every unique value of the entity it replaces; other operations
are not constrained. -/
def KeepsUniqueValues (reg : Registry α) (s : Stub) : StateOp α → Prop
  | .put kind e => ((LedgerOp.put reg kind e).exec s).1 = .ok () →
      ∀ m key old, reg.mapping kind = .ok m → m.primaryKey e = .ok key →
        LedgerOp.readAt kind s key = .ok old → ∀ u ∈ m.uniqueKeys, u.extract old = u.extract e
  | _ => True

/-- Every operation of a run keeps unique values, each on the ledger it runs on. -/
def RunKeepsUniqueValues (reg : Registry α) : List (StateOp α) → Stub → Prop
  | [], _ => True
  | op :: rest, s =>
      KeepsUniqueValues reg s op ∧ RunKeepsUniqueValues reg rest ((op.run reg).exec s).2

/-- Every registered kind reads back what it writes of each stored entity. -/
def Store.RoundTrips (reg : Registry α) (M : Store α) : Prop :=
  ∀ key e, (key, e) ∈ M → ∀ m ∈ reg.mappings, m.kind.codec.decode (m.kind.codec.encode e) = .ok e

/-- Kinds that read back every entity read back whatever a store holds. -/
theorem Registry.RoundTrips.store {reg : Registry α} (roundTrips : reg.RoundTrips) (M : Store α) :
    Store.RoundTrips reg M :=
  fun _ e _ m mem => roundTrips m mem e

section Reading

variable {reg : Registry α} (wf : reg.WellFormed) {M : Store α} {s : Stub}
  (rel : Refines reg M s)
include wf rel

/-- The primary entry of a key holds the encoding of an entity the store has under it. -/
theorem Refines.get?_primary {m : Mapping α} (mem : m ∈ reg.mappings) {id key : Key}
    (keyed : m.keyFor id = .ok key) {b : Bytes} :
    s.get? key.toComposite = some b ↔ ∃ e, (key, e) ∈ M ∧ b = m.kind.codec.encode e := by
  rw [rel.exact]
  constructor
  · rintro ⟨key', e, stored, m', mem', keyed', ⟨same, rfl⟩ | ⟨u, has, index, composed, same, -⟩⟩
    · obtain ⟨rfl, -⟩ := primary_eq_of_composite wf mem' mem keyed' keyed same.symm
      obtain rfl : key' = key := key_eq_of_composite wf mem' mem keyed' keyed same.symm
      exact ⟨e, stored, rfl⟩
    · exact absurd same (primary_ne_index wf mem mem' has keyed composed)
  · rintro ⟨e, stored, rfl⟩
    obtain ⟨m', mem', keyed', -⟩ := rel.stored key e stored
    obtain ⟨rfl, -⟩ := primary_eq_of_composite wf mem' mem keyed' keyed rfl
    exact ⟨key, e, stored, m', mem', keyed', .inl ⟨rfl, rfl⟩⟩

/-- The index entry of a unique value names the key of a stored entity of the type with that
value. -/
theorem Refines.get?_index {m : Mapping α} (mem : m ∈ reg.mappings) {u : UniqueKey α}
    (has : u ∈ m.uniqueKeys) {value index : Key} (composed : m.indexKey u value = .ok index)
    {b : Bytes} :
    s.get? index.toComposite = some b ↔ ∃ key e, (key, e) ∈ M ∧ m.primaryKey e = .ok key ∧
      u.extract e = value ∧ b = Bytes.ofString key.toComposite := by
  rw [rel.exact]
  constructor
  · rintro ⟨key, e, stored, m', mem', keyed, ⟨same, -⟩ | ⟨u', has', index', composed', same, rfl⟩⟩
    · exact absurd same.symm (primary_ne_index wf mem' mem has keyed composed)
    · obtain ⟨rfl, rfl, sameValue⟩ :=
        index_eq_of_composite wf mem' mem has' has composed' composed same.symm
      exact ⟨key, e, stored, keyed, sameValue, rfl⟩
  · rintro ⟨key, e, stored, keyed, rfl, rfl⟩
    exact ⟨key, e, stored, m, mem, keyed, .inr ⟨u, has, index, composed, rfl, rfl⟩⟩

/-- The store has at most one entity under a key: both would be encoded in its one entry. -/
theorem Refines.eq_of_mem (roundTrips : Store.RoundTrips reg M) {key : Key} {e e' : α}
    (stored : (key, e) ∈ M) (stored' : (key, e') ∈ M) : e = e' := by
  obtain ⟨m, mem, keyed, -⟩ := rel.stored key e stored
  have found := (rel.get?_primary wf mem keyed).mpr ⟨e, stored, rfl⟩
  rw [(rel.get?_primary wf mem keyed).mpr ⟨e', stored', rfl⟩] at found
  have decoded := roundTrips key e' stored' m mem
  rw [Option.some.inj found, roundTrips key e stored m mem] at decoded
  exact Except.ok.inj decoded

/-- A stored entity under a key of a mapping's namespace is of that mapping's type. -/
theorem Refines.primaryKey_of_head {m : Mapping α} (mem : m ∈ reg.mappings) {key : Key} {e : α}
    (stored : (key, e) ∈ M) (head : key.segments.head? = some m.ns) : m.primaryKey e = .ok key := by
  obtain ⟨m', mem', keyed, -⟩ := rel.stored key e stored
  obtain ⟨-, -, rfl⟩ := m'.primaryKey_eq_ok_iff.mp keyed
  have sameNs : m'.ns = m.ns := by simpa [Key.prepend] using head
  obtain rfl : m' = m := wf.eq_of_mem_namespaces mem' mem List.mem_cons_self
    (sameNs ▸ List.mem_cons_self)
  exact keyed

/-- Whether the ledger's index entry is taken for another key is whether the store has another
entity of the type with that unique value. -/
theorem Refines.takenIn_eq_shares {m : Mapping α} (mem : m ∈ reg.mappings) {u : UniqueKey α}
    (has : u ∈ m.uniqueKeys) {e : α} {index : Key}
    (composed : m.indexKey u (u.extract e) = .ok index)
    {id key : Key} (keyed : m.keyFor id = .ok key) :
    LedgerOp.takenIn s key index = Store.shares M m u e key := by
  -- among keys of the mapping, bytes naming another key are bytes of another key
  have namesOther : ∀ {id' key'}, m.keyFor id' = .ok key' →
      (Bytes.ofString key'.toComposite ≠ Bytes.ofString key.toComposite ↔ key' ≠ key) := by
    intro id' key' keyed'
    constructor
    · intro differ same
      exact differ (by rw [same])
    · intro differ same
      exact differ (key_eq_of_composite wf mem mem keyed' keyed (Text.Utf8.ofString_injective same))
  rw [Bool.eq_iff_iff, Store.shares_eq_true_iff, LedgerOp.takenIn]
  cases found : s.get? index.toComposite with
  | none =>
      -- no index entry, so no stored entity of the type has the value
      simp only [Bool.false_eq_true, false_iff, not_exists, not_and]
      intro key' e' stored' _ head same
      have entry := (rel.get?_index wf mem has composed).mpr
        ⟨key', e', stored', rel.primaryKey_of_head wf mem stored' head, same, rfl⟩
      rw [found] at entry
      cases entry
  | some existing =>
      obtain ⟨key', e', stored', keyed', same, rfl⟩ := (rel.get?_index wf mem has composed).mp found
      rw [bne_iff_ne, namesOther keyed']
      constructor
      · intro differ
        obtain ⟨-, -, rfl⟩ := m.primaryKey_eq_ok_iff.mp keyed'
        exact ⟨_, e', stored', differ, by simp [Key.prepend], same⟩
      · rintro ⟨key'', e'', stored'', differ, head, same'⟩
        -- the entity with the value under `key''` has the one index entry, which names `key'`
        have keyed'' := rel.primaryKey_of_head wf mem stored'' head
        have found' := (rel.get?_index wf mem has composed).mpr ⟨key'', e'', stored'', keyed'',
          same', rfl⟩
        rw [found] at found'
        have sameKey : key' = key'' := key_eq_of_composite wf mem mem keyed' keyed''
          (Text.Utf8.ofString_injective (Option.some.inj found'))
        rw [sameKey]
        exact differ

/-- Claiming index keys on the ledger decides as claiming them in the store. -/
theorem Refines.claimKeys_eq_claim {m : Mapping α} (mem : m ∈ reg.mappings) {e : α} {id key : Key}
    (keyed : m.keyFor id = .ok key) {keys : List (UniqueKey α)}
    (declared : ∀ u ∈ keys, u ∈ m.uniqueKeys) :
    LedgerOp.claimKeys m e (LedgerOp.takenIn s key) keys = Store.claim M m e key keys := by
  induction keys with
  | nil => rfl
  | cons u rest ih =>
      rw [LedgerOp.claimKeys, Store.claim]
      cases composed : m.indexKey u (u.extract e) with
      | error err => rfl
      | ok index =>
          dsimp only [Except.ok_bind]
          rw [rel.takenIn_eq_shares wf mem (declared u List.mem_cons_self) composed keyed,
            ih fun u' has => declared u' (List.mem_cons_of_mem u has)]

theorem Refines.isSome_eq_contains {m : Mapping α} (mem : m ∈ reg.mappings) {id key : Key}
    (keyed : m.keyFor id = .ok key) : (s.get? key.toComposite).isSome = Store.contains M key := by
  rw [Bool.eq_iff_iff, Option.isSome_iff_exists, Store.contains_eq_true_iff]
  constructor
  · rintro ⟨b, found⟩
    obtain ⟨e, stored, -⟩ := (rel.get?_primary wf mem keyed).mp found
    exact ⟨e, stored⟩
  · rintro ⟨e, stored⟩
    exact ⟨_, (rel.get?_primary wf mem keyed).mpr ⟨e, stored, rfl⟩⟩

/-- Reading a key of a mapping reads the entity the store has under it. -/
theorem Refines.readAt_of_mem (roundTrips : Store.RoundTrips reg M) {m : Mapping α}
    (mem : m ∈ reg.mappings) {id key : Key} (keyed : m.keyFor id = .ok key) {e : α}
    (stored : (key, e) ∈ M) : LedgerOp.readAt m.kind s key = .ok e := by
  rw [LedgerOp.readAt, (rel.get?_primary wf mem keyed).mpr ⟨e, stored, rfl⟩]
  dsimp only
  rw [roundTrips key e stored m mem]
  rfl

/-- Whatever reads at a key of a mapping is stored under it. -/
theorem Refines.mem_of_readAt (roundTrips : Store.RoundTrips reg M) {m : Mapping α}
    (mem : m ∈ reg.mappings) {id key : Key} (keyed : m.keyFor id = .ok key) {e : α}
    (read : LedgerOp.readAt m.kind s key = .ok e) : (key, e) ∈ M := by
  rw [LedgerOp.readAt] at read
  cases found : s.get? key.toComposite with
  | none =>
      rw [found] at read
      cases read
  | some b =>
      obtain ⟨e', stored, rfl⟩ := (rel.get?_primary wf mem keyed).mp found
      rw [found] at read
      dsimp only at read
      rw [roundTrips key e' stored m mem] at read
      cases read
      exact stored

/-- Whatever reads by an identifier of a mapping is stored under the identifier's key. -/
theorem Refines.mem_of_getEntity (roundTrips : Store.RoundTrips reg M) {m : Mapping α}
    (mem : m ∈ reg.mappings) {id : Key} {e : α}
    (read : ((LedgerOp.getEntity reg m.kind id).exec s).1 = .ok e) :
    ∃ key, m.keyFor id = .ok key ∧ (key, e) ∈ M := by
  rw [LedgerOp.getEntity, LedgerOp.exec_bind, LedgerOp.exec_lift, wf.mapping_eq_ok mem] at read
  dsimp only at read
  rw [LedgerOp.exec_bind, LedgerOp.exec_lift] at read
  cases keyed : m.keyFor id with
  | error err => rw [keyed] at read; cases read
  | ok key =>
    rw [keyed] at read
    dsimp only at read
    rw [LedgerOp.exec_getAt] at read
    exact ⟨key, rfl, rel.mem_of_readAt wf roundTrips mem keyed read⟩

theorem Refines.readAt_of_contains_eq_false {m : Mapping α} (mem : m ∈ reg.mappings)
    {id key : Key} (keyed : m.keyFor id = .ok key) (absent : Store.contains M key = false) :
    LedgerOp.readAt m.kind s key = .error (.notFound key) := by
  have none : s.get? key.toComposite = none := by
    simpa [absent] using rel.isSome_eq_contains wf mem keyed
  rw [LedgerOp.readAt, none]

/-! ### Writes plan as the store decides -/

theorem Refines.insertPlan (kind : EntityKind α) (e : α) :
    Except.map (fun plan => Store.set M plan.1 e) (LedgerOp.insertPlan reg kind e s) =
      Store.insert reg kind e M := by
  rw [LedgerOp.insertPlan, Store.insert]
  cases (kind.validate e).mapError StateError.validation with
  | error err => rfl
  | ok u =>
      dsimp only [Except.ok_bind]
      cases mapped : reg.mapping kind with
      | error err => rfl
      | ok m =>
          dsimp only [Except.ok_bind]
          have mem := (Registry.mem_of_mapping_eq_ok mapped).1
          cases keyed : m.primaryKey e with
          | error err => rfl
          | ok key =>
              dsimp only [Except.ok_bind]
              rw [rel.isSome_eq_contains wf mem keyed,
                rel.claimKeys_eq_claim wf mem keyed fun _ has => has]
              cases Store.contains M key <;> cases Store.claim M m e key m.uniqueKeys <;> rfl

theorem Refines.putPlan (kind : EntityKind α) (e : α) :
    Except.map (fun plan => Store.set M plan.1 e) (LedgerOp.putPlan reg kind e s) =
      Store.put reg kind e M := by
  rw [LedgerOp.putPlan, Store.put]
  cases (kind.validate e).mapError StateError.validation with
  | error err => rfl
  | ok u =>
      dsimp only [Except.ok_bind]
      cases mapped : reg.mapping kind with
      | error err => rfl
      | ok m =>
          dsimp only [Except.ok_bind]
          have mem := (Registry.mem_of_mapping_eq_ok mapped).1
          cases keyed : m.primaryKey e with
          | error err => rfl
          | ok key =>
              dsimp only [Except.ok_bind]
              rw [rel.claimKeys_eq_claim wf mem keyed fun _ has => has]
              cases Store.claim M m e key m.uniqueKeys <;> rfl

/-- `delete` plans as the store decides, for a kind its type is registered with. -/
theorem Refines.deletePlan (roundTrips : Store.RoundTrips reg M) {kind : EntityKind α}
    (typed : reg.Typed kind) (id : Key) :
    Except.map (fun plan => Store.erase M plan.2.1) (LedgerOp.deletePlan reg kind id s) =
      Store.delete reg kind id M := by
  rw [LedgerOp.deletePlan, Store.delete]
  cases mapped : reg.mapping kind with
  | error err => rfl
  | ok m =>
      dsimp only [Except.ok_bind]
      obtain ⟨mem, rfl⟩ := typed.mem_of_mapping_eq_ok mapped
      cases keyed : m.keyFor id with
      | error err => rfl
      | ok key =>
          dsimp only [Except.ok_bind]
          cases present : Store.contains M key with
          | false =>
              rw [rel.readAt_of_contains_eq_false wf mem keyed present]
              rfl
          | true =>
              obtain ⟨e, stored⟩ := Store.contains_eq_true_iff.mp present
              rw [rel.readAt_of_mem wf roundTrips mem keyed stored]
              rfl

end Reading

/-! ## Writes keep the ledger exact -/

section Storing

variable {reg : Registry α} (wf : reg.WellFormed) {M : Store α} {s : Stub}
  (rel : Refines reg M s) {m : Mapping α} (mem : m ∈ reg.mappings) {e : α} {key : Key}
  {indexes : List Key} (keyed : m.primaryKey e = .ok key)
  (claimed : List.Forall₂
    (fun u index => m.indexKey u (u.extract e) = .ok index ∧ LedgerOp.takenIn s key index = false)
    m.uniqueKeys indexes)
include wf rel mem keyed claimed

/-- After storing, every entry of the ledger is an entry of the store with the entity set: an
entry under the key of a replaced entity is either overwritten or, having the same unique value,
claimed again. -/
theorem Refines.image_set_of_get?_store
    (replaced : ∀ old, (key, old) ∈ M → ∀ u ∈ m.uniqueKeys, u.extract old = u.extract e)
    {k : String} {b : Bytes}
    (found : (s.store key (m.kind.codec.encode e) indexes).get? k = some b) :
    Image reg (Store.set M key e) k b := by
  have stored : (key, e) ∈ Store.set M key e := Store.mem_set.mpr (.inl ⟨rfl, rfl⟩)
  rw [Stub.get?_store] at found
  by_cases claimedHere : k ∈ indexes.map Key.toComposite
  · rw [if_pos claimedHere] at found
    obtain ⟨u, has, index, ⟨composed, -⟩, rfl⟩ := exists_of_mem_map_toComposite claimed claimedHere
    exact ⟨key, e, stored, m, mem, keyed,
      .inr ⟨u, has, index, composed, rfl, (Option.some.inj found).symm⟩⟩
  · rw [if_neg claimedHere] at found
    by_cases atKey : k = key.toComposite
    · rw [if_pos atKey] at found
      exact ⟨key, e, stored, m, mem, keyed, .inl ⟨atKey, (Option.some.inj found).symm⟩⟩
    · rw [if_neg atKey] at found
      obtain ⟨key', e', stored', m', mem', keyed', entry⟩ := (rel.exact k b).mp found
      -- an entity stored under `key` before has its primary entry overwritten, and its index
      -- entries are those of the same values, claimed again
      have other : key' ≠ key := by
        intro same
        rw [same] at stored' keyed' entry
        obtain ⟨sameMapping, -⟩ := primary_eq_of_composite wf mem' mem keyed' keyed rfl
        subst sameMapping
        rcases entry with ⟨rfl, -⟩ | ⟨u, has, index, composed, rfl, -⟩
        · exact atKey rfl
        · rw [replaced e' stored' u has] at composed
          obtain ⟨index', mine, composed', -⟩ := exists_of_forall₂_left claimed has
          obtain rfl := Except.ok_injective composed composed'
          exact claimedHere (List.mem_map_of_mem mine)
      exact ⟨key', e', Store.mem_set.mpr (.inr ⟨other, stored'⟩), m', mem', keyed', entry⟩

/-- After storing, every entry of the store with the entity set is on the ledger: the entity's
own entries were written, and those of another entity were neither overwritten nor claimed, a
claimed index entry being free for `key`. -/
theorem Refines.get?_store_of_image_set {k : String} {b : Bytes}
    (image : Image reg (Store.set M key e) k b) :
    (s.store key (m.kind.codec.encode e) indexes).get? k = some b := by
  obtain ⟨key', e', stored', m', mem', keyed', entry⟩ := image
  rw [Stub.get?_store]
  rcases Store.mem_set.mp stored' with ⟨sameKey, sameEntity⟩ | ⟨other, old⟩
  · -- the entity just stored
    rw [sameKey, sameEntity] at keyed'
    rw [sameKey, sameEntity] at entry
    obtain ⟨sameMapping, -⟩ := primary_eq_of_composite wf mem' mem keyed' keyed rfl
    subst sameMapping
    rcases entry with ⟨rfl, rfl⟩ | ⟨u, has, index, composed, rfl, rfl⟩
    · have notClaimed : key.toComposite ∉ indexes.map Key.toComposite := by
        intro claimedHere
        obtain ⟨u, has, index, ⟨composed, -⟩, same⟩ :=
          exists_of_mem_map_toComposite claimed claimedHere
        exact primary_ne_index wf mem' mem' has keyed composed same.symm
      rw [if_neg notClaimed, if_pos rfl]
    · obtain ⟨index', mine, composed', -⟩ := exists_of_forall₂_left claimed has
      obtain rfl := Except.ok_injective composed composed'
      rw [if_pos (List.mem_map_of_mem mine)]
  · -- an entity stored before under another key
    have found := (rel.exact k b).mpr ⟨key', e', old, m', mem', keyed', entry⟩
    have notClaimed : k ∉ indexes.map Key.toComposite := by
      intro claimedHere
      obtain ⟨u, has, index, ⟨composed, free⟩, rfl⟩ :=
        exists_of_mem_map_toComposite claimed claimedHere
      rcases entry with ⟨same, -⟩ | ⟨u', has', index', composed', -, rfl⟩
      · exact primary_ne_index wf mem' mem has keyed' composed same.symm
      · -- the entry names `key'`, so it was taken for `key`
        exact other (key_eq_of_composite wf mem' mem keyed' keyed
          (LedgerOp.composite_eq_of_takenIn_eq_false free found))
    have notKey : k ≠ key.toComposite := by
      rcases entry with ⟨rfl, -⟩ | ⟨u', has', index', composed', rfl, -⟩
      · exact fun same => other (key_eq_of_composite wf mem' mem keyed' keyed same)
      · exact fun same => primary_ne_index wf mem mem' has' keyed composed' same.symm
    rw [if_neg notClaimed, if_neg notKey, found]

/-- Storing an entity with the index keys claimed for it refines setting it in the store, when the
entity it replaces, if any, has the same unique values. -/
theorem Refines.store
    (replaced : ∀ old, (key, old) ∈ M → ∀ u ∈ m.uniqueKeys, u.extract old = u.extract e) :
    Refines reg (Store.set M key e) (s.store key (m.kind.codec.encode e) indexes) where
  failing := rel.failing
  stored := by
    intro key' e' stored'
    rcases Store.mem_set.mp stored' with ⟨rfl, rfl⟩ | ⟨-, old⟩
    · refine ⟨m, mem, keyed, fun u has => ?_⟩
      obtain ⟨index, -, composed, -⟩ := exists_of_forall₂_left claimed has
      exact ⟨index, composed⟩
    · exact rel.stored key' e' old
  exact := fun _ _ => ⟨rel.image_set_of_get?_store wf mem keyed claimed replaced,
    rel.get?_store_of_image_set wf mem keyed claimed⟩

end Storing

section Discarding

variable {reg : Registry α} (wf : reg.WellFormed) {M : Store α}
  (roundTrips : Store.RoundTrips reg M) {s : Stub} (rel : Refines reg M s) {m : Mapping α} (mem : m ∈ reg.mappings) {id key : Key}
  (keyed : m.keyFor id = .ok key) {e : α} (stored : (key, e) ∈ M) {indexes : List Key}
  (composedAll : List.Forall₂ (fun u index => m.indexKey u (u.extract e) = .ok index)
    m.uniqueKeys indexes)
include wf roundTrips rel mem keyed stored composedAll

/-- Erasing a stored entity with the index entries of its values refines removing it from the
store: the erased entries are exactly the entity's, since each erased index entry names its
key. -/
theorem Refines.discard : Refines reg (Store.erase M key) (s.discard key indexes) where
  failing := rel.failing
  stored := fun key' e' stored' => rel.stored key' e' (Store.mem_erase.mp stored').2
  exact := by
    obtain ⟨m', mem', keyed', -⟩ := rel.stored key e stored
    obtain ⟨rfl, -⟩ := primary_eq_of_composite wf mem' mem keyed' keyed rfl
    intro k b
    constructor
    · intro found
      obtain ⟨kept, erased⟩ := Stub.get?_discard_eq_some found
      obtain ⟨key'', e'', stored'', m'', mem'', keyed'', entry⟩ := (rel.exact k b).mp kept
      -- the entries of the entity under `key` are all erased
      have other : key'' ≠ key := by
        intro same
        rw [same] at stored'' keyed'' entry
        obtain ⟨sameMapping, -⟩ := primary_eq_of_composite wf mem'' mem' keyed'' keyed' rfl
        subst sameMapping
        rcases entry with ⟨same, -⟩ | ⟨u, has, index, composed, same, -⟩
        · exact erased (.inr same)
        · obtain rfl : e = e'' := rel.eq_of_mem wf roundTrips stored stored''
          obtain ⟨index', mine, composed'⟩ := exists_of_forall₂_left composedAll has
          obtain rfl := Except.ok_injective composed composed'
          exact erased (.inl (by rw [same]; exact List.mem_map_of_mem mine))
      exact ⟨key'', e'', Store.mem_erase.mpr ⟨other, stored''⟩, m'', mem'', keyed'', entry⟩
    · rintro ⟨key'', e'', stored'', m'', mem'', keyed'', entry⟩
      obtain ⟨other, old⟩ := Store.mem_erase.mp stored''
      have found := (rel.exact k b).mpr ⟨key'', e'', old, m'', mem'', keyed'', entry⟩
      have apart : key''.toComposite ≠ key.toComposite := fun same =>
        other (key_eq_of_composite wf mem'' mem keyed'' keyed same)
      have kept : ¬ (k ∈ indexes.map Key.toComposite ∨ k = key.toComposite) := by
        rintro (erasedHere | atKey)
        · -- an erased index entry names `key`, and this entry is of another key
          obtain ⟨u, has, index, composed, same⟩ :=
            exists_of_mem_map_toComposite composedAll erasedHere
          have named := (rel.get?_index wf mem has composed).mpr ⟨key, e, stored, keyed', rfl, rfl⟩
          rw [same, found] at named
          rcases entry with ⟨rfl, -⟩ | ⟨u'', has'', index'', composed'', -, rfl⟩
          · exact primary_ne_index wf mem'' mem has keyed'' composed same.symm
          · exact apart (Text.Utf8.ofString_injective (Option.some.inj named))
        · rcases entry with ⟨same, -⟩ | ⟨u'', has'', index'', composed'', same, -⟩
          · exact apart (same.symm.trans atKey)
          · exact primary_ne_index wf mem mem'' has'' keyed composed'' (atKey.symm.trans same)
      rw [Stub.get?_discard, if_neg kept, found]

end Discarding

/-! ## Runs -/

theorem Refines.of_readOnly {β : Type} {reg : Registry α} {M : Store α} {s : Stub}
    (rel : Refines reg M s) {x : LedgerOp β} (readOnly : LedgerOp.ReadOnly x) :
    Refines reg M (x.exec s).2 := by
  rw [readOnly s]
  exact rel

section Steps

variable {reg : Registry α} (wf : reg.WellFormed) {M : Store α}
  (roundTrips : Store.RoundTrips reg M) {s : Stub} (rel : Refines reg M s)
include wf roundTrips rel

/-- A delete that its plan lets through erases the stored entity with the index entries of its
values, which refines removing it from the store. -/
theorem Refines.exec_delete {kind : EntityKind α} (typed : reg.Typed kind) {id : Key}
    {m : Mapping α} {key : Key} {stored : α}
    (planned : LedgerOp.deletePlan reg kind id s = .ok (m, key, stored)) :
    ∃ s', (LedgerOp.delete reg kind id).exec s = (.ok (), s') ∧
      Refines reg (Store.erase M key) s' := by
  obtain ⟨mapped, keyed, read⟩ := LedgerOp.deletePlan_eq_ok planned
  obtain ⟨mem, rfl⟩ := typed.mem_of_mapping_eq_ok mapped
  have storedIn := rel.mem_of_readAt wf roundTrips mem keyed read
  -- the stored entity's index keys all form, so the erasing goes through
  obtain ⟨m', mem', keyed', forms⟩ := rel.stored key stored storedIn
  obtain ⟨rfl, -⟩ := primary_eq_of_composite wf mem' mem keyed' keyed rfl
  obtain ⟨indexes, composedAll⟩ := exists_forall₂ forms
  exact ⟨_, LedgerOp.exec_delete_of_ok rel.failing planned composedAll,
    rel.discard wf roundTrips mem keyed storedIn composedAll⟩

/-- One operation keeps the ledger refining the store, when a put it makes keeps the unique values
of the entity it replaces. -/
theorem Refines.step (op : StateOp α) (typed : reg.Typed op.kind)
    (keeps : KeepsUniqueValues reg s op) :
    Refines reg (Store.step reg op M) ((op.run reg).exec s).2 := by
  cases op
  case insert kind e =>
    have typed : reg.Typed kind := typed
    simp only [Store.step, Store.write?]
    rw [← rel.insertPlan wf kind e, StateOp.run, LedgerOp.exec_bind,
      LedgerOp.exec_insert rel.failing]
    cases planned : LedgerOp.insertPlan reg kind e s with
    | error err => exact rel
    | ok plan =>
        obtain ⟨m, mapped, keyed, free, claimed⟩ := LedgerOp.insertPlan_eq_ok planned
        obtain ⟨mem, rfl⟩ := typed.mem_of_mapping_eq_ok mapped
        -- the key was free, so no entity is replaced
        have absent : Store.contains M plan.1 = false := by
          rw [← rel.isSome_eq_contains wf mem keyed, free]
        refine rel.store wf mem keyed (LedgerOp.claimKeys_eq_ok claimed) fun old stored => ?_
        simp [Store.contains_eq_true_iff.mpr ⟨old, stored⟩] at absent
  case put kind e =>
    have typed : reg.Typed kind := typed
    simp only [Store.step, Store.write?]
    rw [← rel.putPlan wf kind e, StateOp.run, LedgerOp.exec_bind, LedgerOp.exec_put rel.failing]
    cases planned : LedgerOp.putPlan reg kind e s with
    | error err => exact rel
    | ok plan =>
        obtain ⟨m, mapped, keyed, claimed⟩ := LedgerOp.putPlan_eq_ok planned
        obtain ⟨mem, rfl⟩ := typed.mem_of_mapping_eq_ok mapped
        -- the put goes through, so the entity it replaces keeps its unique values
        have wentThrough : ((LedgerOp.put reg m.kind e).exec s).1 = .ok () := by
          rw [LedgerOp.exec_put rel.failing, planned]
        refine rel.store wf mem keyed (LedgerOp.claimKeys_eq_ok claimed) fun old stored => ?_
        exact keeps wentThrough m plan.1 old mapped keyed
          (rel.readAt_of_mem wf roundTrips mem keyed stored)
  case delete kind id =>
    have typed : reg.Typed kind := typed
    simp only [Store.step, Store.write?]
    rw [← rel.deletePlan wf roundTrips typed id, StateOp.run, LedgerOp.exec_bind]
    cases planned : LedgerOp.deletePlan reg kind id s with
    | error err =>
        rw [LedgerOp.exec_delete_of_error planned]
        exact rel
    | ok plan =>
        obtain ⟨m, key, stored⟩ := plan
        obtain ⟨s', ran, refines⟩ := rel.exec_delete wf roundTrips typed planned
        rw [ran]
        exact refines
  all_goals exact rel.of_readOnly (StateOp.readOnly_run reg _ rfl)

end Steps

section Runs

variable {reg : Registry α} (wf : reg.WellFormed) (roundTrips : reg.RoundTrips) {M : Store α}
  {s : Stub} (rel : Refines reg M s)
include wf roundTrips rel

/-- Every write answers on the ledger as it answers on the store. -/
theorem Refines.exec_run_eq_write? (op : StateOp α) (typed : reg.Typed op.kind)
    {r : Except StateError (Store α)} (written : Store.write? reg op M = some r) :
    ((op.run reg).exec s).1 = Except.map (fun _ => Answer.done) r := by
  cases op
  case insert kind e =>
    cases written
    rw [← rel.insertPlan wf kind e, StateOp.run, LedgerOp.exec_bind,
      LedgerOp.exec_insert rel.failing]
    cases LedgerOp.insertPlan reg kind e s <;> rfl
  case put kind e =>
    cases written
    rw [← rel.putPlan wf kind e, StateOp.run, LedgerOp.exec_bind, LedgerOp.exec_put rel.failing]
    cases LedgerOp.putPlan reg kind e s <;> rfl
  case delete kind id =>
    cases written
    have typed : reg.Typed kind := typed
    rw [← rel.deletePlan wf (roundTrips.store M) typed id, StateOp.run, LedgerOp.exec_bind]
    cases planned : LedgerOp.deletePlan reg kind id s with
    | error err =>
        rw [LedgerOp.exec_delete_of_error planned]
        rfl
    | ok plan =>
        obtain ⟨m, key, stored⟩ := plan
        obtain ⟨s', ran, -⟩ := rel.exec_delete wf (roundTrips.store M) typed planned
        rw [ran]
        rfl
  all_goals cases written

/-- A run whose puts keep unique values keeps the ledger refining the store. -/
theorem Refines.runOps {ops : List (StateOp α)} (typed : ∀ op ∈ ops, reg.Typed op.kind)
    (keeps : RunKeepsUniqueValues reg ops s) :
    Refines reg (Store.runOps reg ops M) (runOps reg ops s) := by
  induction ops generalizing M s with
  | nil => exact rel
  | cons op rest ih =>
      obtain ⟨keepsHere, keepsRest⟩ := keeps
      exact ih (rel.step wf (roundTrips.store _) op (typed op List.mem_cons_self) keepsHere)
        (fun op' mem => typed op' (List.mem_cons_of_mem op mem)) keepsRest

end Runs

/-- On every run of typed operations from the empty ledger and the empty store, under a registry
built by successful registrations whose codecs round trip, in which no successful put changes a
unique value of the entity it replaces: the ledger holds exactly the entries of the store, and
every write answers on the ledger as it answers on the store. -/
theorem ledger_refines_store {ms : List (Mapping α)} {reg : Registry α}
    (built : ms.foldlM Registry.register Registry.empty = .ok reg) (roundTrips : reg.RoundTrips)
    {ops : List (StateOp α)} (typed : ∀ op ∈ ops, reg.Typed op.kind)
    (keeps : RunKeepsUniqueValues reg ops Stub.empty) :
    let s := runOps reg ops Stub.empty
    let M := Store.runOps reg ops []
    (∀ k b, s.get? k = some b ↔ Image reg M k b) ∧
    ∀ op, reg.Typed op.kind → ∀ r, Store.write? reg op M = some r →
      ((op.run reg).exec s).1 = Except.map (fun _ => Answer.done) r := by
  intro s M
  have wf := Registry.wellFormed_of_built built
  have rel : Refines reg M s := (refines_empty reg).runOps wf roundTrips typed keeps
  exact ⟨rel.exact, fun op typedOp _ written =>
    rel.exec_run_eq_write? wf roundTrips op typedOp written⟩

/-- On a consistent ledger, a put keeps the unique values of the entity it replaces when one
primary key fixes them: the entity stored under a key is one of that primary key. -/
theorem Consistent.keepsUniqueValues_put {reg : Registry α} {s : Stub} (inv : Consistent reg s)
    (roundTrips : reg.RoundTrips) {kind : EntityKind α} (typed : reg.Typed kind) {e : α}
    (fixed : ∀ m ∈ reg.mappings, ∀ x key, m.primaryKey x = .ok key → m.primaryKey e = .ok key →
      ∀ u ∈ m.uniqueKeys, u.extract x = u.extract e) :
    KeepsUniqueValues reg s (.put kind e) := by
  intro _ m key old mapped keyed read u has
  obtain ⟨mem, rfl⟩ := typed.mem_of_mapping_eq_ok mapped
  obtain ⟨keyedOld, -⟩ := inv.indexed_of_readAt roundTrips mem keyed read
  exact fixed m mem old key keyedOld keyed u has

/-- A user's key is made from its name, so one key holds one user. -/
theorem userMapping_primaryKey_inj {x e : String} {key : Key}
    (keyedX : userMapping.primaryKey x = .ok key) (keyedE : userMapping.primaryKey e = .ok key) :
    x = e := by
  rw [Mapping.primaryKey_eq_ok_iff] at keyedX keyedE
  have same := keyedX.2.2.symm.trans keyedE.2.2
  simpa [userMapping, Mapping.withUniqueKey, Mapping.new, Key.single, Key.prepend] using same

/-- A run that writes two users, deletes one, writes it again and puts it once more as it is. -/
def userWrites : List (StateOp String) :=
  [.insert userMapping.kind "ada", .insert userMapping.kind "bob",
    .delete userMapping.kind (Key.single "ada"), .insert userMapping.kind "ada",
    .put userMapping.kind "ada"]

theorem userWrites_refine_store :
    ∃ reg : Registry String, [userMapping].foldlM Registry.register Registry.empty = .ok reg ∧
      reg.RoundTrips ∧ (∀ op ∈ userWrites, reg.Typed op.kind) ∧
      RunKeepsUniqueValues reg userWrites Stub.empty ∧
      let s := runOps reg userWrites Stub.empty
      let M := Store.runOps reg userWrites []
      (∀ k b, s.get? k = some b ↔ Image reg M k b) ∧
      ∀ op, reg.Typed op.kind → ∀ r, Store.write? reg op M = some r →
        ((op.run reg).exec s).1 = Except.map (fun _ => Answer.done) r := by
  obtain ⟨reg, built, roundTrips, user⟩ := userRegistry_spec
  have registered : reg.mappings = [userMapping] := by
    simpa [Registry.empty] using Registry.mappings_of_foldlM_register built
  have typed : ∀ op ∈ userWrites, reg.Typed op.kind := by
    simpa [userWrites, StateOp.kind] using user
  -- the re-put runs on the ledger the first four operations leave, which is consistent
  have inv : Consistent reg (runOps reg (userWrites.take 4) Stub.empty) :=
    (consistent_empty reg).runOps (Registry.wellFormed_of_built built) roundTrips
      fun op mem => typed op (List.mem_of_mem_take mem)
  have rePut : KeepsUniqueValues reg (runOps reg (userWrites.take 4) Stub.empty)
      (.put userMapping.kind "ada") := by
    refine inv.keepsUniqueValues_put roundTrips user fun m mem x key keyedX keyedE u _ => ?_
    rw [registered, List.mem_singleton] at mem
    subst mem
    rw [userMapping_primaryKey_inj keyedX keyedE]
  have keeps : RunKeepsUniqueValues reg userWrites Stub.empty :=
    ⟨trivial, trivial, trivial, trivial, rePut, trivial⟩
  exact ⟨reg, built, roundTrips, typed, keeps, ledger_refines_store built roundTrips typed keeps⟩

end Chaincode
