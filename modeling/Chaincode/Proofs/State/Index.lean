import Chaincode.Proofs.State.Exec
import Chaincode.Codec.Plain

/-!
# Unique indexes stay consistent

Typed operations keep the two key spaces of a ledger in step. `Consistent` says of one ledger that
every stored entity has, for each of its unique values, an index entry naming its primary key, and
that every index entry names a primary key of its entity type. Reads leave the ledger as it is,
refused writes too, and `insert`, `put` and `delete` are shown to keep the invariant, so it holds
after every step of every run from the empty ledger.

A `put` that changes a stored unique value leaves the old index entry behind. The invariant is
weak enough to survive that: an index entry names *a* primary key of its type, which need not be
stored any more.
-/

namespace Chaincode

variable {α β γ : Type}

/-! ## Typed operations -/

/-- What a typed operation answers. -/
inductive Answer (α : Type) where
  | done
  | entity (e : α)
  | present (found : Bool)
  | entities (es : List α)

/-- The typed operations of the state service, each for an entity kind. -/
inductive StateOp (α : Type) where
  | insert (kind : EntityKind α) (e : α)
  | put (kind : EntityKind α) (e : α)
  | delete (kind : EntityKind α) (id : Key)
  | getEntity (kind : EntityKind α) (id : Key)
  | getOrDefault (kind : EntityKind α) (id : Key)
  | exists? (kind : EntityKind α) (id : Key)
  | list (kind : EntityKind α)
  | listWith (kind : EntityKind α) (part : Key)
  | getByUnique (kind : EntityKind α) (name : String) (value : Key)
  | existsByUnique (kind : EntityKind α) (name : String) (value : Key)

namespace StateOp

/-- The entity kind an operation is for. -/
def kind : StateOp α → EntityKind α
  | insert kind _ | put kind _ | delete kind _ | getEntity kind _ | getOrDefault kind _
  | exists? kind _ | list kind | listWith kind _ | getByUnique kind _ _
  | existsByUnique kind _ _ => kind

/-- The operation on the ledger, with its answer. -/
def run (reg : Registry α) : StateOp α → LedgerOp (Answer α)
  | insert kind e => do LedgerOp.insert reg kind e; return .done
  | put kind e => do LedgerOp.put reg kind e; return .done
  | delete kind id => do LedgerOp.delete reg kind id; return .done
  | getEntity kind id => do return .entity (← LedgerOp.getEntity reg kind id)
  | getOrDefault kind id => do return .entity (← LedgerOp.getOrDefault reg kind id)
  | exists? kind id => do return .present (← LedgerOp.exists? reg kind id)
  | list kind => do return .entities (← LedgerOp.list reg kind)
  | listWith kind part => do return .entities (← LedgerOp.listWith reg kind part)
  | getByUnique kind name value => do return .entity (← LedgerOp.getByUnique reg kind name value)
  | existsByUnique kind name value => do
      return .present (← LedgerOp.existsByUnique reg kind name value)

/-- Whether an operation writes: `insert`, `put` and `delete` do, the others read. -/
def isWrite : StateOp α → Bool
  | insert .. | put .. | delete .. => true
  | _ => false

end StateOp

/-- The ledger after operations run in order, each on the ledger the one before left, whether it
succeeded or failed. -/
def runOps (reg : Registry α) (ops : List (StateOp α)) (s : Stub) : Stub :=
  ops.foldl (fun s op => ((op.run reg).exec s).2) s

namespace Registry

/-- An entity kind is the one its type name is registered with, if that name is registered: in a
typed program the entity type fixes both its mapping and its codec. -/
def Typed (reg : Registry α) (kind : EntityKind α) : Prop :=
  ∀ m ∈ reg.mappings, m.kind.typeName = kind.typeName → m.kind = kind

/-- Every registered entity kind decodes what it encodes. -/
def RoundTrips (reg : Registry α) : Prop :=
  ∀ m ∈ reg.mappings, ∀ e, m.kind.codec.decode (m.kind.codec.encode e) = .ok e

end Registry

/-- A registered mapping's kind is the kind its type name is registered with. -/
theorem Registry.WellFormed.typed {reg : Registry α} (wf : reg.WellFormed) {m : Mapping α}
    (mem : m ∈ reg.mappings) : reg.Typed m.kind := by
  intro m' mem' named
  have found := wf.lookup_eq_some mem'
  rw [named, wf.lookup_eq_some mem] at found
  cases found
  rfl

/-- An operation that does not write leaves the ledger as it found it. -/
theorem StateOp.readOnly_run (reg : Registry α) :
    ∀ op : StateOp α, op.isWrite = false → LedgerOp.ReadOnly (op.run reg)
  | .insert .., written | .put .., written | .delete .., written => by cases written
  | .getEntity kind id, _ =>
      (LedgerOp.readOnly_getEntity reg kind id).bind fun _ => LedgerOp.readOnly_pure _
  | .getOrDefault kind id, _ =>
      (LedgerOp.readOnly_getOrDefault reg kind id).bind fun _ => LedgerOp.readOnly_pure _
  | .exists? kind id, _ =>
      (LedgerOp.readOnly_exists? reg kind id).bind fun _ => LedgerOp.readOnly_pure _
  | .list kind, _ => (LedgerOp.readOnly_list reg kind).bind fun _ => LedgerOp.readOnly_pure _
  | .listWith kind part, _ =>
      (LedgerOp.readOnly_listWith reg kind part).bind fun _ => LedgerOp.readOnly_pure _
  | .getByUnique kind name value, _ =>
      (LedgerOp.readOnly_getByUnique reg kind name value).bind fun _ => LedgerOp.readOnly_pure _
  | .existsByUnique kind name value, _ =>
      (LedgerOp.readOnly_existsByUnique reg kind name value).bind fun _ =>
        LedgerOp.readOnly_pure _

/-- The mapping found for a typed kind is a registered mapping of that very kind. -/
theorem Registry.Typed.mem_of_mapping_eq_ok {reg : Registry α} {kind : EntityKind α}
    (typed : reg.Typed kind) {m : Mapping α} (found : reg.mapping kind = .ok m) :
    m ∈ reg.mappings ∧ m.kind = kind := by
  obtain ⟨mem, named⟩ := Registry.mem_of_mapping_eq_ok found
  exact ⟨mem, typed m mem named⟩

/-! ## Pairing lists -/

theorem exists_of_forall₂_left {R : β → γ → Prop} {xs : List β} {ys : List γ}
    (related : List.Forall₂ R xs ys) {x : β} (mem : x ∈ xs) : ∃ y ∈ ys, R x y := by
  induction related with
  | nil => cases mem
  | cons head _ ih =>
      rcases List.mem_cons.mp mem with rfl | later
      · exact ⟨_, List.mem_cons_self, head⟩
      · obtain ⟨y, found, rel⟩ := ih later
        exact ⟨y, List.mem_cons_of_mem _ found, rel⟩

theorem exists_of_forall₂_right {R : β → γ → Prop} {xs : List β} {ys : List γ}
    (related : List.Forall₂ R xs ys) {y : γ} (mem : y ∈ ys) : ∃ x ∈ xs, R x y := by
  induction related with
  | nil => cases mem
  | cons head _ ih =>
      rcases List.mem_cons.mp mem with rfl | later
      · exact ⟨_, List.mem_cons_self, head⟩
      · obtain ⟨x, found, rel⟩ := ih later
        exact ⟨x, List.mem_cons_of_mem _ found, rel⟩

/-- A relation that relates every element of a list to something relates the list to a list. -/
theorem exists_forall₂ {R : β → γ → Prop} {xs : List β} (total : ∀ x ∈ xs, ∃ y, R x y) :
    ∃ ys, List.Forall₂ R xs ys := by
  induction xs with
  | nil => exact ⟨[], .nil⟩
  | cons x rest ih =>
      obtain ⟨y, rel⟩ := total x List.mem_cons_self
      obtain ⟨ys, rels⟩ := ih fun x' mem => total x' (List.mem_cons_of_mem x mem)
      exact ⟨y :: ys, .cons rel rels⟩

/-- An encoding among those of the keys paired with unique keys is the encoding of one of them. -/
theorem exists_of_mem_map_toComposite {R : UniqueKey α → Key → Prop}
    {keys : List (UniqueKey α)} {indexes : List Key} (related : List.Forall₂ R keys indexes)
    {k : String} (mem : k ∈ indexes.map Key.toComposite) :
    ∃ u ∈ keys, ∃ index, R u index ∧ index.toComposite = k := by
  obtain ⟨index, mine, rfl⟩ := List.mem_map.mp mem
  obtain ⟨u, has, related⟩ := exists_of_forall₂_right related mine
  exact ⟨u, has, index, related, rfl⟩

/-! ## The invariant -/

/-- Each unique value of `e` has an index entry under `m`, and it holds the encoding of `key`. -/
def Indexed (s : Stub) (m : Mapping α) (e : α) (key : Key) : Prop :=
  ∀ u ∈ m.uniqueKeys, ∃ index, m.indexKey u (u.extract e) = .ok index ∧
    s.get? index.toComposite = some (Bytes.ofString key.toComposite)

/-- The ledger invariant of typed operations: writes go through, every entry lies at a key that a
registered mapping composes, an entry at a primary key holds an entity with that key whose unique
values are all indexed there, and an index entry names a primary key of its mapping. -/
structure Consistent (reg : Registry α) (s : Stub) : Prop where
  failing : s.failing = []
  composed : ∀ k b, s.get? k = some b → ∃ m ∈ reg.mappings, ∃ role value key,
    m.HasRole role ∧ m.compose role value = .ok key ∧ k = key.toComposite
  primary : ∀ m ∈ reg.mappings, ∀ id key b, m.keyFor id = .ok key →
    s.get? key.toComposite = some b →
      ∃ e, b = m.kind.codec.encode e ∧ m.primaryKey e = .ok key ∧ Indexed s m e key
  index : ∀ m ∈ reg.mappings, ∀ u ∈ m.uniqueKeys, ∀ value index b,
    m.indexKey u value = .ok index → s.get? index.toComposite = some b →
      ∃ id key, m.keyFor id = .ok key ∧ b = Bytes.ofString key.toComposite

theorem consistent_empty (reg : Registry α) : Consistent reg Stub.empty where
  failing := rfl
  composed := fun _ _ found => by cases found
  primary := fun _ _ _ _ _ _ found => by cases found
  index := fun _ _ _ _ _ _ _ _ found => by cases found

section Reading

variable {reg : Registry α} {s : Stub}

/-- A consistent ledger stays consistent under an operation that does not write. -/
theorem Consistent.of_readOnly {x : LedgerOp β} (inv : Consistent reg s)
    (readOnly : LedgerOp.ReadOnly x) : Consistent reg (x.exec s).2 := by
  rw [readOnly s]
  exact inv

/-- What a consistent ledger holds at a primary key, as read back, is an entity with that key
whose unique values are indexed there. -/
theorem Consistent.indexed_of_readAt (roundTrips : reg.RoundTrips) (inv : Consistent reg s)
    {m : Mapping α} (mem : m ∈ reg.mappings) {id key : Key} {e : α}
    (keyed : m.keyFor id = .ok key) (read : LedgerOp.readAt m.kind s key = .ok e) :
    m.primaryKey e = .ok key ∧ Indexed s m e key := by
  rw [LedgerOp.readAt] at read
  cases found : s.get? key.toComposite with
  | none =>
      rw [found] at read
      cases read
  | some b =>
      rw [found] at read
      obtain ⟨e', rfl, keyed', indexed⟩ := inv.primary m mem id key b keyed found
      dsimp only at read
      rw [roundTrips m mem e'] at read
      cases read
      exact ⟨keyed', indexed⟩

end Reading

/-! ## Keys of a well-formed registry are apart -/

theorem separatorFree_of_keyFor {reg : Registry α} (wf : reg.WellFormed) {m : Mapping α}
    (mem : m ∈ reg.mappings) {id key : Key} (keyed : m.keyFor id = .ok key) : key.SeparatorFree :=
  Mapping.separatorFree_of_compose (wf.valid m mem) (show m.HasRole .primary from trivial) keyed

section Apart

variable {reg : Registry α} (wf : reg.WellFormed) {m₁ m₂ : Mapping α}
  (mem₁ : m₁ ∈ reg.mappings) (mem₂ : m₂ ∈ reg.mappings)
include wf mem₁ mem₂

/-- No primary key has the encoding of an index key. -/
theorem primary_ne_index {u : UniqueKey α} (has : u ∈ m₂.uniqueKeys) {id value key index : Key}
    (keyed : m₁.keyFor id = .ok key) (composed : m₂.indexKey u value = .ok index) :
    key.toComposite ≠ index.toComposite := by
  intro same
  have roles := (wf.compose_eq_of_overlap mem₁ mem₂ (show m₁.HasRole .primary from trivial)
    (show m₂.HasRole (.unique u) from has) keyed composed (.inl same)).2.1
  cases roles

/-- Primary keys with one encoding come from one mapping and one identifier. -/
theorem primary_eq_of_composite {id₁ id₂ key₁ key₂ : Key} (keyed₁ : m₁.keyFor id₁ = .ok key₁)
    (keyed₂ : m₂.keyFor id₂ = .ok key₂) (same : key₁.toComposite = key₂.toComposite) :
    m₁ = m₂ ∧ id₁ = id₂ := by
  obtain ⟨sameMapping, -, sameId⟩ := wf.compose_eq_of_overlap mem₁ mem₂
    (show m₁.HasRole .primary from trivial) (show m₂.HasRole .primary from trivial) keyed₁ keyed₂
    (.inl same)
  exact ⟨sameMapping, sameId⟩

/-- Primary keys with one encoding are one key. -/
theorem key_eq_of_composite {id₁ id₂ key₁ key₂ : Key} (keyed₁ : m₁.keyFor id₁ = .ok key₁)
    (keyed₂ : m₂.keyFor id₂ = .ok key₂) (same : key₁.toComposite = key₂.toComposite) :
    key₁ = key₂ :=
  Key.toComposite_injective (separatorFree_of_keyFor wf mem₁ keyed₁)
    (separatorFree_of_keyFor wf mem₂ keyed₂) same

/-- Index keys with one encoding come from one mapping, one unique key and one value. -/
theorem index_eq_of_composite {u₁ u₂ : UniqueKey α} (has₁ : u₁ ∈ m₁.uniqueKeys)
    (has₂ : u₂ ∈ m₂.uniqueKeys) {value₁ value₂ index₁ index₂ : Key}
    (composed₁ : m₁.indexKey u₁ value₁ = .ok index₁)
    (composed₂ : m₂.indexKey u₂ value₂ = .ok index₂)
    (same : index₁.toComposite = index₂.toComposite) :
    m₁ = m₂ ∧ u₁ = u₂ ∧ value₁ = value₂ := by
  obtain ⟨sameMapping, sameRole, sameValue⟩ := wf.compose_eq_of_overlap mem₁ mem₂
    (show m₁.HasRole (.unique u₁) from has₁) (show m₂.HasRole (.unique u₂) from has₂) composed₁
    composed₂ (.inl same)
  cases sameRole
  exact ⟨sameMapping, rfl, sameValue⟩

end Apart

theorem Except.ok_injective {ε : Type} {a b : β} {r : Except ε β} (first : r = .ok a)
    (second : r = .ok b) : a = b := by
  rw [first] at second
  exact Except.ok.inj second

/-! ## Writes keep the invariant -/

section Preservation

variable {reg : Registry α} (wf : reg.WellFormed) {s : Stub}
include wf

/-- Storing an entity at `key` keeps the index entries of every entity stored elsewhere: a claimed
index entry was free for `key`, so it did not name another key, and no index key is a primary
key. -/
theorem Indexed.store {m : Mapping α} (mem : m ∈ reg.mappings) {e : α} {key : Key}
    {indexes : List Key} {bytes : Bytes} (keyed : m.primaryKey e = .ok key)
    (claimed : List.Forall₂
      (fun u index => m.indexKey u (u.extract e) = .ok index ∧ LedgerOp.takenIn s key index = false)
      m.uniqueKeys indexes)
    {m' : Mapping α} (mem' : m' ∈ reg.mappings) {e' : α} {key' : Key}
    (indexed : Indexed s m' e' key') (other : key'.toComposite ≠ key.toComposite) :
    Indexed (s.store key bytes indexes) m' e' key' := by
  intro u' has'
  obtain ⟨index', composed', named'⟩ := indexed u' has'
  refine ⟨index', composed', ?_⟩
  have notClaimed : index'.toComposite ∉ indexes.map Key.toComposite := by
    intro claimedHere
    obtain ⟨u, -, index, ⟨-, free⟩, same⟩ := exists_of_mem_map_toComposite claimed claimedHere
    exact other (LedgerOp.composite_eq_of_takenIn_eq_false free (same ▸ named'))
  have notPrimary : index'.toComposite ≠ key.toComposite :=
    fun same => primary_ne_index wf mem mem' has' keyed composed' same.symm
  rw [Stub.get?_store, if_neg notClaimed, if_neg notPrimary, named']

/-- Storing an entity at its primary key, with the index keys claimed for it, keeps the ledger
consistent. -/
theorem Consistent.store (inv : Consistent reg s) {m : Mapping α} (mem : m ∈ reg.mappings)
    {e : α} {key : Key} {indexes : List Key} (keyed : m.primaryKey e = .ok key)
    (claimed : List.Forall₂
      (fun u index => m.indexKey u (u.extract e) = .ok index ∧ LedgerOp.takenIn s key index = false)
      m.uniqueKeys indexes) :
    Consistent reg (s.store key (m.kind.codec.encode e) indexes) where
  failing := inv.failing
  composed := by
    intro k b found
    rw [Stub.get?_store] at found
    by_cases claimedHere : k ∈ indexes.map Key.toComposite
    · obtain ⟨u, has, index, ⟨composed, -⟩, rfl⟩ :=
        exists_of_mem_map_toComposite claimed claimedHere
      exact ⟨m, mem, .unique u, u.extract e, index, has, composed, rfl⟩
    · rw [if_neg claimedHere] at found
      by_cases atKey : k = key.toComposite
      · exact ⟨m, mem, .primary, m.primary e, key, trivial, keyed, atKey⟩
      · rw [if_neg atKey] at found
        exact inv.composed k b found
  primary := by
    intro m' mem' id' key' b' keyed' found
    rw [Stub.get?_store] at found
    by_cases claimedHere : key'.toComposite ∈ indexes.map Key.toComposite
    · -- a primary key is never a claimed index key
      obtain ⟨u, has, index, ⟨composed, -⟩, same⟩ :=
        exists_of_mem_map_toComposite claimed claimedHere
      exact absurd same.symm (primary_ne_index wf mem' mem has keyed' composed)
    · rw [if_neg claimedHere] at found
      by_cases atKey : key'.toComposite = key.toComposite
      · -- the entity just stored, at its own key
        obtain ⟨rfl, rfl⟩ := primary_eq_of_composite wf mem' mem keyed' keyed atKey
        obtain rfl : key' = key := Except.ok_injective keyed' keyed
        rw [if_pos rfl] at found
        refine ⟨e, (Option.some.inj found).symm, keyed, fun u has => ?_⟩
        obtain ⟨index, mine, composed, -⟩ := exists_of_forall₂_left claimed has
        exact ⟨index, composed, by rw [Stub.get?_store, if_pos (List.mem_map_of_mem mine)]⟩
      · rw [if_neg atKey] at found
        obtain ⟨e', encoded, keyed'', indexed⟩ := inv.primary m' mem' id' key' b' keyed' found
        exact ⟨e', encoded, keyed'', indexed.store wf mem keyed claimed mem' atKey⟩
  index := by
    intro m' mem' u' has' value index' b' composed' found
    rw [Stub.get?_store] at found
    by_cases claimedHere : index'.toComposite ∈ indexes.map Key.toComposite
    · -- a claimed entry, written under the same mapping
      rw [if_pos claimedHere] at found
      obtain ⟨u, has, index, ⟨composed, -⟩, same⟩ :=
        exists_of_mem_map_toComposite claimed claimedHere
      obtain ⟨rfl, -, -⟩ := index_eq_of_composite wf mem mem' has has' composed composed' same
      exact ⟨_, key, keyed, (Option.some.inj found).symm⟩
    · have notPrimary : index'.toComposite ≠ key.toComposite :=
        fun same => primary_ne_index wf mem mem' has' keyed composed' same.symm
      rw [if_neg claimedHere, if_neg notPrimary] at found
      exact inv.index m' mem' u' has' value index' b' composed' found

/-- Erasing an entity and its index entries keeps the index entries of every entity stored
elsewhere: each erased index entry names the erased key. -/
theorem Indexed.discard {m : Mapping α} (mem : m ∈ reg.mappings) {id key : Key} {e : α}
    {indexes : List Key} (keyed : m.keyFor id = .ok key) (indexed : Indexed s m e key)
    (composedAll : List.Forall₂ (fun u index => m.indexKey u (u.extract e) = .ok index)
      m.uniqueKeys indexes)
    {m' : Mapping α} (mem' : m' ∈ reg.mappings) {e' : α} {key' : Key}
    (indexed' : Indexed s m' e' key') (other : key'.toComposite ≠ key.toComposite) :
    Indexed (s.discard key indexes) m' e' key' := by
  intro u' has'
  obtain ⟨index', composed', named'⟩ := indexed' u' has'
  refine ⟨index', composed', ?_⟩
  have kept : ¬ (index'.toComposite ∈ indexes.map Key.toComposite ∨
      index'.toComposite = key.toComposite) := by
    rintro (erased | same)
    · obtain ⟨u, has, index, composed, same⟩ := exists_of_mem_map_toComposite composedAll erased
      obtain ⟨index₀, composed₀, named⟩ := indexed u has
      obtain rfl : index₀ = index := Except.ok_injective composed₀ composed
      rw [same, named'] at named
      exact other (Text.Utf8.ofString_injective (Option.some.inj named))
    · exact primary_ne_index wf mem mem' has' keyed composed' same.symm
  rw [Stub.get?_discard, if_neg kept, named']

/-- Erasing a stored entity with its index entries keeps the ledger consistent. -/
theorem Consistent.discard (inv : Consistent reg s) {m : Mapping α} (mem : m ∈ reg.mappings)
    {id key : Key} {e : α} {indexes : List Key} (keyed : m.keyFor id = .ok key)
    (indexed : Indexed s m e key)
    (composedAll : List.Forall₂ (fun u index => m.indexKey u (u.extract e) = .ok index)
      m.uniqueKeys indexes) :
    Consistent reg (s.discard key indexes) where
  failing := inv.failing
  composed := fun k b found => inv.composed k b (Stub.get?_discard_eq_some found).1
  primary := by
    intro m' mem' id' key' b' keyed' found
    obtain ⟨kept, erased⟩ := Stub.get?_discard_eq_some found
    obtain ⟨e', encoded, keyed'', indexed'⟩ := inv.primary m' mem' id' key' b' keyed' kept
    exact ⟨e', encoded, keyed'',
      indexed.discard wf mem keyed composedAll mem' indexed' fun same => erased (.inr same)⟩
  index := fun m' mem' u' has' value index' b' composed' found =>
    inv.index m' mem' u' has' value index' b' composed' (Stub.get?_discard_eq_some found).1

/-- One typed operation keeps the ledger consistent, whether it succeeds or fails. -/
theorem Consistent.step (roundTrips : reg.RoundTrips) (inv : Consistent reg s) (op : StateOp α)
    (typed : reg.Typed op.kind) : Consistent reg ((op.run reg).exec s).2 := by
  cases op
  case insert kind e =>
    have typed : reg.Typed kind := typed
    rw [StateOp.run, LedgerOp.exec_bind, LedgerOp.exec_insert inv.failing]
    cases planned : LedgerOp.insertPlan reg kind e s with
    | error err => exact inv
    | ok plan =>
        obtain ⟨m, mapped, keyed, -, claimed⟩ := LedgerOp.insertPlan_eq_ok planned
        obtain ⟨mem, rfl⟩ := typed.mem_of_mapping_eq_ok mapped
        exact inv.store wf mem keyed (LedgerOp.claimKeys_eq_ok claimed)
  case put kind e =>
    have typed : reg.Typed kind := typed
    rw [StateOp.run, LedgerOp.exec_bind, LedgerOp.exec_put inv.failing]
    cases planned : LedgerOp.putPlan reg kind e s with
    | error err => exact inv
    | ok plan =>
        obtain ⟨m, mapped, keyed, claimed⟩ := LedgerOp.putPlan_eq_ok planned
        obtain ⟨mem, rfl⟩ := typed.mem_of_mapping_eq_ok mapped
        exact inv.store wf mem keyed (LedgerOp.claimKeys_eq_ok claimed)
  case delete kind id =>
    have typed : reg.Typed kind := typed
    rw [StateOp.run, LedgerOp.exec_bind]
    cases planned : LedgerOp.deletePlan reg kind id s with
    | error err =>
        rw [LedgerOp.exec_delete_of_error planned]
        exact inv
    | ok plan =>
        obtain ⟨m, key, stored⟩ := plan
        obtain ⟨mapped, keyed, read⟩ := LedgerOp.deletePlan_eq_ok planned
        obtain ⟨mem, rfl⟩ := typed.mem_of_mapping_eq_ok mapped
        -- the entity read back is indexed, so its index keys all form
        obtain ⟨-, indexed⟩ := inv.indexed_of_readAt roundTrips mem keyed read
        obtain ⟨indexes, composedAll⟩ := exists_forall₂ fun u has =>
          (indexed u has).imp fun _ both => both.1
        rw [LedgerOp.exec_delete_of_ok inv.failing planned composedAll]
        exact inv.discard wf mem keyed indexed composedAll
  all_goals exact inv.of_readOnly (StateOp.readOnly_run reg _ rfl)

/-- A run of typed operations keeps the ledger consistent. -/
theorem Consistent.runOps (roundTrips : reg.RoundTrips) {ops : List (StateOp α)}
    (typed : ∀ op ∈ ops, reg.Typed op.kind) (inv : Consistent reg s) :
    Consistent reg (runOps reg ops s) := by
  induction ops generalizing s with
  | nil => exact inv
  | cons op rest ih =>
      exact ih (fun op' mem => typed op' (List.mem_cons_of_mem op mem))
        (inv.step wf roundTrips op (typed op List.mem_cons_self))

end Preservation

/-! ## What a consistent ledger guarantees -/

section Consequences

variable {reg : Registry α} (wf : reg.WellFormed) {s : Stub} (inv : Consistent reg s)
include wf inv

/-- Two entities of one type stored with an equal unique value are stored at one key: both
index entries are the one entry of that value. -/
theorem Consistent.key_eq_of_extract_eq (roundTrips : reg.RoundTrips) {m : Mapping α}
    (mem : m ∈ reg.mappings) {u : UniqueKey α} (has : u ∈ m.uniqueKeys)
    {id₁ id₂ key₁ key₂ : Key} {e₁ e₂ : α} (keyed₁ : m.keyFor id₁ = .ok key₁)
    (keyed₂ : m.keyFor id₂ = .ok key₂) (read₁ : LedgerOp.readAt m.kind s key₁ = .ok e₁)
    (read₂ : LedgerOp.readAt m.kind s key₂ = .ok e₂) (same : u.extract e₁ = u.extract e₂) :
    key₁ = key₂ := by
  obtain ⟨index₁, composed₁, named₁⟩ := (inv.indexed_of_readAt roundTrips mem keyed₁ read₁).2 u has
  obtain ⟨index₂, composed₂, named₂⟩ := (inv.indexed_of_readAt roundTrips mem keyed₂ read₂).2 u has
  rw [same] at composed₁
  obtain rfl : index₁ = index₂ := Except.ok_injective composed₁ composed₂
  rw [named₁] at named₂
  have sameComposite : key₁.toComposite = key₂.toComposite :=
    Text.Utf8.ofString_injective (Option.some.inj named₂)
  exact key_eq_of_composite wf mem mem keyed₁ keyed₂ sameComposite

/-- Reading by a unique value of a stored entity finds that entity, and leaves the ledger as it
is. -/
theorem Consistent.exec_getByUnique (roundTrips : reg.RoundTrips) {m : Mapping α}
    (mem : m ∈ reg.mappings) {u : UniqueKey α} (has : u ∈ m.uniqueKeys) {id key : Key} {e : α}
    (keyed : m.keyFor id = .ok key) (read : LedgerOp.readAt m.kind s key = .ok e) :
    (LedgerOp.getByUnique reg m.kind u.name (u.extract e)).exec s = (.ok e, s) := by
  obtain ⟨index, composed, named⟩ := (inv.indexed_of_readAt roundTrips mem keyed read).2 u has
  have nonempty : key.segments ≠ [] := by
    obtain ⟨-, -, rfl⟩ := m.keyFor_eq_ok_iff.mp keyed
    simp [Key.prepend]
  rw [LedgerOp.exec_getByUnique s wf mem has composed named nonempty
    (separatorFree_of_keyFor wf mem keyed), read]

/-- Every entry under the namespace of a role of a registered mapping is at a key that mapping
composes in that role: no other role's namespace, of this mapping or another, lies under it. -/
theorem Consistent.composed_of_startsWith {m : Mapping α} (mem : m ∈ reg.mappings)
    {role : KeyRole α} (has : m.HasRole role) {k : String} {b : Bytes}
    (found : s.get? k = some b)
    (under : Text.startsWith k (Key.single (m.roleNamespace role)).toComposite = true) :
    ∃ value key, m.compose role value = .ok key ∧ k = key.toComposite := by
  obtain ⟨m', mem', role', value, key, has', composed, rfl⟩ := inv.composed k b found
  -- the entry's key extends the namespace segment by segment, so it is in that namespace
  have freeNs : (Key.single (m.roleNamespace role)).SeparatorFree := by
    simpa [Key.SeparatorFree, Key.single] using Mapping.roleNamespace_free (wf.valid m mem) has
  have extended := Key.startsWith_of_compositeStartsWith
    (Mapping.separatorFree_of_compose (wf.valid m' mem') has' composed) freeNs under
  have keyed := composed
  obtain ⟨-, -, rfl⟩ := m'.compose_eq_ok_iff.mp keyed
  have sameNs : m.roleNamespace role = m'.roleNamespace role' := by
    simpa [Key.startsWith, Key.single, Key.prepend] using extended
  obtain rfl : m = m' := wf.eq_of_mem_namespaces mem mem'
    (m.roleNamespace_mem_namespaces has) (sameNs ▸ m'.roleNamespace_mem_namespaces has')
  obtain rfl : role = role' := Mapping.role_eq_of_roleNamespace_eq (wf.valid m mem) has has' sameNs
  exact ⟨value, _, composed, rfl⟩

/-- Every entry under the namespace of a unique key is an index entry of that unique key, so it
names a primary key of its mapping. -/
theorem Consistent.names_primary_of_startsWith {m : Mapping α} (mem : m ∈ reg.mappings)
    {u : UniqueKey α} (has : u ∈ m.uniqueKeys) {k : String} {b : Bytes}
    (found : s.get? k = some b)
    (under : Text.startsWith k (Key.single (m.indexNamespace u)).toComposite = true) :
    ∃ id key, m.keyFor id = .ok key ∧ b = Bytes.ofString key.toComposite := by
  obtain ⟨value, index, composed, rfl⟩ :=
    inv.composed_of_startsWith wf mem (show m.HasRole (.unique u) from has) found under
  exact inv.index m mem u has value index b composed found

end Consequences

/-- After any run of typed operations from the empty ledger under a registry built by successful
registrations whose codecs round trip, the unique indexes are consistent with the stored
entities: each unique value of a stored entity has its index entry naming the entity's key, two
stored entities of one type never share a unique value, reading by a stored entity's unique value
finds it, and every entry under the namespace of a unique key names a primary key of its type. -/
theorem unique_indexes_consistent {ms : List (Mapping α)} {reg : Registry α}
    (built : ms.foldlM Registry.register Registry.empty = .ok reg) (roundTrips : reg.RoundTrips)
    {ops : List (StateOp α)} (typed : ∀ op ∈ ops, reg.Typed op.kind) :
    let s := runOps reg ops Stub.empty
    (∀ m ∈ reg.mappings, ∀ id key e, m.keyFor id = .ok key →
      LedgerOp.readAt m.kind s key = .ok e →
      ∀ u ∈ m.uniqueKeys, ∃ index, m.indexKey u (u.extract e) = .ok index ∧
        s.get? index.toComposite = some (Bytes.ofString key.toComposite)) ∧
    (∀ m ∈ reg.mappings, ∀ u ∈ m.uniqueKeys, ∀ id₁ id₂ key₁ key₂ e₁ e₂,
      m.keyFor id₁ = .ok key₁ → m.keyFor id₂ = .ok key₂ →
      LedgerOp.readAt m.kind s key₁ = .ok e₁ → LedgerOp.readAt m.kind s key₂ = .ok e₂ →
      u.extract e₁ = u.extract e₂ → key₁ = key₂) ∧
    (∀ m ∈ reg.mappings, ∀ u ∈ m.uniqueKeys, ∀ id key e, m.keyFor id = .ok key →
      LedgerOp.readAt m.kind s key = .ok e →
      (LedgerOp.getByUnique reg m.kind u.name (u.extract e)).exec s = (.ok e, s)) ∧
    (∀ m ∈ reg.mappings, ∀ u ∈ m.uniqueKeys, ∀ k b, s.get? k = some b →
      Text.startsWith k (Key.single (m.indexNamespace u)).toComposite = true →
      ∃ id key, m.keyFor id = .ok key ∧ b = Bytes.ofString key.toComposite) := by
  intro s
  have wf := Registry.wellFormed_of_built built
  have inv : Consistent reg s := (consistent_empty reg).runOps wf roundTrips typed
  refine ⟨?_, ?_, ?_, ?_⟩
  · intro m mem id key e keyed read
    exact (inv.indexed_of_readAt roundTrips mem keyed read).2
  · intro m mem u has id₁ id₂ key₁ key₂ e₁ e₂ keyed₁ keyed₂ read₁ read₂ same
    exact inv.key_eq_of_extract_eq wf roundTrips mem has keyed₁ keyed₂ read₁ read₂ same
  · intro m mem u has id key e keyed read
    exact inv.exec_getByUnique wf roundTrips mem has keyed read
  · intro m mem u has k b found under
    exact inv.names_primary_of_startsWith wf mem has found under

/-- Users stored as their name, keyed by it, with a unique handle made from it. -/
def userMapping : Mapping String :=
  (Mapping.new ⟨Codec.text, fun _ => .ok (), ""⟩ "users" ["name"] Key.single).withUniqueKey
    "handle" ["handle"] fun name => Key.single ("@" ++ name)

/-- The registry of the user mapping alone: its codec round trips, and its kind is the one of
its type. -/
theorem userRegistry_spec : ∃ reg : Registry String,
    [userMapping].foldlM Registry.register Registry.empty = .ok reg ∧ reg.RoundTrips ∧
      reg.Typed userMapping.kind := by
  obtain ⟨reg, built⟩ : ∃ reg, [userMapping].foldlM Registry.register Registry.empty = .ok reg :=
    ⟨_, rfl⟩
  have registered : reg.mappings = [userMapping] := by
    simpa [Registry.empty] using Registry.mappings_of_foldlM_register built
  refine ⟨reg, built, ?_, ?_⟩
  · intro m mem e
    rw [registered, List.mem_singleton] at mem
    subst mem
    simp [userMapping, Mapping.withUniqueKey, Mapping.new, Codec.text, readText,
      Text.Utf8.decode_ofString]
  · exact (Registry.wellFormed_of_built built).typed (registered ▸ List.mem_singleton_self _)

/-- A run that writes, rewrites, reads by handle and deletes. -/
def userOps : List (StateOp String) :=
  [.insert userMapping.kind "ada", .put userMapping.kind "ada", .insert userMapping.kind "bob",
    .getByUnique userMapping.kind "handle" (Key.single "@ada"),
    .delete userMapping.kind (Key.single "ada")]

theorem userOps_indexes_consistent :
    ∃ reg : Registry String, [userMapping].foldlM Registry.register Registry.empty = .ok reg ∧
      reg.RoundTrips ∧ (∀ op ∈ userOps, reg.Typed op.kind) ∧
      let s := runOps reg userOps Stub.empty
      (∀ m ∈ reg.mappings, ∀ id key e, m.keyFor id = .ok key →
        LedgerOp.readAt m.kind s key = .ok e →
        ∀ u ∈ m.uniqueKeys, ∃ index, m.indexKey u (u.extract e) = .ok index ∧
          s.get? index.toComposite = some (Bytes.ofString key.toComposite)) ∧
      (∀ m ∈ reg.mappings, ∀ u ∈ m.uniqueKeys, ∀ id₁ id₂ key₁ key₂ e₁ e₂,
        m.keyFor id₁ = .ok key₁ → m.keyFor id₂ = .ok key₂ →
        LedgerOp.readAt m.kind s key₁ = .ok e₁ → LedgerOp.readAt m.kind s key₂ = .ok e₂ →
        u.extract e₁ = u.extract e₂ → key₁ = key₂) ∧
      (∀ m ∈ reg.mappings, ∀ u ∈ m.uniqueKeys, ∀ id key e, m.keyFor id = .ok key →
        LedgerOp.readAt m.kind s key = .ok e →
        (LedgerOp.getByUnique reg m.kind u.name (u.extract e)).exec s = (.ok e, s)) ∧
      (∀ m ∈ reg.mappings, ∀ u ∈ m.uniqueKeys, ∀ k b, s.get? k = some b →
        Text.startsWith k (Key.single (m.indexNamespace u)).toComposite = true →
        ∃ id key, m.keyFor id = .ok key ∧ b = Bytes.ofString key.toComposite) := by
  obtain ⟨reg, built, roundTrips, user⟩ := userRegistry_spec
  have typed : ∀ op ∈ userOps, reg.Typed op.kind := by
    simpa [userOps, StateOp.kind] using user
  exact ⟨reg, built, roundTrips, typed, unique_indexes_consistent built roundTrips typed⟩

end Chaincode
