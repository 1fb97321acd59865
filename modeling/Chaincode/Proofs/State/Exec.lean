import Chaincode.Proofs.Registry
import Chaincode.Proofs.Utf8
import Chaincode.State.Basic

/-!
# Running ledger operations

A ledger operation is run from a ledger to its result and the ledger it leaves. This module gives
the equations that run the state accessor's operations symbolically, so that later proofs never
unfold the monad.

Reads leave the ledger as it was (`ReadOnly`). A write first decides everything from the ledger
it reads, failing before its first write, and then writes: `insert` and `put` are a pure plan
followed by `Stub.store`, which writes the entity and points each index entry at it. On a ledger
that refuses no writes, the writes themselves never fail. Every ledger is observed through
`Stub.get?`, so the effect of a write is stated as the lookups it changes.
-/

namespace Chaincode

variable {α β γ : Type}

namespace Stub

theorem lookup_cons_eq_ite (k k' : String) (v : β) (rest : List (String × β)) :
    ((k', v) :: rest).lookup k = if k = k' then some v else rest.lookup k := by
  by_cases same : k = k'
  · simp [same]
  · have differ : (k == k') = false := by simpa using same
    simp [List.lookup_cons, same, differ]

theorem remove_cons (key k' : String) (v : Bytes) (rest : List (String × Bytes)) :
    remove key ((k', v) :: rest) =
      if k' = key then remove key rest else (k', v) :: remove key rest := by
  by_cases same : k' = key <;> simp [remove, same]

theorem lookup_upsert (key k : String) (value : Bytes) (entries : List (String × Bytes)) :
    (upsert key value entries).lookup k = if k = key then some value else entries.lookup k := by
  induction entries with
  | nil => simp [upsert, lookup_cons_eq_ite]
  | cons entry rest ih =>
      obtain ⟨k', v'⟩ := entry
      -- the new entry replaces the head, goes before it, or further down the list
      by_cases here : key = k'
      · subst here
        by_cases same : k = key <;> simp [upsert, lookup_cons_eq_ite, same]
      · by_cases before : key < k'
        · simp [upsert, lookup_cons_eq_ite, here, before]
        · by_cases found : k = k'
          · subst found
            simp [upsert, here, before, Ne.symm here]
          · simp [upsert, lookup_cons_eq_ite, here, before, found, ih]

theorem lookup_remove (key k : String) (entries : List (String × Bytes)) :
    (remove key entries).lookup k = if k = key then none else entries.lookup k := by
  induction entries with
  | nil => simp [remove]
  | cons entry rest ih =>
      obtain ⟨k', v'⟩ := entry
      rw [remove_cons]
      by_cases dropped : k' = key
      · subst dropped
        rw [if_pos rfl, ih]
        by_cases same : k = k' <;> simp [lookup_cons_eq_ite, same]
      · by_cases found : k = k'
        · subst found
          simp [dropped]
        · simp [dropped, found, lookup_cons_eq_ite, ih]

/-- The ledger after an entity's bytes are stored under its key and every index entry is
pointed at that key. -/
def store (s : Stub) (key : Key) (bytes : Bytes) (indexes : List Key) : Stub :=
  { s with
    entries := indexes.foldl
      (fun entries index => upsert index.toComposite (Bytes.ofString key.toComposite) entries)
      (upsert key.toComposite bytes s.entries) }

/-- The ledger after an entity's key and its index entries are erased. -/
def discard (s : Stub) (key : Key) (indexes : List Key) : Stub :=
  { s with
    entries := indexes.foldl (fun entries index => remove index.toComposite entries)
      (remove key.toComposite s.entries) }

theorem lookup_foldl_upsert (keys : List Key) (value : Bytes) (entries : List (String × Bytes))
    (k : String) :
    (keys.foldl (fun entries index => upsert index.toComposite value entries) entries).lookup k =
      if k ∈ keys.map Key.toComposite then some value else entries.lookup k := by
  induction keys generalizing entries with
  | nil => simp
  | cons index rest ih =>
      rw [List.foldl_cons, ih, lookup_upsert]
      by_cases later : k ∈ rest.map Key.toComposite <;> by_cases here : k = index.toComposite <;>
        simp [later, here]

theorem lookup_foldl_remove (keys : List Key) (entries : List (String × Bytes)) (k : String) :
    (keys.foldl (fun entries index => remove index.toComposite entries) entries).lookup k =
      if k ∈ keys.map Key.toComposite then none else entries.lookup k := by
  induction keys generalizing entries with
  | nil => simp
  | cons index rest ih =>
      rw [List.foldl_cons, ih, lookup_remove]
      by_cases later : k ∈ rest.map Key.toComposite <;> by_cases here : k = index.toComposite <;>
        simp [later, here]

/-- After a store, an index entry holds the key, the key holds the bytes, and every other entry
is as before. -/
theorem get?_store (s : Stub) (key : Key) (bytes : Bytes) (indexes : List Key) (k : String) :
    (s.store key bytes indexes).get? k =
      if k ∈ indexes.map Key.toComposite then some (Bytes.ofString key.toComposite)
      else if k = key.toComposite then some bytes else s.get? k := by
  simp [store, get?, lookup_foldl_upsert, lookup_upsert]

theorem get?_discard (s : Stub) (key : Key) (indexes : List Key) (k : String) :
    (s.discard key indexes).get? k =
      if k ∈ indexes.map Key.toComposite ∨ k = key.toComposite then none else s.get? k := by
  by_cases index : k ∈ indexes.map Key.toComposite <;>
    simp [discard, get?, lookup_foldl_remove, lookup_remove, index]

theorem get?_discard_eq_some {s : Stub} {key : Key} {indexes : List Key} {k : String} {b : Bytes}
    (found : (s.discard key indexes).get? k = some b) :
    s.get? k = some b ∧ ¬ (k ∈ indexes.map Key.toComposite ∨ k = key.toComposite) := by
  rw [get?_discard] at found
  by_cases erased : k ∈ indexes.map Key.toComposite ∨ k = key.toComposite
  · rw [if_pos erased] at found
    cases found
  · rw [if_neg erased] at found
    exact ⟨found, erased⟩

@[simp] theorem failing_store (s : Stub) (key : Key) (bytes : Bytes) (indexes : List Key) :
    (s.store key bytes indexes).failing = s.failing := rfl

@[simp] theorem failing_discard (s : Stub) (key : Key) (indexes : List Key) :
    (s.discard key indexes).failing = s.failing := rfl

@[simp] theorem events_store (s : Stub) (key : Key) (bytes : Bytes) (indexes : List Key) :
    (s.store key bytes indexes).events = s.events := rfl

end Stub

namespace LedgerOp

/-- Runs an operation on a ledger: its result, and the ledger it leaves. -/
def exec (x : LedgerOp β) (s : Stub) : Except StateError β × Stub := x.run.run s

@[simp] theorem exec_pure (b : β) (s : Stub) : (pure b : LedgerOp β).exec s = (.ok b, s) := rfl

@[simp] theorem exec_throw (e : StateError) (s : Stub) :
    (throw e : LedgerOp β).exec s = (.error e, s) := rfl

@[simp] theorem exec_get (s : Stub) : (get : LedgerOp Stub).exec s = (.ok s, s) := rfl

@[simp] theorem exec_set (s s' : Stub) : (set s' : LedgerOp PUnit).exec s = (.ok (), s') := rfl

@[simp] theorem exec_modify (f : Stub → Stub) (s : Stub) :
    (modify f : LedgerOp PUnit).exec s = (.ok (), f s) := rfl

/-- Sequencing runs the second operation on the ledger the first leaves, unless the first fails. -/
theorem exec_bind (x : LedgerOp β) (f : β → LedgerOp γ) (s : Stub) :
    (x >>= f).exec s =
      match x.exec s with
      | (.ok b, s') => (f b).exec s'
      | (.error e, s') => (.error e, s') := by
  show (StateT.bind x (ExceptT.bindCont f)) s = _
  simp only [StateT.bind, exec, ExceptT.run, StateT.run]
  rcases x s with ⟨result, s'⟩
  cases result <;> rfl

@[simp] theorem exec_lift (r : Except StateError β) (s : Stub) : (lift r).exec s = (r, s) := by
  cases r <;> rfl

@[simp] theorem exec_getRaw (k : Key) (s : Stub) :
    (getRaw k).exec s = (.ok (s.get? k.toComposite), s) := rfl

@[simp] theorem exec_decode (kind : EntityKind α) (b : Bytes) (s : Stub) :
    (decode kind b).exec s = ((kind.codec.decode b).mapError .conversion, s) := exec_lift _ _

/-- The entity stored under a key, as `getAt` reads it from a ledger. -/
def readAt (kind : EntityKind α) (s : Stub) (k : Key) : Except StateError α :=
  match s.get? k.toComposite with
  | some b => (kind.codec.decode b).mapError .conversion
  | none => .error (.notFound k)

theorem exec_getAt (kind : EntityKind α) (k : Key) (s : Stub) :
    (getAt kind k).exec s = (readAt kind s k, s) := by
  rw [getAt, exec_bind, exec_getRaw, readAt]
  cases s.get? k.toComposite <;> simp

/-! ## Reads -/

/-- An operation that leaves every ledger as it found it. -/
def ReadOnly (x : LedgerOp β) : Prop := ∀ s, (x.exec s).2 = s

theorem ReadOnly.bind {x : LedgerOp β} {f : β → LedgerOp γ} (first : ReadOnly x)
    (rest : ∀ b, ReadOnly (f b)) : ReadOnly (x >>= f) := by
  intro s
  rw [exec_bind]
  have kept := first s
  rcases ran : x.exec s with ⟨result, s'⟩
  rw [ran] at kept
  subst kept
  cases result with
  | ok b => exact rest b _
  | error e => rfl

theorem readOnly_pure (b : β) : ReadOnly (pure b : LedgerOp β) := fun _ => rfl

theorem readOnly_throw (e : StateError) : ReadOnly (throw e : LedgerOp β) := fun _ => rfl

theorem readOnly_lift (r : Except StateError β) : ReadOnly (lift r) := fun s => by simp

theorem readOnly_getRaw (k : Key) : ReadOnly (getRaw k) := fun _ => rfl

theorem readOnly_getAt (kind : EntityKind α) (k : Key) : ReadOnly (getAt kind k) :=
  fun s => by rw [exec_getAt]

theorem readOnly_decodeAll (kind : EntityKind α) (entries : List (String × Bytes)) :
    ReadOnly (decodeAll kind entries) := by
  induction entries with
  | nil => exact readOnly_pure _
  | cons entry rest ih =>
      exact (readOnly_lift _).bind fun _ => ih.bind fun _ => readOnly_pure _

theorem readOnly_scan (kind : EntityKind α) (start : Key) : ReadOnly (scan kind start) :=
  ReadOnly.bind (fun _ => rfl) fun _ => readOnly_decodeAll kind _

theorem readOnly_getEntity (reg : Registry α) (kind : EntityKind α) (id : Key) :
    ReadOnly (getEntity reg kind id) :=
  (readOnly_lift _).bind fun _ => (readOnly_lift _).bind fun key => readOnly_getAt kind key

theorem readOnly_getOrDefault (reg : Registry α) (kind : EntityKind α) (id : Key) :
    ReadOnly (getOrDefault reg kind id) := by
  refine (readOnly_lift _).bind fun _ => (readOnly_lift _).bind fun key => ?_
  refine (readOnly_getRaw key).bind fun found => ?_
  cases found with
  | some b => exact readOnly_lift _
  | none => exact readOnly_pure _

theorem readOnly_exists? (reg : Registry α) (kind : EntityKind α) (id : Key) :
    ReadOnly (exists? reg kind id) :=
  (readOnly_lift _).bind fun _ => (readOnly_lift _).bind fun key =>
    (readOnly_getRaw key).bind fun _ => readOnly_pure _

theorem readOnly_list (reg : Registry α) (kind : EntityKind α) : ReadOnly (list reg kind) :=
  (readOnly_lift _).bind fun m => readOnly_scan kind m.namespaceKey

theorem readOnly_listWith (reg : Registry α) (kind : EntityKind α) (part : Key) :
    ReadOnly (listWith reg kind part) :=
  (readOnly_lift _).bind fun _ => (readOnly_lift _).bind fun start => readOnly_scan kind start

theorem readOnly_resolveUnique (reg : Registry α) (kind : EntityKind α) (name : String)
    (value : Key) : ReadOnly (resolveUnique reg kind name value) := by
  refine (readOnly_lift _).bind fun _ => (readOnly_lift _).bind fun _ => ?_
  refine (readOnly_lift _).bind fun index => (readOnly_getRaw index).bind fun found => ?_
  split
  · exact readOnly_throw _
  · split
    · exact readOnly_throw _
    · exact readOnly_lift _

theorem readOnly_getByUnique (reg : Registry α) (kind : EntityKind α) (name : String)
    (value : Key) : ReadOnly (getByUnique reg kind name value) :=
  (readOnly_resolveUnique reg kind name value).bind fun key => readOnly_getAt kind key

theorem readOnly_existsByUnique (reg : Registry α) (kind : EntityKind α) (name : String)
    (value : Key) : ReadOnly (existsByUnique reg kind name value) :=
  (readOnly_lift _).bind fun _ => (readOnly_lift _).bind fun _ => (readOnly_lift _).bind
    fun index => (readOnly_getRaw index).bind fun _ => readOnly_pure _

/-! ## Unique keys -/

/-- A declared unique key of a valid mapping is found by its name. -/
theorem uniqueKey_eq_ok {m : Mapping α} (valid : m.Valid) {u : UniqueKey α}
    (has : u ∈ m.uniqueKeys) : uniqueKey m u.name = .ok u := by
  rw [uniqueKey, m.uniqueKey?_eq_some valid has]

/-- Resolving a declared unique value whose index entry names the encoding of a separator-free key
with a segment yields that key. -/
theorem exec_resolveUnique (s : Stub) {reg : Registry α} {m : Mapping α} {u : UniqueKey α}
    {value index key : Key} (wf : reg.WellFormed) (mem : m ∈ reg.mappings)
    (has : u ∈ m.uniqueKeys) (composed : m.indexKey u value = .ok index)
    (named : s.get? index.toComposite = some (Bytes.ofString key.toComposite))
    (nonempty : key.segments ≠ []) (free : key.SeparatorFree) :
    (resolveUnique reg m.kind u.name value).exec s = (.ok key, s) := by
  rw [resolveUnique, exec_bind, exec_lift, wf.mapping_eq_ok mem]
  dsimp only
  rw [exec_bind, exec_lift, uniqueKey_eq_ok (wf.valid m mem) has]
  dsimp only
  rw [exec_bind, exec_lift, composed]
  dsimp only
  rw [exec_bind, exec_getRaw, named]
  dsimp only
  rw [Text.Utf8.decode_ofString]
  dsimp only
  rw [exec_lift, Key.ofComposite?_toComposite nonempty free]
  rfl

/-- Under the same conditions, reading by the unique value reads the entity at that key. -/
theorem exec_getByUnique (s : Stub) {reg : Registry α} {m : Mapping α} {u : UniqueKey α}
    {value index key : Key} (wf : reg.WellFormed) (mem : m ∈ reg.mappings)
    (has : u ∈ m.uniqueKeys) (composed : m.indexKey u value = .ok index)
    (named : s.get? index.toComposite = some (Bytes.ofString key.toComposite))
    (nonempty : key.segments ≠ []) (free : key.SeparatorFree) :
    (getByUnique reg m.kind u.name value).exec s = (readAt m.kind s key, s) := by
  rw [getByUnique, exec_bind, exec_resolveUnique s wf mem has composed named nonempty free]
  exact exec_getAt m.kind key s

/-- A read by a declared unique value that answers an entity found an index entry, read the key
its bytes name, and read the entity at that key. -/
theorem getByUnique_eq_ok (s : Stub) {reg : Registry α} {m : Mapping α} {u : UniqueKey α}
    {value : Key} {e : α} (wf : reg.WellFormed) (mem : m ∈ reg.mappings) (has : u ∈ m.uniqueKeys)
    (read : ((getByUnique reg m.kind u.name value).exec s).1 = .ok e) :
    ∃ index b text key, m.indexKey u value = .ok index ∧ s.get? index.toComposite = some b ∧
      Text.Utf8.decode b = .ok text ∧ Key.ofComposite? text = .ok key ∧
      readAt m.kind s key = .ok e := by
  rw [getByUnique, exec_bind, resolveUnique, exec_bind, exec_lift, wf.mapping_eq_ok mem] at read
  dsimp only at read
  rw [exec_bind, exec_lift, uniqueKey_eq_ok (wf.valid m mem) has] at read
  dsimp only at read
  rw [exec_bind, exec_lift] at read
  cases composed : m.indexKey u value with
  | error err =>
    rw [composed] at read
    cases read
  | ok index =>
    rw [composed] at read
    dsimp only at read
    rw [exec_bind, exec_getRaw] at read
    cases found : s.get? index.toComposite with
    | none =>
      rw [found] at read
      cases read
    | some b =>
      rw [found] at read
      dsimp only at read
      cases decoded : Text.Utf8.decode b with
      | error err =>
        rw [decoded] at read
        cases read
      | ok text =>
        rw [decoded] at read
        dsimp only at read
        rw [exec_lift] at read
        cases parsed : Key.ofComposite? text with
        | error err =>
          rw [parsed] at read
          cases read
        | ok key =>
          rw [parsed] at read
          dsimp only [Except.mapError] at read
          rw [exec_getAt] at read
          exact ⟨index, b, text, key, rfl, found, decoded, parsed, read⟩

/-- Whether an index entry is held for a primary key other than `owner`. -/
def takenIn (s : Stub) (owner : Key) (index : Key) : Bool :=
  match s.get? index.toComposite with
  | some existing => existing != Bytes.ofString owner.toComposite
  | none => false

/-- An index entry that is not taken for `owner` and names a key names `owner` itself. -/
theorem composite_eq_of_takenIn_eq_false {s : Stub} {owner index key : Key}
    (free : takenIn s owner index = false)
    (named : s.get? index.toComposite = some (Bytes.ofString key.toComposite)) :
    key.toComposite = owner.toComposite := by
  rw [takenIn, named] at free
  exact Text.Utf8.ofString_injective (by simpa using free)

/-- The index keys of an entity's unique values, in declaration order, failing at the first value
that does not form a key or whose index key is taken. -/
def claimKeys (m : Mapping α) (e : α) (taken : Key → Bool) :
    List (UniqueKey α) → Except StateError (List Key)
  | [] => .ok []
  | u :: rest => do
    let index ← m.indexKey u (u.extract e)
    if taken index then throw (.keyAlreadyExists index)
    return index :: (← claimKeys m e taken rest)

/-- Claiming unique keys reads the ledger and decides by `claimKeys`. -/
theorem exec_claimUnique (m : Mapping α) (e : α) (owner : Key) (keys : List (UniqueKey α))
    (s : Stub) :
    (claimUnique m e owner keys).exec s = (claimKeys m e (takenIn s owner) keys, s) := by
  induction keys with
  | nil => rfl
  | cons u rest ih =>
      rw [claimUnique, exec_bind, exec_lift, claimKeys]
      cases composed : m.indexKey u (u.extract e) with
      | error err => rfl
      | ok index =>
          simp only [Except.ok_bind]
          rw [exec_bind, exec_getRaw]
          -- the entry decides the conflict; afterwards both sides claim the rest
          cases held : s.get? index.toComposite with
          | none =>
              simp only [takenIn, held, Bool.false_eq_true, if_false, exec_bind, exec_pure, ih]
              cases claimKeys m e (takenIn s owner) rest <;> rfl
          | some existing =>
              by_cases same : existing = Bytes.ofString owner.toComposite
              · simp only [takenIn, held, same, bne_self_eq_false, Bool.false_eq_true, if_false,
                  ne_eq, not_true_eq_false, exec_bind, exec_pure, ih]
                cases claimKeys m e (takenIn s owner) rest <;> rfl
              · simp [takenIn, held, same]

/-- A successful claim gives, for each unique key in order, its index key, free or already held
for the owner. -/
theorem claimKeys_eq_ok {m : Mapping α} {e : α} {taken : Key → Bool} {keys : List (UniqueKey α)}
    {indexes : List Key} (claimed : claimKeys m e taken keys = .ok indexes) :
    List.Forall₂ (fun u index => m.indexKey u (u.extract e) = .ok index ∧ taken index = false)
      keys indexes := by
  induction keys generalizing indexes with
  | nil =>
      cases claimed
      exact .nil
  | cons u rest ih =>
      rw [claimKeys] at claimed
      cases composed : m.indexKey u (u.extract e) with
      | error err => simp [composed] at claimed
      | ok index =>
          cases isTaken : taken index with
          | true => simp [composed, isTaken] at claimed
          | false =>
              cases later : claimKeys m e taken rest with
              | error err => simp [composed, isTaken, later] at claimed
              | ok more =>
                  simp only [composed, isTaken, later, Except.ok_bind, Bool.false_eq_true,
                    if_false, Except.pure_eq, Except.ok.injEq] at claimed
                  subst claimed
                  exact .cons ⟨composed, isTaken⟩ (ih later)

/-! ## Writes on a ledger that refuses none -/

section Writes

variable {s : Stub}

theorem exec_putBytes (free : s.failing = []) (k : Key) (b : Bytes) :
    (putBytes k b).exec s =
      (.ok (), { s with entries := Stub.upsert k.toComposite b s.entries }) := by
  simp [putBytes, exec_bind, Stub.put, Stub.writeCheck, free]

theorem exec_deleteRaw (free : s.failing = []) (k : Key) :
    (deleteRaw k).exec s = (.ok (), { s with entries := Stub.remove k.toComposite s.entries }) := by
  simp [deleteRaw, exec_bind, Stub.erase, Stub.writeCheck, free]

theorem exec_forM_putBytes (free : s.failing = []) (indexes : List Key) (b : Bytes) :
    (indexes.forM fun index => putBytes index b).exec s =
      (.ok (), { s with
        entries := indexes.foldl (fun entries index => Stub.upsert index.toComposite b entries)
          s.entries }) := by
  induction indexes generalizing s with
  | nil => rfl
  | cons index rest ih =>
      rw [List.forM, exec_bind, exec_putBytes free]
      exact ih free

/-- Writing an entity stores its bytes and points every index entry at its key. -/
theorem exec_write (free : s.failing = []) (kind : EntityKind α) (e : α) (key : Key)
    (indexes : List Key) :
    (write kind e key indexes).exec s = (.ok (), s.store key (kind.codec.encode e) indexes) := by
  rw [write, exec_bind, exec_putBytes free]
  dsimp only
  rw [exec_forM_putBytes
    (s := { s with entries := Stub.upsert key.toComposite (kind.codec.encode e) s.entries }) free]
  rfl

/-- Erasing the index entries of a stored entity whose unique values all form keys. -/
theorem exec_eraseIndexes (free : s.failing = []) (m : Mapping α) (stored : α)
    {keys : List (UniqueKey α)} {indexes : List Key}
    (composed : List.Forall₂ (fun u index => m.indexKey u (u.extract stored) = .ok index)
      keys indexes) :
    (eraseIndexes m stored keys).exec s =
      (.ok (), { s with
        entries := indexes.foldl (fun entries index => Stub.remove index.toComposite entries)
          s.entries }) := by
  induction composed generalizing s with
  | nil => rfl
  | @cons u index rest more here _ ih =>
      rw [eraseIndexes, exec_bind, exec_lift, here]
      dsimp only
      rw [exec_bind, exec_deleteRaw free]
      exact ih (s := { s with entries := _ }) free

/-! ## Writes of entities -/

/-- What `insert` decides from the ledger before it writes: the entity's primary key and index
keys, or why it refuses. -/
def insertPlan (reg : Registry α) (kind : EntityKind α) (e : α) (s : Stub) :
    Except StateError (Key × List Key) := do
  (kind.validate e).mapError .validation
  let m ← reg.mapping kind
  let key ← m.primaryKey e
  if (s.get? key.toComposite).isSome then throw (.keyAlreadyExists key)
  let indexes ← claimKeys m e (takenIn s key) m.uniqueKeys
  return (key, indexes)

/-- What `put` decides from the ledger before it writes: `insertPlan` without the check that the
primary key is free. -/
def putPlan (reg : Registry α) (kind : EntityKind α) (e : α) (s : Stub) :
    Except StateError (Key × List Key) := do
  (kind.validate e).mapError .validation
  let m ← reg.mapping kind
  let key ← m.primaryKey e
  let indexes ← claimKeys m e (takenIn s key) m.uniqueKeys
  return (key, indexes)

theorem insertPlan_eq_ok {reg : Registry α} {kind : EntityKind α} {e : α} {key : Key}
    {indexes : List Key} (planned : insertPlan reg kind e s = .ok (key, indexes)) :
    ∃ m, reg.mapping kind = .ok m ∧ m.primaryKey e = .ok key ∧
      (s.get? key.toComposite).isSome = false ∧
      claimKeys m e (takenIn s key) m.uniqueKeys = .ok indexes := by
  simp only [insertPlan, Except.bind_eq_ok] at planned
  obtain ⟨_, -, m, mapped, key', keyed, claiming⟩ := planned
  split at claiming
  · simp at claiming
  · next absent =>
      simp only [Except.bind_eq_ok, Except.pure_eq, Except.ok.injEq, Prod.mk.injEq] at claiming
      obtain ⟨indexes', claimed, rfl, rfl⟩ := claiming
      exact ⟨m, mapped, keyed, by simpa using absent, claimed⟩

theorem putPlan_eq_ok {reg : Registry α} {kind : EntityKind α} {e : α} {key : Key}
    {indexes : List Key} (planned : putPlan reg kind e s = .ok (key, indexes)) :
    ∃ m, reg.mapping kind = .ok m ∧ m.primaryKey e = .ok key ∧
      claimKeys m e (takenIn s key) m.uniqueKeys = .ok indexes := by
  simp only [putPlan, Except.bind_eq_ok, Except.pure_eq, Except.ok.injEq, Prod.mk.injEq] at planned
  obtain ⟨_, -, m, mapped, key', keyed, indexes', claimed, rfl, rfl⟩ := planned
  exact ⟨m, mapped, keyed, claimed⟩

/-- On every ledger, `insert` decides by its plan before it writes: it fails as the plan does,
leaving the ledger, or writes the entity and its index entries as planned. -/
theorem exec_insert_eq_plan (reg : Registry α) (kind : EntityKind α) (e : α) :
    (insert reg kind e).exec s =
      match insertPlan reg kind e s with
      | .ok (key, indexes) => (write kind e key indexes).exec s
      | .error err => (.error err, s) := by
  rw [insert, insertPlan, exec_bind, validate, exec_lift]
  cases (kind.validate e).mapError StateError.validation with
  | error err => rfl
  | ok u =>
      dsimp only [Except.ok_bind]
      rw [exec_bind, exec_lift]
      cases reg.mapping kind with
      | error err => rfl
      | ok m =>
          dsimp only [Except.ok_bind]
          rw [exec_bind, exec_lift]
          cases m.primaryKey e with
          | error err => rfl
          | ok key =>
              dsimp only [Except.ok_bind]
              rw [exec_bind, exec_getRaw]
              dsimp only [Except.ok_bind]
              cases present : (s.get? key.toComposite).isSome
              · simp only [Bool.false_eq_true, if_false, exec_bind, exec_claimUnique]
                cases claimKeys m e (takenIn s key) m.uniqueKeys <;> rfl
              · rfl

/-- On every ledger, `put` decides by its plan before it writes. -/
theorem exec_put_eq_plan (reg : Registry α) (kind : EntityKind α) (e : α) :
    (put reg kind e).exec s =
      match putPlan reg kind e s with
      | .ok (key, indexes) => (write kind e key indexes).exec s
      | .error err => (.error err, s) := by
  rw [put, putPlan, exec_bind, validate, exec_lift]
  cases (kind.validate e).mapError StateError.validation with
  | error err => rfl
  | ok u =>
      dsimp only [Except.ok_bind]
      rw [exec_bind, exec_lift]
      cases reg.mapping kind with
      | error err => rfl
      | ok m =>
          dsimp only [Except.ok_bind]
          rw [exec_bind, exec_lift]
          cases m.primaryKey e with
          | error err => rfl
          | ok key =>
              dsimp only [Except.ok_bind]
              rw [exec_bind, exec_claimUnique]
              cases claimKeys m e (takenIn s key) m.uniqueKeys <;> rfl

/-- `insert` fails as its plan does, without writing, or stores the entity as planned. -/
theorem exec_insert (free : s.failing = []) (reg : Registry α) (kind : EntityKind α) (e : α) :
    (insert reg kind e).exec s =
      match insertPlan reg kind e s with
      | .ok (key, indexes) => (.ok (), s.store key (kind.codec.encode e) indexes)
      | .error err => (.error err, s) := by
  rw [exec_insert_eq_plan]
  cases insertPlan reg kind e s with
  | error err => rfl
  | ok plan => exact exec_write free kind e plan.1 plan.2

/-- `put` fails as its plan does, without writing, or stores the entity as planned. -/
theorem exec_put (free : s.failing = []) (reg : Registry α) (kind : EntityKind α) (e : α) :
    (put reg kind e).exec s =
      match putPlan reg kind e s with
      | .ok (key, indexes) => (.ok (), s.store key (kind.codec.encode e) indexes)
      | .error err => (.error err, s) := by
  rw [exec_put_eq_plan]
  cases putPlan reg kind e s with
  | error err => rfl
  | ok plan => exact exec_write free kind e plan.1 plan.2

/-- What `delete` reads before it erases: the mapping, the primary key and the stored entity, or
why it refuses. -/
def deletePlan (reg : Registry α) (kind : EntityKind α) (id : Key) (s : Stub) :
    Except StateError (Mapping α × Key × α) := do
  let m ← reg.mapping kind
  let key ← m.keyFor id
  let stored ← readAt kind s key
  return (m, key, stored)

theorem deletePlan_eq_ok {reg : Registry α} {kind : EntityKind α} {id : Key} {m : Mapping α}
    {key : Key} {stored : α} (planned : deletePlan reg kind id s = .ok (m, key, stored)) :
    reg.mapping kind = .ok m ∧ m.keyFor id = .ok key ∧ readAt kind s key = .ok stored := by
  simp only [deletePlan, Except.bind_eq_ok, Except.pure_eq, Except.ok.injEq,
    Prod.mk.injEq] at planned
  obtain ⟨m', mapped, key', keyed, stored', read, rfl, rfl, rfl⟩ := planned
  exact ⟨mapped, keyed, read⟩

/-- `delete` fails as its plan does, without erasing anything, or goes on to erase the key and
the index entries of the entity the plan read. -/
theorem exec_delete (reg : Registry α) (kind : EntityKind α) (id : Key) :
    (delete reg kind id).exec s =
      match deletePlan reg kind id s with
      | .ok (m, key, stored) =>
        (deleteRaw key >>= fun _ => eraseIndexes m stored m.uniqueKeys).exec s
      | .error err => (.error err, s) := by
  rw [delete, deletePlan, exec_bind, exec_lift]
  cases reg.mapping kind with
  | error err => rfl
  | ok m =>
      dsimp only [Except.ok_bind]
      rw [exec_bind, exec_lift]
      cases m.keyFor id with
      | error err => rfl
      | ok key =>
          dsimp only [Except.ok_bind]
          rw [exec_bind, exec_getAt]
          cases readAt kind s key <;> rfl

theorem exec_delete_of_error {reg : Registry α} {kind : EntityKind α} {id : Key} {err : StateError}
    (refused : deletePlan reg kind id s = .error err) :
    (delete reg kind id).exec s = (.error err, s) := by
  rw [exec_delete, refused]

/-- Once its plan succeeds and the stored entity's unique values all form keys, `delete` erases
the key and every index entry of the stored entity. -/
theorem exec_delete_of_ok (free : s.failing = []) {reg : Registry α} {kind : EntityKind α}
    {id : Key} {m : Mapping α} {key : Key} {stored : α} {indexes : List Key}
    (planned : deletePlan reg kind id s = .ok (m, key, stored))
    (composed : List.Forall₂ (fun u index => m.indexKey u (u.extract stored) = .ok index)
      m.uniqueKeys indexes) :
    (delete reg kind id).exec s = (.ok (), s.discard key indexes) := by
  rw [exec_delete, planned]
  dsimp only
  rw [exec_bind, exec_deleteRaw free]
  dsimp only
  rw [exec_eraseIndexes (s := { s with entries := Stub.remove key.toComposite s.entries }) free m
    stored composed]
  rfl

end Writes

end LedgerOp

end Chaincode
