import Chaincode.Proofs.State.Index
import Chaincode.Proofs.KeyOrder

/-!
# Listing the entities of a type

`list` decodes the entries of a scan over the encoding of its type's namespace, and `listWith`
those of a scan over the encoding of a partial identifier behind the namespace. The partial
identifier is checked first (one to as many segments as there are key fields, none holding the
separator), and a refused one is answered with the failure that blames it, whatever the ledger
holds.

On a sorted ledger a scan is the entries under its start in ledger order
(`Stub.scan_eq_filter`), so a listing decodes exactly those entries in ascending key order and
answers the first failure to decode. Every typed operation keeps a sorted ledger sorted
(`StateOp.keepsSorted_run`).

On a consistent ledger the entries under a type's namespace are its primary entries and nothing
else: neither an index namespace nor another type's namespace lies under it, since the encoding
ends the namespace segment with a separator. So in every state that typed operations reach from
the empty ledger, a listing is the stored entities of its type in primary key order
(`ListsStored`), and a listing under a partial identifier is the part of it whose primary keys
extend that identifier.
-/

namespace Chaincode

variable {α β γ : Type}

/-! ## Sorted ledgers stay sorted -/

namespace LedgerOp

/-- An operation that leaves every sorted ledger sorted, whether it succeeds or fails. -/
def KeepsSorted (x : LedgerOp β) : Prop := ∀ s : Stub, s.Sorted → (x.exec s).2.Sorted

theorem ReadOnly.keepsSorted {x : LedgerOp β} (readOnly : ReadOnly x) : KeepsSorted x := by
  intro s sorted
  rw [readOnly s]
  exact sorted

theorem KeepsSorted.bind {x : LedgerOp β} {f : β → LedgerOp γ} (first : KeepsSorted x)
    (rest : ∀ b, KeepsSorted (f b)) : KeepsSorted (x >>= f) := by
  intro s sorted
  have kept := first s sorted
  rw [exec_bind]
  rcases ran : x.exec s with ⟨result, s'⟩
  rw [ran] at kept
  cases result with
  | ok b => exact rest b s' kept
  | error e => exact kept

theorem keepsSorted_putBytes (k : Key) (b : Bytes) : KeepsSorted (putBytes k b) := by
  intro s sorted
  rw [putBytes, exec_bind, exec_get]
  dsimp only
  cases stored : s.put k.toComposite b with
  | ok s' => exact sorted.put stored
  | error e => exact sorted

theorem keepsSorted_deleteRaw (k : Key) : KeepsSorted (deleteRaw k) := by
  intro s sorted
  rw [deleteRaw, exec_bind, exec_get]
  dsimp only
  cases erased : s.erase k.toComposite with
  | ok s' => exact sorted.erase erased
  | error e => exact sorted

theorem keepsSorted_write (kind : EntityKind α) (e : α) (key : Key) (indexes : List Key) :
    KeepsSorted (write kind e key indexes) := by
  refine (keepsSorted_putBytes key _).bind fun _ => ?_
  induction indexes with
  | nil => exact (readOnly_pure _).keepsSorted
  | cons index rest ih => exact (keepsSorted_putBytes index _).bind fun _ => ih

theorem keepsSorted_eraseIndexes (m : Mapping α) (stored : α) (keys : List (UniqueKey α)) :
    KeepsSorted (eraseIndexes m stored keys) := by
  induction keys with
  | nil => exact (readOnly_pure _).keepsSorted
  | cons u rest ih =>
    exact (readOnly_lift _).keepsSorted.bind fun index =>
      (keepsSorted_deleteRaw index).bind fun _ => ih

theorem keepsSorted_insert (reg : Registry α) (kind : EntityKind α) (e : α) :
    KeepsSorted (insert reg kind e) := by
  intro s sorted
  rw [exec_insert_eq_plan]
  cases insertPlan reg kind e s with
  | error err => exact sorted
  | ok plan => exact keepsSorted_write kind e plan.1 plan.2 s sorted

theorem keepsSorted_put (reg : Registry α) (kind : EntityKind α) (e : α) :
    KeepsSorted (put reg kind e) := by
  intro s sorted
  rw [exec_put_eq_plan]
  cases putPlan reg kind e s with
  | error err => exact sorted
  | ok plan => exact keepsSorted_write kind e plan.1 plan.2 s sorted

theorem keepsSorted_delete (reg : Registry α) (kind : EntityKind α) (id : Key) :
    KeepsSorted (delete reg kind id) := by
  intro s sorted
  rw [exec_delete]
  cases deletePlan reg kind id s with
  | error err => exact sorted
  | ok plan =>
    exact ((keepsSorted_deleteRaw plan.2.1).bind fun _ =>
      keepsSorted_eraseIndexes plan.1 plan.2.2 plan.1.uniqueKeys) s sorted

end LedgerOp

/-- Every typed operation leaves a sorted ledger sorted. -/
theorem StateOp.keepsSorted_run (reg : Registry α) (op : StateOp α) :
    LedgerOp.KeepsSorted (op.run reg) := by
  cases op
  case insert kind e =>
    exact (LedgerOp.keepsSorted_insert reg kind e).bind fun _ =>
      (LedgerOp.readOnly_pure _).keepsSorted
  case put kind e =>
    exact (LedgerOp.keepsSorted_put reg kind e).bind fun _ =>
      (LedgerOp.readOnly_pure _).keepsSorted
  case delete kind id =>
    exact (LedgerOp.keepsSorted_delete reg kind id).bind fun _ =>
      (LedgerOp.readOnly_pure _).keepsSorted
  all_goals exact (StateOp.readOnly_run reg _ rfl).keepsSorted

/-- A run of typed operations leaves a sorted ledger sorted. -/
theorem sorted_runOps (reg : Registry α) (ops : List (StateOp α)) {s : Stub}
    (sorted : s.Sorted) : (runOps reg ops s).Sorted := by
  induction ops generalizing s with
  | nil => exact sorted
  | cons op rest ih => exact ih (StateOp.keepsSorted_run reg op s sorted)

/-! ## Lookups in a sorted ledger -/

namespace Stub

theorem mem_of_get? {s : Stub} {k : String} {b : Bytes} (found : s.get? k = some b) :
    (k, b) ∈ s.entries := by
  obtain ⟨before, after, split, -⟩ := List.lookup_eq_some_iff.mp found
  rw [split]
  exact List.mem_append_right before List.mem_cons_self

/-- In entries sorted strictly by key, an entry is the one its key finds. -/
theorem lookup_of_mem {entries : List (String × Bytes)}
    (sorted : entries.Pairwise fun e f => e.1 < f.1) {k : String} {b : Bytes}
    (mem : (k, b) ∈ entries) : entries.lookup k = some b := by
  induction entries with
  | nil => cases mem
  | cons entry rest ih =>
    obtain ⟨least, sortedRest⟩ := List.pairwise_cons.mp sorted
    obtain ⟨k', b'⟩ := entry
    rw [lookup_cons_eq_ite]
    rcases List.mem_cons.mp mem with same | later
    · cases same
      exact if_pos rfl
    · have differ : k ≠ k' := fun same => String.lt_irrefl k' (same ▸ least (k, b) later)
      rw [if_neg differ]
      exact ih sortedRest later

theorem Sorted.get?_of_mem {s : Stub} (sorted : s.Sorted) {k : String} {b : Bytes}
    (mem : (k, b) ∈ s.entries) : s.get? k = some b :=
  lookup_of_mem sorted mem

end Stub

/-! ## What a listing runs -/

namespace LedgerOp

/-- An entry's bytes read as an entity of a kind, or the conversion failure. -/
def decodeEntry (kind : EntityKind α) (entry : String × Bytes) : Except StateError α :=
  (kind.codec.decode entry.2).mapError .conversion

/-- Decoding entries decodes each in order and stops at the first failure, leaving the ledger as
it is. -/
theorem exec_decodeAll (kind : EntityKind α) (entries : List (String × Bytes)) (s : Stub) :
    (decodeAll kind entries).exec s = (entries.mapM (decodeEntry kind), s) := by
  induction entries with
  | nil => rfl
  | cons entry rest ih =>
    obtain ⟨k, b⟩ := entry
    rw [decodeAll, exec_bind, exec_decode, List.mapM_cons]
    simp only [decodeEntry]
    cases (kind.codec.decode b).mapError StateError.conversion with
    | error e => rfl
    | ok v =>
      dsimp only [Except.ok_bind]
      rw [exec_bind, ih]
      cases rest.mapM (decodeEntry kind) <;> rfl

theorem exec_scan (kind : EntityKind α) (start : Key) (s : Stub) :
    (scan kind start).exec s = ((s.scan start.toComposite).mapM (decodeEntry kind), s) := by
  rw [scan, exec_bind, exec_get]
  exact exec_decodeAll kind _ s

variable {reg : Registry α} {kind : EntityKind α} {m : Mapping α}

/-- `list` scans under the encoding of the namespace of its type's mapping. -/
theorem exec_list (found : reg.mapping kind = .ok m) (s : Stub) :
    (list reg kind).exec s =
      ((s.scan m.namespaceKey.toComposite).mapM (decodeEntry kind), s) := by
  rw [list, exec_bind, exec_lift, found]
  exact exec_scan kind m.namespaceKey s

/-- `listWith` scans under the encoding of the key prefix of an accepted partial identifier. -/
theorem exec_listWith (found : reg.mapping kind = .ok m) {part pre : Key}
    (prefixed : m.prefixFor part = .ok pre) (s : Stub) :
    (listWith reg kind part).exec s = ((s.scan pre.toComposite).mapM (decodeEntry kind), s) := by
  rw [listWith, exec_bind, exec_lift, found]
  dsimp only
  rw [exec_bind, exec_lift, prefixed]
  exact exec_scan kind pre s

/-- `listWith` answers a refused partial identifier with its refusal, before it reads. -/
theorem exec_listWith_of_refused (found : reg.mapping kind = .ok m) {part : Key}
    {err : StateError} (refused : m.prefixFor part = .error err) (s : Stub) :
    (listWith reg kind part).exec s = (.error err, s) := by
  rw [listWith, exec_bind, exec_lift, found]
  dsimp only
  rw [exec_bind, exec_lift, refused]

end LedgerOp

/-! ## Listings of a consistent ledger -/

theorem Text.startsWith_trans {a b c : String} (first : Text.startsWith a b = true)
    (second : Text.startsWith b c = true) : Text.startsWith a c = true := by
  rw [Text.startsWith, List.isPrefixOf_iff_prefix] at first second ⊢
  exact second.trans first

namespace Mapping

variable (m : Mapping α)

/-- A key behind the namespace lies under the encoding of the namespace. -/
theorem startsWith_namespaceKey (k : Key) :
    Text.startsWith (k.prepend m.ns).toComposite m.namespaceKey.toComposite = true :=
  Key.compositeStartsWith_of_startsWith (by simp [Key.startsWith, Key.prepend, namespaceKey,
    Key.single])

theorem keyFor_startsWith_namespaceKey {id key : Key} (keyed : m.keyFor id = .ok key) :
    Text.startsWith key.toComposite m.namespaceKey.toComposite = true := by
  obtain ⟨-, -, rfl⟩ := m.keyFor_eq_ok_iff.mp keyed
  exact m.startsWith_namespaceKey id

theorem prefixFor_startsWith_namespaceKey {part pre : Key} (prefixed : m.prefixFor part = .ok pre) :
    Text.startsWith pre.toComposite m.namespaceKey.toComposite = true := by
  obtain ⟨-, -, rfl⟩ := m.prefixFor_eq_ok_iff.mp prefixed
  exact m.startsWith_namespaceKey part

end Mapping

/-- The ledger entry of an entity stored at a key. -/
def storedEntry (kind : EntityKind α) (p : Key × α) : String × Bytes :=
  (p.1.toComposite, kind.codec.encode p.2)

/-- Entries that hold the encodings of entities decode to those entities, in order. -/
theorem mapM_decodeEntry_storedEntry {kind : EntityKind α}
    (roundTrips : ∀ e, kind.codec.decode (kind.codec.encode e) = .ok e)
    (stored : List (Key × α)) :
    (stored.map (storedEntry kind)).mapM (LedgerOp.decodeEntry kind) =
      .ok (stored.map Prod.snd) := by
  induction stored with
  | nil => rfl
  | cons p rest ih =>
    simp [List.mapM_cons, LedgerOp.decodeEntry, storedEntry, roundTrips, ih, Except.mapError]

section Consistent

variable {reg : Registry α} {s : Stub} {m : Mapping α}

/-- On a consistent ledger, an entry under the namespace of a registered mapping is the
encoding of an entity stored at its own primary key. -/
theorem Consistent.primary_of_startsWith (wf : reg.WellFormed) (inv : Consistent reg s)
    (mem : m ∈ reg.mappings) {k : String} {b : Bytes} (found : s.get? k = some b)
    (under : Text.startsWith k m.namespaceKey.toComposite = true) :
    ∃ id key e, m.keyFor id = .ok key ∧ k = key.toComposite ∧ b = m.kind.codec.encode e ∧
      m.primaryKey e = .ok key := by
  obtain ⟨id, key, keyed, rfl⟩ :=
    inv.composed_of_startsWith wf mem (show m.HasRole .primary from trivial) found under
  obtain ⟨e, encoded, primary, -⟩ := inv.primary m mem id key b keyed found
  exact ⟨id, key, e, keyed, rfl, encoded, primary⟩

/-- The entries under a type's namespace in a sorted consistent ledger are, in ledger order, the
encodings of entities stored at their own primary keys. -/
theorem Consistent.exists_stored (wf : reg.WellFormed) (inv : Consistent reg s)
    (sorted : s.Sorted) (mem : m ∈ reg.mappings) :
    ∃ stored : List (Key × α),
      (s.entries.filter fun e => Text.startsWith e.1 m.namespaceKey.toComposite) =
        stored.map (storedEntry m.kind) ∧
      ∀ p ∈ stored, m.primaryKey p.2 = .ok p.1 := by
  have each : ∀ entry ∈ s.entries.filter fun e => Text.startsWith e.1 m.namespaceKey.toComposite,
      ∃ p : Key × α, entry = storedEntry m.kind p ∧ m.primaryKey p.2 = .ok p.1 := by
    intro ⟨k, b⟩ kept
    obtain ⟨held, under⟩ := List.mem_filter.mp kept
    obtain ⟨-, key, e, -, atKey, encoded, primary⟩ :=
      inv.primary_of_startsWith wf mem (sorted.get?_of_mem held) under
    exact ⟨(key, e), Prod.ext atKey encoded, primary⟩
  obtain ⟨stored, paired⟩ := exists_forall₂ each
  have same : List.Forall₂ (· = ·) (s.entries.filter fun e =>
      Text.startsWith e.1 m.namespaceKey.toComposite) (stored.map (storedEntry m.kind)) :=
    List.forall₂_map_right_iff.mpr (paired.imp fun _ _ both => both.1)
  refine ⟨stored, List.forall₂_eq_eq_eq ▸ same, fun p listed => ?_⟩
  obtain ⟨_, -, -, primary⟩ := exists_of_forall₂_right paired listed
  exact primary

variable {stored : List (Key × α)}
  (filtered : (s.entries.filter fun e => Text.startsWith e.1 m.namespaceKey.toComposite) =
    stored.map (storedEntry m.kind))
  (primary : ∀ p ∈ stored, m.primaryKey p.2 = .ok p.1)
include filtered primary

/-- Stored entities listed in ledger order are in ascending primary key order: on
separator-free keys the encoding preserves the order. -/
theorem stored_ordered (wf : reg.WellFormed) (sorted : s.Sorted) (mem : m ∈ reg.mappings) :
    stored.Pairwise fun p q => compare p.1 q.1 = .lt := by
  have encoded : (stored.map (storedEntry m.kind)).Pairwise fun e f => e.1 < f.1 :=
    filtered ▸ sorted.sublist List.filter_sublist
  rw [List.pairwise_map] at encoded
  refine encoded.imp_of_mem fun {p q} listedP listedQ below => ?_
  rw [Key.compare_eq_compare_toComposite (separatorFree_of_keyFor wf mem (primary p listedP))
    (separatorFree_of_keyFor wf mem (primary q listedQ))]
  exact compareOfLessAndEq_eq_lt.mpr below

/-- The stored entities are exactly those read back at primary keys of the type. -/
theorem mem_stored_iff (wf : reg.WellFormed) (roundTrips : reg.RoundTrips) (sorted : s.Sorted)
    (mem : m ∈ reg.mappings) {key : Key} {e : α} :
    (key, e) ∈ stored ↔ ∃ id, m.keyFor id = .ok key ∧ LedgerOp.readAt m.kind s key = .ok e := by
  constructor
  · intro listed
    have held : storedEntry m.kind (key, e) ∈ s.entries := by
      have kept := List.mem_map_of_mem (f := storedEntry m.kind) listed
      rw [← filtered] at kept
      exact (List.mem_filter.mp kept).1
    refine ⟨m.primary e, primary _ listed, ?_⟩
    rw [LedgerOp.readAt, sorted.get?_of_mem held]
    simp [roundTrips m mem e, Except.mapError]
  · rintro ⟨id, keyed, read⟩
    rw [LedgerOp.readAt] at read
    cases found : s.get? key.toComposite with
    | none =>
      rw [found] at read
      cases read
    | some b =>
      rw [found] at read
      have kept : (key.toComposite, b) ∈ stored.map (storedEntry m.kind) := by
        rw [← filtered]
        exact List.mem_filter.mpr ⟨Stub.mem_of_get? found, m.keyFor_startsWith_namespaceKey keyed⟩
      obtain ⟨⟨key', e'⟩, listed, same⟩ := List.mem_map.mp kept
      simp only [storedEntry, Prod.mk.injEq] at same
      obtain ⟨sameKey, rfl⟩ := same
      obtain rfl : key' = key := key_eq_of_composite wf mem mem (primary _ listed) keyed sameKey
      simp only [roundTrips m mem e', Except.mapError, Except.ok.injEq] at read
      exact read ▸ listed

/-- Under a partial identifier lie, in ledger order, the entries of the stored entities whose
primary keys extend it segment by segment. -/
theorem filter_prefixFor (wf : reg.WellFormed) (mem : m ∈ reg.mappings) {part pre : Key}
    (prefixed : m.prefixFor part = .ok pre) :
    (s.entries.filter fun e => Text.startsWith e.1 pre.toComposite) =
      (stored.filter fun p => p.1.startsWith pre).map (storedEntry m.kind) := by
  -- under the prefix is under the namespace too
  have narrower : (s.entries.filter fun e => Text.startsWith e.1 pre.toComposite) =
      (s.entries.filter fun e => Text.startsWith e.1 m.namespaceKey.toComposite).filter
        fun e => Text.startsWith e.1 pre.toComposite := by
    rw [List.filter_filter]
    refine List.filter_congr fun e _ => ?_
    cases under : Text.startsWith e.1 pre.toComposite with
    | false => rfl
    | true =>
      simp [Text.startsWith_trans under (m.prefixFor_startsWith_namespaceKey prefixed)]
  have freePre : pre.SeparatorFree := by
    obtain ⟨-, free, rfl⟩ := m.prefixFor_eq_ok_iff.mp prefixed
    exact Key.separatorFree_prepend.mpr ⟨(wf.valid m mem).ns_free, free⟩
  rw [narrower, filtered, List.filter_map]
  congr 1
  refine List.filter_congr fun p listed => ?_
  show Text.startsWith p.1.toComposite pre.toComposite = p.1.startsWith pre
  exact (Bool.eq_iff_iff.mpr (Key.startsWith_iff_compositeStartsWith
    (separatorFree_of_keyFor wf mem (primary p listed)) freePre)).symm

end Consistent

/-- The listings of a type on a ledger are its stored entities: `stored` holds exactly the
entities read back at primary keys of the type's mapping, each at its own primary key, in
ascending key order; `list` answers them in that order, and `listWith` answers, for a partial
identifier it accepts, those whose primary keys extend the identifier's key prefix. -/
structure ListsStored (reg : Registry α) (kind : EntityKind α) (m : Mapping α) (s : Stub)
    (stored : List (Key × α)) : Prop where
  mem_iff : ∀ key e,
    (key, e) ∈ stored ↔ ∃ id, m.keyFor id = .ok key ∧ LedgerOp.readAt kind s key = .ok e
  primary : ∀ p ∈ stored, m.primaryKey p.2 = .ok p.1
  ordered : stored.Pairwise fun p q => compare p.1 q.1 = .lt
  lists : (LedgerOp.list reg kind).exec s = (.ok (stored.map Prod.snd), s)
  listsWith : ∀ part pre, m.prefixFor part = .ok pre →
    (LedgerOp.listWith reg kind part).exec s =
      (.ok ((stored.filter fun p => p.1.startsWith pre).map Prod.snd), s)

/-- On a sorted consistent ledger the listings of a typed kind are its stored entities. -/
theorem Consistent.listsStored {reg : Registry α} {s : Stub} (wf : reg.WellFormed)
    (roundTrips : reg.RoundTrips) (inv : Consistent reg s) (sorted : s.Sorted)
    {kind : EntityKind α} (typed : reg.Typed kind) {m : Mapping α}
    (found : reg.mapping kind = .ok m) :
    ∃ stored, ListsStored reg kind m s stored := by
  obtain ⟨mem, rfl⟩ := typed.mem_of_mapping_eq_ok found
  obtain ⟨stored, filtered, primary⟩ := inv.exists_stored wf sorted mem
  have decoded := mapM_decodeEntry_storedEntry (roundTrips m mem)
  refine ⟨stored, ⟨fun key e => mem_stored_iff filtered primary wf roundTrips sorted mem,
    primary, stored_ordered filtered primary wf sorted mem, ?_, fun part pre prefixed => ?_⟩⟩
  · rw [LedgerOp.exec_list found, Stub.scan_eq_filter sorted, filtered, decoded]
  · rw [LedgerOp.exec_listWith found prefixed, Stub.scan_eq_filter sorted,
      filter_prefixFor filtered primary wf mem prefixed, decoded]

/-- Listing is a scan under the encoding of a key prefix. On every sorted ledger `list` decodes,
in order and up to the first failure, exactly the entries whose keys start with the encoding of
its type's namespace, which lie in ascending bytewise key order; `listWith` does the same under
the encoding of the partial identifier behind the namespace when the identifier has one to as
many segments as there are key fields and no segment holds the separator, and otherwise answers,
on every ledger, the failure that blames the identifying value. Typed operations keep a ledger
sorted, and in every state they reach from the empty ledger, under a registry built by
successful registrations whose codecs round trip, the listings of a typed kind are its stored
entities in primary key order, `listWith` answering those whose keys extend the partial
identifier. -/
theorem listings_are_prefix_scans :
    (∀ (reg : Registry α) (kind : EntityKind α) (m : Mapping α) (s : Stub),
      reg.mapping kind = .ok m → s.Sorted →
      (LedgerOp.list reg kind).exec s =
        ((s.entries.filter fun e => Text.startsWith e.1 m.namespaceKey.toComposite).mapM
          (LedgerOp.decodeEntry kind), s) ∧
      (s.entries.filter fun e => Text.startsWith e.1 m.namespaceKey.toComposite).Pairwise
        fun e f => compare (Bytes.ofString e.1) (Bytes.ofString f.1) = .lt) ∧
    (∀ (reg : Registry α) (kind : EntityKind α) (m : Mapping α) (s : Stub) (part : Key),
      reg.mapping kind = .ok m → s.Sorted →
      1 ≤ part.length → part.length ≤ m.keyFields.length → part.SeparatorFree →
      (LedgerOp.listWith reg kind part).exec s =
        ((s.entries.filter fun e => Text.startsWith e.1 (part.prepend m.ns).toComposite).mapM
          (LedgerOp.decodeEntry kind), s) ∧
      (s.entries.filter fun e => Text.startsWith e.1 (part.prepend m.ns).toComposite).Pairwise
        fun e f => compare (Bytes.ofString e.1) (Bytes.ofString f.1) = .lt) ∧
    (∀ (reg : Registry α) (kind : EntityKind α) (m : Mapping α) (part : Key),
      reg.mapping kind = .ok m →
      ¬ (1 ≤ part.length ∧ part.length ≤ m.keyFields.length ∧ part.SeparatorFree) →
      ∃ reason, ∀ s, (LedgerOp.listWith reg kind part).exec s =
        (.error (.invalidIdentifyingValue m.entity reason), s)) ∧
    (∀ (reg : Registry α) (ops : List (StateOp α)) (s : Stub), s.Sorted →
      (runOps reg ops s).Sorted) ∧
    (∀ (ms : List (Mapping α)) (reg : Registry α) (ops : List (StateOp α))
      (kind : EntityKind α) (m : Mapping α),
      ms.foldlM Registry.register Registry.empty = .ok reg → reg.RoundTrips →
      (∀ op ∈ ops, reg.Typed op.kind) → reg.Typed kind → reg.mapping kind = .ok m →
      ∃ stored, ListsStored reg kind m (runOps reg ops Stub.empty) stored) := by
  refine ⟨fun reg kind m s found sorted => ?_,
    fun reg kind m s part found sorted wide narrow free => ?_,
    fun reg kind m part found refused => ?_, fun reg ops s sorted => sorted_runOps reg ops sorted,
    fun ms reg ops kind m built roundTrips typed typedKind found => ?_⟩
  · exact ⟨by rw [LedgerOp.exec_list found, Stub.scan_eq_filter sorted],
      Stub.Sorted.pairwise_bytes (sorted.sublist List.filter_sublist)⟩
  · have prefixed : m.prefixFor part = .ok (part.prepend m.ns) :=
      m.prefixFor_eq_ok_iff.mpr ⟨⟨wide, narrow⟩, free, rfl⟩
    exact ⟨by rw [LedgerOp.exec_listWith found prefixed, Stub.scan_eq_filter sorted],
      Stub.Sorted.pairwise_bytes (sorted.sublist List.filter_sublist)⟩
  · -- the prefix check refuses before the scan, so the answer is the same on every ledger
    cases prefixed : m.prefixFor part with
    | ok pre =>
      obtain ⟨width, free, -⟩ := m.prefixFor_eq_ok_iff.mp prefixed
      exact absurd ⟨width.1, width.2, free⟩ refused
    | error err =>
      obtain ⟨reason, rfl⟩ := m.prefixFor_error_blames prefixed
      exact ⟨reason, LedgerOp.exec_listWith_of_refused found prefixed⟩
  · have wf := Registry.wellFormed_of_built built
    have inv := (consistent_empty reg).runOps wf roundTrips typed
    exact inv.listsStored wf roundTrips (sorted_runOps reg ops Stub.sorted_empty) typedKind found

/-- Users after a run that inserts, rewrites, reads by handle and deletes: their listings are
the stored users, and a partial identifier of no segment is refused before any read. -/
theorem userListings_are_stored :
    ∃ reg : Registry String, [userMapping].foldlM Registry.register Registry.empty = .ok reg ∧
      reg.mapping userMapping.kind = .ok userMapping ∧
      (∃ stored, ListsStored reg userMapping.kind userMapping (runOps reg userOps Stub.empty)
        stored) ∧
      ∃ reason, ∀ s, (LedgerOp.listWith reg userMapping.kind ⟨[]⟩).exec s =
        (.error (.invalidIdentifyingValue userMapping.entity reason), s) := by
  obtain ⟨reg, built, roundTrips, user⟩ := userRegistry_spec
  have registered : userMapping ∈ reg.mappings := by
    rw [Registry.mappings_of_foldlM_register built]
    simp [Registry.empty]
  have found : reg.mapping userMapping.kind = .ok userMapping :=
    (Registry.wellFormed_of_built built).mapping_eq_ok registered
  have typed : ∀ op ∈ userOps, reg.Typed op.kind := by
    simpa [userOps, StateOp.kind] using user
  exact ⟨reg, built, found,
    listings_are_prefix_scans.2.2.2.2 [userMapping] reg userOps userMapping.kind userMapping built
      roundTrips typed user found,
    listings_are_prefix_scans.2.2.1 reg userMapping.kind userMapping ⟨[]⟩ found
      (by simp [Key.length])⟩

end Chaincode
