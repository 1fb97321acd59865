import Chaincode.Proofs.State.Index

/-!
# Writes on any ledger

A ledger may refuse writes under some prefixes. `Stub.applyWrites` says what a sequence of writes
does to such a ledger: the writes before the first refused one are made, in order, and the
refusal is the answer; when none is refused, all are made. No other entry changes.

`insert` and `put` decide everything before they write (`insertPlan`, `putPlan`). On every ledger a
refusal leaves the ledger as it was, and otherwise they write the entity under its primary key and
then, in declaration order, each index entry pointing at that key (`entityWrites`), so a ledger
fault part-way keeps exactly the writes before it. The refusals come in a fixed order of
precedence (`Refused`): the domain rule, the registration of the type, the primary key, the
primary key being free (for `insert` only), then the unique keys in declaration order, each
forming an index key that is free or already held for this entity.

`delete` reads the stored entity before it erases anything, but composes its index keys only as
it erases them, after the primary entry. A stored entity with a unique value that forms no key,
which only a raw write can store, is therefore left half deleted (`indexKeysUpTo`,
`Stub.eraseThen`).
-/

namespace Chaincode

variable {α : Type}

namespace Stub

/-- A write to one ledger entry: bytes to store, or `none` to erase the entry. -/
abbrev Write := String × Option Bytes

/-- Makes a write on the entries. -/
def Write.applyTo (w : Write) (entries : List (String × Bytes)) : List (String × Bytes) :=
  match w.2 with
  | some b => upsert w.1 b entries
  | none => remove w.1 entries

/-- Whether the ledger accepts a write under a key: no refused prefix starts the key. -/
def accepts (s : Stub) (key : String) : Bool := (s.failing.find? (Text.startsWith key)).isNone

/-- Makes writes in order up to the first the ledger refuses: the writes before it are made and
its refusal is the answer; when the ledger refuses none, all are made. -/
def applyWrites (s : Stub) (writes : List Write) : Except StubError Unit × Stub :=
  let made := writes.takeWhile fun w => s.accepts w.1
  (match writes.dropWhile fun w => s.accepts w.1 with
    | [] => .ok ()
    | w :: _ => s.writeCheck w.1,
   { s with entries := made.foldl (fun entries w => w.applyTo entries) s.entries })

theorem writeCheck_eq_ok_iff (s : Stub) (key : String) :
    s.writeCheck key = .ok () ↔ s.accepts key = true := by
  unfold writeCheck accepts
  cases s.failing.find? (Text.startsWith key) <;> simp

@[simp] theorem accepts_entries (s : Stub) (entries : List (String × Bytes)) (key : String) :
    { s with entries := entries }.accepts key = s.accepts key := rfl

@[simp] theorem writeCheck_entries (s : Stub) (entries : List (String × Bytes)) (key : String) :
    { s with entries := entries }.writeCheck key = s.writeCheck key := rfl

/-- A ledger that refuses a write answers the refusal. -/
theorem writeCheck_of_refused {s : Stub} {key : String} (refused : s.accepts key = false) :
    ∃ e, s.writeCheck key = .error e := by
  cases checked : s.writeCheck key with
  | error e => exact ⟨e, rfl⟩
  | ok u => simp [(writeCheck_eq_ok_iff s key).mp checked] at refused

/-- The first write decides: refused, nothing is made; accepted, the rest follow it. -/
theorem applyWrites_cons (s : Stub) (w : Write) (rest : List Write) :
    s.applyWrites (w :: rest) =
      if s.accepts w.1 then { s with entries := w.applyTo s.entries }.applyWrites rest
      else (s.writeCheck w.1, s) := by
  by_cases accepted : s.accepts w.1 = true <;> simp [applyWrites, accepted]

@[simp] theorem applyWrites_nil (s : Stub) : s.applyWrites [] = (.ok (), s) := rfl

theorem lookup_foldl_applyTo (writes : List Write) (entries : List (String × Bytes)) (k : String)
    (elsewhere : ∀ w ∈ writes, w.1 ≠ k) :
    (writes.foldl (fun entries w => w.applyTo entries) entries).lookup k = entries.lookup k := by
  induction writes generalizing entries with
  | nil => rfl
  | cons w rest ih =>
    rw [List.foldl_cons, ih _ fun w' mem => elsewhere w' (List.mem_cons_of_mem w mem)]
    have other : k ≠ w.1 := fun same => elsewhere w List.mem_cons_self same.symm
    unfold Write.applyTo
    cases w.2 <;> simp [lookup_upsert, lookup_remove, other]

/-- Writes change no entry they do not write. -/
theorem get?_applyWrites_of_not_mem (s : Stub) (writes : List Write) {k : String}
    (absent : k ∉ writes.map Prod.fst) : (s.applyWrites writes).2.get? k = s.get? k := by
  refine lookup_foldl_applyTo _ s.entries k fun w made same => absent ?_
  exact List.mem_map.mpr ⟨w, (List.takeWhile_sublist _).subset made, same⟩

/-- Writes that all go through leave exactly the entries that making all of them leaves. -/
theorem applyWrites_of_ok {s : Stub} {writes : List Write} {s' : Stub}
    (made : s.applyWrites writes = (.ok (), s')) :
    s' = { s with entries := writes.foldl (fun entries w => w.applyTo entries) s.entries } := by
  induction writes generalizing s with
  | nil => exact (Prod.mk.inj made).2.symm
  | cons w rest ih =>
    rw [applyWrites_cons] at made
    by_cases accepted : s.accepts w.1 = true
    · rw [if_pos accepted] at made
      exact ih made
    · obtain ⟨e, refused⟩ := writeCheck_of_refused (by simpa using accepted)
      rw [if_neg accepted, refused] at made
      cases made

/-- A ledger that refuses no write makes every write. -/
theorem applyWrites_of_failing_nil {s : Stub} (free : s.failing = []) (writes : List Write) :
    s.applyWrites writes =
      (.ok (), { s with entries := writes.foldl (fun entries w => w.applyTo entries) s.entries }) := by
  induction writes generalizing s with
  | nil => rfl
  | cons w rest ih =>
    have accepted : s.accepts w.1 = true := by simp [accepts, free]
    rw [applyWrites_cons, if_pos accepted, ih (s := { s with entries := w.applyTo s.entries }) free]
    rfl

/-- Erasing keys one after another leaves every other entry as it was. -/
theorem lookup_foldl_erase (keys : List Key) (entries : List (String × Bytes)) (k : String) :
    ((keys.map fun key => ((key.toComposite, none) : Write)).foldl
        (fun entries (w : Write) => w.applyTo entries) entries).lookup k =
      if k ∈ keys.map Key.toComposite then none else entries.lookup k := by
  rw [List.foldl_map, ← lookup_foldl_remove]
  rfl

/-- Ledger faults as state failures. -/
def liftFault (r : Except StubError Unit × Stub) : Except StateError Unit × Stub :=
  (r.1.mapError .stub, r.2)

/-- Erases keys in order up to the first erase the ledger refuses, whose fault is the answer;
when all go through, the answer is the failure `malformed`, if any. -/
def eraseThen (s : Stub) (keys : List Key) (malformed : Option StateError) :
    Except StateError Unit × Stub :=
  match liftFault (s.applyWrites (keys.map fun k => (k.toComposite, none))) with
  | (.ok (), s') =>
    (match malformed with
      | some err => .error err
      | none => .ok (), s')
  | failed => failed

theorem eraseThen_cons (s : Stub) (k : Key) (keys : List Key)
    (malformed : Option StateError) :
    s.eraseThen (k :: keys) malformed =
      if s.accepts k.toComposite then
        { s with entries := remove k.toComposite s.entries }.eraseThen keys malformed
      else ((s.writeCheck k.toComposite).mapError .stub, s) := by
  unfold eraseThen
  rw [List.map_cons, applyWrites_cons]
  by_cases accepted : s.accepts k.toComposite = true
  · rw [if_pos accepted, if_pos accepted]
    rfl
  · obtain ⟨e, refused⟩ := writeCheck_of_refused (by simpa using accepted)
    rw [if_neg accepted, if_neg accepted]
    simp [liftFault, refused, Except.mapError]

end Stub

namespace LedgerOp

/-- Makes one write to the ledger: stores bytes under a key, or erases the key. -/
def writeEntry (k : Key) : Option Bytes → LedgerOp Unit
  | some b => putBytes k b
  | none => deleteRaw k

theorem exec_writeEntry (k : Key) (v : Option Bytes) (s : Stub) :
    (writeEntry k v).exec s = Stub.liftFault (s.applyWrites [(k.toComposite, v)]) := by
  rw [Stub.applyWrites_cons, Stub.applyWrites_nil]
  by_cases accepted : s.accepts k.toComposite = true
  · have checked := (Stub.writeCheck_eq_ok_iff s k.toComposite).mpr accepted
    rw [if_pos accepted]
    cases v <;> simp [writeEntry, putBytes, deleteRaw, exec_bind, Stub.put, Stub.erase, checked,
      Stub.liftFault, Stub.Write.applyTo, Except.mapError]
  · obtain ⟨e, refused⟩ := Stub.writeCheck_of_refused (by simpa using accepted)
    rw [if_neg accepted]
    cases v <;> simp [writeEntry, putBytes, deleteRaw, exec_bind, Stub.put, Stub.erase, refused,
      Stub.liftFault, Except.mapError]

/-- Writes made one after another are the writes `applyWrites` makes. -/
theorem exec_forM_writeEntry (ws : List (Key × Option Bytes)) (s : Stub) :
    (ws.forM fun w => writeEntry w.1 w.2).exec s =
      Stub.liftFault (s.applyWrites (ws.map fun w => (w.1.toComposite, w.2))) := by
  induction ws generalizing s with
  | nil => rfl
  | cons w rest ih =>
      rw [List.forM, exec_bind, exec_writeEntry, List.map_cons, Stub.applyWrites_cons,
        Stub.applyWrites_cons, Stub.applyWrites_nil]
      by_cases accepted : s.accepts w.1.toComposite = true
      · simp only [accepted, if_true, Stub.liftFault]
        exact ih _
      · simp only [accepted, Bool.false_eq_true, if_false, Stub.liftFault]
        obtain ⟨e, refused⟩ := Stub.writeCheck_of_refused (by simpa using accepted)
        simp [refused, Except.mapError]

/-- The writes that store an entity: its bytes under its key, then the key under each of its
index keys, in order. -/
def entityWrites (key : Key) (bytes : Bytes) (indexes : List Key) : List Stub.Write :=
  (key.toComposite, some bytes) ::
    indexes.map fun index => (index.toComposite, some (Bytes.ofString key.toComposite))

/-- Writing an entity makes its writes in order, up to the first the ledger refuses. -/
theorem exec_write_eq_applyWrites (kind : EntityKind α) (e : α) (key : Key) (indexes : List Key)
    (s : Stub) :
    (write kind e key indexes).exec s =
      Stub.liftFault (s.applyWrites (entityWrites key (kind.codec.encode e) indexes)) := by
  have sequence : write kind e key indexes =
      (((key, some (kind.codec.encode e)) ::
        indexes.map fun index => (index, some (Bytes.ofString key.toComposite))).forM
          fun w => writeEntry w.1 w.2) := by
    have stores : ∀ l : List Key,
        ((l.map fun index => (index, some (Bytes.ofString key.toComposite))).forM
          fun w => writeEntry w.1 w.2) =
          l.forM fun index => putBytes index (Bytes.ofString key.toComposite) := by
      intro l
      induction l with
      | nil => rfl
      | cons index rest ih => simp only [List.map_cons, List.forM, ih]; rfl
    simp only [write, List.forM, stores]
    rfl
  rw [sequence, exec_forM_writeEntry]
  simp [entityWrites, Function.comp_def]


/-! ## Claiming unique keys -/

/-- Claiming unique keys settles the first of them and goes on with the rest. -/
theorem claimKeys_cons (m : Mapping α) (e : α) (taken : Key → Bool) (u : UniqueKey α)
    (rest : List (UniqueKey α)) :
    claimKeys m e taken (u :: rest) =
      match m.indexKey u (u.extract e) with
      | .error err => .error err
      | .ok index =>
        if taken index then .error (.keyAlreadyExists index)
        else (claimKeys m e taken rest).map (index :: ·) := by
  rw [claimKeys]
  cases m.indexKey u (u.extract e) with
  | error err => rfl
  | ok index =>
    cases isTaken : taken index
    · simp only [Except.ok_bind, isTaken, Bool.false_eq_true, if_false]
      cases claimKeys m e taken rest <;> rfl
    · rfl

/-- Claiming succeeds exactly when each unique key in turn forms an index key that is not
taken. -/
theorem claimKeys_eq_ok_iff {m : Mapping α} {e : α} {taken : Key → Bool}
    {keys : List (UniqueKey α)} {indexes : List Key} :
    claimKeys m e taken keys = .ok indexes ↔
      List.Forall₂ (fun u index => m.indexKey u (u.extract e) = .ok index ∧ taken index = false)
        keys indexes := by
  refine ⟨claimKeys_eq_ok, fun claimed => ?_⟩
  induction claimed with
  | nil => rfl
  | @cons u index rest more here _ ih =>
    rw [claimKeys_cons, here.1]
    dsimp only
    rw [here.2, ih]
    rfl

/-- A list splits at a first bad element after good ones exactly when its head is bad, or its
head is good and its tail so splits. -/
theorem exists_first_cons_iff {β : Type} {good bad : β → Prop} {w : β} {rest : List β} :
    (∃ before u after, w :: rest = before ++ u :: after ∧ (∀ v ∈ before, good v) ∧ bad u) ↔
      bad w ∨ good w ∧
        ∃ before u after, rest = before ++ u :: after ∧ (∀ v ∈ before, good v) ∧ bad u := by
  constructor
  · rintro ⟨before, u, after, split, goodBefore, badU⟩
    cases before with
    | nil =>
      obtain ⟨rfl, rfl⟩ := List.cons.inj split
      exact .inl badU
    | cons v before =>
      obtain ⟨rfl, rfl⟩ := List.cons.inj split
      exact .inr ⟨goodBefore w List.mem_cons_self, before, u, after, rfl,
        fun v' mem => goodBefore v' (List.mem_cons_of_mem w mem), badU⟩
  · rintro (badW | ⟨goodW, before, u, after, rfl, goodBefore, badU⟩)
    · exact ⟨[], w, rest, rfl, by simp, badW⟩
    · refine ⟨w :: before, u, after, rfl, fun v mem => ?_, badU⟩
      rcases List.mem_cons.mp mem with rfl | later
      · exact goodW
      · exact goodBefore v later

/-- Claiming fails at the first unique key, in declaration order, whose value forms no index key
or whose index key is taken, with that key's failure. -/
theorem claimKeys_eq_error_iff {m : Mapping α} {e : α} {taken : Key → Bool}
    {keys : List (UniqueKey α)} {err : StateError} :
    claimKeys m e taken keys = .error err ↔
      ∃ before u after, keys = before ++ u :: after ∧
        (∀ v ∈ before, ∃ index, m.indexKey v (v.extract e) = .ok index ∧ taken index = false) ∧
        (m.indexKey u (u.extract e) = .error err ∨
          ∃ index, m.indexKey u (u.extract e) = .ok index ∧ taken index = true ∧
            err = .keyAlreadyExists index) := by
  induction keys with
  | nil =>
    simp only [claimKeys, reduceCtorEq, false_iff, not_exists, not_and]
    intro before u after split
    simp at split
  | cons w rest ih =>
    rw [claimKeys_cons, exists_first_cons_iff, ← ih]
    -- the first key decides unless it forms a free index key, and then the rest decides
    cases composed : m.indexKey w (w.extract e) with
    | error err' =>
      simp only [Except.error.injEq, reduceCtorEq, false_and, exists_false, or_false]
    | ok index =>
      cases isTaken : taken index with
      | true =>
        simp only [isTaken, if_true, Except.error.injEq, reduceCtorEq, Except.ok.injEq,
          exists_eq_left', true_and, false_or, Bool.true_eq_false, false_and, or_false]
        exact eq_comm
      | false =>
        have mapped : (claimKeys m e taken rest).map (index :: ·) = .error err ↔
            claimKeys m e taken rest = .error err := by
          cases claimKeys m e taken rest <;> simp [Except.map]
        simp only [isTaken, Bool.false_eq_true, if_false, mapped, reduceCtorEq, Except.ok.injEq,
          exists_eq_left', false_and, false_or, true_and]

theorem takenIn_eq_false_iff {s : Stub} {owner index : Key} :
    takenIn s owner index = false ↔
      ∀ b, s.get? index.toComposite = some b → b = Bytes.ofString owner.toComposite := by
  unfold takenIn
  cases s.get? index.toComposite <;> simp

theorem takenIn_eq_true_iff {s : Stub} {owner index : Key} :
    takenIn s owner index = true ↔
      ∃ b, s.get? index.toComposite = some b ∧ b ≠ Bytes.ofString owner.toComposite := by
  unfold takenIn
  cases s.get? index.toComposite <;> simp

/-! ## The order of precedence of refusals -/

/-- A unique key of the entity `e` can be claimed for the primary key `key`: its value forms the
index key `index`, and that index entry is free or already holds `key`. -/
def Claimable (m : Mapping α) (e : α) (s : Stub) (key : Key) (u : UniqueKey α) (index : Key) :
    Prop :=
  m.indexKey u (u.extract e) = .ok index ∧
    ∀ b, s.get? index.toComposite = some b → b = Bytes.ofString key.toComposite

theorem claimable_iff {m : Mapping α} {e : α} {s : Stub} {key : Key} {u : UniqueKey α}
    {index : Key} :
    Claimable m e s key u index ↔
      m.indexKey u (u.extract e) = .ok index ∧ takenIn s key index = false := by
  rw [Claimable, takenIn_eq_false_iff]

/-- Why a write of the entity `e` is refused: the first failing check, in order of precedence.
`fresh` marks an insert, which also needs its primary key free; a put does not check it. -/
inductive Refused (reg : Registry α) (kind : EntityKind α) (e : α) (s : Stub) (fresh : Bool) :
    StateError → Prop
  /-- The entity breaks its domain rule. -/
  | validation {v : ValidationError} (broken : kind.validate e = .error v) :
      Refused reg kind e s fresh (.validation v)
  /-- The entity's type is not registered. -/
  | unregistered (valid : kind.validate e = .ok ()) (missing : reg.lookup kind.typeName = none) :
      Refused reg kind e s fresh (.invalidKeySchema kind.shortName "entity type not registered")
  /-- The identifying segments are not one per key field, or one holds the separator. -/
  | primary {m : Mapping α} {reason : String} (valid : kind.validate e = .ok ())
      (found : reg.lookup kind.typeName = some m)
      (malformed : (m.primary e).length ≠ m.keyFields.length ∨ ¬ (m.primary e).SeparatorFree)
      (answer : m.primaryKey e = .error (.invalidIdentifyingValue m.entity reason)) :
      Refused reg kind e s fresh (.invalidIdentifyingValue m.entity reason)
  /-- An insert finds its primary key already stored. -/
  | stored {m : Mapping α} {key : Key} (valid : kind.validate e = .ok ())
      (found : reg.lookup kind.typeName = some m) (keyed : m.primaryKey e = .ok key)
      (inserting : fresh = true) (present : s.get? key.toComposite ≠ none) :
      Refused reg kind e s fresh (.keyAlreadyExists key)
  /-- The first unique key, in declaration order, that cannot be claimed has a value that is not
  one segment per field, or holds the separator. -/
  | uniqueValue {m : Mapping α} {key : Key} {before after : List (UniqueKey α)}
      {u : UniqueKey α} {reason : String} (valid : kind.validate e = .ok ())
      (found : reg.lookup kind.typeName = some m) (keyed : m.primaryKey e = .ok key)
      (free : fresh = true → s.get? key.toComposite = none)
      (split : m.uniqueKeys = before ++ u :: after)
      (claimed : ∀ v ∈ before, ∃ index, Claimable m e s key v index)
      (malformed : (u.extract e).length ≠ u.fields.length ∨ ¬ (u.extract e).SeparatorFree)
      (answer : m.indexKey u (u.extract e) = .error (.invalidIdentifyingValue m.entity reason)) :
      Refused reg kind e s fresh (.invalidIdentifyingValue m.entity reason)
  /-- The first unique key, in declaration order, that cannot be claimed has its index entry
  held for another primary key. -/
  | uniqueTaken {m : Mapping α} {key : Key} {before after : List (UniqueKey α)}
      {u : UniqueKey α} {index : Key} {b : Bytes} (valid : kind.validate e = .ok ())
      (found : reg.lookup kind.typeName = some m) (keyed : m.primaryKey e = .ok key)
      (free : fresh = true → s.get? key.toComposite = none)
      (split : m.uniqueKeys = before ++ u :: after)
      (claimed : ∀ v ∈ before, ∃ index, Claimable m e s key v index)
      (composed : m.indexKey u (u.extract e) = .ok index)
      (held : s.get? index.toComposite = some b) (other : b ≠ Bytes.ofString key.toComposite) :
      Refused reg kind e s fresh (.keyAlreadyExists index)

/-- What lets a write of the entity `e` through, with the primary key and the index keys it
writes: the entity keeps its domain rule, its type is registered, its segments form the primary
key, which an insert needs free, and each unique key in declaration order can be claimed. -/
structure Admitted (reg : Registry α) (kind : EntityKind α) (e : α) (s : Stub) (fresh : Bool)
    (key : Key) (indexes : List Key) : Prop where
  valid : kind.validate e = .ok ()
  registered : ∃ m, reg.lookup kind.typeName = some m ∧ m.primaryKey e = .ok key ∧
    (fresh = true → s.get? key.toComposite = none) ∧
    List.Forall₂ (Claimable m e s key) m.uniqueKeys indexes

/-- The checks of a write of an entity in order, and the keys it writes: those of `insert` when
`fresh`, of `put` otherwise. -/
def writePlan (reg : Registry α) (kind : EntityKind α) (e : α) (s : Stub) (fresh : Bool) :
    Except StateError (Key × List Key) := do
  (kind.validate e).mapError .validation
  let m ← reg.mapping kind
  let key ← m.primaryKey e
  if fresh && (s.get? key.toComposite).isSome then throw (.keyAlreadyExists key)
  let indexes ← claimKeys m e (takenIn s key) m.uniqueKeys
  return (key, indexes)

theorem insertPlan_eq_writePlan (reg : Registry α) (kind : EntityKind α) (e : α) (s : Stub) :
    insertPlan reg kind e s = writePlan reg kind e s true := rfl

theorem putPlan_eq_writePlan (reg : Registry α) (kind : EntityKind α) (e : α) (s : Stub) :
    putPlan reg kind e s = writePlan reg kind e s false := rfl

section Precedence

variable {reg : Registry α} {kind : EntityKind α} {e : α} {s : Stub} {fresh : Bool}

/-- Once the entity validates and its type is registered, the plan goes on from its mapping. -/
theorem writePlan_of_found {m : Mapping α} (valid : kind.validate e = .ok ())
    (found : reg.lookup kind.typeName = some m) :
    writePlan reg kind e s fresh = (do
      let key ← m.primaryKey e
      if fresh && (s.get? key.toComposite).isSome then throw (.keyAlreadyExists key)
      let indexes ← claimKeys m e (takenIn s key) m.uniqueKeys
      return (key, indexes)) := by
  simp [writePlan, valid, Except.mapError, Registry.mapping_eq_ok_iff.mpr found]

/-- Once the primary key forms, the plan checks that an insert's key is free, then claims the
unique keys. -/
theorem writePlan_of_keyed {m : Mapping α} {key : Key} (valid : kind.validate e = .ok ())
    (found : reg.lookup kind.typeName = some m) (keyed : m.primaryKey e = .ok key) :
    writePlan reg kind e s fresh =
      if fresh && (s.get? key.toComposite).isSome then .error (.keyAlreadyExists key)
      else (claimKeys m e (takenIn s key) m.uniqueKeys).map ((key, ·)) := by
  rw [writePlan_of_found valid found, keyed]
  simp only [Except.ok_bind]
  split
  · rfl
  · cases claimKeys m e (takenIn s key) m.uniqueKeys <;> rfl

/-- An insert whose key is free, or a put, gets past the check of the primary key. -/
theorem not_fresh_and_present {key : Key} (free : fresh = true → s.get? key.toComposite = none) :
    ¬ (fresh && (s.get? key.toComposite).isSome) = true := by
  cases fresh <;> simp_all

/-- A write is refused exactly as `Refused` says, with the failure of the first check that fails. -/
theorem writePlan_eq_error_iff {err : StateError} :
    writePlan reg kind e s fresh = .error err ↔ Refused reg kind e s fresh err := by
  constructor
  · intro planned
    cases valid : kind.validate e with
    | error v =>
      simp [writePlan, valid, Except.mapError] at planned
      subst planned
      exact .validation valid
    | ok u =>
      cases found : reg.lookup kind.typeName with
      | none =>
        simp [writePlan, valid, Except.mapError, Registry.mapping, found] at planned
        subst planned
        exact .unregistered valid found
      | some m =>
        cases keyed : m.primaryKey e with
        | error err' =>
          rw [writePlan_of_found valid found, keyed] at planned
          cases planned
          obtain ⟨reason, rfl⟩ := m.keyFor_error_blames keyed
          exact .primary valid found (m.keyFor_eq_error_iff.mp ⟨_, keyed⟩) keyed
        | ok key =>
          rw [writePlan_of_keyed valid found keyed] at planned
          by_cases present : fresh = true ∧ (s.get? key.toComposite).isSome = true
          · rw [if_pos (by simpa using present)] at planned
            cases planned
            exact .stored valid found keyed present.1 (Option.isSome_iff_ne_none.mp present.2)
          · rw [if_neg (by simpa using present)] at planned
            have free : fresh = true → s.get? key.toComposite = none := by
              intro inserting
              simpa [inserting] using present
            have claiming : claimKeys m e (takenIn s key) m.uniqueKeys = .error err := by
              cases claimed : claimKeys m e (takenIn s key) m.uniqueKeys <;>
                simp_all [Except.map]
            obtain ⟨before, u, after, split, claimed, refusal⟩ :=
              claimKeys_eq_error_iff.mp claiming
            have claimable : ∀ v ∈ before, ∃ index, Claimable m e s key v index :=
              fun v mem => (claimed v mem).imp fun _ both => claimable_iff.mpr both
            rcases refusal with answer | ⟨index, composed, isTaken, rfl⟩
            · obtain ⟨reason, rfl⟩ := m.indexKey_error_blames answer
              exact .uniqueValue valid found keyed free split claimable
                (m.indexKey_eq_error_iff.mp ⟨_, answer⟩) answer
            · obtain ⟨b, held, other⟩ := takenIn_eq_true_iff.mp isTaken
              exact .uniqueTaken valid found keyed free split claimable composed held other
  · intro refused
    cases refused with
    | validation broken => simp [writePlan, broken, Except.mapError]
    | unregistered valid missing =>
      simp [writePlan, valid, Except.mapError, Registry.mapping, missing]
    | primary valid found malformed answer => rw [writePlan_of_found valid found, answer]; rfl
    | stored valid found keyed inserting present =>
      rw [writePlan_of_keyed valid found keyed, if_pos]
      simpa [inserting, Option.isSome_iff_ne_none] using present
    | @uniqueValue m key before after u reason valid found keyed free split claimed malformed
        answer =>
      have claiming : claimKeys m e (takenIn s key) m.uniqueKeys =
          .error (.invalidIdentifyingValue m.entity reason) :=
        claimKeys_eq_error_iff.mpr ⟨before, u, after, split,
          fun v mem => (claimed v mem).imp fun _ c => claimable_iff.mp c, .inl answer⟩
      rw [writePlan_of_keyed valid found keyed, if_neg (not_fresh_and_present free), claiming]
      rfl
    | @uniqueTaken m key before after u index b valid found keyed free split claimed composed held
        other =>
      have claiming : claimKeys m e (takenIn s key) m.uniqueKeys = .error (.keyAlreadyExists index) :=
        claimKeys_eq_error_iff.mpr ⟨before, u, after, split,
          fun v mem => (claimed v mem).imp fun _ c => claimable_iff.mp c,
          .inr ⟨index, composed, takenIn_eq_true_iff.mpr ⟨b, held, other⟩, rfl⟩⟩
      rw [writePlan_of_keyed valid found keyed, if_neg (not_fresh_and_present free), claiming]
      rfl

/-- A write goes through its checks exactly as `Admitted` says, with the keys it names. -/
theorem writePlan_eq_ok_iff {key : Key} {indexes : List Key} :
    writePlan reg kind e s fresh = .ok (key, indexes) ↔ Admitted reg kind e s fresh key indexes := by
  constructor
  · intro planned
    cases valid : kind.validate e with
    | error v => simp [writePlan, valid, Except.mapError] at planned
    | ok u =>
      cases found : reg.lookup kind.typeName with
      | none => simp [writePlan, valid, Except.mapError, Registry.mapping, found] at planned
      | some m =>
        cases keyed : m.primaryKey e with
        | error err =>
          rw [writePlan_of_found valid found, keyed] at planned
          cases planned
        | ok key' =>
          rw [writePlan_of_keyed valid found keyed] at planned
          split at planned
          · cases planned
          · next absent =>
            cases claimed : claimKeys m e (takenIn s key') m.uniqueKeys with
            | error err => simp [claimed, Except.map] at planned
            | ok indexes' =>
              simp only [claimed, Except.map, Except.ok.injEq, Prod.mk.injEq] at planned
              obtain ⟨rfl, rfl⟩ := planned
              refine ⟨valid, m, found, keyed, fun inserting => ?_, ?_⟩
              · simpa [inserting] using absent
              · exact (claimKeys_eq_ok_iff.mp claimed).imp fun _ _ both => claimable_iff.mpr both
  · rintro ⟨valid, m, found, keyed, free, claimed⟩
    rw [writePlan_of_keyed valid found keyed, if_neg (not_fresh_and_present free),
      claimKeys_eq_ok_iff.mpr (claimed.imp fun _ _ c => claimable_iff.mp c)]
    rfl

/-- Every write of an entity is either refused or admitted. -/
theorem refused_or_admitted (fresh : Bool) :
    (∃ err, Refused reg kind e s fresh err) ∨
      ∃ key indexes, Admitted reg kind e s fresh key indexes := by
  cases planned : writePlan reg kind e s fresh with
  | error err => exact .inl ⟨err, writePlan_eq_error_iff.mp planned⟩
  | ok plan => exact .inr ⟨plan.1, plan.2, writePlan_eq_ok_iff.mp planned⟩

theorem exec_insert_of_refused {err : StateError} (refused : Refused reg kind e s true err) :
    (insert reg kind e).exec s = (.error err, s) := by
  rw [exec_insert_eq_plan, insertPlan_eq_writePlan, writePlan_eq_error_iff.mpr refused]

theorem exec_put_of_refused {err : StateError} (refused : Refused reg kind e s false err) :
    (put reg kind e).exec s = (.error err, s) := by
  rw [exec_put_eq_plan, putPlan_eq_writePlan, writePlan_eq_error_iff.mpr refused]

theorem exec_insert_of_admitted {key : Key} {indexes : List Key}
    (admitted : Admitted reg kind e s true key indexes) :
    (insert reg kind e).exec s =
      Stub.liftFault (s.applyWrites (entityWrites key (kind.codec.encode e) indexes)) := by
  rw [exec_insert_eq_plan, insertPlan_eq_writePlan, writePlan_eq_ok_iff.mpr admitted]
  exact exec_write_eq_applyWrites kind e key indexes s

theorem exec_put_of_admitted {key : Key} {indexes : List Key}
    (admitted : Admitted reg kind e s false key indexes) :
    (put reg kind e).exec s =
      Stub.liftFault (s.applyWrites (entityWrites key (kind.codec.encode e) indexes)) := by
  rw [exec_put_eq_plan, putPlan_eq_writePlan, writePlan_eq_ok_iff.mpr admitted]
  exact exec_write_eq_applyWrites kind e key indexes s

/-- A write whose refusals are answered before anything is written, and whose admitted writes go
to the ledger, fails otherwise than by a ledger fault only with the ledger as it was. -/
theorem unchanged_unless_fault {x : LedgerOp Unit} (fresh : Bool)
    (onRefused : ∀ err, Refused reg kind e s fresh err → x.exec s = (.error err, s))
    (onAdmitted : ∀ key indexes, Admitted reg kind e s fresh key indexes →
      x.exec s = Stub.liftFault (s.applyWrites (entityWrites key (kind.codec.encode e) indexes)))
    {err : StateError} {s' : Stub} (ran : x.exec s = (.error err, s'))
    (notFault : ∀ f, err ≠ .stub f) : s' = s := by
  have decided : (∃ err, Refused reg kind e s fresh err) ∨
      ∃ key indexes, Admitted reg kind e s fresh key indexes := refused_or_admitted fresh
  rcases decided with ⟨err', refused⟩ | ⟨key, indexes, admitted⟩
  · rw [onRefused err' refused] at ran
    exact (Prod.mk.inj ran).2.symm
  · rw [onAdmitted key indexes admitted, Stub.liftFault] at ran
    obtain ⟨faulted, -⟩ := Prod.mk.inj ran
    cases fault : (s.applyWrites (entityWrites key (kind.codec.encode e) indexes)).1 with
    | ok u => simp [fault, Except.mapError] at faulted
    | error f =>
      simp only [fault, Except.mapError, Except.error.injEq] at faulted
      exact absurd faulted.symm (notFault f)

/-- An admitted write leaves the entity's bytes under its primary key: in a well-formed registry
no index key has the encoding of a primary key. -/
theorem get?_store_of_admitted (wf : reg.WellFormed) {key : Key} {indexes : List Key}
    (admitted : Admitted reg kind e s fresh key indexes) :
    (s.store key (kind.codec.encode e) indexes).get? key.toComposite =
      some (kind.codec.encode e) := by
  obtain ⟨-, m, found, keyed, -, claimable⟩ := admitted
  have mem := (Registry.mem_of_mapping_eq_ok (Registry.mapping_eq_ok_iff.mpr found)).1
  have apart : key.toComposite ∉ indexes.map Key.toComposite := by
    intro listed
    obtain ⟨index, inList, same⟩ := List.mem_map.mp listed
    obtain ⟨u, has, composed, -⟩ := exists_of_forall₂_right claimable inList
    exact primary_ne_index wf mem mem has keyed composed same.symm
  rw [Stub.get?_store, if_neg apart, if_pos rfl]

end Precedence

/-! ## Deleting -/

/-- The index keys of a stored entity's unique values in declaration order, up to the first
value that forms no key, with that value's failure. -/
def indexKeysUpTo (m : Mapping α) (stored : α) :
    List (UniqueKey α) → List Key × Option StateError
  | [] => ([], none)
  | u :: rest =>
    match m.indexKey u (u.extract stored) with
    | .ok index => (index :: (indexKeysUpTo m stored rest).1, (indexKeysUpTo m stored rest).2)
    | .error err => ([], some err)

/-- Erasing the index entries of a stored entity erases them in declaration order, up to the
first erase the ledger refuses or the first unique value that forms no key. -/
theorem exec_eraseIndexes_eq (m : Mapping α) (stored : α) (keys : List (UniqueKey α))
    (s : Stub) :
    (eraseIndexes m stored keys).exec s =
      s.eraseThen (indexKeysUpTo m stored keys).1 (indexKeysUpTo m stored keys).2 := by
  induction keys generalizing s with
  | nil => rfl
  | cons u rest ih =>
    rw [eraseIndexes, exec_bind, exec_lift]
    cases composed : m.indexKey u (u.extract stored) with
    | error err => simp [indexKeysUpTo, composed, Stub.eraseThen, Stub.liftFault, Except.mapError]
    | ok index =>
      simp only [indexKeysUpTo, composed, Stub.eraseThen_cons]
      rw [exec_bind, show deleteRaw index = writeEntry index none from rfl, exec_writeEntry,
        Stub.applyWrites_cons, Stub.applyWrites_nil]
      by_cases accepted : s.accepts index.toComposite = true
      · rw [if_pos accepted, if_pos accepted]
        exact ih _
      · obtain ⟨e, refused⟩ := Stub.writeCheck_of_refused (by simpa using accepted)
        rw [if_neg accepted, if_neg accepted]
        simp [Stub.liftFault, refused, Except.mapError]

/-- Once it has read the stored entity, `delete` erases its key, then its index keys in
declaration order, up to the first erase the ledger refuses or the first unique value of the
stored entity that forms no key. -/
theorem exec_delete_eq (reg : Registry α) (kind : EntityKind α) (id : Key) (s : Stub) :
    (delete reg kind id).exec s =
      match deletePlan reg kind id s with
      | .ok (m, key, stored) =>
        s.eraseThen (key :: (indexKeysUpTo m stored m.uniqueKeys).1)
          (indexKeysUpTo m stored m.uniqueKeys).2
      | .error err => (.error err, s) := by
  rw [exec_delete]
  cases deletePlan reg kind id s with
  | error err => rfl
  | ok plan =>
    obtain ⟨m, key, stored⟩ := plan
    dsimp only
    rw [exec_bind, show deleteRaw key = writeEntry key none from rfl, exec_writeEntry,
      Stub.applyWrites_cons, Stub.applyWrites_nil, Stub.eraseThen_cons]
    by_cases accepted : s.accepts key.toComposite = true
    · rw [if_pos accepted, if_pos accepted]
      exact exec_eraseIndexes_eq m stored m.uniqueKeys _
    · obtain ⟨e, refused⟩ := Stub.writeCheck_of_refused (by simpa using accepted)
      rw [if_neg accepted, if_neg accepted]
      simp [Stub.liftFault, refused, Except.mapError]

/-- When every unique value of the stored entity forms a key, all its index keys are erased and
nothing fails but the ledger. -/
theorem indexKeysUpTo_of_formed {m : Mapping α} {stored : α} {keys : List (UniqueKey α)}
    (formed : ∀ u ∈ keys, ∃ index, m.indexKey u (u.extract stored) = .ok index) :
    (indexKeysUpTo m stored keys).2 = none ∧
      List.Forall₂ (fun u index => m.indexKey u (u.extract stored) = .ok index) keys
        (indexKeysUpTo m stored keys).1 := by
  induction keys with
  | nil => exact ⟨rfl, .nil⟩
  | cons u rest ih =>
    obtain ⟨index, composed⟩ := formed u List.mem_cons_self
    obtain ⟨none, later⟩ := ih fun v mem => formed v (List.mem_cons_of_mem u mem)
    simp only [indexKeysUpTo, composed]
    exact ⟨none, .cons composed later⟩

/-- A unique value of the stored entity that forms no key ends the erasing with a failure that
blames the identifying value. -/
theorem indexKeysUpTo_of_malformed {m : Mapping α} {stored : α} {keys : List (UniqueKey α)}
    {u : UniqueKey α} (has : u ∈ keys)
    (malformed : ∀ index, m.indexKey u (u.extract stored) ≠ .ok index) :
    ∃ reason, (indexKeysUpTo m stored keys).2 = some (.invalidIdentifyingValue m.entity reason) := by
  induction keys with
  | nil => cases has
  | cons v rest ih =>
    cases composed : m.indexKey v (v.extract stored) with
    | error err =>
      obtain ⟨reason, rfl⟩ := m.indexKey_error_blames composed
      exact ⟨reason, by simp [indexKeysUpTo, composed]⟩
    | ok index =>
      rcases List.mem_cons.mp has with rfl | later
      · exact absurd composed (malformed index)
      · obtain ⟨reason, ended⟩ := ih later
        exact ⟨reason, by simp [indexKeysUpTo, composed, ended]⟩

/-- Erasing with no failure pending fails only by a ledger fault, and when it goes through all
the keys are erased. -/
theorem eraseThen_none (s : Stub) (keys : List Key) :
    (∀ err s', s.eraseThen keys none = (.error err, s') → ∃ f, err = .stub f) ∧
      ∀ s', s.eraseThen keys none = (.ok (), s') →
        s' = { s with entries := ((keys.map fun k => ((k.toComposite, none) : Stub.Write)).foldl
          (fun entries (w : Stub.Write) => w.applyTo entries) s.entries) } := by
  unfold Stub.eraseThen Stub.liftFault
  cases erased : s.applyWrites (keys.map fun k => (k.toComposite, none)) with
  | mk result s'' =>
    cases result with
    | ok u =>
      refine ⟨fun err s' answered => (by cases answered), fun s' answered => ?_⟩
      cases answered
      exact Stub.applyWrites_of_ok erased
    | error f =>
      refine ⟨fun err s' answered => ⟨f, ?_⟩, fun s' answered => (by cases answered)⟩
      cases answered
      rfl

section Delete

variable {reg : Registry α} {kind : EntityKind α} {id : Key} {s : Stub} {m : Mapping α}
  {key : Key} {stored : α}

/-- Once its plan has read the stored entity, `delete` erases the primary key and then the index
keys up to the first unique value that forms no key. -/
theorem exec_delete_of_planned (planned : deletePlan reg kind id s = .ok (m, key, stored)) :
    (delete reg kind id).exec s =
      s.eraseThen (key :: (indexKeysUpTo m stored m.uniqueKeys).1)
        (indexKeysUpTo m stored m.uniqueKeys).2 := by
  rw [exec_delete_eq, planned]

/-- With every unique value formed, the listed index keys are exactly the keys those values
form. -/
theorem mem_indexKeysUpTo_iff {keys : List (UniqueKey α)}
    (formed : ∀ u ∈ keys, ∃ index, m.indexKey u (u.extract stored) = .ok index) {k : String} :
    k ∈ (indexKeysUpTo m stored keys).1.map Key.toComposite ↔
      ∃ u ∈ keys, ∃ index, m.indexKey u (u.extract stored) = .ok index ∧
        k = index.toComposite := by
  have composed := (indexKeysUpTo_of_formed formed).2
  constructor
  · intro mem
    obtain ⟨index, inList, rfl⟩ := List.mem_map.mp mem
    obtain ⟨u, has, formedU⟩ := exists_of_forall₂_right composed inList
    exact ⟨u, has, index, formedU, rfl⟩
  · rintro ⟨u, has, index, formedU, rfl⟩
    obtain ⟨index', inList, formed'⟩ := exists_of_forall₂_left composed has
    rw [formedU] at formed'
    cases formed'
    exact List.mem_map_of_mem inList

/-- When every unique value of the stored entity forms a key, only the ledger can make `delete`
fail, and success erases exactly the primary key and the index keys of those values. -/
theorem exec_delete_of_formed (planned : deletePlan reg kind id s = .ok (m, key, stored))
    (formed : ∀ u ∈ m.uniqueKeys, ∃ index, m.indexKey u (u.extract stored) = .ok index) :
    (∀ err s', (delete reg kind id).exec s = (.error err, s') → (∀ f, err ≠ .stub f) → s' = s) ∧
      ∀ s', (delete reg kind id).exec s = (.ok (), s') → ∀ k,
        ((k = key.toComposite ∨ ∃ u ∈ m.uniqueKeys, ∃ index,
            m.indexKey u (u.extract stored) = .ok index ∧ k = index.toComposite) →
          s'.get? k = none) ∧
        (¬ (k = key.toComposite ∨ ∃ u ∈ m.uniqueKeys, ∃ index,
            m.indexKey u (u.extract stored) = .ok index ∧ k = index.toComposite) →
          s'.get? k = s.get? k) := by
  rw [exec_delete_of_planned planned, (indexKeysUpTo_of_formed formed).1]
  obtain ⟨faults, erased⟩ := eraseThen_none s (key :: (indexKeysUpTo m stored m.uniqueKeys).1)
  refine ⟨fun err s' answered notFault => ?_, fun s' answered k => ?_⟩
  · obtain ⟨f, rfl⟩ := faults err s' answered
    exact absurd rfl (notFault f)
  · have looked : s'.get? k = if k ∈ (key :: (indexKeysUpTo m stored m.uniqueKeys).1).map
        Key.toComposite then none else s.get? k := by
      rw [erased s' answered]
      exact Stub.lookup_foldl_erase _ s.entries k
    have erasedKey : k ∈ (key :: (indexKeysUpTo m stored m.uniqueKeys).1).map Key.toComposite ↔
        k = key.toComposite ∨ ∃ u ∈ m.uniqueKeys, ∃ index,
          m.indexKey u (u.extract stored) = .ok index ∧ k = index.toComposite := by
      rw [List.map_cons, List.mem_cons, mem_indexKeysUpTo_iff formed]
    rw [looked]
    exact ⟨fun erased => if_pos (erasedKey.mpr erased),
      fun kept => if_neg (mt erasedKey.mp kept)⟩

/-- On a ledger that refuses no write, a unique value of the stored entity that forms no key
makes `delete` fail blaming the identifying value, after it has erased the stored primary
entry. -/
theorem exec_delete_of_malformed (free : s.failing = [])
    (planned : deletePlan reg kind id s = .ok (m, key, stored)) {u : UniqueKey α}
    (has : u ∈ m.uniqueKeys) (malformed : ∀ index, m.indexKey u (u.extract stored) ≠ .ok index) :
    ∃ reason s', (delete reg kind id).exec s =
        (.error (.invalidIdentifyingValue m.entity reason), s') ∧
      s.get? key.toComposite ≠ none ∧ s'.get? key.toComposite = none := by
  obtain ⟨reason, ended⟩ := indexKeysUpTo_of_malformed has malformed
  obtain ⟨-, -, read⟩ := deletePlan_eq_ok planned
  refine ⟨reason, _, by rw [exec_delete_of_planned planned, ended, Stub.eraseThen,
    Stub.applyWrites_of_failing_nil free]; rfl, fun absent => ?_, ?_⟩
  · simp [readAt, absent] at read
  · show ((List.map _ _).foldl _ s.entries).lookup _ = none
    rw [Stub.lookup_foldl_erase]
    simp

/-- On a consistent ledger every failure of `delete` leaves the ledger as it was: the stored
entity's index keys were formed when it was written, and the ledger refuses no erase. -/
theorem delete_failure_leaves_consistent_ledger (inv : Consistent reg s) (roundTrips : reg.RoundTrips)
    (typed : reg.Typed kind) {err : StateError} {s' : Stub}
    (answered : (delete reg kind id).exec s = (.error err, s')) : s' = s := by
  cases planned : deletePlan reg kind id s with
  | error refusal =>
    rw [exec_delete_of_error planned] at answered
    exact (Prod.mk.inj answered).2.symm
  | ok plan =>
    obtain ⟨m, key, stored⟩ := plan
    obtain ⟨mapped, keyed, read⟩ := deletePlan_eq_ok planned
    obtain ⟨mem, rfl⟩ := typed.mem_of_mapping_eq_ok mapped
    obtain ⟨-, indexed⟩ := inv.indexed_of_readAt roundTrips mem keyed read
    have formed : ∀ u ∈ m.uniqueKeys, ∃ index, m.indexKey u (u.extract stored) = .ok index :=
      fun u has => (indexed u has).imp fun _ both => both.1
    obtain ⟨noFailure, -⟩ := indexKeysUpTo_of_formed formed
    rw [exec_delete_of_planned planned, noFailure, Stub.eraseThen,
      Stub.applyWrites_of_failing_nil inv.failing] at answered
    cases answered

end Delete

/-- `delete` is all-or-nothing apart from ledger faults exactly when the stored entity's unique
values all form keys. On every ledger, including ones written by raw writes: a refusal before the
first erase (type not registered, malformed identifier, nothing stored, bytes that do not decode)
leaves the ledger as it was; otherwise `delete` erases the primary key, then the index key of each
unique value of the stored entity in declaration order, up to the first erase the ledger refuses
or the first unique value that forms no key. So when every unique value of the stored entity forms
a key, a failure other than a ledger fault leaves the ledger, and success erases exactly the
primary key and those index keys; on a ledger that refuses no write, a unique value that forms no
key makes `delete` fail after erasing the primary entry. On a ledger kept consistent by the typed
operations, which is every ledger they reach from the empty one, every failure leaves it. -/
theorem delete_erases_key_then_indexes (reg : Registry α) (kind : EntityKind α) (id : Key)
    (s : Stub) :
    (∀ err, deletePlan reg kind id s = .error err → (delete reg kind id).exec s = (.error err, s)) ∧
    (∀ m key stored, deletePlan reg kind id s = .ok (m, key, stored) →
      (delete reg kind id).exec s =
        s.eraseThen (key :: (indexKeysUpTo m stored m.uniqueKeys).1)
          (indexKeysUpTo m stored m.uniqueKeys).2) ∧
    (∀ m key stored, deletePlan reg kind id s = .ok (m, key, stored) →
      (∀ u ∈ m.uniqueKeys, ∃ index, m.indexKey u (u.extract stored) = .ok index) →
      (∀ err s', (delete reg kind id).exec s = (.error err, s') → (∀ f, err ≠ .stub f) → s' = s) ∧
      ∀ s', (delete reg kind id).exec s = (.ok (), s') → ∀ k,
        ((k = key.toComposite ∨ ∃ u ∈ m.uniqueKeys, ∃ index,
            m.indexKey u (u.extract stored) = .ok index ∧ k = index.toComposite) →
          s'.get? k = none) ∧
        (¬ (k = key.toComposite ∨ ∃ u ∈ m.uniqueKeys, ∃ index,
            m.indexKey u (u.extract stored) = .ok index ∧ k = index.toComposite) →
          s'.get? k = s.get? k)) ∧
    (s.failing = [] → ∀ m key stored, deletePlan reg kind id s = .ok (m, key, stored) →
      ∀ u ∈ m.uniqueKeys, (∀ index, m.indexKey u (u.extract stored) ≠ .ok index) →
        ∃ reason s', (delete reg kind id).exec s =
          (.error (.invalidIdentifyingValue m.entity reason), s') ∧
          s.get? key.toComposite ≠ none ∧ s'.get? key.toComposite = none) ∧
    (Consistent reg s → reg.RoundTrips → reg.Typed kind →
      ∀ err s', (delete reg kind id).exec s = (.error err, s') → s' = s) :=
  ⟨fun _ refused => exec_delete_of_error refused,
    fun _ _ _ planned => exec_delete_of_planned planned,
    fun _ _ _ planned formed => exec_delete_of_formed planned formed,
    fun free _ _ _ planned _ has malformed => exec_delete_of_malformed free planned has malformed,
    fun inv roundTrips typed _ _ answered =>
      delete_failure_leaves_consistent_ledger inv roundTrips typed answered⟩

/-- The ledger holding the user `ada` and the index entry of her handle. -/
def adaIndexedLedger : Stub :=
  { Stub.empty with
    entries := [((⟨["users", "ada"]⟩ : Key).toComposite, Bytes.ofString "ada"),
      ((⟨["users_handle", "@ada"]⟩ : Key).toComposite,
        Bytes.ofString (⟨["users", "ada"]⟩ : Key).toComposite)] }

/-- Deleting `ada` there succeeds and erases her entry and the index entry of her handle. -/
theorem ada_deleted_with_handle :
    ∃ s', (delete ⟨[userMapping], []⟩ userMapping.kind (Key.single "ada")).exec
        adaIndexedLedger = (.ok (), s') ∧
      s'.get? (⟨["users", "ada"]⟩ : Key).toComposite = none ∧
      s'.get? (⟨["users_handle", "@ada"]⟩ : Key).toComposite = none := by
  have formed : ∀ u ∈ userMapping.uniqueKeys, ∃ index,
      userMapping.indexKey u (u.extract "ada") = .ok index := by
    intro u has
    simp only [userMapping, Mapping.withUniqueKey, Mapping.new, List.nil_append,
      List.mem_singleton] at has
    subst has
    exact ⟨_, rfl⟩
  obtain ⟨-, erased⟩ := (delete_erases_key_then_indexes ⟨[userMapping], []⟩ userMapping.kind
    (Key.single "ada") adaIndexedLedger).2.2.1 userMapping ⟨["users", "ada"]⟩ "ada" rfl formed
  exact ⟨_, rfl, (erased _ rfl _).1 (.inl rfl),
    (erased _ rfl _).1 (.inr ⟨_, List.mem_cons_self, _, rfl, rfl⟩)⟩

/-- A user entry written raw, whose name holds the key separator. -/
def separatorLedger : Stub :=
  { Stub.empty with
    entries := [((⟨["users", "ada"]⟩ : Key).toComposite, Bytes.ofString "a\u0000b")] }

/-- Deleting that user erases its entry and then fails on its handle, which forms no key. -/
theorem separator_user_half_deleted :
    ∃ reason s', (delete ⟨[userMapping], []⟩ userMapping.kind (Key.single "ada")).exec
        separatorLedger = (.error (.invalidIdentifyingValue userMapping.entity reason), s') ∧
      separatorLedger.get? (⟨["users", "ada"]⟩ : Key).toComposite ≠ none ∧
      s'.get? (⟨["users", "ada"]⟩ : Key).toComposite = none :=
  (delete_erases_key_then_indexes _ _ _ _).2.2.2.1 rfl userMapping ⟨["users", "ada"]⟩ "a\u0000b"
    rfl _ List.mem_cons_self fun index composed => by
      have formed := congrArg Except.isOk composed
      simp only [Except.isOk, Except.toBool] at formed
      revert formed
      decide

/-- `insert` and `put` follow their reference semantics on every ledger, including one that
refuses some writes. Every write is refused or admitted. A refusal, the first failing check in
order of precedence (`Refused`; `put` skips the check that the primary key is free), is the
answer and leaves the ledger as it was. An admitted write stores the entity's bytes under its
primary key and then the primary key under each index key in declaration order, up to the first
write the ledger refuses, whose fault is the answer; so every failure other than a ledger fault
leaves the ledger unchanged, and no entry outside those writes ever changes. -/
theorem insert_put_follow_reference (reg : Registry α) (kind : EntityKind α) (e : α) (s : Stub) :
    (∀ fresh, (∃ err, Refused reg kind e s fresh err) ∨
      ∃ key indexes, Admitted reg kind e s fresh key indexes) ∧
    (∀ err, Refused reg kind e s true err → (insert reg kind e).exec s = (.error err, s)) ∧
    (∀ err, Refused reg kind e s false err → (put reg kind e).exec s = (.error err, s)) ∧
    (∀ key indexes, Admitted reg kind e s true key indexes →
      (insert reg kind e).exec s =
        Stub.liftFault (s.applyWrites (entityWrites key (kind.codec.encode e) indexes))) ∧
    (∀ key indexes, Admitted reg kind e s false key indexes →
      (put reg kind e).exec s =
        Stub.liftFault (s.applyWrites (entityWrites key (kind.codec.encode e) indexes))) ∧
    (∀ err s', (insert reg kind e).exec s = (.error err, s') → (∀ f, err ≠ .stub f) → s' = s) ∧
    (∀ err s', (put reg kind e).exec s = (.error err, s') → (∀ f, err ≠ .stub f) → s' = s) ∧
    (∀ writes : List Stub.Write, ∀ k, k ∉ writes.map Prod.fst →
      (s.applyWrites writes).2.get? k = s.get? k) :=
  ⟨fun fresh => refused_or_admitted fresh, fun _ refused => exec_insert_of_refused refused,
    fun _ refused => exec_put_of_refused refused,
    fun _ _ admitted => exec_insert_of_admitted admitted,
    fun _ _ admitted => exec_put_of_admitted admitted,
    fun _ _ ran => unchanged_unless_fault true (fun _ refused => exec_insert_of_refused refused)
      (fun _ _ admitted => exec_insert_of_admitted admitted) ran,
    fun _ _ ran => unchanged_unless_fault false (fun _ refused => exec_put_of_refused refused)
      (fun _ _ admitted => exec_put_of_admitted admitted) ran,
    fun writes _ absent => s.get?_applyWrites_of_not_mem writes absent⟩

/-- The ledger holding the user `ada`. -/
def adaLedger : Stub :=
  { Stub.empty with entries := [((⟨["users", "ada"]⟩ : Key).toComposite, Bytes.ofString "ada")] }

/-- Inserting `ada` again is refused on its primary key, and the ledger stays as it was. -/
theorem duplicate_user_refused :
    Refused ⟨[userMapping], []⟩ userMapping.kind "ada" adaLedger true
        (.keyAlreadyExists ⟨["users", "ada"]⟩) ∧
      (insert ⟨[userMapping], []⟩ userMapping.kind "ada").exec adaLedger =
        (.error (.keyAlreadyExists ⟨["users", "ada"]⟩), adaLedger) := by
  have refused : Refused ⟨[userMapping], []⟩ userMapping.kind "ada" adaLedger true
      (.keyAlreadyExists ⟨["users", "ada"]⟩) :=
    .stored (m := userMapping) rfl rfl rfl rfl (by decide)
  exact ⟨refused, (insert_put_follow_reference _ _ _ _).2.1 _ refused⟩

end LedgerOp

end Chaincode
