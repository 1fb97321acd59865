import Mathlib.Data.List.Nodup
import Chaincode.Proofs.Key
import Chaincode.Proofs.TextOrder
import Chaincode.Stub

/-!
# Prefixes and order of composite keys, and ledger scans

The ledger encoding of a key terminates every segment by a separator, and the separator is the
least character. So on separator-free keys the encoding is a homomorphism of both structures a
scan relies on: a key extends another segment-wise exactly when its encoding starts with the
other's encoding, and keys compare segment by segment exactly as their encodings compare byte by
byte. A segment that is a proper text prefix of another (`Paper` against `Paper_ExternalId`)
is where an unterminated encoding would fail both.

A ledger keeps its entries sorted by key text. A scan from a start text drops the entries below
it and takes entries while they start with it; since the texts that start with a given text form
one block of the sorted order, that is every entry under the start. Together: a scan over the
encoding of a key returns exactly the entries whose keys extend it segment-wise, in key order.
-/

namespace Chaincode

open Std

namespace Key

/-! ## Prefixes -/

/-- The encoding of a key followed by more segments extends the key's encoding. -/
theorem compositeStartsWith_of_startsWith {k p : Key} (extends_ : k.startsWith p = true) :
    k.compositeStartsWith p = true := by
  rw [startsWith, List.isPrefixOf_iff_prefix] at extends_
  obtain ⟨more, rest⟩ := extends_
  rw [compositeStartsWith, Text.startsWith, toComposite, toComposite, String.toList_ofList,
    String.toList_ofList, List.isPrefixOf_iff_prefix, compositeChars, compositeChars, ← rest,
    List.flatMap_append]
  exact List.cons_prefix_cons.mpr ⟨rfl, List.prefix_append _ _⟩

/-- On separator-free keys, extending segment-wise is extending the encoding. -/
theorem startsWith_iff_compositeStartsWith {k p : Key} (freeK : k.SeparatorFree)
    (freeP : p.SeparatorFree) : k.startsWith p = true ↔ k.compositeStartsWith p = true :=
  ⟨compositeStartsWith_of_startsWith, startsWith_of_compositeStartsWith freeK freeP⟩

/-! ## Order -/

theorem compareSegments_cons (a b : String) (as bs : List String) :
    compareSegments (a :: as) (b :: bs) = (compare a b).then (compareSegments as bs) := by
  simp only [compareSegments, Ordering.then]
  split <;> simp_all

/-- Every character other than the separator lies above it. -/
theorem compare_separator {c : Char} (other : c ≠ separator) : compare separator c = .lt := by
  have positive : 0 < c.toNat := by
    rcases Nat.eq_zero_or_pos c.toNat with zero | positive
    · exact absurd (Char.toNat_inj.mp (zero.trans rfl)) other
    · exact positive
  rw [Text.compare_char, Nat.compare_eq_lt]
  exact positive

/-- Two separator-free pieces, each terminated by a separator, compare as the pieces and then
as what follows: the terminator of a shorter piece meets a greater character of the longer. -/
theorem compare_terminated {x y : List Char} (freeX : separator ∉ x) (freeY : separator ∉ y)
    (rest rest' : List Char) :
    compare (x ++ separator :: rest) (y ++ separator :: rest') =
      (compare x y).then (compare rest rest') := by
  induction x generalizing y with
  | nil =>
    cases y with
    | nil => simp
    | cons d y =>
      have above : d ≠ separator := fun same => freeY (same ▸ List.mem_cons_self)
      simp [compare_separator above]
  | cons c x ih =>
    cases y with
    | nil =>
      have above : c ≠ separator := fun same => freeX (same ▸ List.mem_cons_self)
      have swapped : compare c separator = .gt := by
        rw [OrientedOrd.eq_swap, compare_separator above]
        rfl
      simp [swapped]
    | cons d y =>
      rw [List.cons_append, List.cons_append, List.compare_cons_cons, List.compare_cons_cons,
        ih (fun mem => freeX (List.mem_cons_of_mem c mem))
          (fun mem => freeY (List.mem_cons_of_mem d mem)), Ordering.then_assoc]

/-- Separator-free segment lists compare as their terminated encodings. -/
theorem compareSegments_eq_compare_flatMap {as bs : List String}
    (freeA : ∀ segment ∈ as, separator ∉ segment.toList)
    (freeB : ∀ segment ∈ bs, separator ∉ segment.toList) :
    compareSegments as bs = compare (as.flatMap fun s => s.toList ++ [separator])
      (bs.flatMap fun s => s.toList ++ [separator]) := by
  induction as generalizing bs with
  | nil =>
    cases bs with
    | nil => rfl
    | cons b bs =>
      rw [List.flatMap_cons, List.append_assoc, List.singleton_append]
      rcases b.toList with _ | ⟨c, cs⟩ <;> rfl
  | cons a as ih =>
    cases bs with
    | nil =>
      rw [List.flatMap_cons, List.append_assoc, List.singleton_append]
      rcases a.toList with _ | ⟨c, cs⟩ <;> rfl
    | cons b bs =>
      simp only [List.flatMap_cons, List.append_assoc, List.singleton_append]
      rw [compareSegments_cons, compare_terminated (freeA a List.mem_cons_self)
        (freeB b List.mem_cons_self), ← Text.compare_eq_compare_toList,
        ih (fun s mem => freeA s (List.mem_cons_of_mem a mem))
          (fun s mem => freeB s (List.mem_cons_of_mem b mem))]

/-- Separator-free keys compare as their encodings. -/
theorem compare_eq_compare_toComposite {a b : Key} (freeA : a.SeparatorFree)
    (freeB : b.SeparatorFree) : compare a b = compare a.toComposite b.toComposite := by
  rw [Text.compare_eq_compare_toList, toComposite, toComposite, String.toList_ofList,
    String.toList_ofList, compositeChars, compositeChars, List.compare_cons_cons,
    ReflOrd.compare_self, Ordering.eq_then]
  exact compareSegments_eq_compare_flatMap freeA freeB

/-- Separator-free keys compare as the UTF-8 bytes of their encodings. -/
theorem compare_eq_compare_composite_bytes {a b : Key} (freeA : a.SeparatorFree)
    (freeB : b.SeparatorFree) :
    compare a b = compare (Bytes.ofString a.toComposite) (Bytes.ofString b.toComposite) := by
  rw [Text.compare_ofString, compare_eq_compare_toComposite freeA freeB]

end Key

/-! ## Texts under a prefix -/

namespace Text

/-- A list between `p` and a list that extends `p` extends `p` too. -/
theorem prefix_of_between {p y z : List Char} (above : ¬ y < p) (below : y < z)
    (prefixed : p <+: z) : p <+: y := by
  induction p generalizing y z with
  | nil => exact List.nil_prefix
  | cons c cs ih =>
    obtain ⟨rest, rfl⟩ := prefixed
    cases y with
    | nil => exact absurd (List.nil_lt_cons c cs) above
    | cons d ys =>
      rw [List.cons_lt_cons_iff] at above
      rw [List.cons_append, List.cons_lt_cons_iff] at below
      rcases below with lt | ⟨rfl, below⟩
      · exact absurd (.inl lt) above
      · exact List.cons_prefix_cons.mpr
          ⟨rfl, ih (fun lt => above (.inr ⟨rfl, lt⟩)) below ⟨rest, rfl⟩⟩

theorem not_append_lt (p rest : List Char) : ¬ p ++ rest < p := by
  induction p with
  | nil => exact List.not_lt_nil _
  | cons c cs ih =>
    rw [List.cons_append, List.cons_lt_cons_iff]
    rintro (below | ⟨-, below⟩)
    · exact lt_irrefl c below
    · exact ih below

/-- A text is never below a prefix of it. -/
theorem not_lt_of_startsWith {x p : String} (prefixed : startsWith x p = true) : ¬ x < p := by
  rw [startsWith, List.isPrefixOf_iff_prefix] at prefixed
  obtain ⟨rest, extended⟩ := prefixed
  rw [String.lt_iff_toList_lt, ← extended]
  exact not_append_lt _ _

/-- The texts that start with `p` form a block of the order: a text between `p` and a text that
starts with `p` starts with `p` too. -/
theorem startsWith_of_between {p y z : String} (above : ¬ y < p) (below : y < z)
    (prefixed : startsWith z p = true) : startsWith y p = true := by
  rw [startsWith, List.isPrefixOf_iff_prefix] at prefixed ⊢
  rw [String.lt_iff_toList_lt] at above below
  exact prefix_of_between above below prefixed

end Text

namespace Stub

/-- Entries sorted strictly by key text, as a ledger keeps them. -/
def Sorted (s : Stub) : Prop := s.entries.Pairwise fun e f => e.1 < f.1

theorem sorted_empty : empty.Sorted := List.Pairwise.nil

theorem mem_upsert {key : String} {value : Bytes} {entries : List (String × Bytes)}
    {e : String × Bytes} (mem : e ∈ upsert key value entries) :
    e = (key, value) ∨ e ∈ entries := by
  induction entries with
  | nil => simpa [upsert] using mem
  | cons entry rest ih =>
    obtain ⟨k, v⟩ := entry
    unfold upsert at mem
    split_ifs at mem
    · rcases List.mem_cons.mp mem with rfl | mem
      · exact .inl rfl
      · exact .inr (List.mem_cons_of_mem _ mem)
    · rcases List.mem_cons.mp mem with rfl | mem
      · exact .inl rfl
      · exact .inr mem
    · rcases List.mem_cons.mp mem with rfl | mem
      · exact .inr List.mem_cons_self
      · exact (ih mem).imp id (List.mem_cons_of_mem _)

/-- Storing under a key keeps the entries sorted. -/
theorem pairwise_upsert (key : String) (value : Bytes) {entries : List (String × Bytes)}
    (sorted : entries.Pairwise fun e f => e.1 < f.1) :
    (upsert key value entries).Pairwise fun e f => e.1 < f.1 := by
  induction entries with
  | nil => simp [upsert]
  | cons entry rest ih =>
    obtain ⟨k, v⟩ := entry
    obtain ⟨least, sortedRest⟩ := List.pairwise_cons.mp sorted
    unfold upsert
    split_ifs with same before
    · subst same
      exact List.pairwise_cons.mpr ⟨least, sortedRest⟩
    · refine List.pairwise_cons.mpr ⟨fun f mem => ?_, sorted⟩
      rcases List.mem_cons.mp mem with rfl | mem
      · exact before
      · exact String.lt_trans before (least f mem)
    · have after : k < key := Std.lt_of_le_of_ne (String.not_lt.mp before) (Ne.symm same)
      refine List.pairwise_cons.mpr ⟨fun f mem => ?_, ih sortedRest⟩
      rcases mem_upsert mem with rfl | mem
      · exact after
      · exact least f mem

theorem Sorted.put {s s' : Stub} {key : String} {value : Bytes} (sorted : s.Sorted)
    (stored : s.put key value = .ok s') : s'.Sorted := by
  unfold Stub.put at stored
  cases checked : s.writeCheck key with
  | error e => simp [checked] at stored
  | ok u =>
    simp only [checked] at stored
    cases stored
    exact pairwise_upsert key value sorted

theorem Sorted.erase {s s' : Stub} {key : String} (sorted : s.Sorted)
    (erased : s.erase key = .ok s') : s'.Sorted := by
  unfold Stub.erase at erased
  cases checked : s.writeCheck key with
  | error e => simp [checked] at erased
  | ok u =>
    simp only [checked] at erased
    cases erased
    exact sorted.sublist List.filter_sublist

/-- On sorted entries all at or above `start`, those taken while they start with `start` are
all that do: once one does not, no later one does. -/
theorem takeWhile_eq_filter {start : String} {entries : List (String × Bytes)}
    (sorted : entries.Pairwise fun e f => e.1 < f.1) (above : ∀ e ∈ entries, ¬ e.1 < start) :
    entries.takeWhile (fun e => Text.startsWith e.1 start) =
      entries.filter fun e => Text.startsWith e.1 start := by
  induction entries with
  | nil => rfl
  | cons e rest ih =>
    obtain ⟨least, sortedRest⟩ := List.pairwise_cons.mp sorted
    by_cases under : Text.startsWith e.1 start = true
    · simp only [List.takeWhile_cons, List.filter_cons, under, if_true,
        ih sortedRest (fun f mem => above f (List.mem_cons_of_mem e mem))]
    · simp only [List.takeWhile_cons, List.filter_cons, under, Bool.false_eq_true, if_false]
      rw [eq_comm, List.filter_eq_nil_iff]
      intro f mem underF
      exact under (Text.startsWith_of_between (above e List.mem_cons_self) (least f mem) underF)

/-- On sorted entries, those from the first one not below `start`, taken while they start with
`start`, are all that start with it. -/
theorem dropWhile_takeWhile_eq_filter (start : String) {entries : List (String × Bytes)}
    (sorted : entries.Pairwise fun e f => e.1 < f.1) :
    (entries.dropWhile fun e => e.1 < start).takeWhile (fun e => Text.startsWith e.1 start) =
      entries.filter fun e => Text.startsWith e.1 start := by
  induction entries with
  | nil => rfl
  | cons e rest ih =>
    obtain ⟨least, sortedRest⟩ := List.pairwise_cons.mp sorted
    by_cases below : e.1 < start
    · -- the entry lies below the start, so it is neither taken nor under the start
      have outside : Text.startsWith e.1 start = false :=
        Bool.eq_false_iff.mpr fun under => Text.not_lt_of_startsWith under below
      simp only [List.dropWhile_cons, decide_eq_true below, if_true, List.filter_cons, outside,
        Bool.false_eq_true, if_false, ih sortedRest]
    · simp only [List.dropWhile_cons, decide_eq_false below, Bool.false_eq_true, if_false]
      refine takeWhile_eq_filter sorted fun f mem => ?_
      rcases List.mem_cons.mp mem with rfl | mem
      · exact below
      · exact fun lt => below (String.lt_trans (least f mem) lt)

/-- On a sorted ledger, a scan returns exactly the entries whose keys start with its start, in
ledger order. -/
theorem scan_eq_filter {s : Stub} (sorted : s.Sorted) (start : String) :
    s.scan start = s.entries.filter fun e => Text.startsWith e.1 start :=
  dropWhile_takeWhile_eq_filter start sorted

instance : DecidablePred Sorted := fun s =>
  inferInstanceAs (Decidable (s.entries.Pairwise fun e f => e.1 < f.1))

/-- Entries sorted strictly by key text are sorted strictly by the UTF-8 bytes of their keys. -/
theorem Sorted.pairwise_bytes {entries : List (String × Bytes)}
    (sorted : entries.Pairwise fun e f => e.1 < f.1) :
    entries.Pairwise fun e f => compare (Bytes.ofString e.1) (Bytes.ofString f.1) = .lt :=
  sorted.imp fun below => by
    rw [Text.compare_ofString]
    exact compareOfLessAndEq_eq_lt.mpr below

/-- A scan of a ledger returns every entry whose key starts with the prefix, each exactly once,
and no other entry, in ascending order of the keys' UTF-8 bytes. -/
theorem scan_exactly_under_prefix (s : Stub) (sorted : s.Sorted) (p : String) :
    (∀ e, e ∈ s.scan p ↔ e ∈ s.entries ∧ Text.startsWith e.1 p = true) ∧
    (∀ e ∈ s.entries, Text.startsWith e.1 p = true → (s.scan p).count e = 1) ∧
    (s.scan p).Pairwise fun e f => compare (Bytes.ofString e.1) (Bytes.ofString f.1) = .lt := by
  have ascending : (s.scan p).Pairwise fun e f =>
      compare (Bytes.ofString e.1) (Bytes.ofString f.1) = .lt := by
    rw [scan_eq_filter sorted]
    exact Sorted.pairwise_bytes (sorted.sublist List.filter_sublist)
  have once : (s.scan p).Nodup := ascending.imp fun below same => by
    simp [same] at below
  refine ⟨fun e => ?_, fun e mem under => ?_, ascending⟩
  · rw [scan_eq_filter sorted, List.mem_filter]
  · refine List.count_eq_one_of_mem once ?_
    rw [scan_eq_filter sorted, List.mem_filter]
    exact ⟨mem, under⟩

/-- The ledger after storing each of `b2`, `a1`, `b1`, `c1` and `b` under itself: a scan under
`b` finds `b`, `b1` and `b2`, in that order. -/
theorem scan_under_b :
    let s : Stub := { Stub.empty with
      entries := ["b2", "a1", "b1", "c1", "b"].foldl
        (fun entries k => upsert k (Bytes.ofString k) entries) [] }
    s.Sorted ∧
      ((∀ e, e ∈ s.scan "b" ↔ e ∈ s.entries ∧ Text.startsWith e.1 "b" = true) ∧
        (∀ e ∈ s.entries, Text.startsWith e.1 "b" = true → (s.scan "b").count e = 1) ∧
        (s.scan "b").Pairwise fun e f =>
          compare (Bytes.ofString e.1) (Bytes.ofString f.1) = .lt) ∧
      (s.scan "b").map Prod.fst = ["b", "b1", "b2"] := by
  intro s
  have sorted : s.Sorted := by decide
  exact ⟨sorted, scan_exactly_under_prefix s sorted "b", by decide⟩

end Stub

/-! ## Scans over encoded keys -/

/-- The ledger entry of a key and its bytes. -/
def encodeEntry (e : Key × Bytes) : String × Bytes := (e.1.toComposite, e.2)

namespace Stub

variable {s : Stub} {entries : List (Key × Bytes)} {p : Key}

/-- On a sorted ledger of separator-free keys, a scan over the encoding of a separator-free key
returns the entries whose keys extend it segment-wise, in ledger order. -/
theorem scan_toComposite (sorted : s.Sorted) (stored : s.entries = entries.map encodeEntry)
    (free : ∀ e ∈ entries, e.1.SeparatorFree) (freeP : p.SeparatorFree) :
    s.scan p.toComposite = (entries.filter fun e => e.1.startsWith p).map encodeEntry := by
  rw [scan_eq_filter sorted, stored, List.filter_map]
  congr 1
  refine List.filter_congr fun e mem => ?_
  exact Bool.eq_iff_iff.mpr (Key.startsWith_iff_compositeStartsWith (free e mem) freeP).symm

/-- The entries of a sorted ledger of separator-free keys are in key order. -/
theorem pairwise_compare_lt (sorted : s.Sorted) (stored : s.entries = entries.map encodeEntry)
    (free : ∀ e ∈ entries, e.1.SeparatorFree) :
    entries.Pairwise fun e f => compare e.1 f.1 = .lt := by
  have encoded : entries.Pairwise fun e f => e.1.toComposite < f.1.toComposite := by
    have ordered := sorted
    rw [Sorted, stored, List.pairwise_map] at ordered
    exact ordered
  refine encoded.imp_of_mem fun memE memF below => ?_
  rw [Key.compare_eq_compare_toComposite (free _ memE) (free _ memF)]
  exact compareOfLessAndEq_eq_lt.mpr below

end Stub

/-- The composite encoding is a prefix and order homomorphism on separator-free keys: a key
extends another segment-wise exactly when its encoding starts with the other's, keys compare as
the UTF-8 bytes of their encodings, and so a scan of a sorted ledger over the encoding of a key
returns exactly the entries whose keys extend it, in key order. -/
theorem composite_encoding_homomorphism :
    (∀ a b : Key, a.SeparatorFree → b.SeparatorFree →
      (b.startsWith a = true ↔ b.compositeStartsWith a = true)) ∧
    (∀ a b : Key, a.SeparatorFree → b.SeparatorFree →
      compare a b = compare (Bytes.ofString a.toComposite) (Bytes.ofString b.toComposite)) ∧
    (∀ (s : Stub) (entries : List (Key × Bytes)) (p : Key), s.Sorted →
      s.entries = entries.map encodeEntry → (∀ e ∈ entries, e.1.SeparatorFree) →
      p.SeparatorFree →
      s.scan p.toComposite = (entries.filter fun e => e.1.startsWith p).map encodeEntry ∧
        (entries.filter fun e => e.1.startsWith p).Pairwise fun e f => compare e.1 f.1 = .lt) :=
  ⟨fun _ _ freeA freeB => Key.startsWith_iff_compositeStartsWith freeB freeA,
    fun _ _ freeA freeB => Key.compare_eq_compare_composite_bytes freeA freeB,
    fun _ _ _ sorted stored free freeP =>
      ⟨Stub.scan_toComposite sorted stored free freeP,
        (Stub.pairwise_compare_lt sorted stored free).sublist List.filter_sublist⟩⟩

/-- Papers of issuers `A` and `AB` and an index entry: a scan under `Paper/A` finds the two
papers of `A` and neither the papers of `AB` nor the index, whose namespaces extend `Paper` and
`A` as texts but not as segments. -/
def paperLedger : List (Key × Bytes) :=
  [(⟨["Paper", "A", "1"]⟩, [1]), (⟨["Paper", "A", "2"]⟩, [2]), (⟨["Paper", "AB", "1"]⟩, [3]),
    (⟨["Paper_ExternalId", "X"]⟩, [4])]

theorem paperLedger_scan :
    let s : Stub := { Stub.empty with entries := paperLedger.map encodeEntry }
    s.Sorted ∧ (∀ e ∈ paperLedger, e.1.SeparatorFree) ∧
      s.scan (Key.mk ["Paper", "A"]).toComposite = (paperLedger.take 2).map encodeEntry ∧
      compare (Key.mk ["Paper", "A"]) ⟨["Paper_ExternalId"]⟩ = .lt := by
  intro s
  have sorted : s.Sorted := by decide
  have free : ∀ e ∈ paperLedger, e.1.SeparatorFree := by decide
  have scanned := composite_encoding_homomorphism.2.2 s paperLedger ⟨["Paper", "A"]⟩ sorted rfl
    free (by decide)
  have ordered := composite_encoding_homomorphism.2.1 ⟨["Paper", "A"]⟩ ⟨["Paper_ExternalId"]⟩
    (by decide) (by decide)
  exact ⟨sorted, free, scanned.1.trans (by decide), ordered.trans (by decide)⟩

end Chaincode
