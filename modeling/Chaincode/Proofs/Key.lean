import Chaincode.Key

/-!
# Reading composite keys back

Between its outer separators, the ledger encoding of a key is its segments joined by separators.
Reading an encoding back splits that body at every separator, so both directions of the round
trip are the list library's `List.splitOn` and `List.intercalate` laws.

The main statements: a key with at least one segment and no separator inside a segment reads
back as itself; a text that reads as a key is that key's encoding; and a text reads as a key
exactly when it has at least two characters and a separator at both ends. So the encoding is
injective on separator-free keys, the empty key included.
-/

namespace Chaincode.Key

/-- No segment of the key holds the separator. Mappings refuse identifiers that break this. -/
def SeparatorFree (k : Key) : Prop := ∀ segment ∈ k.segments, separator ∉ segment.toList

instance : DecidablePred SeparatorFree := fun k =>
  inferInstanceAs (Decidable (∀ segment ∈ k.segments, separator ∉ segment.toList))

/-- The position search for a bad segment finds none exactly on separator-free keys. -/
theorem invalidSegment?_eq_none_iff {k : Key} : k.invalidSegment? = none ↔ k.SeparatorFree := by
  simp [invalidSegment?, SeparatorFree, Text.containsChar, List.findIdx?_eq_none_iff]

/-- Splitting at separators is the list library's `splitOn`. -/
theorem splitAtSeparators_eq_splitOn (chars : List Char) :
    splitAtSeparators chars = chars.splitOn separator := by
  induction chars with
  | nil => rfl
  | cons c rest ih =>
      have nonempty : splitAtSeparators rest ≠ [] := ih ▸ List.splitOn_ne_nil _ _
      rw [List.splitOn_cons_eq_if_modifyHead, ← ih, splitAtSeparators]
      cases pieces : splitAtSeparators rest with
      | nil => exact absurd pieces nonempty
      | cons piece pieces => by_cases hc : c = separator <;> simp [hc]

/-- Terminating every piece by a separator is joining the pieces and terminating the last. -/
theorem flatMap_terminate {pieces : List (List Char)} (nonempty : pieces ≠ []) :
    pieces.flatMap (· ++ [separator]) = [separator].intercalate pieces ++ [separator] := by
  induction pieces with
  | nil => contradiction
  | cons piece rest ih =>
      cases rest with
      | nil => simp
      | cons next rest =>
          rw [List.flatMap_cons, ih (List.cons_ne_nil _ _),
            List.intercalate_cons_of_ne_nil (List.cons_ne_nil _ _)]
          simp

/-- The characters of a non-empty key's encoding: a separator, the joined segments and a final
separator. -/
theorem compositeChars_eq_intercalate {k : Key} (nonempty : k.segments ≠ []) :
    k.compositeChars =
      separator :: ([separator].intercalate (k.segments.map String.toList) ++ [separator]) := by
  have pieces : k.segments.map String.toList ≠ [] := by simpa using nonempty
  rw [compositeChars, ← flatMap_terminate pieces, List.flatMap_map]

/-- The body of an encoding is what lies between a leading and a trailing separator. -/
theorem compositeBody?_eq_some_iff {chars body : List Char} :
    compositeBody? chars = some body ↔ chars = separator :: (body ++ [separator]) := by
  cases chars with
  | nil => simp [compositeBody?]
  | cons c rest =>
      simp only [compositeBody?, List.cons.injEq]
      constructor
      · intro found
        split at found
        · next delimited =>
            obtain ⟨rfl, last⟩ := delimited
            obtain ⟨init, rfl⟩ := List.getLast?_eq_some_iff.mp last
            cases found
            simp
        · cases found
      · rintro ⟨rfl, rfl⟩
        simp

/-- A text has a body exactly when it has at least two characters and a separator at both
ends. -/
theorem exists_delimited_iff {chars : List Char} :
    (∃ body, chars = separator :: (body ++ [separator])) ↔
      2 ≤ chars.length ∧ chars.head? = some separator ∧ chars.getLast? = some separator := by
  constructor
  · rintro ⟨body, rfl⟩
    simp [List.getLast?_cons]
  · rintro ⟨long, first, last⟩
    match chars, long with
    | c :: d :: rest, _ =>
        simp only [List.head?_cons, Option.some.injEq] at first
        obtain ⟨init, split⟩ := List.getLast?_eq_some_iff.mp
          (show (d :: rest).getLast? = some separator by simpa [List.getLast?_cons] using last)
        exact ⟨init, by rw [first, split]⟩

/-- A key with at least one segment and no separator inside a segment reads back as itself. -/
theorem ofComposite?_toComposite {k : Key} (nonempty : k.segments ≠ [])
    (free : k.SeparatorFree) : ofComposite? k.toComposite = .ok k := by
  have body : compositeBody? k.toComposite.toList =
      some ([separator].intercalate (k.segments.map String.toList)) := by
    rw [compositeBody?_eq_some_iff, toComposite, String.toList_ofList,
      compositeChars_eq_intercalate nonempty]
  rw [ofComposite?, body]
  dsimp only
  rw [splitAtSeparators_eq_splitOn, List.splitOn_intercalate]
  · simp
  · simpa [SeparatorFree] using free
  · simpa using nonempty

/-- A text that reads as a key is that key's encoding. -/
theorem toComposite_of_ofComposite? {s : String} {k : Key} (read : ofComposite? s = .ok k) :
    k.toComposite = s := by
  unfold ofComposite? at read
  split at read
  · next body delimited =>
      cases read
      rw [compositeBody?_eq_some_iff] at delimited
      have nonempty : (splitAtSeparators body).map String.ofList ≠ [] := by
        simp [splitAtSeparators_eq_splitOn]
      rw [← String.toList_inj, toComposite, String.toList_ofList,
        compositeChars_eq_intercalate nonempty, delimited]
      simp [splitAtSeparators_eq_splitOn]
  · cases read

/-- Reading fails exactly on texts without two distinct end characters that are separators, and
then with the one malformed-key failure. -/
theorem ofComposite?_eq_error_iff {s : String} :
    (∃ e, ofComposite? s = .error e) ↔
      ¬ (2 ≤ s.length ∧ s.toList.head? = some separator ∧ s.toList.getLast? = some separator) := by
  rw [← String.length_toList, ← exists_delimited_iff]
  unfold ofComposite?
  split
  · next body delimited =>
      rw [compositeBody?_eq_some_iff] at delimited
      simp only [reduceCtorEq, exists_false, false_iff]
      exact fun absent => absent ⟨body, delimited⟩
  · next missing =>
      simp only [Except.error.injEq, exists_eq', true_iff]
      rintro ⟨body, delimited⟩
      have found := compositeBody?_eq_some_iff.mpr delimited
      simp_all

/-- The encoding is injective on separator-free keys, the empty key included. -/
theorem toComposite_injective {a b : Key} (freeA : a.SeparatorFree) (freeB : b.SeparatorFree)
    (equal : a.toComposite = b.toComposite) : a = b := by
  -- a key without segments is a lone separator, every other key has at least two characters
  have lone : ∀ {k : Key}, k.segments = [] → k.toComposite.toList = [separator] := by
    intro k empty
    simp [toComposite, compositeChars, empty]
  have long : ∀ {k : Key}, k.segments ≠ [] → k.toComposite.toList ≠ [separator] := by
    intro k nonempty
    simp [toComposite, compositeChars_eq_intercalate nonempty]
  by_cases emptyA : a.segments = []
  · by_cases emptyB : b.segments = []
    · cases a; cases b; simp_all
    · exact absurd (equal ▸ lone emptyA) (long emptyB)
  · by_cases emptyB : b.segments = []
    · exact absurd (equal ▸ lone emptyB) (long emptyA)
    · have readA := ofComposite?_toComposite emptyA freeA
      rw [equal, ofComposite?_toComposite emptyB freeB] at readA
      exact (Except.ok.inj readA).symm

/-- Prepending a namespace is injective in both the namespace and the key. -/
@[simp] theorem prepend_inj {k k' : Key} {ns ns' : String} :
    k.prepend ns = k'.prepend ns' ↔ ns = ns' ∧ k = k' := by
  cases k; cases k'
  simp [prepend]

/-- A namespaced key is separator-free when its namespace and its identifying part are. -/
@[simp] theorem separatorFree_prepend {k : Key} {ns : String} :
    (k.prepend ns).SeparatorFree ↔ separator ∉ ns.toList ∧ k.SeparatorFree := by
  simp [SeparatorFree, prepend]

/-- A namespaced key extends another when the namespaces agree and the identifying parts do. -/
@[simp] theorem startsWith_prepend {k k' : Key} {ns ns' : String} :
    (k'.prepend ns').startsWith (k.prepend ns) = true ↔ ns = ns' ∧ k'.startsWith k = true := by
  simp [startsWith, prepend, List.isPrefixOf_cons_cons]

/-! ## Prefixes of encodings -/

/-- Two separator-free pieces, each followed by a separator, line up in a prefix only when the
pieces are equal. -/
theorem terminated_prefix {a b x y : List Char} (freeA : separator ∉ a) (freeB : separator ∉ b)
    (prefixed : a ++ separator :: x <+: b ++ separator :: y) : a = b ∧ x <+: y := by
  induction a generalizing b with
  | nil =>
      cases b with
      | nil => exact ⟨rfl, (List.cons_prefix_cons.mp prefixed).2⟩
      | cons d b' =>
          have first : separator = d := (List.cons_prefix_cons.mp prefixed).1
          exact absurd (first ▸ List.mem_cons_self) freeB
  | cons c a' ih =>
      cases b with
      | nil =>
          have first : c = separator := (List.cons_prefix_cons.mp prefixed).1
          exact absurd (first ▸ List.mem_cons_self) freeA
      | cons d b' =>
          obtain ⟨first, rest⟩ := List.cons_prefix_cons.mp prefixed
          obtain ⟨same, tail⟩ := ih (fun mem => freeA (List.mem_cons_of_mem c mem))
            (fun mem => freeB (List.mem_cons_of_mem d mem)) rest
          exact ⟨by rw [first, same], tail⟩

/-- Among separator-free segments, a prefix of the encoded segments comes from a prefix of the
segments. -/
theorem segments_prefix_of_terminated_prefix {ps ks : List String}
    (freeP : ∀ segment ∈ ps, separator ∉ segment.toList)
    (freeK : ∀ segment ∈ ks, separator ∉ segment.toList)
    (prefixed : ps.flatMap (fun s => s.toList ++ [separator]) <+:
      ks.flatMap (fun s => s.toList ++ [separator])) : ps <+: ks := by
  induction ps generalizing ks with
  | nil => exact List.nil_prefix
  | cons p ps ih =>
      cases ks with
      | nil => simp at prefixed
      | cons k ks =>
          simp only [List.flatMap_cons, List.append_assoc, List.singleton_append] at prefixed
          obtain ⟨same, rest⟩ := terminated_prefix (freeP p List.mem_cons_self)
            (freeK k List.mem_cons_self) prefixed
          have tail := ih (fun s mem => freeP s (List.mem_cons_of_mem p mem))
            (fun s mem => freeK s (List.mem_cons_of_mem k mem)) rest
          exact List.cons_prefix_cons.mpr ⟨String.toList_inj.mp same, tail⟩

/-- On separator-free keys, an encoding that starts with the encoding of `p` belongs to a key
whose first segments are those of `p`. -/
theorem startsWith_of_compositeStartsWith {k p : Key} (freeK : k.SeparatorFree)
    (freeP : p.SeparatorFree) (prefixed : k.compositeStartsWith p = true) :
    k.startsWith p = true := by
  rw [compositeStartsWith, Text.startsWith, toComposite, toComposite, String.toList_ofList,
    String.toList_ofList, List.isPrefixOf_iff_prefix, compositeChars, compositeChars,
    List.cons_prefix_cons] at prefixed
  rw [startsWith, List.isPrefixOf_iff_prefix]
  exact segments_prefix_of_terminated_prefix freeP freeK prefixed.2

/-- The composite codec round trips in both directions: separator-free keys with a segment read
back as themselves, whatever reads as a key is its encoding, and reading fails exactly on texts
that do not start and end with two distinct separators. -/
theorem composite_round_trip :
    (∀ k : Key, k.segments ≠ [] → k.SeparatorFree → ofComposite? k.toComposite = .ok k) ∧
    (∀ (s : String) (k : Key), ofComposite? s = .ok k → k.toComposite = s) ∧
    (∀ s : String, (∃ e, ofComposite? s = .error e) ↔
      ¬ (2 ≤ s.length ∧ s.toList.head? = some separator ∧ s.toList.getLast? = some separator)) :=
  ⟨fun _ nonempty free => ofComposite?_toComposite nonempty free,
    fun _ _ read => toComposite_of_ofComposite? read,
    fun _ => ofComposite?_eq_error_iff⟩

/-- The empty key's encoding is a lone separator, which does not read back. -/
example : ofComposite? (Key.mk []).toComposite = .error malformed := rfl

/-- Two separators read as the key of one empty segment. -/
example : ofComposite? "\x00\x00" = .ok (Key.mk [""]) := rfl

end Chaincode.Key
