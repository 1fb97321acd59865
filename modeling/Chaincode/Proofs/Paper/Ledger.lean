import Chaincode.Proofs.Paper.Handlers

/-!
# The paper ledger over every run

From the empty ledger, the commercial paper contract keeps its ledger in one shape whatever it is
asked: for each stored paper, its JSON under `CommercialPaper/issuer/number` and that key under
`CommercialPaper_ExternalId/external_id`, and nothing else. Every stored paper has an owner and a
positive face value, and a redeemed one is back with its issuer. From one invocation to the next
a paper stays as it was, takes one step of its life (it changes hands, or it is redeemed, never
once redeemed), or disappears; a new paper appears only where none was stored, issued and owned
by its issuer.

The proof keeps a store of papers that the ledger refines (`PaperLedger`). An invocation makes at
most one of the writes the contract allows (`serve_writesOnce`); each such write keeps the store
sound and changes it by at most one step (`PaperLedger.write_keeps_invariant`). Buying and
redeeming keep the paper's external identifier, so the unique index stays exact. Papers read back
from their JSON because every instant a transaction carries is valid.
-/

namespace Chaincode.Paper

open CommercialPaper

/-! ## The contract's layout -/

theorem mem_registry {m : Mapping CommercialPaper} : m ∈ registry.mappings ↔ m = mapping := by
  simp [registry]

theorem registry_wellFormed : registry.WellFormed :=
  Registry.wellFormed_of_built (show [mapping].foldlM Registry.register Registry.empty =
    .ok registry from rfl)

theorem codec_mapping : mapping.kind.codec = CommercialPaper.codec := rfl

theorem registry_typed : registry.Typed CommercialPaper.kind := by
  intro m mem _
  rw [mem_registry.mp mem]
  rfl

/-- The key a paper is stored under. -/
def paperKey (p : CommercialPaper) : Key := ⟨["CommercialPaper", p.issuer, p.number]⟩

/-- The key of a paper's external identifier in the unique index. -/
def externalKey (p : CommercialPaper) : Key := ⟨["CommercialPaper_ExternalId", p.externalId]⟩

/-- The ledger entries of a stored paper: its JSON under its key, and its key under its external
identifier. -/
def Entry (p : CommercialPaper) (k : String) (b : Bytes) : Prop :=
  (k = (paperKey p).toComposite ∧ b = codec.encode p) ∨
    (k = (externalKey p).toComposite ∧ b = Bytes.ofString (paperKey p).toComposite)

theorem key_of_primaryKey {p : CommercialPaper} {key : Key}
    (keyed : mapping.primaryKey p = .ok key) : key = paperKey p :=
  (mapping.primaryKey_eq_ok_iff.mp keyed).2.2

/-- Papers with the same issuer and number have the same key. -/
theorem primaryKey_congr {p q : CommercialPaper} (issuer : q.issuer = p.issuer)
    (number : q.number = p.number) : mapping.primaryKey q = mapping.primaryKey p := by
  show mapping.keyFor ⟨[q.issuer, q.number]⟩ = mapping.keyFor ⟨[p.issuer, p.number]⟩
  rw [issuer, number]

/-- The one unique key of papers is the external identifier. -/
theorem extract_of_mem {u : UniqueKey CommercialPaper} (has : u ∈ mapping.uniqueKeys)
    (p : CommercialPaper) : u.extract p = Key.single p.externalId := by
  simp only [mapping, Mapping.withUniqueKey, Mapping.new, List.nil_append, List.mem_singleton]
    at has
  rw [has]

theorem index_of_indexKey {u : UniqueKey CommercialPaper} (has : u ∈ mapping.uniqueKeys)
    {p : CommercialPaper} {index : Key} (composed : mapping.indexKey u (u.extract p) = .ok index) :
    index = externalKey p := by
  rw [(mapping.indexKey_eq_ok_iff.mp composed).2.2, extract_of_mem has]
  simp only [mapping, Mapping.withUniqueKey, Mapping.new, List.nil_append,
    List.mem_singleton] at has
  rw [has]
  rfl

/-! ## Papers and their steps -/

/-- A paper as the contract keeps it: it has an owner and a positive face value, it was issued
at a valid instant, and once redeemed it is back with its issuer. -/
structure CommercialPaper.Sound (p : CommercialPaper) : Prop where
  valid : p.validate = .ok ()
  dated : ∀ t, p.issuedAt = some t → t.Valid
  returned : p.state = .redeemed → p.owner = p.issuer

theorem owner_ne_empty_of_validate {p : CommercialPaper} (valid : p.validate = .ok ()) :
    p.owner ≠ "" := by
  intro empty
  simp [validate, empty] at valid

theorem faceValue_pos_of_validate {p : CommercialPaper} (valid : p.validate = .ok ()) :
    0 < p.faceValue := by
  unfold validate at valid
  split_ifs at valid with owned zero
  exact UInt64.pos_iff_ne_zero.mpr zero

/-- One step of a paper's life: it changes hands while not redeemed, and is then trading; or it
is redeemed back to its issuer. -/
inductive PaperStep : CommercialPaper → CommercialPaper → Prop
  | trade {p : CommercialPaper} (owner : String) (live : p.state ≠ .redeemed) :
      PaperStep p { p with owner := owner, state := .trading }
  | redeem {p : CommercialPaper} (live : p.state ≠ .redeemed) :
      PaperStep p { p with owner := p.issuer, state := .redeemed }

namespace PaperStep

variable {p p' : CommercialPaper}

/-- A step keeps the paper's issuer and number and its terms: face value, external identifier
and issue instant. -/
theorem same_issuer_number_and_terms (step : PaperStep p p') :
    p'.issuer = p.issuer ∧ p'.number = p.number ∧ p'.faceValue = p.faceValue ∧
      p'.externalId = p.externalId ∧ p'.issuedAt = p.issuedAt := by
  cases step <;> exact ⟨rfl, rfl, rfl, rfl, rfl⟩

/-- A redeemed paper takes no step. -/
theorem state_ne_redeemed (step : PaperStep p p') : p.state ≠ .redeemed := by
  cases step with
  | trade owner live => exact live
  | redeem live => exact live

/-- The state moves from issued to trading, stays trading, or moves to redeemed. -/
theorem state_moves_forward (step : PaperStep p p') :
    (p.state = .issued ∧ p'.state = .trading) ∨ (p.state = .trading ∧ p'.state = .trading) ∨
      p'.state = .redeemed := by
  cases step with
  | trade owner live =>
    cases state : p.state
    · exact .inl ⟨rfl, rfl⟩
    · exact .inr (.inl ⟨rfl, rfl⟩)
    · exact absurd state live
  | redeem live => exact .inr (.inr rfl)

end PaperStep

/-- How the stored papers may change in one invocation: each paper stored afterwards was stored
before, or is one step further than the paper stored before under its issuer and number, or is a
new paper, issued and owned by its issuer, where no paper of its issuer and number was stored. -/
def Evolves (before after : List CommercialPaper) : Prop :=
  ∀ p' ∈ after, p' ∈ before ∨ (∃ p ∈ before, PaperStep p p') ∨
    ((∀ p ∈ before, (p.issuer, p.number) ≠ (p'.issuer, p'.number)) ∧ p'.state = .issued ∧
      p'.owner = p'.issuer)

theorem Evolves.refl (papers : List CommercialPaper) : Evolves papers papers :=
  fun _ mem => .inl mem

/-- A ledger holds exactly the entries of some papers, each with an owner, a positive face value
and, once redeemed, its issuer as owner. -/
structure Holds (papers : List CommercialPaper) (s : Stub) : Prop where
  exact : ∀ k b, s.get? k = some b ↔ ∃ p ∈ papers, Entry p k b
  owned : ∀ p ∈ papers, p.owner ≠ ""
  positive : ∀ p ∈ papers, 0 < p.faceValue
  returned : ∀ p ∈ papers, p.state = .redeemed → p.owner = p.issuer

/-! ## The invariant -/

/-- The contract's ledger between invocations: writes go through, and it holds exactly the
entries of a store of sound papers. -/
structure PaperLedger (M : Store CommercialPaper) (s : Stub) : Prop where
  refines : Refines registry M s
  sound : ∀ key p, (key, p) ∈ M → p.Sound

theorem paperLedger_empty : PaperLedger [] Stub.empty :=
  ⟨refines_empty registry, fun _ _ stored => by cases stored⟩

namespace PaperLedger

variable {M : Store CommercialPaper} {s : Stub}

theorem of_sameLedger {t : Stub} (inv : PaperLedger M s) (same : s.SameLedger t) :
    PaperLedger M t :=
  ⟨inv.refines.of_sameLedger same, inv.sound⟩

/-- Stored papers read back, their instants being valid. -/
theorem roundTrips (inv : PaperLedger M s) : Store.RoundTrips registry M := by
  intro key p stored m mem
  rw [mem_registry.mp mem, codec_mapping]
  exact decode_encode (inv.sound key p stored).dated

/-- A stored paper is stored under its key. -/
theorem key_of_mem (inv : PaperLedger M s) {key : Key} {p : CommercialPaper}
    (stored : (key, p) ∈ M) : mapping.primaryKey p = .ok key := by
  obtain ⟨m, mem, keyed, -⟩ := inv.refines.stored key p stored
  rw [mem_registry.mp mem] at keyed
  exact keyed

/-- The ledger holds exactly the entries of the stored papers. -/
theorem get?_eq_some_iff (inv : PaperLedger M s) {k : String} {b : Bytes} :
    s.get? k = some b ↔ ∃ p ∈ M.map Prod.snd, Entry p k b := by
  rw [inv.refines.exact k b, Image]
  constructor
  · rintro ⟨key, p, stored, m, mem, keyed, entry⟩
    rw [mem_registry.mp mem] at keyed entry
    obtain rfl := key_of_primaryKey keyed
    refine ⟨p, List.mem_map.mpr ⟨_, stored, rfl⟩, ?_⟩
    rcases entry with primary | ⟨u, has, index, composed, indexed, named⟩
    · exact .inl primary
    · exact .inr ⟨by rw [indexed, index_of_indexKey has composed], named⟩
  · rintro ⟨p, found, entry⟩
    obtain ⟨⟨key, p⟩, stored, rfl⟩ := List.mem_map.mp found
    obtain ⟨m, mem, keyed, forms⟩ := inv.refines.stored key p stored
    obtain rfl := mem_registry.mp mem
    obtain rfl := key_of_primaryKey keyed
    refine ⟨_, p, stored, mapping, mem, keyed, ?_⟩
    rcases entry with primary | ⟨indexed, named⟩
    · exact .inl primary
    · have has : mapping.uniqueKeys.head (List.cons_ne_nil _ _) ∈ mapping.uniqueKeys :=
        List.head_mem _
      obtain ⟨index, composed⟩ := forms _ has
      exact .inr ⟨_, has, index, composed, by rw [indexed, index_of_indexKey has composed], named⟩

theorem holds_stored_papers (inv : PaperLedger M s) : Holds (M.map Prod.snd) s where
  exact _ _ := inv.get?_eq_some_iff
  owned p found := by
    obtain ⟨⟨key, p⟩, stored, rfl⟩ := List.mem_map.mp found
    exact owner_ne_empty_of_validate (inv.sound key p stored).valid
  positive p found := by
    obtain ⟨⟨key, p⟩, stored, rfl⟩ := List.mem_map.mp found
    exact faceValue_pos_of_validate (inv.sound key p stored).valid
  returned p found := by
    obtain ⟨⟨key, p⟩, stored, rfl⟩ := List.mem_map.mp found
    exact (inv.sound key p stored).returned

/-! ### One write -/

/-- A paper read through an identifier is stored under its key. -/
theorem mem_of_read (inv : PaperLedger M s) {id : Key} {p : CommercialPaper}
    (read : ((LedgerOp.getEntity registry CommercialPaper.kind id).exec s).1 = .ok p) :
    (paperKey p, p) ∈ M := by
  obtain ⟨key, -, stored⟩ := inv.refines.mem_of_getEntity registry_wellFormed inv.roundTrips
    (mem_registry.mpr rfl) read
  rwa [← key_of_primaryKey (inv.key_of_mem stored)]

/-- Putting back a stored paper with its issuer, number and external identifier kept keeps the
unique values of the paper it replaces. -/
theorem keepsUniqueValues_put (inv : PaperLedger M s) {p e : CommercialPaper}
    (stored : (paperKey p, p) ∈ M) (issuer : e.issuer = p.issuer) (number : e.number = p.number)
    (externalId : e.externalId = p.externalId) :
    KeepsUniqueValues registry s (.put CommercialPaper.kind e) := by
  intro _ m key old mapped keyed readOld u has
  have registered : registry.mapping CommercialPaper.kind = .ok mapping :=
    registry_wellFormed.mapping_eq_ok (mem_registry.mpr rfl)
  obtain rfl : mapping = m := Except.ok.inj (registered.symm.trans mapped)
  -- the paper put goes under the key of the paper it replaces
  have keyedP : mapping.primaryKey p = .ok (paperKey p) := inv.key_of_mem stored
  rw [primaryKey_congr issuer number, keyedP] at keyed
  cases keyed
  have storedOld := inv.refines.mem_of_readAt registry_wellFormed inv.roundTrips
    (mem_registry.mpr rfl) keyedP readOld
  obtain rfl := inv.refines.eq_of_mem registry_wellFormed inv.roundTrips stored storedOld
  rw [extract_of_mem has, extract_of_mem has, externalId]

/-- A write the contract allows keeps the ledger refining the store. -/
theorem refines_step (inv : PaperLedger M s) {op : StateOp CommercialPaper}
    (allowed : PaperWrite s op) :
    Refines registry (Store.step registry op M) ((op.run registry).exec s).2 := by
  have keeps : KeepsUniqueValues registry s op := by
    cases allowed with
    | issue issuer number faceValue externalId => trivial
    | trade read live owner => exact inv.keepsUniqueValues_put (inv.mem_of_read read) rfl rfl rfl
    | redeem read live => exact inv.keepsUniqueValues_put (inv.mem_of_read read) rfl rfl rfl
    | erase id => trivial
  have typed : registry.Typed op.kind := by
    cases allowed <;> exact registry_typed
  exact inv.refines.step registry_wellFormed inv.roundTrips op typed keeps

/-- After a write the contract allows, each stored paper was stored before, or is the paper
issued, where nothing of its key was stored, or is a stored paper one step further. -/
theorem mem_step (inv : PaperLedger M s) {op : StateOp CommercialPaper}
    (allowed : PaperWrite s op) {key : Key} {x : CommercialPaper}
    (mem : (key, x) ∈ Store.step registry op M) :
    (key, x) ∈ M ∨
      (x.validate = .ok () ∧ x.issuedAt = some s.timestamp ∧ x.state = .issued ∧
        x.owner = x.issuer ∧ key = paperKey x ∧ ∀ p, (key, p) ∉ M) ∨
      (x.validate = .ok () ∧ ∃ p, (key, p) ∈ M ∧ p.Sound ∧ PaperStep p x) := by
  cases allowed with
  | issue issuer number faceValue externalId =>
    rcases Store.mem_step_insert mem with old | ⟨rfl, valid, ⟨m, mapped, keyed⟩, absent⟩
    · exact .inl old
    · have registered : registry.mapping CommercialPaper.kind = .ok mapping :=
        registry_wellFormed.mapping_eq_ok (mem_registry.mpr rfl)
      obtain rfl : mapping = m := Except.ok.inj (registered.symm.trans mapped)
      refine .inr (.inl ⟨valid, rfl, rfl, rfl, key_of_primaryKey keyed, fun p stored => ?_⟩)
      simp [Store.contains_eq_true_iff.mpr ⟨p, stored⟩] at absent
  | @trade id p read live owner =>
    rcases Store.mem_step_put mem with old | ⟨rfl, valid, m, mapped, keyed⟩
    · exact .inl old
    · have stored := inv.mem_of_read read
      have registered : registry.mapping CommercialPaper.kind = .ok mapping :=
        registry_wellFormed.mapping_eq_ok (mem_registry.mpr rfl)
      obtain rfl : mapping = m := Except.ok.inj (registered.symm.trans mapped)
      rw [primaryKey_congr (p := p) (q := { p with owner := owner, state := .trading }) rfl rfl,
        inv.key_of_mem stored] at keyed
      cases keyed
      exact .inr (.inr ⟨valid, _, stored, inv.sound _ _ stored, .trade owner live⟩)
  | @redeem id p read live =>
    rcases Store.mem_step_put mem with old | ⟨rfl, valid, m, mapped, keyed⟩
    · exact .inl old
    · have stored := inv.mem_of_read read
      have registered : registry.mapping CommercialPaper.kind = .ok mapping :=
        registry_wellFormed.mapping_eq_ok (mem_registry.mpr rfl)
      obtain rfl : mapping = m := Except.ok.inj (registered.symm.trans mapped)
      rw [primaryKey_congr (p := p) (q := { p with owner := p.issuer, state := .redeemed }) rfl rfl,
        inv.key_of_mem stored] at keyed
      cases keyed
      exact .inr (.inr ⟨valid, _, stored, inv.sound _ _ stored, .redeem live⟩)
  | erase id => exact .inl (Store.mem_step_delete mem)

/-- A write the contract allows, at a valid instant, keeps the invariant and changes the stored
papers by at most one step. -/
theorem write_keeps_invariant (inv : PaperLedger M s) (clock : s.timestamp.Valid) {op : StateOp CommercialPaper}
    (allowed : PaperWrite s op) :
    PaperLedger (Store.step registry op M) ((op.run registry).exec s).2 ∧
      Evolves (M.map Prod.snd) ((Store.step registry op M).map Prod.snd) := by
  refine ⟨⟨inv.refines_step allowed, fun key x mem => ?_⟩, fun x found => ?_⟩
  · rcases inv.mem_step allowed mem with
      old | ⟨valid, stamped, issued, -, -, -⟩ | ⟨valid, p, -, sound, step⟩
    · exact inv.sound key x old
    · refine ⟨valid, fun t instant => ?_, fun redeemed => ?_⟩
      · rw [stamped] at instant
        cases instant
        exact clock
      · rw [issued] at redeemed
        cases redeemed
    · obtain ⟨-, -, -, -, dated⟩ := step.same_issuer_number_and_terms
      refine ⟨valid, fun t instant => sound.dated t (dated ▸ instant), fun redeemed => ?_⟩
      cases step with
      | trade owner live => cases redeemed
      | redeem live => rfl
  · obtain ⟨⟨key, x⟩, mem, rfl⟩ := List.mem_map.mp found
    rcases inv.mem_step allowed mem with
      old | ⟨-, -, issued, owned, rfl, absent⟩ | ⟨-, p, stored, -, step⟩
    · exact .inl (List.mem_map.mpr ⟨_, old, rfl⟩)
    · refine .inr (.inr ⟨fun p found' same => ?_, issued, owned⟩)
      obtain ⟨⟨key', p⟩, stored, rfl⟩ := List.mem_map.mp found'
      have keyed := key_of_primaryKey (inv.key_of_mem stored)
      -- a stored paper of the same issuer and number would be under the same key
      have sameKey : key' = paperKey x := by
        rw [keyed]
        simp only [Prod.mk.injEq] at same
        simp only [paperKey, same]
      exact absent p (sameKey ▸ stored)
    · exact .inr (.inl ⟨p, List.mem_map.mpr ⟨_, stored, rfl⟩, step⟩)

/-! ### Invocations -/

/-- Serving an invocation at a valid instant keeps the invariant and changes the stored papers
by at most one step. -/
theorem serve_keeps_invariant {config : RouterConfig} {r : Router CommercialPaper} (built : router config = .ok r)
    (inv : PaperLedger M s) (call : Invocation) (clock : call.timestamp.Valid) :
    ∃ M', PaperLedger M' (r.serve call s).2 ∧ Evolves (M.map Prod.snd) (M'.map Prod.snd) := by
  -- the transaction starts on the same ledger, at the invocation's instant
  have started : PaperLedger M ((s.begin call.function call.args).setTimestamp call.timestamp) :=
    inv.of_sameLedger (Stub.sameLedger_begin s call.function call.args call.timestamp)
  rcases serve_writesOnce built call s with same | ⟨op, allowed, written⟩
  · exact ⟨M, started.of_sameLedger same, .refl _⟩
  · obtain ⟨after, evolves⟩ := started.write_keeps_invariant clock allowed
    exact ⟨_, after.of_sameLedger written, evolves⟩

end PaperLedger

/-- The ledgers the contract's router reaches from the empty one, serving invocations at valid
instants, with no write refused on purpose. -/
inductive Reachable (r : Router CommercialPaper) : Stub → Prop
  | empty : Reachable r Stub.empty
  | serve {s : Stub} (prior : Reachable r s) (call : Invocation) (clock : call.timestamp.Valid) :
      Reachable r (r.serve call s).2

/-- Every ledger the router reaches holds a store of sound papers. -/
theorem Reachable.paperLedger {config : RouterConfig} {r : Router CommercialPaper}
    (built : router config = .ok r) {s : Stub} (reached : Reachable r s) :
    ∃ M, PaperLedger M s := by
  induction reached with
  | empty => exact ⟨[], paperLedger_empty⟩
  | serve prior call clock ih =>
    obtain ⟨M, inv⟩ := ih
    obtain ⟨M', after, -⟩ := inv.serve_keeps_invariant built call clock
    exact ⟨M', after⟩

end Chaincode.Paper
