import Chaincode.Proofs.Paper.Ledger
import Chaincode.Proofs.TimestampText

/-!
# The life of a paper over every run

Serving any sequence of invocations from the empty ledger, with any functions and arguments and
at any instant a call can carry, the contract's ledger holds after each invocation exactly the
entries of a list of sound papers (`Holds`). From one invocation to the next, a paper stored under
an issuer and number before and after is the same paper or one step further in its life
(`Lifecycle`): its issuer, number, face value, external identifier and issue instant never
change, its state moves from issued to trading, stays trading or moves to redeemed, and once
redeemed it is never changed again. A paper may disappear, and a paper stored only afterwards is
new, issued and owned by its issuer.

The run is an induction over the invocations on the invariant `PaperLedger`, whose one step is
`PaperLedger.serve_keeps_invariant`; the keyed form of a step comes from the store holding one
paper per key.
-/

namespace Chaincode.Paper

/-- How the papers stored under one issuer and number may change in one invocation: a paper stored
before and after is the same paper or one step further, and a paper stored only afterwards is new,
issued and owned by its issuer. -/
def Lifecycle (before after : List CommercialPaper) : Prop :=
  (∀ p ∈ before, ∀ p' ∈ after, p'.issuer = p.issuer → p'.number = p.number →
      p' = p ∨ PaperStep p p') ∧
    ∀ p' ∈ after, (∀ p ∈ before, (p.issuer, p.number) ≠ (p'.issuer, p'.number)) →
      p'.state = .issued ∧ p'.owner = p'.issuer

namespace Lifecycle

variable {before after : List CommercialPaper} {p p' : CommercialPaper}

/-- A paper that stays stored keeps its face value, external identifier and issue instant. -/
theorem same_terms (life : Lifecycle before after) (stored : p ∈ before) (stored' : p' ∈ after)
    (issuer : p'.issuer = p.issuer) (number : p'.number = p.number) :
    p'.faceValue = p.faceValue ∧ p'.externalId = p.externalId ∧ p'.issuedAt = p.issuedAt := by
  rcases life.1 p stored p' stored' issuer number with rfl | step
  · exact ⟨rfl, rfl, rfl⟩
  · obtain ⟨-, -, faceValue, externalId, issuedAt⟩ := step.same_issuer_number_and_terms
    exact ⟨faceValue, externalId, issuedAt⟩

/-- A redeemed paper that stays stored is unchanged. -/
theorem eq_of_redeemed (life : Lifecycle before after) (stored : p ∈ before) (stored' : p' ∈ after)
    (issuer : p'.issuer = p.issuer) (number : p'.number = p.number)
    (redeemed : p.state = .redeemed) : p' = p := by
  rcases life.1 p stored p' stored' issuer number with same | step
  · exact same
  · exact absurd redeemed step.state_ne_redeemed

end Lifecycle

namespace PaperLedger

variable {M : Store CommercialPaper} {s : Stub}

/-- The store holds one paper per issuer and number. -/
theorem eq_of_key (inv : PaperLedger M s) {p q : CommercialPaper} (listed : p ∈ M.map Prod.snd)
    (listed' : q ∈ M.map Prod.snd) (issuer : q.issuer = p.issuer) (number : q.number = p.number) :
    q = p := by
  obtain ⟨⟨key, p⟩, stored, rfl⟩ := List.mem_map.mp listed
  obtain ⟨⟨key', q⟩, stored', rfl⟩ := List.mem_map.mp listed'
  obtain rfl := key_of_primaryKey (inv.key_of_mem stored)
  obtain rfl := key_of_primaryKey (inv.key_of_mem stored')
  dsimp only at issuer number
  have sameKey : paperKey q = paperKey p := by
    simp only [paperKey, issuer, number]
  rw [sameKey] at stored'
  exact inv.refines.eq_of_mem registry_wellFormed inv.roundTrips stored' stored

/-- One invocation's change to the papers, read key by key. -/
theorem lifecycle_of_evolves (inv : PaperLedger M s) {after : List CommercialPaper}
    (evolves : Evolves (M.map Prod.snd) after) : Lifecycle (M.map Prod.snd) after := by
  refine ⟨fun p stored p' stored' issuer number => ?_, fun p' stored' apart => ?_⟩
  · rcases evolves p' stored' with old | ⟨q, storedQ, step⟩ | ⟨fresh, -, -⟩
    · exact .inl (inv.eq_of_key stored old issuer number)
    · -- the paper stepped from is the one stored under the same key
      obtain ⟨issuerQ, numberQ, -⟩ := step.same_issuer_number_and_terms
      obtain rfl := inv.eq_of_key stored storedQ (issuerQ.symm.trans issuer)
        (numberQ.symm.trans number)
      exact .inr step
    · exact absurd (by rw [issuer, number]) (fresh p stored)
  · rcases evolves p' stored' with old | ⟨q, storedQ, step⟩ | ⟨-, issued, owned⟩
    · exact absurd rfl (apart p' old)
    · obtain ⟨issuerQ, numberQ, -⟩ := step.same_issuer_number_and_terms
      exact absurd (by rw [issuerQ, numberQ]) (apart q storedQ)
    · exact ⟨issued, owned⟩

/-- Serving invocations at valid instants from a ledger of sound papers: each ledger reached
holds a list of papers, and each list follows the one before it by `Lifecycle`. -/
theorem serveAll {config : RouterConfig} {r : Router CommercialPaper}
    (built : router config = .ok r) (calls : List Invocation)
    (clocks : ∀ call ∈ calls, call.timestamp.Valid) (inv : PaperLedger M s) :
    ∃ papers, List.Forall₂ Holds (M.map Prod.snd :: papers) (s :: r.serveAll calls s) ∧
      List.IsChain Lifecycle (M.map Prod.snd :: papers) := by
  -- induction over the invocations, the invariant carried from each ledger to the next
  induction calls generalizing M s with
  | nil => exact ⟨[], .cons inv.holds_stored_papers .nil, .singleton _⟩
  | cons call rest ih =>
    obtain ⟨M', inv', evolves⟩ := inv.serve_keeps_invariant built call (clocks call List.mem_cons_self)
    obtain ⟨papers, held, chained⟩ :=
      ih (fun c mem => clocks c (List.mem_cons_of_mem call mem)) inv'
    exact ⟨M'.map Prod.snd :: papers, .cons inv.holds_stored_papers held,
      .cons_cons (inv.lifecycle_of_evolves evolves) chained⟩

end PaperLedger

/-- The paper ledger over every run: from the empty ledger, serving any invocations at any
instants a timestamp can hold (`Timestamp.Valid`: a year in the calendar's range, a leap second
only at the end of a minute), each ledger holds exactly the entries of a list of sound papers, and
each list follows the one before it by `Lifecycle`. -/
theorem paper_ledger_lifecycle {config : RouterConfig} {r : Router CommercialPaper}
    (built : router config = .ok r) (calls : List Invocation)
    (clocks : ∀ call ∈ calls, call.timestamp.Valid) :
    ∃ papers : List (List CommercialPaper),
      List.Forall₂ Holds papers (Stub.empty :: r.serveAll calls Stub.empty) ∧
        List.IsChain Lifecycle papers := by
  obtain ⟨papers, held, chained⟩ := paperLedger_empty.serveAll built calls clocks
  exact ⟨_, held, chained⟩

/-- Midnight at the start of June in the year 12345, a year of more digits than RFC 3339 text
writes. -/
def june12345 : Timestamp := ⟨327416428800, 0⟩

/-- Issuing paper 0001 of ACME at the start of 2024, then selling it from ACME to BigBank in the
year 12345. -/
def acmeSale : List Invocation :=
  [⟨false, "paper.issue", ["ACME", "0001", "1000", "X-1"].map Bytes.ofString,
      Timestamp.newYear2024⟩,
    ⟨false, "paper.buy", ["ACME", "0001", "ACME", "BigBank"].map Bytes.ofString, june12345⟩]

theorem acmeSale_lifecycle :
    ∃ r, router RouterConfig.default = .ok r ∧ (∀ call ∈ acmeSale, call.timestamp.Valid) ∧
      ∃ papers : List (List CommercialPaper),
        List.Forall₂ Holds papers (Stub.empty :: r.serveAll acmeSale Stub.empty) ∧
          List.IsChain Lifecycle papers := by
  obtain ⟨r, built⟩ : ∃ r, router RouterConfig.default = .ok r := ⟨_, rfl⟩
  have clocks : ∀ call ∈ acmeSale, call.timestamp.Valid := by
    intro call mem
    simp only [acmeSale, List.mem_cons, List.not_mem_nil, or_false] at mem
    rcases mem with rfl | rfl
    · exact Timestamp.valid_newYear2024
    · exact ⟨rfl, .inl (by decide)⟩
  exact ⟨r, built, clocks, paper_ledger_lifecycle built acmeSale clocks⟩

end Chaincode.Paper
