import Chaincode.Router.Middleware

/-!
# How a handler's chain runs

`compose` builds a handler's chain from the inside out: it walks the handler's parameters back
from the last, each bound from `k` plus its index, where `k` counts the router's parameters, and
then the router's list back from its last entry, counting the position down from `k` before each
parameter. The documented nesting numbers positions forward: an entry of the router's list binds
from the number of parameters before it (`withPositions`), and the `i`-th of the handler's
parameters from `k + i`. The backward walks bind each entry from the position the forward count
gives it (`foldr_wrapRouterStep`, `foldr_zipIdx_params`), so the two agree for every pair of
lists, whatever wrappers they hold and wherever parameters stand among them.

Most middleware does one thing and then runs the rest of the chain: it binds a parameter, runs a
check, or only logs. A chain of such links is a sequence: the router's links in registration
order, the handler's bindings in declared order, the arity check guarding the rest, the handler's
other links, and the handler; the first failure ends the run.
-/

namespace Chaincode

variable {α : Type}

/-! ## The documented nesting -/

/-- Pairs each middleware with its binding position: `start` plus the number of parameters
before it. -/
def withPositions (start : Nat) : List (Middleware α) → List (Middleware α × Nat)
  | [] => []
  | mw :: rest => (mw, start) :: withPositions (if mw.isParam then start + 1 else start) rest

/-- Walking the router's middleware back from past its parameters binds each entry from the
position the forward count gives it, and ends where the count starts. -/
theorem foldr_wrapRouterStep (start : Nat) (mws : List (Middleware α)) (h : Handler α) :
    mws.foldr (fun mw acc => wrapRouterStep acc mw) (h, start + mws.countP Middleware.isParam) =
      ((withPositions start mws).foldr (fun (mw, p) next => mw.apply next p) h, start) := by
  induction mws generalizing start with
  | nil => rfl
  | cons mw rest ih =>
    -- the head shifts the start of the rest by one exactly when it is a parameter
    cases param : mw.isParam with
    | false =>
      rw [List.foldr_cons, List.countP_cons, param, if_neg Bool.false_ne_true, Nat.add_zero,
        ih start, withPositions, if_neg (by simp [param])]
      simp [wrapRouterStep, param]
    | true =>
      rw [List.foldr_cons, List.countP_cons, param, if_pos rfl, ← Nat.add_assoc,
        Nat.add_right_comm, ih (start + 1), withPositions, if_pos param]
      simp [wrapRouterStep, param]

/-- Parameters walked back from the last, each bound from `k` plus its index, bind from the
positions the forward count from `k` gives them. -/
theorem foldr_zipIdx_params (k n : Nat) {params : List (Middleware α)}
    (allParams : ∀ mw ∈ params, mw.isParam = true) (h : Handler α) :
    (params.zipIdx n).foldr (fun entry chain => entry.1.apply chain (k + entry.2)) h =
      (withPositions (k + n) params).foldr (fun (mw, p) next => mw.apply next p) h := by
  induction params generalizing n with
  | nil =>
    -- by rewriting: `rfl` would have the kernel compare the two folds' functions first
    rw [List.zipIdx_nil, List.foldr_nil, withPositions, List.foldr_nil]
  | cons mw rest ih =>
    have first : mw.isParam = true := allParams mw List.mem_cons_self
    rw [List.zipIdx_cons, List.foldr_cons,
      ih (n + 1) fun m mem => allParams m (List.mem_cons_of_mem _ mem), withPositions,
      if_pos first, List.foldr_cons, ← Nat.add_assoc]

/-- The `j`-th entry binds, when it is a parameter, from `start` plus the number of parameters
before it. -/
theorem withPositions_eq_mapIdx (start : Nat) (mws : List (Middleware α)) :
    withPositions start mws =
      mws.mapIdx fun j mw => (mw, start + (mws.take j).countP Middleware.isParam) := by
  induction mws generalizing start with
  | nil => rfl
  | cons mw rest ih =>
    rw [withPositions, ih, List.mapIdx_cons]
    congr 1
    refine List.mapIdx_eq_mapIdx_iff.mpr fun j _ => ?_
    -- the head shifts the positions after it by one exactly when it binds a parameter
    cases param : mw.isParam with
    | false => simp [param]
    | true =>
      simp [param]
      omega

/-- In a list of parameters only, the `i`-th binds from `start + i`. -/
theorem withPositions_of_isParam (start : Nat) {mws : List (Middleware α)}
    (params : ∀ mw ∈ mws, mw.isParam = true) :
    withPositions start mws = mws.mapIdx fun i mw => (mw, start + i) := by
  induction mws generalizing start with
  | nil => rfl
  | cons mw rest ih =>
    have first : mw.isParam = true := params mw List.mem_cons_self
    rw [withPositions, if_pos first,
      ih (start + 1) fun m mem => params m (List.mem_cons_of_mem _ mem), List.mapIdx_cons]
    congr 1
    refine List.mapIdx_eq_mapIdx_iff.mpr fun i _ => ?_
    simp only [Prod.mk.injEq, true_and]
    omega

/-- The nesting the router documents: its own middleware from the outside in, the `j`-th entry
bound from the number of parameters before it; then the handler's parameters in declared order,
the `i`-th bound from `k + i` where `k` counts the router's parameters; then, when arity is strict,
the refusal of more raw arguments than parameters; then the handler's other middleware in
declared order; then the handler. -/
def documentedChain (h : Handler α) (router own : List (Middleware α)) (strict : Bool) :
    Handler α :=
  let k := (router.filter Middleware.isParam).length
  let params := own.filter Middleware.isParam
  let inner := (own.filter fun mw => !mw.isParam).foldr (fun mw next => mw.apply next 0) h
  let checked := if strict then exactArity (k + params.length) inner else inner
  (router.mapIdx fun j mw => (mw, (router.take j).countP Middleware.isParam)).foldr
    (fun (mw, p) next => mw.apply next p)
    ((params.mapIdx fun i mw => (mw, k + i)).foldr (fun (mw, p) next => mw.apply next p) checked)

theorem compose_eq_documentedChain (h : Handler α) (router own : List (Middleware α))
    (strict : Bool) : compose h router own strict = documentedChain h router own strict := by
  have params : ∀ mw ∈ own.filter Middleware.isParam, mw.isParam = true :=
    fun _ mem => (List.mem_filter.mp mem).2
  -- the router's walk starts past its parameters and ends where the forward count starts
  have walk := foldr_wrapRouterStep 0 router
  rw [Nat.zero_add, List.countP_eq_length_filter] at walk
  simp only [compose, documentedChain, List.foldl_reverse, walk]
  rw [foldr_zipIdx_params _ 0 params, Nat.add_zero, withPositions_of_isParam _ params,
    withPositions_eq_mapIdx 0 router]
  simp only [Nat.zero_add]

theorem mapIdx_map {β γ δ : Type} (f : β → γ) (g : Nat → γ → δ) (l : List β) :
    (l.map f).mapIdx g = l.mapIdx fun i b => g i (f b) := by
  induction l generalizing g with
  | nil => rfl
  | cons b rest ih => rw [List.map_cons, List.mapIdx_cons, List.mapIdx_cons, ih]

theorem map_mapIdx {β γ δ : Type} (f : γ → δ) (g : Nat → β → γ) (l : List β) :
    (l.mapIdx g).map f = l.mapIdx fun i b => f (g i b) := by
  induction l generalizing g with
  | nil => rfl
  | cons b rest ih => rw [List.mapIdx_cons, List.map_cons, List.mapIdx_cons, ih]

/-! ## Links that run one step -/

/-- Middleware that does one thing and then runs the rest of its chain. -/
inductive Link (α : Type) where
  /-- Binds the raw argument at its position, decoded as a plain type, under a name. -/
  | param (name : String) (type : Plain)
  /-- A check that may refuse the invocation. -/
  | check (c : Call α Unit)
  /-- Reports the invocation; the result passes through. -/
  | log

namespace Link

/-- The middleware of a link. -/
def toMiddleware : Link α → Middleware α
  | .param name type => .param name type
  | .check c => Middleware.before c
  | .log => Middleware.logging

/-- Whether the link binds a parameter. -/
def isParam : Link α → Bool
  | .param _ _ => true
  | _ => false

/-- The one step of a link bound from a position. -/
def run (position : Nat) : Link α → Call α Unit
  | .param name type => Middleware.bind name type position
  | .check c => c
  | .log => pure ()

@[simp] theorem isParam_toMiddleware (l : Link α) : l.toMiddleware.isParam = l.isParam := by
  cases l <;> rfl

theorem apply_toMiddleware (l : Link α) (next : Handler α) (position : Nat) :
    l.toMiddleware.apply next position = (do l.run position; next : Call α Bytes) := by
  cases l with
  | param name type => rfl
  | check c => rfl
  | log => rfl

end Link

/-- Links nested from the outside in run as a sequence, each from its position. -/
theorem foldr_apply_toMiddleware (links : List (Link α × Nat)) (h : Handler α) :
    links.foldr (fun link next => link.1.toMiddleware.apply next link.2) h =
      (do links.forM (fun link => link.1.run link.2); h : Call α Bytes) := by
  induction links with
  | nil => rfl
  | cons link rest ih =>
    rw [List.foldr_cons, ih, Link.apply_toMiddleware]
    exact (bind_assoc (link.1.run link.2) (fun _ => rest.forM fun link => link.1.run link.2)
      fun _ => h).symm

/-- A chain of links as a sequence: the router's links in registration order, the `j`-th bound
from the number of parameters before it; the handler's parameters in declared order, the `i`-th
from `k + i`; then, when arity is strict, the arity check guarding the handler's other links in
declared order and the handler. -/
def linkSequence (h : Handler α) (router own : List (Link α)) (strict : Bool) : Call α Bytes :=
  let k := (router.filter Link.isParam).length
  let params := own.filter Link.isParam
  let rest : Call α Bytes := do (own.filter fun l => !l.isParam).forM (fun l => l.run 0); h
  do
    (router.mapIdx fun j l => (l, (router.take j).countP Link.isParam)).forM
      fun link => link.1.run link.2
    (params.mapIdx fun i l => (l, k + i)).forM fun link => link.1.run link.2
    if strict then exactArity (k + params.length) rest else rest

theorem compose_links (h : Handler α) (router own : List (Link α)) (strict : Bool) :
    compose h (router.map Link.toMiddleware) (own.map Link.toMiddleware) strict =
      linkSequence h router own strict := by
  have toLinks : ∀ (l : List (Link α)) (position : Nat → Link α → Nat),
      l.mapIdx (fun i b => (b.toMiddleware, position i b)) =
        (l.mapIdx fun i b => (b, position i b)).map fun link => (link.1.toMiddleware, link.2) :=
    fun l position => (map_mapIdx (fun link => (link.1.toMiddleware, link.2))
      (fun i b => (b, position i b)) l).symm
  have others : ∀ l : List (Link α),
      l.foldr (fun b next => b.toMiddleware.apply next 0) h =
        (do l.forM (fun b => b.run 0); h : Call α Bytes) := by
    intro l
    have positioned := foldr_apply_toMiddleware (l.map fun b => (b, 0)) h
    rw [List.foldr_map] at positioned
    simpa using positioned
  rw [compose_eq_documentedChain]
  -- the filters, counts and positions of the mapped lists are those of the links
  simp only [documentedChain, linkSequence, List.filter_map, Function.comp_def,
    Link.isParam_toMiddleware, List.length_map, mapIdx_map, ← List.map_take, List.countP_map,
    toLinks, List.foldr_map, foldr_apply_toMiddleware, others]

-- The router's parameter takes the first raw argument, the handler's the one after it.
example :
    let joined : Handler String := (do
      let org ← Call.argText "org"
      let id ← Call.argText "id"
      pure (Bytes.ofString (org ++ id)) : Call String Bytes)
    let chain := compose joined [.param "org" .text] [.param "id" .text] false
    ((chain.run).run (Context.new Stub.empty Registry.empty EventRegistry.empty "f"
      [Bytes.ofString "org1", Bytes.ofString "-7"])).1 = .ok (Bytes.ofString "org1-7") := by
  rfl

/-- A handler's chain is the documented nesting of its middleware, for any router and handler
lists; for chains of links, it runs the router's links in registration order, then the handler's
bindings from the positions after the router's, then the arity check, then the handler's other
links, then the handler. -/
theorem compose_follows_documented_nesting :
    (∀ (h : Handler α) (router own : List (Middleware α)) (strict : Bool),
      compose h router own strict = documentedChain h router own strict) ∧
    (∀ (h : Handler α) (router own : List (Link α)) (strict : Bool),
      compose h (router.map Link.toMiddleware) (own.map Link.toMiddleware) strict =
        linkSequence h router own strict) :=
  ⟨compose_eq_documentedChain, compose_links⟩

end Chaincode
