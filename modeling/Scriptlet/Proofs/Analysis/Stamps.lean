import Scriptlet.Proofs.Analysis.Derivation
/-!
# Stamps

An annotated tree is its syntax tree with identities stamped on it.  The scopes that its
blocks bear are those that the analysis made, numbered in the order in which the blocks
open, each below the scope around its block.  A declaration adds its symbol to the scope
around it.
-/

namespace Scriptlet

/-! ## Definitions -/

namespace Tree

mutual

def withOperator (operator : Token) : Tree → Tree
  | block statements token => block (withOperatorAll operator statements) token
  | assign target value _ =>
    assign (target.withOperator operator) (value.withOperator operator) operator
  | declare name initializer => declare name (initializer.withOperator operator)
  | call callee arguments token =>
    call (callee.withOperator operator) (withOperatorAll operator arguments) token
  | conditional condition body token =>
    conditional (condition.withOperator operator) (body.withOperator operator) token
  | debugPrint operand token => debugPrint (operand.withOperator operator) token
  | leaf => leaf

def withOperatorAll (operator : Token) : List Tree → List Tree
  | [] => []
  | tree :: trees => tree.withOperator operator :: withOperatorAll operator trees

end

end Tree

namespace Annotated

mutual

/-- The syntax tree of an annotated tree.  Annotated trees do not keep the operator of an
assignment, so one has to be given. -/
def erase (operator : Token) : Annotated → Tree
  | block statements _ token => .block (eraseAll operator statements) token
  | literal token kind => .literal token kind
  | reference _ token => .reference token
  | declare _ initializer token => .declare token (initializer.erase operator)
  | assign _ value token => .assign (.reference token) (value.erase operator) operator
  | call callee arguments token =>
    .call (callee.erase operator) (eraseAll operator arguments) token
  | conditional condition body token =>
    .conditional (condition.erase operator) (body.erase operator) token
  | debugPrint operand token => .debugPrint (operand.erase operator) token
  | foreign sort => .foreign sort

def eraseAll (operator : Token) : List Annotated → List Tree
  | [] => []
  | node :: nodes => node.erase operator :: eraseAll operator nodes

end

mutual

/-- All nodes of a tree, each before its children and with the scope of the innermost block around
it; `outer` is the scope around the tree. -/
def placed (outer : ScopeId) : Annotated → List (ScopeId × Annotated)
  | block statements inner token =>
    (outer, block statements inner token) :: placedAll inner statements
  | declare symbol initializer token =>
    (outer, declare symbol initializer token) :: initializer.placed outer
  | assign symbol value token => (outer, assign symbol value token) :: value.placed outer
  | call callee arguments token =>
    (outer, call callee arguments token) :: (callee.placed outer ++ placedAll outer arguments)
  | conditional condition body token =>
    (outer, conditional condition body token) :: (condition.placed outer ++ body.placed outer)
  | debugPrint operand token => (outer, debugPrint operand token) :: operand.placed outer
  | leaf => [(outer, leaf)]

def placedAll (outer : ScopeId) : List Annotated → List (ScopeId × Annotated)
  | [] => []
  | node :: nodes => node.placed outer ++ placedAll outer nodes

end

def scope? : Annotated → Option ScopeId
  | block _ scope _ => some scope
  | _ => none

def stamps (nodes : List (ScopeId × Annotated)) : List ScopeId :=
  nodes.filterMap fun node => node.2.scope?

theorem mem_placedAll {outer : ScopeId} {nodes : List Annotated} {place : ScopeId × Annotated} :
    place ∈ placedAll outer nodes ↔ ∃ node ∈ nodes, place ∈ node.placed outer := by
  induction nodes with
  | nil => simp [placedAll]
  | cons node nodes ih => simp [placedAll, ih]

theorem stamps_cons {node : Annotated} (h : node.scope? = none) (outer : ScopeId)
    (nodes : List (ScopeId × Annotated)) : stamps ((outer, node) :: nodes) = stamps nodes :=
  List.filterMap_cons_none h

private theorem stamps_append (nodes others : List (ScopeId × Annotated)) :
    stamps (nodes ++ others) = stamps nodes ++ stamps others :=
  List.filterMap_append

private theorem stamps_of_expressions {nodes : List (ScopeId × Annotated)}
    (h : ∀ node ∈ nodes, node.2.IsExpression) : stamps nodes = [] := by
  rw [stamps, List.filterMap_eq_nil_iff]
  rintro ⟨outer, node⟩ hmem
  have hnode := h _ hmem
  cases node with
  | block => exact hnode.elim
  | _ => rfl

end Annotated

open Annotated (Nested placedAll)

/-! ## Expressions -/

theorem Annotated.eraseAll_of_zip {operator : Token} {trees : List Tree} {nodes : List Annotated}
    (hlength : trees.length = nodes.length)
    (h : ∀ pair ∈ trees.zip nodes, pair.2.erase operator = pair.1.withOperator operator) :
    eraseAll operator nodes = Tree.withOperatorAll operator trees := by
  induction trees generalizing nodes with
  | nil =>
      obtain rfl := List.eq_nil_of_length_eq_zero hlength.symm
      rfl
  | cons tree trees ih =>
      cases nodes with
      | nil => cases hlength
      | cons node nodes =>
          rw [List.zip_cons_cons, List.forall_mem_cons] at h
          rw [eraseAll, Tree.withOperatorAll, h.1, ih (Nat.succ.inj hlength) h.2]

namespace Resolves

variable {env : Env} {tree : Tree} {node : Annotated}

theorem erase (h : Resolves env tree node) (operator : Token) :
    node.erase operator = tree.withOperator operator := by
  induction h with
  | literal | reference => simp only [Annotated.erase, Tree.withOperator]
  | assign _ _ _ _ ih => simp only [Annotated.erase, Tree.withOperator, ih]
  | call _ hlength _ ihCallee ihArguments =>
      rw [Annotated.erase, Tree.withOperator, ihCallee,
        Annotated.eraseAll_of_zip hlength ihArguments]

theorem placed (h : Resolves env tree node) (outer : ScopeId) :
    ∀ place ∈ node.placed outer, place.2.IsExpression := by
  induction h with
  | literal | reference => simp [Annotated.placed, Annotated.IsExpression]
  | assign _ _ _ _ ih =>
      rw [Annotated.placed, List.forall_mem_cons]
      exact ⟨trivial, ih⟩
  | call _ hlength _ ihCallee ihArguments =>
      rw [Annotated.placed, List.forall_mem_cons, List.forall_mem_append]
      refine ⟨trivial, ihCallee, ?_⟩
      intro place hplace
      obtain ⟨argument, hargument, hplace⟩ := Annotated.mem_placedAll.1 hplace
      obtain ⟨tree, hpair⟩ := exists_mem_zip hlength hargument
      exact ihArguments _ hpair place hplace

theorem stamps (h : Resolves env tree node) (outer : ScopeId) :
    Annotated.stamps (node.placed outer) = [] :=
  Annotated.stamps_of_expressions (h.placed outer)

end Resolves

/-! ## Blocks -/

theorem Annotated.Nested.parent {forest : Forest} {scope : ScopeId} {node : Annotated}
    (h : Nested forest scope node) {outer inner : ScopeId} {nodes : List Annotated}
    {token : Option Token} (hplace : (outer, .block nodes inner token) ∈ node.placed scope) :
    ∃ found, forest.get? inner = some found ∧ found.parent = some outer := by
  induction h with
  | block hinner hparent _ ih =>
      rw [Annotated.placed, List.mem_cons] at hplace
      rcases hplace with heq | hplace
      · cases heq
        exact ⟨_, hinner, hparent⟩
      · obtain ⟨node, hnode, hplace⟩ := mem_placedAll.1 hplace
        exact ih node hnode hplace
  | literal | reference => simp [Annotated.placed] at hplace
  | declare _ ih | assign _ ih | debugPrint _ ih =>
      simp only [Annotated.placed, List.mem_cons, Prod.mk.injEq, reduceCtorEq, and_false,
        false_or] at hplace
      exact ih hplace
  | call _ _ ihCallee ihArguments =>
      simp only [Annotated.placed, List.mem_cons, Prod.mk.injEq, reduceCtorEq, and_false,
        false_or, List.mem_append] at hplace
      rcases hplace with hplace | hplace
      · exact ihCallee hplace
      · obtain ⟨argument, hargument, hplace⟩ := mem_placedAll.1 hplace
        exact ihArguments argument hargument hplace
  | conditional _ _ ihCondition ihBody =>
      simp only [Annotated.placed, List.mem_cons, Prod.mk.injEq, reduceCtorEq, and_false,
        false_or, List.mem_append] at hplace
      rcases hplace with hplace | hplace
      · exact ihCondition hplace
      · exact ihBody hplace

namespace Analysis

/-! ## Erasure -/

mutual

theorem Elaborates.erase {s t : Scoping} {tree : Tree} {node : Annotated}
    (h : Elaborates s tree node t) (operator : Token) :
    node.erase operator = tree.withOperator operator := by
  match h with
  | .term hresolves => exact hresolves.erase operator
  | .declare hresolves _ _ | .debugPrint hresolves =>
      simp only [Annotated.erase, Tree.withOperator, hresolves.erase operator]
  | .block hall _ => rw [Annotated.erase, Tree.withOperator, hall.erase operator]
  | .conditional hresolves hbody =>
      rw [Annotated.erase, Tree.withOperator, hresolves.erase operator, hbody.erase operator]

theorem ElaboratesAll.erase {s t : Scoping} {trees : List Tree} {nodes : List Annotated}
    (h : ElaboratesAll s trees nodes t) (operator : Token) :
    Annotated.eraseAll operator nodes = Tree.withOperatorAll operator trees := by
  match h with
  | .nil => rfl
  | .cons hfirst hrest =>
      rw [Annotated.eraseAll, Tree.withOperatorAll, hfirst.erase operator, hrest.erase operator]

end

/-! ## Numbers of scopes -/

def nextScopes (forest : Forest) (count : Nat) : List ScopeId :=
  (List.range' (forest.scopes.length + 1) count).map ScopeId.mk

theorem nextScopes_nodup (forest : Forest) (count : Nat) : (nextScopes forest count).Nodup :=
  List.Pairwise.map ScopeId.mk (fun _ _ hne heq => hne (congrArg ScopeId.number heq))
    List.nodup_range'

theorem get?_of_mem_nextScopes {forest : Forest} (hforest : Forest.Numbered forest.scopes)
    {count : Nat} {id : ScopeId} (h : id ∈ nextScopes forest count) : forest.get? id = none := by
  obtain ⟨number, hnumber, rfl⟩ := List.mem_map.1 h
  cases hget : forest.get? ⟨number⟩ with
  | none => rfl
  | some scope =>
      have hle := (hforest.number_mem (Forest.mem_of_get? hget)).2
      rw [Forest.id_of_get? hget] at hle
      have hlt := (List.mem_range'_1.1 hnumber).1
      exact absurd hlt (Nat.not_lt.2 hle)

private theorem nextScopes_append {forest grown : Forest} {count : Nat}
    (h : grown.scopes.length = forest.scopes.length + count) (more : Nat) :
    nextScopes forest count ++ nextScopes grown more = nextScopes forest (count + more) := by
  rw [nextScopes, nextScopes, nextScopes, h, ← List.map_append, Nat.add_right_comm,
    List.range'_append_1]

mutual

/-- The blocks of a tree bear the scopes that its analysis made, in their order. -/
theorem Elaborates.stamps {s t : Scoping} {tree : Tree} {node : Annotated}
    (h : Elaborates s tree node t) (hs : s.Placed) (outer : ScopeId) :
    ∃ count, t.forest.scopes.length = s.forest.scopes.length + count ∧
      Annotated.stamps (node.placed outer) = nextScopes s.forest count := by
  match h with
  | .term hresolves => exact ⟨0, rfl, hresolves.stamps outer⟩
  | .declare hresolves _ _ =>
      refine ⟨0, List.length_map _, ?_⟩
      rw [Annotated.placed, Annotated.stamps_cons rfl, hresolves.stamps]
      rfl
  | .debugPrint hresolves =>
      refine ⟨0, rfl, ?_⟩
      rw [Annotated.placed, Annotated.stamps_cons rfl, hresolves.stamps]
      rfl
  | .block hall hleave =>
      have hopened := placed_opened hs
      have hcloses := closes_of_leave hs (hall.stays hopened) hleave
      obtain ⟨count, hlength, hstamps⟩ := hall.stamps hopened s.forest.nextScope
      refine ⟨1 + count, ?_, ?_⟩
      · rw [hcloses.forest, hlength, ← Nat.add_assoc]
        rfl
      · have hfirst : (opened s).forest.scopes.length = s.forest.scopes.length + 1 := rfl
        rw [Annotated.placed, ← nextScopes_append hfirst, ← hstamps]
        rfl
  | .conditional hresolves hbody =>
      obtain ⟨count, hlength, hstamps⟩ := hbody.stamps hs outer
      refine ⟨count, hlength, ?_⟩
      rw [Annotated.placed, Annotated.stamps_cons rfl, Annotated.stamps_append, hresolves.stamps,
        hstamps]
      rfl

theorem ElaboratesAll.stamps {s t : Scoping} {trees : List Tree} {nodes : List Annotated}
    (h : ElaboratesAll s trees nodes t) (hs : s.Placed) (outer : ScopeId) :
    ∃ count, t.forest.scopes.length = s.forest.scopes.length + count ∧
      Annotated.stamps (placedAll outer nodes) = nextScopes s.forest count := by
  match h with
  | .nil => exact ⟨0, rfl, rfl⟩
  | .cons hfirst hrest =>
      obtain ⟨count, hlength, hstamps⟩ := hfirst.stamps hs outer
      obtain ⟨more, hlength', hstamps'⟩ :=
        hrest.stamps ((hfirst.stays hs).steady.placed hs) outer
      refine ⟨count + more, by rw [hlength', hlength, Nat.add_assoc], ?_⟩
      rw [Annotated.placedAll, Annotated.stamps_append, hstamps, hstamps',
        nextScopes_append hlength]

end

/-! ## Declarations -/

def Holds (forest : Forest) (id : ScopeId) (symbol : SymbolId) (name : String) : Prop :=
  ∃ scope, forest.get? id = some scope ∧
    ∃ found ∈ scope.symbols, found.id = symbol ∧ found.name = name

theorem Holds.mono {forest grown : Forest} {id : ScopeId} {symbol : SymbolId} {name : String}
    (h : Holds forest id symbol name) (hext : forest.Extends grown) :
    Holds grown id symbol name := by
  obtain ⟨scope, hget, found, hfound, hid⟩ := h
  obtain ⟨scope', hget', -, hprefix⟩ := hext id scope hget
  exact ⟨scope', hget', found, hprefix.subset hfound, hid⟩

mutual

theorem Elaborates.holds {s t : Scoping} {tree : Tree} {node : Annotated}
    (h : Elaborates s tree node t) (hs : s.Placed) {outer : ScopeId} {symbol : SymbolId}
    {initializer : Annotated} {name : Token}
    (hplace : (outer, .declare symbol initializer name) ∈ node.placed s.cursor) :
    Holds t.forest outer symbol name.text := by
  match h with
  | .term hresolves => exact (hresolves.placed s.cursor _ hplace).elim
  | .declare hresolves hscope hfree =>
      rw [Annotated.placed, List.mem_cons] at hplace
      rcases hplace with heq | hplace
      · cases heq
        rw [Scoping.inserted, Forest.id_of_get? hscope]
        exact ⟨_, Forest.get?_withSymbol_self hscope _, _,
          List.mem_append_right _ (List.mem_singleton_self _), rfl, rfl⟩
      · exact (hresolves.placed s.cursor _ hplace).elim
  | .debugPrint hresolves =>
      simp only [Annotated.placed, List.mem_cons, Prod.mk.injEq, reduceCtorEq, and_false,
        false_or] at hplace
      exact (hresolves.placed s.cursor _ hplace).elim
  | .block hall hleave =>
      have hopened := placed_opened hs
      have hcloses := closes_of_leave hs (hall.stays hopened) hleave
      simp only [Annotated.placed, List.mem_cons, Prod.mk.injEq, reduceCtorEq, and_false,
        false_or] at hplace
      rw [hcloses.forest]
      exact hall.holds hopened hplace
  | .conditional hresolves hbody =>
      simp only [Annotated.placed, List.mem_cons, Prod.mk.injEq, reduceCtorEq, and_false,
        false_or, List.mem_append] at hplace
      rcases hplace with hplace | hplace
      · exact (hresolves.placed s.cursor _ hplace).elim
      · exact hbody.holds hs hplace

theorem ElaboratesAll.holds {s t : Scoping} {trees : List Tree} {nodes : List Annotated}
    (h : ElaboratesAll s trees nodes t) (hs : s.Placed) {outer : ScopeId} {symbol : SymbolId}
    {initializer : Annotated} {name : Token}
    (hplace : (outer, .declare symbol initializer name) ∈ placedAll s.cursor nodes) :
    Holds t.forest outer symbol name.text := by
  match h with
  | .nil => simp [Annotated.placedAll] at hplace
  | .cons hfirst hrest =>
      have hstays := hfirst.stays hs
      have hplaced := hstays.steady.placed hs
      rw [Annotated.placedAll, List.mem_append] at hplace
      rcases hplace with hplace | hplace
      · exact (hfirst.holds hs hplace).mono (hrest.stays hplaced).steady.grown
      · rw [← hstays.steady.cursor] at hplace
        exact hrest.holds hplaced hplace

end

end Analysis

end Scriptlet
