import Scriptlet.Proofs.Analysis.Derivation
/-!
# Names and the text

What a name stands for, told from the text of a program alone: the nearest declaration
before it, in the innermost block around it that has one.  Names that no such block
declares stand for what is visible outside.  Neither scopes nor a cursor are needed to say
so; the analysis, which walks a growing forest with a cursor, finds the same symbols.
-/

namespace Scriptlet

/-- The declarations before a point of a program: of every block around it, the innermost first,
the names and their symbols, the latest first. -/
abbrev Declared := List (List (String × SymbolId))

namespace Declared

def find? (declared : Declared) (name : String) : Option SymbolId :=
  declared.findSome? fun block => block.lookup name

def add (declared : Declared) (name : String) (symbol : SymbolId) : Declared :=
  match declared with
  | [] => [[(name, symbol)]]
  | block :: around => ((name, symbol) :: block) :: around

/-- The symbol that a name stands for, among the declared ones or those outside. -/
def meaning (outside : String → Option SymbolId) (declared : Declared) (name : String) :
    Option SymbolId :=
  (declared.find? name).or (outside name)

theorem find?_add_self (declared : Declared) (name : String) (symbol : SymbolId) :
    (declared.add name symbol).find? name = some symbol := by
  cases declared <;> simp [find?, add]

theorem find?_add_of_ne {name other : String} (h : other ≠ name) (declared : Declared)
    (symbol : SymbolId) : (declared.add name symbol).find? other = declared.find? other := by
  have hne : (other == name) = false := beq_eq_false_iff_ne.2 h
  cases declared <;> simp [find?, add, List.findSome?_cons, List.lookup_cons, hne]

end Declared

namespace Annotated

/-- The declarations after a statement.  The body of a conditional declares in the block around the
conditional; a block keeps its declarations to itself. -/
def declaring : Annotated → Declared → Declared
  | declare symbol _ name, declared => declared.add name.text symbol
  | conditional _ body _, declared => body.declaring declared
  | _, declared => declared

mutual

/-- All names of the tree bear the symbols that they stand for. -/
def Follows (outside : String → Option SymbolId) (declared : Declared) : Annotated → Prop
  | block statements _ _ => FollowsAll outside ([] :: declared) statements
  | literal .. => True
  | reference symbol name => declared.meaning outside name.text = some symbol
  | declare _ initializer _ => initializer.Follows outside declared
  | assign symbol value name =>
    declared.meaning outside name.text = some symbol ∧ value.Follows outside declared
  | call callee arguments _ =>
    callee.Follows outside declared ∧ FollowsAll outside declared arguments
  | conditional condition body _ =>
    condition.Follows outside declared ∧ body.Follows outside declared
  | debugPrint operand _ => operand.Follows outside declared
  | foreign _ => True

/-- The names of statements in order, each after the declarations of those before it. -/
def FollowsAll (outside : String → Option SymbolId) (declared : Declared) :
    List Annotated → Prop
  | [] => True
  | node :: nodes =>
    node.Follows outside declared ∧ FollowsAll outside (node.declaring declared) nodes

end

end Annotated

/-! ## Views -/

theorem Env.resolve_cons (frame : List Symbol) (env : Env) (name : String) :
    Env.resolve (frame :: env) name =
      (frame.find? fun symbol => symbol.name = name).or (Env.resolve env name) := by
  rw [Env.resolve, List.findSome?_cons]
  cases frame.find? fun symbol => symbol.name = name <;> rfl

def Declared.Agrees (outside : String → Option SymbolId) (declared : Declared) (env : Env) :
    Prop :=
  ∀ name, declared.meaning outside name = (env.resolve name).map Symbol.id

namespace Declared.Agrees

variable {outside : String → Option SymbolId} {declared : Declared} {env : Env}

theorem opened (h : declared.Agrees outside env) : Agrees outside ([] :: declared) ([] :: env) :=
  h

theorem added {frame : List Symbol} (h : declared.Agrees outside (frame :: env))
    {symbol : Symbol} (hfree : ∀ other ∈ frame, other.name ≠ symbol.name) :
    (declared.add symbol.name symbol.id).Agrees outside ((frame ++ [symbol]) :: env) := by
  intro name
  have hname := h name
  rw [Env.resolve_cons, List.find?_append]
  rw [Env.resolve_cons] at hname
  by_cases heq : name = symbol.name
  · have hnone : (frame.find? fun other => other.name = name) = none := by
      rw [List.find?_eq_none]
      intro other hother
      simpa [heq] using hfree other hother
    rw [hnone, meaning, heq, find?_add_self]
    simp
  · have hskipped : ([symbol].find? fun other => other.name = name) = none := by
      simpa using Ne.symm heq
    rw [hskipped, Option.or_none, meaning, find?_add_of_ne heq]
    exact hname

end Declared.Agrees

/-! ## Terms -/

variable {outside : String → Option SymbolId} {declared : Declared}

theorem Annotated.IsExpression.declaring {node : Annotated} (h : node.IsExpression)
    (declared : Declared) : node.declaring declared = declared := by
  cases node <;> first | rfl | exact h.elim

theorem Annotated.followsAll_of_expressions {nodes : List Annotated}
    (hexpressions : ∀ node ∈ nodes, node.IsExpression)
    (h : ∀ node ∈ nodes, node.Follows outside declared) : FollowsAll outside declared nodes := by
  induction nodes with
  | nil => trivial
  | cons node nodes ih =>
      rw [List.forall_mem_cons] at hexpressions h
      rw [FollowsAll, hexpressions.1.declaring]
      exact ⟨h.1, ih hexpressions.2 h.2⟩

theorem Resolves.follows {env : Env} {tree : Tree} {node : Annotated}
    (h : Resolves env tree node) (hagrees : declared.Agrees outside env) :
    node.Follows outside declared := by
  induction h with
  | literal => trivial
  | reference hresolve hid _ =>
      rw [Annotated.Follows, hagrees, hresolve, Option.map_some, hid]
  | assign hresolve hid _ _ ih =>
      rw [Annotated.Follows, hagrees, hresolve, Option.map_some, hid]
      exact ⟨rfl, ih⟩
  | call _ hlength hpairs ihCallee ihArguments =>
      rw [Annotated.Follows]
      refine ⟨ihCallee, Annotated.followsAll_of_expressions ?_ ?_⟩
      · intro node hnode
        obtain ⟨tree, hpair⟩ := exists_mem_zip hlength hnode
        exact (hpairs _ hpair).isExpression
      · intro node hnode
        obtain ⟨tree, hpair⟩ := exists_mem_zip hlength hnode
        exact ihArguments _ hpair

/-! ## Statements -/

namespace Analysis

theorem agrees_inserted {s : Scoping} (hs : s.Placed) {scope : Scope}
    (hscope : s.forest.get? s.cursor = some scope) {name : String}
    (hfree : scope.find? name = none) (type : SymbolId)
    (hagrees : declared.Agrees outside s.view) :
    (declared.add name (s.forest.newSymbol name (.var type)).id).Agrees outside
      (s.inserted scope name (.var type) (Symbol.Variant.var type).sort).view := by
  obtain ⟨env, hview, hafter⟩ := Scoping.view_inserted hs.numbered hscope name (.var type)
    (Symbol.Variant.var type).sort
  have hnew : ∀ other ∈ scope.symbols,
      other.name ≠ (s.forest.newSymbol name (.var type)).name := by
    intro other hother heq
    have hne := List.find?_eq_none.1 hfree other hother
    exact hne (decide_eq_true heq)
  rw [hview] at hagrees
  rw [hafter]
  exact hagrees.added hnew

mutual

/-- The names of a tree bear the symbols that the text tells, and so will those after it. -/
theorem Elaborates.follows {s t : Scoping} {tree : Tree} {node : Annotated}
    (h : Elaborates s tree node t) (hs : s.Placed) {declared : Declared}
    (hagrees : declared.Agrees outside s.view) :
    node.Follows outside declared ∧ (node.declaring declared).Agrees outside t.view := by
  match h with
  | .term hresolves =>
      rw [hresolves.isExpression.declaring]
      exact ⟨hresolves.follows hagrees, hagrees⟩
  | .declare hresolves hscope hfree =>
      rw [Annotated.Follows]
      exact ⟨hresolves.follows hagrees, agrees_inserted hs hscope hfree _ hagrees⟩
  | .debugPrint hresolves =>
      rw [Annotated.Follows]
      exact ⟨hresolves.follows hagrees, hagrees⟩
  | .block hall hleave =>
      have hopened := placed_opened hs
      have hcloses := closes_of_leave hs (hall.stays hopened) hleave
      obtain ⟨scope, hscope⟩ := hs.cursor
      have hinside : Declared.Agrees outside ([] :: declared) (opened s).view := by
        rw [view_opened hs]
        exact hagrees.opened
      have hview : t.view = s.view := Scoping.view_of_kept hs.numbered hcloses.steady.numbered
        hscope hcloses.kept hcloses.steady.cursor
      rw [Annotated.Follows, hview]
      exact ⟨hall.follows hopened hinside, hagrees⟩
  | .conditional hresolves hbody =>
      obtain ⟨hfollows, hafter⟩ := hbody.follows hs hagrees
      rw [Annotated.Follows]
      exact ⟨⟨hresolves.follows hagrees, hfollows⟩, hafter⟩

theorem ElaboratesAll.follows {s t : Scoping} {trees : List Tree} {nodes : List Annotated}
    (h : ElaboratesAll s trees nodes t) (hs : s.Placed) {declared : Declared}
    (hagrees : declared.Agrees outside s.view) :
    Annotated.FollowsAll outside declared nodes := by
  match h with
  | .nil => trivial
  | .cons hfirst hrest =>
      obtain ⟨hfollows, hafter⟩ := hfirst.follows hs hagrees
      rw [Annotated.FollowsAll]
      exact ⟨hfollows, hrest.follows ((hfirst.stays hs).steady.placed hs) hafter⟩

end

end Analysis

end Scriptlet
