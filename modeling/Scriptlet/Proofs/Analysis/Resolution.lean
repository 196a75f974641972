import Scriptlet.Annotated
import Scriptlet.Proofs.Scopes.Cursor
import Scriptlet.Proofs.Syntax.Spelling
/-!
# Resolution of names

What an annotated tree owes to the names of the tree that it was made from.  At
each point of a program the visible symbols form an environment, one frame per
open scope, and a name stands for the symbol of the innermost frame that has it.
A declaration adds to the innermost frame, also when it is the body of a
conditional; a block works on a frame of its own.
-/

namespace Scriptlet

/-- The symbols that are visible at a point of a program, the innermost scope
first. -/
abbrev Env := List (List Symbol)

def Env.resolve (env : Env) (name : String) : Option Symbol :=
  env.findSome? fun frame => frame.find? fun symbol => symbol.name = name

/-- No two symbols in view have the same identity. -/
def Env.Distinct (env : Env) : Prop :=
  (env.flatten.map Symbol.id).Nodup

def Scoping.view (s : Scoping) : Env :=
  (Forest.chainIn s.forest.scopes s.cursor).map Scope.symbols

/-- The name that a statement declares: its own, or that of a conditional's body. -/
def Tree.declared? : Tree → Option String
  | .declare name _ => some name.text
  | .conditional _ body _ => body.declared?
  | _ => none

/-- The name is declared by the body of a conditional, directly or through
further conditionals. -/
def Tree.Guards (tree : Tree) (name : String) : Prop :=
  ∃ condition body token, .conditional condition body token ∈ tree.preorder ∧
    body.declared? = some name

/-- No declaration is the body of a conditional. -/
def Tree.IsStraight (tree : Tree) : Prop :=
  ∀ name, ¬ tree.Guards name

/-- An expression and its annotated tree in an environment. -/
inductive Resolves (env : Env) : Tree → Annotated → Prop where
  | literal {token : Token} {kind : Primitive.Kind} :
      Resolves env (.literal token kind) (.literal token kind)
  | reference {name : Token} {symbol : Symbol} {id type : SymbolId} :
      env.resolve name.text = some symbol → symbol.id = id → symbol.variant.type? = some type →
      Resolves env (.reference name) (.reference id name)
  | assign {name token : Token} {symbol : Symbol} {id type : SymbolId} {value : Tree}
      {node : Annotated} :
      env.resolve name.text = some symbol → symbol.id = id → symbol.variant = .var type →
      Resolves env value node →
      Resolves env (.assign (.reference name) value token) (.assign id node name)
  | call {callee : Tree} {function : Annotated} {arguments : List Tree}
      {nodes : List Annotated} {token : Token} :
      Resolves env callee function → arguments.length = nodes.length →
      (∀ pair ∈ arguments.zip nodes, Resolves env pair.1 pair.2) →
      Resolves env (.call callee arguments token) (.call function nodes token)

mutual

/-- A statement, its annotated tree, and the environments before and after it. -/
inductive Scopes : Env → Tree → Annotated → Env → Prop where
  | expression {env : Env} {tree : Tree} {node : Annotated} :
      Resolves env tree node → Scopes env tree node env
  | declare {frame : List Symbol} {env : Env} {name : Token} {symbol : Symbol}
      {id type : SymbolId} {initializer : Tree} {node : Annotated} :
      Resolves (frame :: env) initializer node →
      symbol.id = id → symbol.name = name.text → symbol.variant = .var type →
      (∀ other ∈ frame, other.name ≠ name.text) →
      (∀ scope ∈ frame :: env, ∀ other ∈ scope, other.id ≠ id) →
      Scopes (frame :: env) (.declare name initializer) (.declare id node name)
        ((frame ++ [symbol]) :: env)
  | block {env : Env} {frame : List Symbol} {statements : List Tree} {nodes : List Annotated}
      {inner : ScopeId} {token : Option Token} :
      ScopesAll ([] :: env) statements nodes (frame :: env) →
      Scopes env (.block statements token) (.block nodes inner token) env
  | conditional {env after : Env} {condition body : Tree} {test branch : Annotated}
      {token : Token} :
      Resolves env condition test → Scopes env body branch after →
      Scopes env (.conditional condition body token) (.conditional test branch token) after
  | debugPrint {env : Env} {operand : Tree} {node : Annotated} {token : Token} :
      Resolves env operand node →
      Scopes env (.debugPrint operand token) (.debugPrint node token) env

/-- Statements in order, their annotated trees, and the environments before the
first and after the last of them. -/
inductive ScopesAll : Env → List Tree → List Annotated → Env → Prop where
  | nil {env : Env} : ScopesAll env [] [] env
  | cons {env between after : Env} {tree : Tree} {trees : List Tree} {node : Annotated}
      {nodes : List Annotated} :
      Scopes env tree node between → ScopesAll between trees nodes after →
      ScopesAll env (tree :: trees) (node :: nodes) after

end

/-! ## Declarations under conditionals -/

namespace Tree

def children : Tree → List Tree
  | .block statements _ => statements
  | .assign target value _ => [target, value]
  | .declare _ initializer => [initializer]
  | .call callee arguments _ => callee :: arguments
  | .conditional condition body _ => [condition, body]
  | .debugPrint operand _ => [operand]
  | _ => []

theorem sizeOf_lt_of_mem_children {tree child : Tree} (h : child ∈ tree.children) :
    sizeOf child < sizeOf tree := by
  cases tree with
  | literal | reference | foreign => cases h
  | block | call =>
      have hlt := List.sizeOf_lt_of_mem h
      simp [children] at *
      omega
  | assign | conditional =>
      rcases List.mem_pair.1 h with rfl | rfl <;> simp <;> omega
  | declare name value =>
      obtain rfl := List.mem_singleton.1 h
      rw [declare.sizeOf_spec]
      omega
  | debugPrint operand marker =>
      obtain rfl := List.mem_singleton.1 h
      rw [debugPrint.sizeOf_spec]
      omega

theorem preorder_eq (tree : Tree) : tree.preorder = tree :: preorderAll tree.children := by
  cases tree <;> simp [preorder, preorderAll, children]

theorem self_mem_preorder (tree : Tree) : tree ∈ tree.preorder := by
  rw [preorder_eq]
  exact List.mem_cons_self

private theorem preorder_subset_preorderAll {tree : Tree} {trees : List Tree} (h : tree ∈ trees) :
    tree.preorder ⊆ preorderAll trees := by
  induction trees with
  | nil => simp at h
  | cons first trees ih =>
      rw [preorderAll]
      rcases List.mem_cons.1 h with rfl | h
      · exact List.subset_append_left _ _
      · exact List.subset_append_of_subset_right _ (ih h)

theorem mem_preorderAll {node : Tree} {trees : List Tree} :
    node ∈ preorderAll trees ↔ ∃ tree ∈ trees, node ∈ tree.preorder := by
  induction trees with
  | nil => simp [preorderAll]
  | cons tree trees ih => simp [preorderAll, ih]

theorem preorder_subset_of_child {tree child : Tree} (h : child ∈ tree.children) :
    child.preorder ⊆ tree.preorder := by
  rw [preorder_eq tree]
  exact List.subset_cons_of_subset _ (preorder_subset_preorderAll h)

theorem Guards.of_child {tree child : Tree} {name : String} (h : child.Guards name)
    (hchild : child ∈ tree.children) : tree.Guards name := by
  obtain ⟨condition, body, token, hmem, hname⟩ := h
  exact ⟨condition, body, token, preorder_subset_of_child hchild hmem, hname⟩

theorem guards_conditional {condition body : Tree} {token : Token} {name : String}
    (h : body.declared? = some name) : (Tree.conditional condition body token).Guards name :=
  ⟨condition, body, token, self_mem_preorder _, h⟩

end Tree

theorem Scopes.mem_or_declared {env after : Env} {tree : Tree} {node : Annotated}
    (h : Scopes env tree node after) :
    ∀ frame ∈ after, ∀ symbol ∈ frame,
      (∃ before ∈ env, symbol ∈ before) ∨ tree.declared? = some symbol.name := by
  match h with
  | .expression _ | .block _ | .debugPrint _ =>
      intro frame hframe symbol hsymbol
      exact .inl ⟨frame, hframe, hsymbol⟩
  | .declare _ _ hname _ _ _ =>
      intro frame hframe symbol hsymbol
      rcases List.mem_cons.1 hframe with rfl | hframe
      · rcases List.mem_append.1 hsymbol with hsymbol | hsymbol
        · exact .inl ⟨_, List.mem_cons_self, hsymbol⟩
        · rw [List.mem_singleton.1 hsymbol, hname]
          exact .inr rfl
      · exact .inl ⟨frame, List.mem_cons_of_mem _ hframe, hsymbol⟩
  | .conditional _ hbody => exact hbody.mem_or_declared

def Annotated.IsExpression : Annotated → Prop
  | .literal .. | .reference .. | .assign .. | .call .. => True
  | _ => False

theorem Scopes.resolves {env after : Env} {tree : Tree} {node : Annotated}
    (h : Scopes env tree node after) (hnode : node.IsExpression) :
    Resolves env tree node ∧ after = env := by
  cases h with
  | expression hresolves => exact ⟨hresolves, rfl⟩
  | declare | block | conditional | debugPrint => exact hnode.elim

/-- A statement that declares no name leaves what is visible as it is. -/
theorem Scopes.env_eq {env after : Env} {tree : Tree} {node : Annotated}
    (h : Scopes env tree node after) (hdeclared : tree.declared? = none) : after = env := by
  match h with
  | .expression _ | .block _ | .debugPrint _ => rfl
  | .declare .. => simp [Tree.declared?] at hdeclared
  | .conditional _ hbody => exact hbody.env_eq hdeclared

/-- The symbols that come into view are new. -/
theorem Scopes.distinct {env after : Env} {tree : Tree} {node : Annotated}
    (h : Scopes env tree node after) (henv : env.Distinct) : after.Distinct := by
  match h with
  | .expression _ | .block _ | .debugPrint _ => exact henv
  | .conditional _ hbody => exact hbody.distinct henv
  | @Scopes.declare frame env name symbol id type initializer node _ hid _ _ _ hfresh =>
      have hnew : ∀ other ∈ (frame :: env).flatten, other.id ≠ id := by
        intro other hother
        obtain ⟨owner, howner, hmem⟩ := List.mem_flatten.1 hother
        exact hfresh owner howner other hmem
      have hperm : (((frame ++ [symbol]) :: env).flatten).Perm
          (symbol :: (frame :: env).flatten) := by
        rw [List.flatten_cons, List.flatten_cons, List.append_assoc]
        exact List.perm_middle
      rw [Env.Distinct, (hperm.map Symbol.id).nodup_iff, List.map_cons, List.nodup_cons]
      refine ⟨?_, henv⟩
      intro hmem
      obtain ⟨other, hother, heq⟩ := List.mem_map.1 hmem
      exact hnew other hother (heq.trans hid)

/-! ## Views of the scopes -/

namespace Scoping

variable {s t : Scoping} {scope : Scope}

theorem lookup_eq_resolve (h : s.forest.get? s.cursor = some scope) (name : String) :
    s.forest.lookup s.cursor name = .ok (s.view.resolve name) := by
  rw [Forest.lookup_of_get? h, view, Env.resolve, List.findSome?_map]
  rfl

theorem view_of_kept (hn : Forest.Numbered s.forest.scopes) (hn' : Forest.Numbered t.forest.scopes)
    (h : s.forest.get? s.cursor = some scope)
    (hkept : ∀ id other, s.forest.get? id = some other → t.forest.get? id = some other)
    (hcursor : t.cursor = s.cursor) : t.view = s.view := by
  rw [view, view, hcursor, Forest.chainIn_congr hn hn' h fun id other _ => hkept id other]

theorem view_of_parent (hn : Forest.Numbered s.forest.scopes)
    (h : s.forest.get? s.cursor = some scope) {parent : ScopeId}
    (hparent : scope.parent = some parent) :
    s.view = scope.symbols :: (Forest.chainIn s.forest.scopes parent).map Scope.symbols := by
  rw [view, Forest.chainIn_of_get? hn h, hparent]
  rfl

theorem view_inserted (hn : Forest.Numbered s.forest.scopes)
    (h : s.forest.get? s.cursor = some scope) (name : String) (variant : Symbol.Variant)
    (sort : String) :
    ∃ env, s.view = scope.symbols :: env ∧
      (s.inserted scope name variant sort).view =
        (scope.symbols ++ [s.forest.newSymbol name variant]) :: env := by
  have hid : scope.id = s.cursor := Forest.id_of_get? h
  have hn' : Forest.Numbered (s.inserted scope name variant sort).forest.scopes :=
    hn.withSymbol _ _
  have hget : (s.inserted scope name variant sort).forest.get? s.cursor =
      some (scope.push (s.forest.newSymbol name variant)) := by
    rw [inserted, hid]
    exact Forest.get?_withSymbol_self h _
  refine ⟨(scope.parent.elim [] (Forest.chainIn s.forest.scopes)).map Scope.symbols, ?_, ?_⟩
  · rw [view, Forest.chainIn_of_get? hn h]
    rfl
  · have hview : (s.inserted scope name variant sort).view =
        (Forest.chainIn (s.inserted scope name variant sort).forest.scopes s.cursor).map
          Scope.symbols := rfl
    rw [hview, Forest.chainIn_of_get? hn' hget, List.map_cons]
    have hparent : (scope.push (s.forest.newSymbol name variant)).parent = scope.parent := rfl
    rw [hparent]
    cases hp : scope.parent with
    | none => rfl
    | some parent =>
        obtain ⟨above, habove⟩ := Forest.exists_parent hn h hp
        have hlt := (hn.parent_lt (Forest.mem_of_get? h) hp).2
        have hrest := Forest.chainIn_congr hn hn' habove (by
          intro below above hle hbelow
          have hne : below ≠ scope.id := by
            intro heq
            rw [heq] at hle
            omega
          rw [inserted, Forest.get?_withSymbol_of_ne hne, hbelow])
        simp only [Option.elim_some, hrest]
        rfl

theorem mem_view {frame : List Symbol} (h : frame ∈ s.view) :
    ∃ scope ∈ s.forest.scopes, scope.symbols = frame := by
  obtain ⟨scope, hscope, rfl⟩ := List.mem_map.1 h
  exact ⟨scope, Forest.mem_scopes_of_mem_chainIn hscope, rfl⟩

end Scoping

end Scriptlet
