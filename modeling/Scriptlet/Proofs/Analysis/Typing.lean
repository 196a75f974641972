import Scriptlet.Annotated
import Scriptlet.Proofs.Scopes.Sound
import Scriptlet.Proofs.Syntax.Spelling
/-!
# Typing of annotated trees

The typing rules of annotated trees, relative to a forest and the scope from
which the names of a tree are read.  A typed tree stays typed when the forest
grows.
-/

namespace Scriptlet

/-- The annotated tree has the given type, or is a statement if none is given,
when it is read from a scope. -/
inductive Annotated.Typed (forest : Forest) : ScopeId → Annotated → Option SymbolId → Prop where
  | block {outer inner : ScopeId} {scope : Scope} {nodes : List Annotated}
      {types : List (Option SymbolId)} {token : Option Token} :
      forest.get? inner = some scope → scope.parent = some outer →
      nodes.length = types.length →
      (∀ pair ∈ nodes.zip types, Typed forest inner pair.1 pair.2) →
      Typed forest outer (.block nodes inner token) none
  | literal {scope : ScopeId} {token : Token} {kind : Primitive.Kind} :
      token.Spells kind → Typed forest scope (.literal token kind) (some kind.typeId)
  | reference {scope : ScopeId} {symbol : Symbol} {type : SymbolId} {token : Token} :
      forest.Visible scope symbol → symbol.name = token.text →
      symbol.variant.type? = some type →
      Typed forest scope (.reference symbol.id token) (some type)
  | declare {id : ScopeId} {scope : Scope} {symbol : Symbol} {type : SymbolId}
      {initializer : Annotated} {token : Token} :
      forest.get? id = some scope → symbol ∈ scope.symbols → symbol.variant = .var type →
      Typed forest id initializer (some type) →
      Typed forest id (.declare symbol.id initializer token) none
  | assign {scope : ScopeId} {symbol : Symbol} {type : SymbolId} {value : Annotated}
      {token : Token} :
      forest.Visible scope symbol → symbol.variant = .var type →
      Typed forest scope value (some type) →
      Typed forest scope (.assign symbol.id value token) none
  | call {scope : ScopeId} {type : SymbolId} {parameters : List SymbolId}
      {result : Option SymbolId} {callee : Annotated} {arguments : List Annotated}
      {token : Token} :
      Typed forest scope callee (some type) → forest.IsFunction type parameters result →
      arguments.length = parameters.length →
      (∀ pair ∈ arguments.zip parameters, Typed forest scope pair.1 (some pair.2)) →
      Typed forest scope (.call callee arguments token) result
  | conditional {scope : ScopeId} {type : Option SymbolId} {condition body : Annotated}
      {token : Token} :
      Typed forest scope condition (some Primitive.Kind.truth.typeId) →
      Typed forest scope body type →
      Typed forest scope (.conditional condition body token) none
  | debugPrint {scope : ScopeId} {type : SymbolId} {operand : Annotated} {token : Token} :
      Typed forest scope operand (some type) →
      Typed forest scope (.debugPrint operand token) none

namespace Annotated.Typed

variable {forest grown : Forest}

theorem mono {id : ScopeId} {scope : Scope} {node : Annotated} {type : Option SymbolId}
    (h : Typed forest id node type) (hext : forest.Extends grown)
    (hn : Forest.Numbered forest.scopes) (hn' : Forest.Numbered grown.scopes)
    (hget : forest.get? id = some scope) : Typed grown id node type := by
  induction h generalizing scope with
  | block hinner hparent hlength _ ih =>
      obtain ⟨scope', hget', hparent', -⟩ := hext _ _ hinner
      exact .block hget' (hparent'.trans hparent) hlength fun pair hpair => ih pair hpair hinner
  | literal hspells => exact .literal hspells
  | reference hvisible hname htype =>
      exact .reference (hext.visible hn hn' hget hvisible) hname htype
  | declare howner hsymbol hvariant _ ih =>
      obtain ⟨scope', hget', -, hsymbols⟩ := hext _ _ howner
      exact .declare hget' (hsymbols.subset hsymbol) hvariant (ih howner)
  | assign hvisible hvariant _ ih =>
      exact .assign (hext.visible hn hn' hget hvisible) hvariant (ih hget)
  | call _ hfunction hlength _ ihCallee ihArguments =>
      exact .call (ihCallee hget) (hfunction.mono hext) hlength
        fun pair hpair => ihArguments pair hpair hget
  | conditional _ _ ihCondition ihBody => exact .conditional (ihCondition hget) (ihBody hget)
  | debugPrint _ ih => exact .debugPrint (ih hget)

theorem isType {id : ScopeId} {node : Annotated} {type : SymbolId}
    (h : Typed forest id node (some type)) (hs : forest.Sound) : forest.IsType type := by
  cases h with
  | literal => exact hs.lawful.isType_typeId _
  | reference hvisible _ htype =>
      obtain ⟨scope, hscope, hsymbol⟩ := hvisible
      exact hs.lawful.isType_of_type? (Forest.mem_scopes_of_mem_chainIn hscope) hsymbol htype
  | call _ hfunction =>
      obtain ⟨-, kind, hkind⟩ := hs.lawful.parts_of_isFunction hfunction
      obtain ⟨kind, -, rfl⟩ := Option.map_eq_some_iff.1 hkind.symm
      exact hs.lawful.isType_typeId kind

end Annotated.Typed

end Scriptlet
