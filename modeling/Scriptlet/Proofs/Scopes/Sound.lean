import Scriptlet.Proofs.Scopes.Lawful
/-!
# Sound forests

In the forests that sessions build, the global scope holds types and native
functions, every other scope holds variables of known types, and identities
belong to one symbol each.  Sound forests are lawful ones.
-/

namespace Scriptlet.Forest

inductive Fits (forest : Forest) : ScopeId → Symbol → Prop where
  | primitive (kind : Primitive.Kind) : Fits forest globalId kind.typeSymbol
  | function {id : SymbolId} {arguments : List SymbolId} {names : List String}
      {result : Option Primitive.Kind} :
      List.Forall₂ forest.Names arguments names →
      (∀ name ∈ names, TypeName name) →
      Fits forest globalId ⟨id, functionTypeName names (result.map Primitive.Kind.label),
        .function arguments (result.map Primitive.Kind.typeId)⟩
  | native {id type : SymbolId} {name : String} {arguments : List SymbolId}
      {result : Option SymbolId} :
      forest.IsFunction type arguments result →
      name.toList.head? ≠ some '<' →
      Fits forest globalId ⟨id, name, .native type⟩
  | var {scope : ScopeId} {id type : SymbolId} {name : String} :
      scope ≠ globalId → forest.IsType type → Fits forest scope ⟨id, name, .var type⟩

/-- The forests that sessions build. -/
structure Sound (forest : Forest) : Prop where
  numbered : Numbered forest.scopes
  global : ∃ scope, forest.get? globalId = some scope ∧ scope.parent = none
  repl : ∃ scope, forest.get? replId = some scope ∧ scope.parent = some globalId
  named : ∀ scope ∈ forest.scopes, (scope.symbols.map Symbol.name).Nodup
  identified : ∀ scope ∈ forest.scopes, ∀ other ∈ forest.scopes, ∀ a ∈ scope.symbols,
    ∀ b ∈ other.symbols, a.id = b.id → a = b ∧ scope = other
  minted : ∀ scope ∈ forest.scopes, ∀ a ∈ scope.symbols, a.id.number < forest.nextSymbol
  fits : ∀ scope ∈ forest.scopes, ∀ a ∈ scope.symbols, forest.Fits scope.id a
  primitives : ∀ kind : Primitive.Kind, kind.typeSymbol ∈ forest.global.symbols

theorem Fits.mono {forest grown : Forest} (hext : Extends forest grown) {scope : ScopeId}
    {symbol : Symbol} (h : forest.Fits scope symbol) : grown.Fits scope symbol := by
  cases h with
  | primitive kind => exact .primitive kind
  | function harguments hnames =>
      exact .function (harguments.imp fun _ _ h => h.mono hext) hnames
  | native htype hname => exact .native (htype.mono hext) hname
  | var hscope htype => exact .var hscope (htype.mono hext)

theorem Fits.suits {forest : Forest} {scope : ScopeId} {symbol : Symbol}
    (h : forest.Fits scope symbol) : forest.Suits scope symbol := by
  cases h with
  | primitive kind => exact .primitive kind
  | function harguments hnames => exact .function harguments hnames
  | native htype hname => exact .native htype fun _ => hname
  | var hscope htype => exact .var htype fun heq => absurd heq hscope

namespace Sound

variable {forest : Forest}

theorem lawful (h : forest.Sound) : forest.Lawful :=
  ⟨h.numbered, h.global, h.repl, h.named, h.identified, h.minted,
    fun scope hscope a ha => (h.fits scope hscope a ha).suits, h.primitives⟩

theorem of_lawful (h : forest.Lawful)
    (hfits : ∀ scope ∈ forest.scopes, ∀ a ∈ scope.symbols, forest.Fits scope.id a) : forest.Sound :=
  ⟨h.numbered, h.global, h.repl, h.named, h.identified, h.minted, hfits, h.primitives⟩

theorem global_fits (h : forest.Sound) {symbol : Symbol}
    (hsymbol : symbol ∈ forest.global.symbols) : forest.Fits globalId symbol := by
  have hfits := h.fits _ h.lawful.global_mem symbol hsymbol
  rwa [id_of_get? h.lawful.global_eq] at hfits

end Sound

end Scriptlet.Forest
