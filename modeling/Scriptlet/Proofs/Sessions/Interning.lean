import Mathlib.Data.List.Forall2
import Scriptlet.Proofs.Scopes.Interning
import Scriptlet.Proofs.Sessions.Endurance
/-!
# Function types of a session

The types of a session's native functions are interned by their structural names.  Two
signatures share a type only if they are equal, and a type once interned is found for
ever.  The names live in the global scope, though, next to those of native functions: a
signature whose structural name was given to a native function has no type, and what is
found in its place is that function.
-/

namespace Scriptlet

open Act (Preserves)

theorem Scoping.upholds_interns (base : Forest) : Upholds (Interns base) where
  plant := interns_plant "block"
  enter := interns_enter
  leave := interns_leave
  declare name _ span := interns_declare name rfl span

theorem Scoping.sustains_interns (base : Forest) : Sustains (Interns base) where
  placed hs := ⟨hs.grown.wellFormed.numbered, hs.grown.cursor⟩
  unlogged log hs := hs.unlogged log
  upholds := upholds_interns base
  native name _ span := interns_declare name rfl span
  functionType := interns_functionType

namespace Session

variable {ν : Type} {base : Forest}

/-- What becomes of a session by registering native functions under any names, evaluating sources,
analysing trees, interning types and moving the cursor; native functions may do the same to the
session that calls them. -/
inductive UnfoldsInto : Session ν → Session ν → Prop where
  /-- The scopes are left alone. -/
  | apart {s t : Session ν} : t.scoping = s.scoping → UnfoldsInto s t
  | register {s : Session ν} (name : String) (arguments : List String) (result : Option String)
      (handle : ν) : UnfoldsInto s ((register name arguments result handle).on s).2
  | evaluate {s : Session ν} {host : Host ν} {watch : Watch} {source : String} :
      (∀ handle arguments s, UnfoldsInto s ((host.invoke handle arguments).on s).2) →
      UnfoldsInto s ((evaluate host watch source).on s).2
  | analyse {s : Session ν} (tree : Tree) :
      UnfoldsInto s ((onScopes (Analysis.analyse tree)).on s).2
  | functionType {s : Session ν} (arguments : List SymbolId) (result : Option SymbolId) :
      UnfoldsInto s ((onScopes (Scoping.functionType arguments result)).on s).2
  | enter {s : Session ν} (id : ScopeId) : UnfoldsInto s ((onScopes (Scoping.enter id)).on s).2
  | leave {s : Session ν} : UnfoldsInto s ((onScopes Scoping.leave).on s).2
  | trans {s t u : Session ν} : UnfoldsInto s t → UnfoldsInto t u → UnfoldsInto s u

theorem UnfoldsInto.interns {s t : Session ν} (h : s.UnfoldsInto t)
    (hs : s.scoping.Interns base) : t.scoping.Interns base := by
  have hkept := Scoping.sustains_interns base
  induction h with
  | apart hscoping =>
      rw [hscoping]
      exact hs
  | register name arguments result handle =>
      exact hkept.register name arguments result handle _ hs
  | evaluate _ ih =>
      exact hkept.evaluate (fun handle arguments s hs => ih handle arguments s hs) _ _ _ hs
  | analyse tree => exact hkept.onScopes (hkept.upholds.analyse tree) _ hs
  | functionType arguments result =>
      exact hkept.onScopes (hkept.functionType arguments result) _ hs
  | enter id => exact hkept.onScopes (hkept.upholds.enter id) _ hs
  | leave => exact hkept.onScopes hkept.upholds.leave _ hs
  | trans _ _ ihFirst ihSecond => exact ihSecond (ihFirst hs)

theorem UnfoldsInto.refl (s : Session ν) : s.UnfoldsInto s :=
  .apart rfl

theorem interns_initial (settings : Settings) :
    (initial settings : Session ν).scoping.Interns .initial :=
  Scoping.interns_initial.unlogged []

theorem UnfoldsInto.extends {s t : Session ν} (h : s.UnfoldsInto t)
    (hs : s.scoping.Interns base) : s.scoping.forest.Extends t.scoping.forest := by
  have ht := h.interns hs.self
  exact ht.grown.grown.extends ht.grown.wellFormed.numbered

/-! ## Registration -/

theorem resultKind_label {s : Session ν} (name : String) (result : Option String) :
    (resultKind name result).Ensures s
      (fun kind t => t = s ∧ kind.map Primitive.Kind.label = result) (fun _ t => t = s) := by
  unfold resultKind Act.Ensures
  cases result with
  | none => exact ⟨rfl, rfl⟩
  | some type =>
      dsimp only
      cases hkind : Primitive.Kind.named? type with
      | none => rfl
      | some kind =>
          have hlabel : kind.label = type := by simpa using List.find?_some hkind
          exact ⟨rfl, by rw [Option.map_some, hlabel]⟩

private theorem resultType_ensures (kind : Option Primitive.Kind) (s : Scoping) :
    (kind.mapM fun kind => Scoping.typeNamed kind.label).Ensures s
      (fun type t => t = s ∧
        Option.Rel s.forest.Names (type.map Symbol.id) (kind.map Primitive.Kind.label))
      (fun _ t => t = s) := by
  cases kind with
  | none => exact Act.ensures_pure ⟨rfl, .none⟩
  | some kind =>
      change (Scoping.typeNamed kind.label >>= fun type => pure (some type)).Ensures s _ _
      refine (Scoping.typeNamed_ensures kind.label s).bind (fun _ _ h => h) ?_
      rintro type _ ⟨rfl, hname⟩
      exact Act.ensures_pure ⟨rfl, .some hname⟩

private theorem enlist_native {s : Session ν} (hs : s.scoping.Interns base) (name : String)
    (handle : ν) (kind : Option Primitive.Kind) (type : Symbol) :
    (enlist name handle kind type).Ensures s
      (fun symbol t => symbol.variant = .native type.id ∧
        s.scoping.forest.Extends t.scoping.forest) (fun _ _ => True) := by
  obtain ⟨scope, hscope⟩ := hs.grown.cursor
  unfold enlist Act.Ensures
  cases hfind : scope.find? name with
  | some existing =>
      obtain ⟨diagnostic, hon, -⟩ :=
        Scoping.on_declare_taken hscope hfind (.native type.id) Span.unknown
      rw [Act.on_bind_of_error (on_onScopes hon)]
      trivial
  | none =>
      rw [Act.on_bind_of_ok (on_onScopes
          (Scoping.on_declare hscope hfind (.native type.id) Span.unknown)),
        Act.on_bind_of_ok (on_fresh _ _), Act.on_bind_of_ok (on_bind _ _ _),
        Act.on_bind_of_ok (on_record _ _)]
      exact ⟨rfl, Forest.extends_withSymbol _ _⟩

/-- A function that is registered has what interning its signature yields for its type. -/
theorem register_native {s : Session ν} (hs : s.scoping.Interns base) (name : String)
    (arguments : List String) (result : Option String) (handle : ν) :
    (register name arguments result handle).Ensures s
      (fun symbol t => ∃ argumentTypes resultType type,
        symbol.variant = .native type.id ∧
        List.Forall₂ s.scoping.forest.Names argumentTypes arguments ∧
        Option.Rel s.scoping.forest.Names resultType result ∧
        type ∈ t.scoping.forest.global.symbols ∧
        (¬ s.scoping.forest.Taken argumentTypes resultType →
          type.variant = .function argumentTypes resultType) ∧
        (s.scoping.forest.Taken argumentTypes resultType → type.variant.isType = false))
      (fun _ _ => True) := by
  rw [register_eq]
  refine (onScopes_ensures (Scoping.mapM_typeNamed_ensures arguments s.scoping)).bind
    (fun _ _ _ => trivial) ?_
  rintro argumentTypes _ ⟨scoping, rfl, rfl, hnames⟩
  refine (resultKind_label name result).bind (fun _ _ _ => trivial) ?_
  rintro kind _ ⟨rfl, hkind⟩
  refine (onScopes_ensures (resultType_ensures kind _)).bind (fun _ _ _ => trivial) ?_
  rintro resultType _ ⟨scoping, rfl, rfl, hresult⟩
  rw [hkind] at hresult
  have hbefore := (hs.unlogged []).unlogged []
  have htype := Act.ensures_on
    (Scoping.functionType (argumentTypes.map Symbol.id) (resultType.map Symbol.id))
    { { s.scoping with log := [] } with log := [] }
  refine (onScopes_ensures htype).bind (fun _ _ _ => trivial) ?_
  rintro type _ ⟨scoping, rfl, hon⟩
  obtain ⟨hmem, -, hfree, htaken⟩ := hbefore.functionType hon
  have hafter : scoping.Interns base := by
    have hpreserved := Scoping.interns_functionType (argumentTypes.map Symbol.id)
      (resultType.map Symbol.id) _ hbefore
    rwa [hon] at hpreserved
  refine (enlist_native (hafter.unlogged []) name handle kind type).mono ?_ (fun _ _ _ => trivial)
  rintro symbol t ⟨hvariant, hext⟩
  exact ⟨_, _, type, hvariant, hnames, hresult, hext.global_subset hmem, hfree, htaken⟩

/-! ## The types of a session -/

/-- Interning a signature of known types yields the type of that signature, for ever, unless
something that is no type bears its structural name: then it yields that.  Two signatures are
given the same identity exactly if they are equal, and a native function's type is that of its own
signature under the same condition. -/
theorem functionTypes_faithful {settings : Settings} {s : Session ν}
    (hs : (initial settings : Session ν).UnfoldsInto s) :
    (∀ arguments result, (∀ id ∈ arguments, s.scoping.forest.IsType id) →
      (∀ id, result = some id → s.scoping.forest.IsType id) →
      ∃ symbol t, (onScopes (Scoping.functionType arguments result)).on s = (.ok symbol, t) ∧
        (¬ s.scoping.forest.Taken arguments result →
          symbol.variant = .function arguments result ∧
          ∀ u, t.UnfoldsInto u → u.scoping.forest.typeSymbol symbol.id = .ok symbol) ∧
        (s.scoping.forest.Taken arguments result →
          ∀ u, t.UnfoldsInto u → ∀ type, u.scoping.forest.typeSymbol symbol.id ≠ .ok type) ∧
        ∀ u, t.UnfoldsInto u → ∀ others other symbol' v,
          (onScopes (Scoping.functionType others other)).on u = (.ok symbol', v) →
          (symbol'.id = symbol.id ↔ others = arguments ∧ other = result)) ∧
    ∀ name arguments result handle symbol t,
      (register name arguments result handle).on s = (.ok symbol, t) →
      ∃ argumentTypes resultType type, symbol.variant = .native type ∧
        List.Forall₂ s.scoping.forest.Names argumentTypes arguments ∧
        Option.Rel s.scoping.forest.Names resultType result ∧
        ∀ u, t.UnfoldsInto u →
          ((∃ found, u.scoping.forest.typeSymbol type = .ok found ∧
              found.variant = .function argumentTypes resultType) ↔
            ¬ s.scoping.forest.Taken argumentTypes resultType) := by
  have hinterns := hs.interns (interns_initial settings)
  refine ⟨?_, ?_⟩
  · intro arguments result harguments hresult
    obtain ⟨name, hname⟩ := Forest.exists_namesFunction harguments hresult
    obtain ⟨symbol, scoping, hon⟩ :=
      Scoping.exists_on_functionType hinterns.interning.wellFormed hname
    have hsession : (onScopes (Scoping.functionType arguments result)).on s =
        (.ok symbol, s.rescoped scoping) := on_onScopes hon
    have hstep : s.UnfoldsInto (s.rescoped scoping) := by
      have := UnfoldsInto.functionType (s := s) arguments result
      rwa [hsession] at this
    have hafter := hstep.interns hinterns
    obtain ⟨hmem, hnamed, hfree, htaken⟩ := hinterns.functionType hon
    refine ⟨symbol, _, hsession, fun hnot => ⟨hfree hnot, ?_⟩, ?_, ?_⟩
    · intro u hu
      exact (hu.interns hafter).interning.wellFormed.typeSymbol_eq_ok
        ((hu.extends hafter).global_subset hmem) (by rw [hfree hnot]; rfl)
    · intro hyes u hu
      exact (hu.interns hafter).interning.wellFormed.typeSymbol_ne_ok
        ((hu.extends hafter).global_subset hmem) (htaken hyes)
    · intro u hu others other symbol' v hother
      have hu' := hu.interns hafter
      have hlater : u.UnfoldsInto v := by
        have := UnfoldsInto.functionType (s := u) others other
        rwa [hother] at this
      have hv := hlater.interns hu'
      have hext := (hu.trans hlater).extends hafter
      rcases hon' : (Scoping.functionType others other).on u.scoping with ⟨outcome, scoping'⟩
      rw [on_onScopes hon'] at hother
      cases hother
      obtain ⟨hmem', hnamed', -, -⟩ := hu'.functionType hon'
      exact hv.interning.id_eq_iff hmem' (hext.global_subset hmem) hnamed' (hnamed.mono hext)
  · intro name arguments result handle symbol t hon
    have hensures := register_native hinterns name arguments result handle
    unfold Act.Ensures at hensures
    rw [hon] at hensures
    obtain ⟨argumentTypes, resultType, type, hvariant, hnames, hresult, hmem, hfree, htaken⟩ :=
      hensures
    refine ⟨argumentTypes, resultType, type.id, hvariant, hnames, hresult, ?_⟩
    have hafter : t.scoping.Interns .initial := by
      have := (UnfoldsInto.register (s := s) name arguments result handle).interns hinterns
      rwa [hon] at this
    intro u hu
    have hformed := (hu.interns hafter).interning.wellFormed
    have hmem' := (hu.extends hafter).global_subset hmem
    constructor
    · rintro ⟨found, hfound, -⟩ hyes
      exact hformed.typeSymbol_ne_ok hmem' (htaken hyes) found hfound
    · intro hnot
      refine ⟨type, hformed.typeSymbol_eq_ok hmem' ?_, hfree hnot⟩
      rw [hfree hnot]
      rfl

def disguised : Session Unit :=
  ((register "<int:>" [] none ()).on (initial .standard)).2

/-- The functions that take an integer have no type in that session; the functions that return one
have. -/
theorem functionTypes_faithful_disguised :
    (∃ symbol t, (onScopes (Scoping.functionType [Primitive.Kind.integer.typeId] none)).on
        disguised = (.ok symbol, t) ∧
      ∀ type, t.scoping.forest.typeSymbol symbol.id ≠ .ok type) ∧
    ∃ symbol t, (onScopes (Scoping.functionType [] (some Primitive.Kind.integer.typeId))).on
        disguised = (.ok symbol, t) ∧
      symbol.variant = .function [] (some Primitive.Kind.integer.typeId) ∧
      t.scoping.forest.typeSymbol symbol.id = .ok symbol := by
  have hunfolds : (initial .standard).UnfoldsInto disguised := .register "<int:>" [] none ()
  have hinteger : disguised.scoping.forest.Names Primitive.Kind.integer.typeId "int" :=
    ⟨Primitive.Kind.integer.typeSymbol, by decide, rfl, rfl, rfl⟩
  have htypes := (functionTypes_faithful hunfolds).1
  constructor
  · obtain ⟨symbol, t, hon, -, htaken, -⟩ := htypes [Primitive.Kind.integer.typeId] none
      (by simpa using ⟨_, hinteger⟩) (by simp)
    refine ⟨symbol, t, hon, htaken ?_ t (.refl t)⟩
    exact ⟨⟨⟨6⟩, "<int:>", .native ⟨5⟩⟩, by decide, rfl, ["int"], none, .cons hinteger .nil, .none,
      by decide⟩
  · obtain ⟨symbol, t, hon, hfree, -, -⟩ := htypes [] (some Primitive.Kind.integer.typeId)
      (by simp) (by simpa using ⟨_, hinteger⟩)
    have hnot : ¬ disguised.scoping.forest.Taken [] (some Primitive.Kind.integer.typeId) := by
      rintro ⟨native, hmem, hvariant, names, resultName, hnames, hresult, hname⟩
      have honly : native.name = "<int:>" := by
        have hall : ∀ symbol ∈ disguised.scoping.forest.global.symbols,
            symbol.variant.isType = false → symbol.name = "<int:>" := by
          decide
        exact hall native hmem hvariant
      cases hnames
      rw [honly] at hname
      have hsecond := congrArg (fun name => name.toList[1]?) hname
      rw [TypeName.toList_functionTypeName] at hsecond
      simp at hsecond
    exact ⟨symbol, t, hon, (hfree hnot).1, (hfree hnot).2 t (.refl t)⟩

end Session

end Scriptlet
