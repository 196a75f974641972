import Scriptlet.Proofs.Act
import Scriptlet.Proofs.Scopes.Growth
import Scriptlet.Scoping
/-!
# Work at the cursor

What each act on the scopes does when the forest is lawful and the cursor stands
on one of its scopes.
-/

namespace Scriptlet.Scoping

open Forest (IsType IsFunction Names)

variable {s : Scoping} {scope : Scope}

@[simp] theorem on_record (event : ScopeEvent) (s : Scoping) :
    (record event).on s = (.ok (), { s with log := event :: s.log }) := rfl

theorem on_current (h : s.forest.get? s.cursor = some scope) : current.on s = (.ok scope, s) := by
  unfold current
  rw [Act.on_bind_of_ok (Act.on_get s), Act.on_ofExcept, Forest.get_of_get? h]

theorem on_enter {id : ScopeId} (h : s.forest.get? id = some scope) :
    (enter id).on s =
      (.ok (), { s with cursor := id, log := .entered id scope.name :: s.log }) := by
  unfold enter
  rw [Act.on_bind_of_ok (Act.on_get s)]
  simp only [h]
  rw [Act.on_bind_of_ok (Act.on_modify _ s), on_record]

theorem on_enter_unknown {id : ScopeId} (h : s.forest.get? id = none) :
    (enter id).on s = (.error (.placeless
      (.scopeStack ("cannot enter unknown scope " ++ hiddenIdentity))), s) := by
  unfold enter
  rw [Act.on_bind_of_ok (Act.on_get s)]
  simp only [h]
  rfl

theorem on_leave {parent : ScopeId} (h : s.forest.get? s.cursor = some scope)
    (hparent : scope.parent = some parent) :
    leave.on s =
      (.ok (), { s with cursor := parent, log := .left scope.id scope.name :: s.log }) := by
  unfold leave
  rw [Act.on_bind_of_ok (on_current h)]
  simp only [hparent]
  rw [Act.on_bind_of_ok (on_record _ s), Act.on_modify]

theorem on_leave_root (h : s.forest.get? s.cursor = some scope) (hparent : scope.parent = none) :
    leave.on s = (.error (.placeless (.scopeStack "cannot leave the global scope")), s) := by
  unfold leave
  rw [Act.on_bind_of_ok (on_current h)]
  simp only [hparent]
  rfl

theorem on_plant {name : String} {parent : ScopeId} (h : s.forest.get? parent = some scope) :
    (plant name (some parent)).on s =
      (.ok s.forest.nextScope, { s with forest := s.forest.withScope name parent }) := by
  unfold plant
  rw [Act.on_bind_of_ok (Act.on_get s), Act.on_bind_of_ok (by
    rw [Act.on_ofExcept, Forest.plant_eq h])]
  rfl

theorem on_resolve (name : String) (s : Scoping) :
    (resolve name).on s = (s.forest.lookup s.cursor name, s) := by
  unfold resolve
  rw [Act.on_bind_of_ok (Act.on_get s), Act.on_ofExcept]

theorem on_resolveId (id : SymbolId) (s : Scoping) :
    (resolveId id).on s = (s.forest.lookupId s.cursor id, s) := by
  unfold resolveId
  rw [Act.on_bind_of_ok (Act.on_get s), Act.on_ofExcept]

def inserted (s : Scoping) (scope : Scope) (name : String) (variant : Symbol.Variant)
    (sort : String) : Scoping :=
  { s with
    forest := s.forest.withSymbol scope.id (s.forest.newSymbol name variant)
    log := .declared sort name scope.name :: s.log }

theorem on_insert {name : String} (h : scope.find? name = none) (variant : Symbol.Variant)
    (sort : String) :
    (insert scope name variant sort).on s =
      (.ok (s.forest.newSymbol name variant), s.inserted scope name variant sort) := by
  unfold insert
  rw [Act.on_bind_of_ok (Act.on_get s), Act.on_bind_of_ok (by
    rw [Act.on_ofExcept, Forest.insert_eq h])]
  rfl

theorem on_declare {name : String} (h : s.forest.get? s.cursor = some scope)
    (hfree : scope.find? name = none) (variant : Symbol.Variant) (span : Span) :
    (declare name variant span).on s =
      (.ok (s.forest.newSymbol name variant), s.inserted scope name variant variant.sort) := by
  unfold declare
  rw [Act.on_bind_of_ok (on_current h)]
  simp only [hfree]
  rw [on_insert hfree]

theorem on_declare_taken {name : String} (h : s.forest.get? s.cursor = some scope)
    {existing : Symbol} (htaken : scope.find? name = some existing) (variant : Symbol.Variant)
    (span : Span) :
    ∃ diagnostic, (declare name variant span).on s = (.error (.fault diagnostic), s) ∧
      diagnostic.fault = .redefinedSymbol name variant.sort := by
  unfold declare
  rw [Act.on_bind_of_ok (on_current h)]
  simp only [htaken]
  exact ⟨_, Act.on_throw _ s, rfl⟩

theorem on_typeSymbol (id : SymbolId) (s : Scoping) :
    (typeSymbol id).on s = (s.forest.typeSymbol id, s) := by
  unfold typeSymbol
  rw [Act.on_bind_of_ok (Act.on_get s), Act.on_ofExcept]

theorem on_typeName (hs : s.forest.Lawful) {id : SymbolId} {name : String}
    (h : s.forest.Names id name) : (typeName id).on s = (.ok name, s) := by
  obtain ⟨symbol, -, hsymbol, -, hname⟩ := hs.typeSymbol_of_names h
  unfold typeName
  rw [Act.on_bind_of_ok (by rw [on_typeSymbol, hsymbol]), Act.on_pure, hname]

private theorem on_mapM_typeName (hs : s.forest.Lawful) {ids : List SymbolId} {names : List String}
    (h : List.Forall₂ s.forest.Names ids names) : (ids.mapM typeName).on s = (.ok names, s) := by
  induction h with
  | nil => rfl
  | cons hhead _ ih =>
      rw [List.mapM_cons, Act.on_bind_of_ok (on_typeName hs hhead), Act.on_bind_of_ok ih,
        Act.on_pure]

/-! ## Types by name -/

theorem typeNamed_ensures (name : String) (s : Scoping) :
    (typeNamed name).Ensures s (fun symbol t => t = s ∧ s.forest.Names symbol.id name)
      (fun _ t => t = s) := by
  unfold typeNamed Act.Ensures
  rw [Act.on_bind_of_ok (Act.on_get s)]
  cases hfind : s.forest.global.find? name with
  | none => simp
  | some symbol =>
      by_cases htype : symbol.variant.isType = true
      · have hname : symbol.name = name := by simpa using List.find?_some hfind
        simp only [htype, if_true, Act.on_pure, true_and]
        exact ⟨symbol, List.mem_of_find?_eq_some hfind, rfl, hname, htype⟩
      · simp [htype]

theorem mapM_typeNamed_ensures (names : List String) (s : Scoping) :
    (names.mapM typeNamed).Ensures s
      (fun symbols t => t = s ∧ List.Forall₂ s.forest.Names (symbols.map Symbol.id) names)
      (fun _ t => t = s) := by
  induction names with
  | nil => exact Act.ensures_pure ⟨rfl, .nil⟩
  | cons name names ih =>
      rw [List.mapM_cons]
      refine (typeNamed_ensures name s).bind (fun _ _ h => h) ?_
      rintro symbol _ ⟨rfl, hsymbol⟩
      refine ih.bind (fun _ _ h => h) ?_
      rintro symbols _ ⟨rfl, hsymbols⟩
      exact Act.ensures_pure ⟨rfl, .cons hsymbol hsymbols⟩

theorem on_typeNamed_label (hs : s.forest.Lawful) (kind : Primitive.Kind) :
    (typeNamed kind.label).on s = (.ok kind.typeSymbol, s) := by
  have hmem := hs.primitives kind
  unfold typeNamed
  rw [Act.on_bind_of_ok (Act.on_get s)]
  cases hfind : s.forest.global.find? kind.label with
  | none =>
      have := List.find?_eq_none.1 hfind _ hmem
      simp [Primitive.Kind.typeSymbol] at this
  | some symbol =>
      have hname : symbol.name = kind.label := by simpa using List.find?_some hfind
      obtain rfl := hs.eq_of_name hs.global_mem (List.mem_of_find?_eq_some hfind) hmem hname
      rfl

/-- The type of a signature is found or made, and is then of that signature.
Nothing but that type is added. -/
theorem functionType_lawful (hs : s.forest.Lawful) {ids : List SymbolId} {names : List String}
    (hids : List.Forall₂ s.forest.Names ids names) (result : Option Primitive.Kind) :
    (functionType ids (result.map Primitive.Kind.typeId)).Ensures s
      (fun symbol t => t.cursor = s.cursor ∧
        t.forest.IsFunction symbol.id ids (result.map Primitive.Kind.typeId) ∧
        (t.forest = s.forest ∨
          s.forest.global.find? (functionTypeName names (result.map Primitive.Kind.label)) = none ∧
          t.forest = s.forest.withSymbol Forest.globalId (s.forest.newSymbol
            (functionTypeName names (result.map Primitive.Kind.label))
            (.function ids (result.map Primitive.Kind.typeId)))))
      (fun _ _ => False) := by
  have hresult : ((result.map Primitive.Kind.typeId).mapM typeName).on s =
      (.ok (result.map Primitive.Kind.label), s) := by
    cases result with
    | none => rfl
    | some kind =>
        have hkind : s.forest.Names kind.typeId kind.label :=
          ⟨kind.typeSymbol, hs.primitives kind, rfl, rfl, rfl⟩
        exact Act.on_map_of_ok (on_typeName hs hkind) some
  unfold functionType Act.Ensures
  rw [Act.on_bind_of_ok (on_mapM_typeName hs hids), Act.on_bind_of_ok hresult,
    Act.on_bind_of_ok (Act.on_get s)]
  dsimp only
  cases hfind : s.forest.global.find?
    (functionTypeName names (result.map Primitive.Kind.label)) with
  | some existing =>
      have hmem := List.mem_of_find?_eq_some hfind
      have hname := List.find?_some hfind
      exact ⟨rfl, ⟨existing, hmem, rfl, hs.function_of_name hids hmem (by simpa using hname)⟩,
        .inl rfl⟩
  | none =>
      have hglobal := hs.global_eq
      simp only [on_insert hfind, inserted, Forest.id_of_get? hglobal]
      refine ⟨trivial, ⟨_, ?_, rfl, rfl⟩, .inr ⟨trivial, trivial⟩⟩
      rw [Forest.global, Forest.get?_withSymbol_self hglobal, Option.getD_some]
      exact List.mem_append_right _ (List.mem_singleton_self _)

structure Grows (s t : Scoping) : Prop where
  sound : t.forest.Sound
  grown : s.forest.Extends t.forest
  cursor : t.cursor = s.cursor

theorem functionType_ensures (hs : s.forest.Sound) {ids : List SymbolId} {names : List String}
    (hids : List.Forall₂ s.forest.Names ids names) (result : Option Primitive.Kind) :
    (functionType ids (result.map Primitive.Kind.typeId)).Ensures s
      (fun symbol t => s.Grows t ∧
        t.forest.IsFunction symbol.id ids (result.map Primitive.Kind.typeId) ∧
        (t.forest = s.forest ∨ ∃ added : Symbol, added.variant.type? = none ∧
          t.forest = s.forest.withSymbol Forest.globalId added))
      (fun _ _ => False) := by
  refine (functionType_lawful hs.lawful hids result).mono ?_ (fun _ _ h => h)
  rintro symbol t ⟨hcursor, hfunction, hforest | ⟨hfind, hforest⟩⟩
  · exact ⟨⟨hforest ▸ hs, hforest ▸ Forest.Extends.refl _, hcursor⟩, hfunction, .inl hforest⟩
  · have hsound := hs.withSymbol hs.lawful.global_eq hfind
      (.function hids (hs.lawful.typeNames hids))
    refine ⟨⟨?_, ?_, hcursor⟩, hfunction, .inr ⟨_, rfl, hforest⟩⟩
    · rw [hforest]
      exact hsound
    · rw [hforest]
      exact Forest.extends_withSymbol _ _

end Scriptlet.Scoping
