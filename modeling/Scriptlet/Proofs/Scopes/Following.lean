import Scriptlet.Proofs.Act.Tracking
import Scriptlet.Proofs.Scopes.Mirroring
/-!
# Acts on mirroring scopes

The acts on scopes do the same in scopes that mirror each other: they have outcomes that stand for
each other and leave scopes that mirror each other, perhaps with new identities paired.  Only the
excepted name must not be asked for.
-/

namespace Scriptlet.Scoping

/-- The forests mirror each other, all types are interned, and the cursors stand on the same
scope. -/
structure Mirrors (hidden : Option String) (pairs : Pairing) (s t : Scoping) : Prop where
  forest : s.forest.Mirrors hidden pairs t.forest
  cursor : t.cursor = s.cursor
  interns : s.Interns .initial
  interns' : t.Interns .initial

abbrev Tracks {α β : Type} (hidden : Option String) (values : Pairing → α → β → Prop)
    (pairs : Pairing) (act : Act Scoping α) (act' : Act Scoping β) : Prop :=
  Act.Tracks (Mirrors hidden) values pairs act act'

variable {hidden : Option String} {pairs : Pairing} {s t : Scoping}

namespace Mirrors

theorem wellFormed (h : s.Mirrors hidden pairs t) : s.forest.WellFormed ∧ t.forest.WellFormed :=
  ⟨h.interns.interning.wellFormed, h.interns'.interning.wellFormed⟩

theorem global (h : s.Mirrors hidden pairs t) :
    s.forest.global.Mirrors hidden pairs t.forest.global :=
  h.forest.global h.wellFormed.1 h.wellFormed.2

private theorem exists_current (h : s.Mirrors hidden pairs t) :
    ∃ scope scope', s.forest.get? s.cursor = some scope ∧ t.forest.get? t.cursor = some scope' ∧
      scope.Mirrors hidden pairs scope' := by
  obtain ⟨scope, hscope⟩ := h.interns.grown.cursor
  obtain ⟨scope', hscope', hmirrors⟩ := h.forest.exists_scope hscope
  exact ⟨scope, scope', hscope, h.cursor ▸ hscope', hmirrors⟩

theorem unlogged (h : s.Mirrors hidden pairs t) (log log' : List ScopeEvent) :
    ({ s with log := log } : Scoping).Mirrors hidden pairs { t with log := log' } :=
  ⟨h.forest, h.cursor, h.interns.unlogged log, h.interns'.unlogged log'⟩

end Mirrors

/-! ## The cursor -/

theorem tracks_enter (id : ScopeId) :
    Tracks hidden (fun _ _ _ => True) pairs (enter id) (enter id) := by
  intro u _ s t h
  have hs := interns_enter id s h.interns
  have ht := interns_enter id t h.interns'
  refine ⟨u, le_rfl, ?_⟩
  cases hscope : s.forest.get? id with
  | none =>
      rw [on_enter_unknown hscope, on_enter_unknown (h.forest.get?_eq_none hscope)]
      exact ⟨.error rfl, h⟩
  | some scope =>
      obtain ⟨scope', hscope', -⟩ := h.forest.exists_scope hscope
      rw [on_enter hscope] at hs ⊢
      rw [on_enter hscope'] at ht ⊢
      exact ⟨.ok trivial, h.forest, rfl, hs, ht⟩

theorem tracks_leave : Tracks hidden (fun _ _ _ => True) pairs leave leave := by
  intro u _ s t h
  have hs := interns_leave s h.interns
  have ht := interns_leave t h.interns'
  obtain ⟨scope, scope', hscope, hscope', hmirrors⟩ := h.exists_current
  refine ⟨u, le_rfl, ?_⟩
  cases hparent : scope.parent with
  | none =>
      rw [on_leave_root hscope hparent, on_leave_root hscope' (hmirrors.parent.trans hparent)]
      exact ⟨.error rfl, h⟩
  | some parent =>
      rw [on_leave hscope hparent] at hs ⊢
      rw [on_leave hscope' (hmirrors.parent.trans hparent)] at ht ⊢
      exact ⟨.ok trivial, h.forest, rfl, hs, ht⟩

/-! ## New scopes and symbols -/

theorem tracks_plant (name : String) (parent : ScopeId) :
    Tracks hidden (fun _ => Eq) pairs (plant name (some parent)) (plant name (some parent)) := by
  intro u _ s t h
  have hs := interns_plant name parent s h.interns
  have ht := interns_plant name parent t h.interns'
  refine ⟨u, le_rfl, ?_⟩
  cases hscope : s.forest.get? parent with
  | none =>
      have hfails : ∀ {s : Scoping}, s.forest.get? parent = none →
          (plant name (some parent)).on s = (.error (.placeless
            (.scopeStack ("parent scope " ++ hiddenIdentity ++ " does not exist"))), s) := by
        intro s hnone
        unfold plant
        rw [Act.on_bind_of_ok (Act.on_get s), Act.on_bind_of_error]
        rw [Act.on_ofExcept, Forest.plant, Forest.contains, hnone]
        rfl
      rw [hfails hscope, hfails (h.forest.get?_eq_none hscope)]
      exact ⟨.error rfl, h⟩
  | some scope =>
      obtain ⟨scope', hscope', -⟩ := h.forest.exists_scope hscope
      rw [on_plant hscope] at hs ⊢
      rw [on_plant hscope'] at ht ⊢
      exact ⟨.ok h.forest.nextScope_eq.symm, h.forest.withScope name parent, h.cursor, hs, ht⟩

theorem tracks_declare {name : String} (hname : hidden ≠ some name)
    {variant variant' : Symbol.Variant} (hvariant : variant.Mirrors pairs variant')
    (htype : variant.isType = false) (span : Span) :
    Tracks hidden Symbol.Mirrors pairs (declare name variant span)
      (declare name variant' span) := by
  intro u hu s t h
  have hs := interns_declare name htype span s h.interns
  have ht := interns_declare name (hvariant.isType_eq.trans htype) span t h.interns'
  obtain ⟨scope, scope', hscope, hscope', hmirrors⟩ := h.exists_current
  have hboth := hmirrors.find? hname
  cases hfind : scope.find? name with
  | some existing =>
      rw [hfind] at hboth
      obtain ⟨existing', hfind', hexisting⟩ := rel_some_left hboth
      refine ⟨u, le_rfl, ?_⟩
      unfold declare
      rw [Act.on_bind_of_ok (on_current hscope), Act.on_bind_of_ok (on_current hscope')]
      simp only [hfind, hfind', hvariant.sort_eq, hexisting.variant.sort_eq, hmirrors.name]
      exact ⟨.error rfl, h⟩
  | none =>
      rw [hfind] at hboth
      have hfind' := rel_none_left hboth
      unfold Act.TracksOn
      rw [on_declare hscope hfind] at hs ⊢
      rw [on_declare hscope' hfind'] at ht ⊢
      have hforest := h.forest.withSymbol h.wellFormed.1 h.wellFormed.2 hscope' hfind'
        (hvariant.mono hu)
      refine ⟨_, u.le_with ⟨s.forest.nextSymbol⟩ ⟨t.forest.nextSymbol⟩, .ok ?_, ?_, h.cursor,
        hs, ht⟩
      · exact ⟨u.with_self _ _, rfl, (hvariant.mono hu).mono (u.le_with _ _)⟩
      · rw [inserted, inserted, Forest.id_of_get? hscope, Forest.id_of_get? hscope']
        rw [h.cursor] at hforest ⊢
        exact hforest

/-! ## Looking up -/

theorem tracks_resolve {name : String} (hname : hidden ≠ some name) :
    Tracks hidden Pairing.Both pairs (resolve name) (resolve name) := by
  intro u _ s t h
  unfold Act.TracksOn
  rw [on_resolve, on_resolve, h.cursor]
  exact ⟨u, le_rfl, h.forest.lookup h.wellFormed.1 s.cursor hname, h⟩

theorem tracks_resolveId {id id' : SymbolId} (hpair : pairs id id') :
    Tracks hidden Pairing.Both pairs (resolveId id) (resolveId id') := by
  intro u hu s t h
  unfold Act.TracksOn
  rw [on_resolveId, on_resolveId, h.cursor]
  exact ⟨u, le_rfl, h.forest.lookupId s.cursor (hu _ _ hpair), h⟩

theorem tracks_typeSymbol {id id' : SymbolId} (hpair : pairs id id') :
    Tracks hidden Symbol.Mirrors pairs (typeSymbol id) (typeSymbol id') := by
  intro u hu s t h
  unfold Act.TracksOn
  rw [on_typeSymbol, on_typeSymbol]
  exact ⟨u, le_rfl, h.forest.typeSymbol h.wellFormed.1 h.wellFormed.2 (hu _ _ hpair), h⟩

theorem tracks_typeName {id id' : SymbolId} (hpair : pairs id id') :
    Tracks hidden (fun _ => Eq) pairs (typeName id) (typeName id') :=
  (tracks_typeSymbol hpair).bind fun _ _ _ _ hsymbol => .pure fun _ _ => hsymbol.name.symm

theorem tracks_typeNamed {name : String} (hname : hidden ≠ some name) :
    Tracks hidden Symbol.Mirrors pairs (typeNamed name) (typeNamed name) := by
  refine Act.Tracks.get fun u _ s t h => ?_
  have hboth := h.global.find? hname
  generalize s.forest.global.find? name = found at hboth ⊢
  generalize t.forest.global.find? name = found' at hboth ⊢
  cases hboth with
  | none => exact .throw _
  | some hsymbol =>
      dsimp only
      rw [hsymbol.variant.isType_eq]
      split
      · exact .pure fun _ hv => hsymbol.mono hv
      · exact .throw _

theorem tracks_typeNamed_each (name name' : String) (h : name' = name ∧ hidden ≠ some name) :
    Tracks hidden Symbol.Mirrors pairs (typeNamed name) (typeNamed name') := by
  obtain ⟨rfl, hname⟩ := h
  exact tracks_typeNamed hname

/-! ## Interning -/

def structuralName (arguments : List SymbolId) (result : Option SymbolId) : Act Scoping String := do
  let names ← arguments.mapM typeName
  let resultName ← result.mapM typeName
  return functionTypeName names resultName

def internAs (name : String) (arguments : List SymbolId) (result : Option SymbolId) :
    Act Scoping Symbol := do
  let scope := (← get).forest.global
  match scope.find? name with
  | some existing => return existing
  | none => insert scope name (.function arguments result) "type"

theorem functionType_eq (arguments : List SymbolId) (result : Option SymbolId) :
    functionType arguments result =
      structuralName arguments result >>= fun name => internAs name arguments result := by
  simp only [structuralName, bind_assoc, pure_bind]
  rfl

private theorem structuralName_ensures (arguments : List SymbolId) (result : Option SymbolId)
    (s : Scoping) :
    (structuralName arguments result).Ensures s
      (fun name t => t = s ∧ s.forest.NamesFunction arguments result name) (fun _ t => t = s) := by
  refine (mapM_typeName_ensures arguments s).bind (fun _ _ h => h) ?_
  rintro names _ ⟨rfl, hnames⟩
  refine (mapM_typeName_option_ensures result _).bind (fun _ _ h => h) ?_
  rintro resultName _ ⟨rfl, hresult⟩
  exact Act.ensures_pure ⟨rfl, names, resultName, hnames, hresult, rfl⟩

theorem on_internAs_found {name : String} {existing : Symbol}
    (h : s.forest.global.find? name = some existing) (arguments : List SymbolId)
    (result : Option SymbolId) :
    (internAs name arguments result).on s = (.ok existing, s) := by
  unfold internAs
  rw [Act.on_bind_of_ok (Act.on_get s)]
  simp only [h]
  rfl

theorem on_internAs_new {name : String} (h : s.forest.global.find? name = none)
    (arguments : List SymbolId) (result : Option SymbolId) :
    (internAs name arguments result).on s =
      (.ok (s.forest.newSymbol name (.function arguments result)),
        s.inserted s.forest.global name (.function arguments result) "type") := by
  unfold internAs
  rw [Act.on_bind_of_ok (Act.on_get s)]
  simp only [h, on_insert h]

variable {arguments arguments' : List SymbolId} {result result' : Option SymbolId}

private theorem tracks_structuralName (harguments : List.Forall₂ pairs arguments arguments')
    (hresult : Option.Rel pairs result result') :
    Tracks hidden (fun _ => Eq) pairs (structuralName arguments result)
      (structuralName arguments' result') := by
  have hname : ∀ id id', pairs id id' →
      Tracks hidden (fun _ => Eq) pairs (typeName id) (typeName id') := fun _ _ => tracks_typeName
  have hnames := Act.Tracks.mapM (fun _ _ _ _ _ h => h) hname harguments
  have hresultName := Act.Tracks.mapM_option (fun _ _ _ _ _ h => h) hname hresult
  refine hnames.bind fun u hu names names' hsame => ?_
  rw [List.forall₂_eq_eq_eq] at hsame
  subst hsame
  refine (hresultName.later hu).bind fun _ _ _ _ hsame => .pure fun _ _ => ?_
  cases hsame with
  | none => rfl
  | some h => rw [h]

/-- Interning under a structural name.  Where the excepted type is made on the one side, it is found
on the other. -/
theorem mirrors_internAs (h : s.Mirrors hidden pairs t)
    (harguments : List.Forall₂ pairs arguments arguments')
    (hresult : Option.Rel pairs result result') {name : String}
    (hnamed' : t.forest.NamesFunction arguments' result' name)
    (hs : ((internAs name arguments result).on s).2.Interns .initial)
    (ht : ((internAs name arguments' result').on t).2.Interns .initial) :
    Act.TracksOn (Mirrors hidden) Symbol.Mirrors pairs (internAs name arguments result) s
      (internAs name arguments' result') t := by
  unfold Act.TracksOn
  have hvariant : (Symbol.Variant.function arguments result).Mirrors pairs
      (.function arguments' result') := .function harguments hresult
  have hid := Forest.id_of_get? h.wellFormed.1.global_eq
  have hid' := Forest.id_of_get? h.wellFormed.2.global_eq
  rcases h.global.named name with hboth | hlacks
  · cases hfind : s.forest.global.find? name with
    | some existing =>
        rw [hfind] at hboth
        obtain ⟨existing', hfind', hexisting⟩ := rel_some_left hboth
        rw [on_internAs_found hfind, on_internAs_found hfind']
        exact ⟨pairs, le_rfl, .ok hexisting, h⟩
    | none =>
        rw [hfind] at hboth
        have hfind' := rel_none_left hboth
        rw [on_internAs_new hfind] at hs ⊢
        rw [on_internAs_new hfind'] at ht ⊢
        have hforest := h.forest.withSymbol h.wellFormed.1 h.wellFormed.2
          h.wellFormed.2.global_eq hfind' hvariant
        refine ⟨_, pairs.le_with ⟨s.forest.nextSymbol⟩ ⟨t.forest.nextSymbol⟩, .ok ?_, ?_,
          h.cursor, hs, ht⟩
        · exact ⟨pairs.with_self _ _, rfl, hvariant.mono (pairs.le_with _ _)⟩
        · rw [inserted, inserted, hid, hid']
          exact hforest
  · obtain ⟨type, hfind', htype, -⟩ := hlacks.present
    have hfunction := h.interns'.interning.function_of_name hnamed' (Scope.mem_of_find? hfind')
      (Scope.name_of_find? hfind') htype
    rw [← hfunction] at hvariant
    rw [on_internAs_new hlacks.missing] at hs ⊢
    rw [on_internAs_found hfind'] at ht ⊢
    have hforest := h.forest.reveal h.wellFormed.1 h.wellFormed.2 hlacks hfind' hvariant
    refine ⟨_, pairs.le_with ⟨s.forest.nextSymbol⟩ type.id, .ok ?_, ?_, h.cursor, hs, ht⟩
    · exact ⟨pairs.with_self _ _, Scope.name_of_find? hfind', hvariant.mono (pairs.le_with _ _)⟩
    · rw [inserted, hid]
      exact hforest

theorem tracks_functionType (harguments : List.Forall₂ pairs arguments arguments')
    (hresult : Option.Rel pairs result result') :
    Tracks hidden Symbol.Mirrors pairs (functionType arguments result)
      (functionType arguments' result') := by
  intro u hu s t h
  have hs := interns_functionType arguments result s h.interns
  have ht := interns_functionType arguments' result' t h.interns'
  rw [functionType_eq] at hs ht
  rw [functionType_eq, functionType_eq]
  refine (tracks_structuralName harguments hresult u hu s t h).bind ?_
  rintro v hv name _ s' t' hon hon' rfl hleft
  have hname' := structuralName_ensures arguments' result' t
  unfold Act.Ensures at hname'
  rw [Act.on_bind_of_ok hon] at hs
  rw [Act.on_bind_of_ok hon'] at ht
  rw [hon'] at hname'
  obtain ⟨rfl, hnamed'⟩ := hname'
  exact mirrors_internAs hleft (harguments.imp fun _ _ hpair => hv _ _ (hu _ _ hpair))
    (Pairing.rel_mono (hu.trans hv) hresult) hnamed' hs ht

end Scriptlet.Scoping
