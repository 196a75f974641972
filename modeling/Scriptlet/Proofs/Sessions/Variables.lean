import Scriptlet.Proofs.Analysis.Derivation
import Scriptlet.Proofs.Sessions.Policies
import Scriptlet.Proofs.Sessions.Reachability
/-!
# Variables that are left alone

A variable of the top level keeps its value as long as its symbol is not bound again, no
other value takes the identity of its value, and no program assigns to its name.
Programs may declare the name again in their blocks.
-/

namespace Scriptlet

open Act (Preserves)
open Session (Meets)

variable {ν : Type}

/-! ## Reachable sessions -/

/-- However an embedding program works on a session, its scopes stay ordered, and no new value gets
the identity of the one that statements yield. -/
theorem Policy.keeps_free :
    (Policy.free : Policy ν).Keeps (Scoping.Ordered .initial) (fun s => 0 < s.nextValue) where
  endures := Scoping.endures_ordered .initial
  plant := Scoping.ordered_plant
  insert := Scoping.ordered_insert
  newSymbol _ := trivial
  targets _ _ tree _ _ hs :=
    (((Scoping.upholds_ordered .initial).analyse tree).ensures hs).mono (fun _ _ _ _ _ => trivial)
      (fun _ _ _ => trivial)
  apart hs _ _ hnext := Nat.lt_of_lt_of_le hs hnext
  nothing := trivial
  fresh _ _ := trivial
  read _ _ := trivial
  called _ _ := trivial
  stored hs _ := hs
  bound hs _ _ := hs
  collected hs := hs
  sessions _ := trivial

theorem Session.EvolvesInto.ordered {settings : Settings} {s : Session ν}
    (h : (Session.initial settings).EvolvesInto .free s) :
    s.Ordered .initial ∧ 0 < s.nextValue := by
  have hmeets := h.meets Policy.keeps_free ⟨Session.ordered_initial settings, Nat.one_pos⟩
  exact ⟨hmeets.scopes, hmeets.stores⟩

/-! ## Variables -/

structure Variable (ν : Type) where
  name : String
  symbol : SymbolId
  value : Value ν

def Tree.assigned? : Tree → Option String
  | .assign (.reference name) _ _ => some name.text
  | _ => none

/-- No part of the tree assigns to the name. -/
def Tree.Spares (tree : Tree) (name : String) : Prop :=
  ∀ node ∈ tree.preorder, node.assigned? ≠ some name

instance (tree : Tree) (name : String) : Decidable (tree.Spares name) :=
  inferInstanceAs (Decidable (∀ node ∈ tree.preorder, node.assigned? ≠ some name))

theorem Tree.Spares.of_child {tree child : Tree} {name : String} (h : tree.Spares name)
    (hchild : child ∈ tree.children) : child.Spares name :=
  fun node hnode => h node (preorder_subset_of_child hchild hnode)

namespace Variable

/-- The value is that of the variable or has another identity; if it is a native function, it is
one of the given ones. -/
structure Permits (x : Variable ν) (functions : ν → Prop) (value : Value ν) : Prop where
  same : value.id = x.value.id → value = x.value
  function : ∀ {name handle result}, value.payload = .native name handle result →
    functions handle

/-- Whatever leaves the variable alone is allowed to an embedding program with the given native
functions. -/
def spared (x : Variable ν) (functions : ν → Prop) : Policy ν where
  symbols symbol := symbol ≠ x.symbol
  values := x.Permits functions
  functions := functions
  programs trees := ∀ tree ∈ trees, tree.Spares x.name
  sessions s := x.value.id.number < s.nextValue ∧
    ∀ value ∈ s.values.values, x.Permits functions value

/-! ## The symbol -/

structure Named (x : Variable ν) (forest : Forest) : Prop where
  minted : x.symbol.number < forest.nextSymbol
  name : ∀ scope ∈ forest.scopes, ∀ symbol ∈ scope.symbols, symbol.id = x.symbol →
    symbol.name = x.name

theorem Named.planted {x : Variable ν} {forest : Forest} (h : x.Named forest) (id : ScopeId)
    (name : String) (parent : Option ScopeId) :
    x.Named { forest with scopes := ⟨id, name, parent, []⟩ :: forest.scopes } := by
  refine ⟨h.minted, ?_⟩
  rw [List.forall_mem_cons]
  exact ⟨by simp, h.name⟩

theorem Named.ne_newSymbol {x : Variable ν} {forest : Forest} (h : x.Named forest) :
    ⟨forest.nextSymbol⟩ ≠ x.symbol := by
  intro heq
  have hminted := h.minted
  rw [← heq] at hminted
  exact Nat.lt_irrefl _ hminted

theorem Named.withSymbol {x : Variable ν} {forest : Forest} (h : x.Named forest) (id : ScopeId)
    (name : String) (variant : Symbol.Variant) :
    x.Named (forest.withSymbol id (forest.newSymbol name variant)) := by
  refine ⟨Nat.lt_succ_of_lt h.minted, ?_⟩
  intro scope hscope symbol hsymbol hid
  obtain ⟨old, hold, rfl⟩ := List.mem_map.1 hscope
  rcases Scope.mem_pushAt.1 hsymbol with hsymbol | ⟨-, rfl⟩
  · exact h.name old hold symbol hsymbol hid
  · exact absurd hid h.ne_newSymbol

structure DeclaredIn (x : Variable ν) (base : Forest) (s : Scoping) : Prop where
  ordered : s.Ordered base
  named : x.Named s.forest

theorem DeclaredIn.preserves {x : Variable ν} {base : Forest} {α : Type} {act : Act Scoping α}
    (hordered : Preserves (Scoping.Ordered base) act)
    (hnamed : Preserves (fun s => x.Named s.forest) act) : Preserves (x.DeclaredIn base) act :=
  fun s hs => ⟨hordered s hs.ordered, hnamed s hs.named⟩

theorem endures (x : Variable ν) (base : Forest) : Scoping.Endures (x.DeclaredIn base) where
  placed hs := ⟨hs.ordered.numbered, hs.ordered.cursor⟩
  unlogged log hs := ⟨hs.ordered.unlogged log, hs.named⟩
  plant parent := .preserves (Scoping.ordered_plant "block" (some parent))
    (Scoping.forest_plant (fun _ _ h => h.planted _ _ _) (some parent))
  enter id := .preserves (Scoping.ordered_enter id) (Scoping.forest_enter id)
  leave := .preserves Scoping.ordered_leave Scoping.forest_leave
  declare name variant span := .preserves (Scoping.ordered_declare name variant span)
    (Scoping.forest_declare (fun _ id name variant h => h.withSymbol id name variant) name variant
      span)
  functionType arguments result := .preserves (Scoping.ordered_functionType arguments result)
    (Scoping.preserves_functionType (fun _ name variant h _ => h.withSymbol _ name variant)
      arguments result)

/-! ## Programs -/

theorem Named.targets_of_resolves {x : Variable ν} {s : Scoping} (h : x.Named s.forest)
    {tree : Tree} {node : Annotated} (hresolves : Resolves s.view tree node)
    (hspares : tree.Spares x.name) : x.symbol ∉ node.targets := by
  induction hresolves with
  | literal => simp [Annotated.targets]
  | reference => simp [Annotated.targets]
  | @assign name token symbol id type value node hresolve hid _ _ ih =>
      rw [Annotated.targets, List.mem_cons, not_or]
      refine ⟨?_, ih (hspares.of_child (by simp [Tree.children]))⟩
      rintro rfl
      obtain ⟨frame, hframe, hfind⟩ := List.exists_of_findSome?_eq_some hresolve
      obtain ⟨scope, hscope, rfl⟩ := Scoping.mem_view hframe
      have hname := h.name scope hscope symbol (List.mem_of_find?_eq_some hfind) hid
      have hfound : symbol.name = name.text := by simpa using List.find?_some hfind
      refine hspares _ (Tree.self_mem_preorder _) ?_
      rw [Tree.assigned?, ← hfound, hname]
  | @call callee function arguments nodes token _ hlength _ ihCallee ihArguments =>
      rw [Annotated.targets, List.mem_append, not_or]
      refine ⟨ihCallee (hspares.of_child (by simp [Tree.children])), ?_⟩
      rw [Annotated.mem_targetsAll]
      rintro ⟨node, hnode, htarget⟩
      obtain ⟨tree, hpair⟩ := exists_mem_zip hlength hnode
      have hchild : tree ∈ (Tree.call callee arguments token).children :=
        List.mem_cons_of_mem _ (List.of_mem_zip hpair).1
      exact ihArguments (tree, node) hpair (hspares.of_child hchild) htarget

open Analysis (Elaborates ElaboratesAll)

mutual

/-- A statement that does not assign to the name does not bind the symbol. -/
theorem Named.targets {x : Variable ν} {s t : Scoping} {tree : Tree} {node : Annotated}
    (h : x.Named s.forest) (hnode : Elaborates s tree node t) (hspares : tree.Spares x.name) :
    x.symbol ∉ node.targets ∧ x.Named t.forest := by
  match hnode with
  | .term hresolves => exact ⟨h.targets_of_resolves hresolves hspares, h⟩
  | .declare hresolves _ _ =>
      have hinner := h.targets_of_resolves hresolves (hspares.of_child (by simp [Tree.children]))
      rw [Annotated.targets, List.mem_cons, not_or]
      exact ⟨⟨h.ne_newSymbol.symm, hinner⟩, h.withSymbol _ _ _⟩
  | @Elaborates.block _ last _ _ _ _ hall hleave =>
      have hopened : x.Named (Analysis.opened s).forest := h.planted _ _ _
      obtain ⟨htargets, hnamed⟩ := hopened.targetsAll hall fun tree htree =>
        hspares.of_child htree
      have hleft : x.Named (Scoping.leave.on last).2.forest := Scoping.forest_leave last hnamed
      rw [hleave] at hleft
      rw [Annotated.targets]
      exact ⟨htargets, hleft⟩
  | .conditional hcondition hbody =>
      have htest := h.targets_of_resolves hcondition (hspares.of_child (by simp [Tree.children]))
      obtain ⟨htargets, hnamed⟩ := h.targets hbody (hspares.of_child (by simp [Tree.children]))
      rw [Annotated.targets, List.mem_append, not_or]
      exact ⟨⟨htest, htargets⟩, hnamed⟩
  | .debugPrint hresolves =>
      rw [Annotated.targets]
      exact ⟨h.targets_of_resolves hresolves (hspares.of_child (by simp [Tree.children])), h⟩

theorem Named.targetsAll {x : Variable ν} {s t : Scoping} {trees : List Tree}
    {nodes : List Annotated} (h : x.Named s.forest) (hnodes : ElaboratesAll s trees nodes t)
    (hspares : ∀ tree ∈ trees, tree.Spares x.name) :
    x.symbol ∉ Annotated.targetsAll nodes ∧ x.Named t.forest := by
  match hnodes with
  | .nil => exact ⟨by simp [Annotated.targetsAll], h⟩
  | .cons hfirst hrest =>
      rw [List.forall_mem_cons] at hspares
      obtain ⟨htargets, hnamed⟩ := h.targets hfirst hspares.1
      obtain ⟨hothers, hlast⟩ := hnamed.targetsAll hrest hspares.2
      rw [Annotated.targetsAll, List.mem_append, not_or]
      exact ⟨⟨htargets, hothers⟩, hlast⟩

end

/-! ## The value -/

/-- The symbol is bound to the stored value of the variable, and all stored values are
permitted. -/
structure HeldBy (x : Variable ν) (functions : ν → Prop) (s : Session ν) : Prop where
  bound : s.boundTo? x.symbol = some x.value.id
  stored : s.values.get? x.value.id = some x.value
  values : ∀ value ∈ s.values.values, x.Permits functions value
  made : x.value.id.number < s.nextValue

theorem HeldBy.inserted {x : Variable ν} {functions : ν → Prop} {s : Session ν}
    (h : x.HeldBy functions s) {value : Value ν} (hvalue : x.Permits functions value) :
    (s.values.insert value).get? x.value.id = some x.value ∧
      ∀ old ∈ (s.values.insert value).values, x.Permits functions old := by
  refine ⟨ValueTable.get?_insert h.stored fun hid => (hvalue.same hid.symm).symm, ?_⟩
  intro old hold
  rcases ValueTable.mem_insert hold with rfl | hold
  · exact hvalue
  · exact h.values old hold

/-- What leaves a variable alone keeps its symbol and its value. -/
theorem keeps (x : Variable ν) (base : Forest) (functions : ν → Prop)
    (hid : 0 < x.value.id.number) :
    (x.spared functions).Keeps (x.DeclaredIn base) (x.HeldBy functions) where
  endures := x.endures base
  plant name parent := .preserves (Scoping.ordered_plant name parent)
    (Scoping.forest_plant (fun _ _ h => h.planted _ _ _) parent)
  insert scope name variant sort := .preserves (Scoping.ordered_insert scope name variant sort)
    (Scoping.forest_insert (fun _ id name variant h => h.withSymbol id name variant) scope name
      variant sort)
  newSymbol hs := hs.named.ne_newSymbol
  targets := by
    intro source file trees hparse hspares tree htree s hs
    have hclause := (Tree.IsParsed.inProgram hparse htree).isClause
    have helaborating := Analysis.clause_elaborating hclause s ((x.endures base).placed hs)
    refine helaborating.mono ?_ (fun _ _ _ => trivial)
    rintro analysed t hnode symbol hsymbol rfl
    exact (hs.named.targets hnode (hspares tree htree)).1 hsymbol
  apart := by
    intro s t hs hbindings hvalues hnext
    refine ⟨?_, ?_, ?_, Nat.lt_of_lt_of_le hs.made hnext⟩
    · rw [Session.boundTo?, hbindings]
      exact hs.bound
    · rw [hvalues]
      exact hs.stored
    · rw [hvalues]
      exact hs.values
  nothing := by
    constructor
    · intro heq
      rw [← heq] at hid
      exact absurd hid (Nat.lt_irrefl 0)
    · rintro _ _ _ ⟨⟩
  fresh := by
    intro s payload hs hpayload
    refine ⟨fun heq => ?_, hpayload _ _ _⟩
    have hmade := hs.made
    rw [← heq] at hmade
    exact absurd hmade (Nat.lt_irrefl _)
  read hs hvalue := hs.values _ hvalue
  called hvalue hpayload := hvalue.function hpayload
  stored hs hvalue := ⟨hs.bound, (hs.inserted hvalue).1, (hs.inserted hvalue).2, hs.made⟩
  bound hs hsymbol hvalue :=
    ⟨(Session.lookup_rebind_of_ne _ hsymbol.symm _).trans hs.bound, (hs.inserted hvalue).1,
      (hs.inserted hvalue).2, hs.made⟩
  collected hs := ⟨hs.bound, (Session.get?_collected hs.bound).trans hs.stored,
    fun value hvalue => hs.values value (ValueTable.mem_collect hvalue), hs.made⟩
  sessions hs := ⟨hs.stores.made, hs.stores.values⟩

end Variable

end Scriptlet
