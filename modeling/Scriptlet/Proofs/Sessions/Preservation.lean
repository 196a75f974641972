import Scriptlet.Proofs.Act.Preservation
import Scriptlet.Proofs.Analysis.Cursor
import Scriptlet.Proofs.Sessions.Evaluation
import Scriptlet.Proofs.Sessions.Visits
/-!
# What execution preserves

Execution reads the scopes, and only blocks move the cursor: each to the scope
that it bears and back.  A condition on the scopes, perhaps another one for every
scope that the cursor may stand on, is preserved if blocks preserve it.
-/

namespace Scriptlet.Session

open Act (Preserves)
open Annotated (Nested)

variable {ν : Type} {host : Host ν}

/-- The dumps before a statement change the labels and the journal only. -/
theorem preserves_observe {kept : Session ν → Prop}
    (h : ∀ {s labels journal}, kept s → kept { s with labels := labels, journal := journal })
    (watch : Watch) (tree : Tree) (node : Annotated) :
    Preserves kept (observe watch tree node) := by
  have hwrite : ∀ text, Preserves kept (writeLine text : Act (Session ν) Unit) :=
    fun _ _ hs => h hs
  have hlabelling : Preserves kept (labelling (node.dump .standard) : Act (Session ν) String) :=
    .get fun _ hs => h hs
  have hsecond : Preserves kept
      (if watch.annotatedTree = true then labelling (node.dump .standard) >>= writeLine
        else pure () : Act (Session ν) Unit) := by
    split
    · exact hlabelling.bind hwrite
    · exact .pure _
  unfold observe
  dsimp only
  split
  · exact (Preserves.ofExcept _).bind fun text => (hwrite text).bind fun _ => hsecond
  · exact hsecond

/-! ## Calls -/

section Calls

variable {kept : Session ν → Prop}

private theorem preserves_ofReply
    (hapart : ∀ {s t}, kept s → t.scoping = s.scoping → t.settings = s.settings → kept t)
    (reply : Reply ν) : Preserves kept (ofReply reply) := by
  cases reply with
  | value value => exact .pure value
  | function => exact .throw _
  | datum datum =>
      cases datum with
      | nothing => exact .pure _
      | _ => exact (Preserves.ofExcept _).bind fun _ _ hs => hapart hs rfl rfl

/-- A condition on the scopes that holds when a native function has ended holds after its call. -/
theorem keeps_call_native
    (hapart : ∀ {s t}, kept s → t.scoping = s.scoping → t.settings = s.settings → kept t)
    {value : ValueId} {name : String} {handle : ν} {result : Option Primitive.Kind}
    {arguments : List (Value ν)} {s : Session ν}
    (hinvoked : kept ((host.invoke handle arguments).on (s.atCall name handle arguments)).2)
    (token : Token) :
    kept ((call host ⟨value, .native name handle result⟩ arguments token).on s).2 := by
  unfold call
  dsimp only
  rw [Act.on_bind_of_ok (on_record _ _), Act.on_bind_of_ok (Act.on_attempt _ _)]
  rw [atCall] at hinvoked
  rcases hrun : (host.invoke handle arguments).on
    { s with journal := .called name handle arguments :: s.journal } with ⟨outcome, t⟩
  rw [hrun] at hinvoked
  cases outcome with
  | error failure =>
      cases failure with
      | fault diagnostic => exact hinvoked
      | host error => exact hinvoked
  | ok reply =>
      cases result with
      | none => exact hinvoked
      | some kind =>
          have hrest : Preserves kept (ofReply reply >>= fun value =>
              if value.payload.kind? = some kind then do
                store value
                return value
              else do
                let shown ← Act.ofNumeral value.payload.render
                Act.fail (.internal ("native function '" ++ name ++ "' returned " ++ shown ++
                  ", declared " ++ kind.label)) token.span) := by
            refine (preserves_ofReply hapart reply).bind fun value => ?_
            by_cases hkind : value.payload.kind? = some kind
            · simp only [if_pos hkind]
              exact Preserves.bind (fun _ hs => hapart hs rfl rfl) fun _ => .pure _
            · simp only [if_neg hkind]
              exact (Preserves.ofExcept _).bind fun _ => .throw _
          exact hrest t hinvoked

end Calls

/-- What a condition for the scope of every block has to respect so that execution preserves it: it
is about the scopes and the settings, and entering and leaving a block lead from one scope's
condition to the other's. -/
structure Tracks (forest : Forest) (kept : ScopeId → Session ν → Prop) : Prop where
  apart : ∀ {id s t}, kept id s → t.scoping = s.scoping → t.settings = s.settings → kept id t
  drained : ∀ {id s}, kept id s → kept id (s.rescoped s.scoping)
  entering : ∀ {outer inner scope s}, forest.get? inner = some scope →
    scope.parent = some outer → kept outer s →
    (onScopes (Scoping.enter inner)).Ensures s (fun _ t => kept inner t) (fun _ t => kept outer t)
  leaving : ∀ {outer inner scope s}, forest.get? inner = some scope →
    scope.parent = some outer → kept inner s →
    (onScopes Scoping.leave).Ensures s (fun _ t => kept outer t) (fun _ t => kept outer t)

namespace Tracks

variable {forest : Forest} {kept : ScopeId → Session ν → Prop} {id : ScopeId}

private theorem preserves_modify (h : Tracks forest kept) {f : Session ν → Session ν}
    (hscoping : ∀ s, (f s).scoping = s.scoping) (hsettings : ∀ s, (f s).settings = s.settings) :
    Preserves (kept id) (modify f : Act (Session ν) PUnit) :=
  .modify fun s hs => h.apart hs (hscoping s) (hsettings s)

private theorem preserves_record (h : Tracks forest kept) (event : Event ν) :
    Preserves (kept id) (record event) :=
  h.preserves_modify (fun _ => rfl) (fun _ => rfl)

private theorem preserves_fresh (h : Tracks forest kept) (payload : Payload ν) :
    Preserves (kept id) (fresh payload) :=
  fun _ hs => h.apart hs rfl rfl

private theorem preserves_bind (h : Tracks forest kept) (symbol : SymbolId) (value : Value ν) :
    Preserves (kept id) (bind symbol value) :=
  fun _ hs => h.apart hs rfl rfl

theorem preserves_observe (h : Tracks forest kept) (watch : Watch) (tree : Tree)
    (node : Annotated) : Preserves (kept id) (observe watch tree node) :=
  Session.preserves_observe (fun hs => h.apart hs rfl rfl) watch tree node

/-! ## Execution -/

private theorem preserves_readVariable (h : Tracks forest kept) (symbol : SymbolId)
    (token : Token) :
    Preserves (kept id) (readVariable symbol token : Act (Session ν) (Value ν)) := by
  have hresolve : Preserves (kept id) (onScopes (Scoping.resolveId symbol) :
      Act (Session ν) (Option Symbol)) := by
    intro s hs
    rw [on_onScopes (Scoping.on_resolveId symbol s.scoping)]
    exact h.drained hs
  refine hresolve.bind fun found => ?_
  cases found with
  | none => exact .throw _
  | some symbol =>
      refine .get fun s hs => ?_
      cases (s.boundTo? symbol.id).bind s.values.get? with
      | none => exact hs
      | some value => exact hs

/-- A call keeps the condition if the native function that it invokes does. -/
theorem keeps_call (h : Tracks forest kept) {callee : Value ν} {arguments : List (Value ν)}
    {s : Session ν} (hs : kept id s)
    (hinvoke : ∀ name handle result, callee.payload = .native name handle result →
      kept id (s.atCall name handle arguments) →
      kept id ((host.invoke handle arguments).on (s.atCall name handle arguments)).2)
    (token : Token) : kept id ((call host callee arguments token).on s).2 := by
  obtain ⟨value, payload⟩ := callee
  cases payload with
  | nothing => exact ((Preserves.ofExcept _).bind fun _ => .throw _) s hs
  | primitive value => exact ((Preserves.ofExcept _).bind fun _ => .throw _) s hs
  | native name handle result =>
      exact keeps_call_native h.apart (hinvoke name handle result rfl (h.apart hs rfl rfl)) token

/-- The native functions that are invoked on the way through a tree keep the condition. -/
def Harmless (kept : ScopeId → Session ν → Prop) (host : Host ν) (node : Annotated)
    (s : Session ν) : Prop :=
  ∀ id handle arguments v, Invokes host node s handle arguments v → kept id v →
    kept id ((host.invoke handle arguments).on v).2

def HarmlessAll (kept : ScopeId → Session ν → Prop) (host : Host ν) (nodes : List Annotated)
    (s : Session ν) : Prop :=
  ∀ id handle arguments v, InvokesAll host nodes s handle arguments v → kept id v →
    kept id ((host.invoke handle arguments).on v).2

section Parts

variable {node whole : Annotated} {nodes : List Annotated} {s t : Session ν}

/-- What is invoked on the way through a part is invoked on the way through the whole. -/
theorem Harmless.part {branch : Branch} (h : Harmless kept host whole s)
    (hpart : ∀ {path found u}, Executes host node t path found u →
      Executes host whole s (branch :: path) found u) : Harmless kept host node t :=
  fun id handle arguments v ⟨_, found, u, hexecutes, hcalls⟩ =>
    h id handle arguments v ⟨_, found, u, hpart hexecutes, hcalls⟩

theorem Harmless.parts {branch : Nat → Branch} (h : Harmless kept host whole s)
    (hpart : ∀ {index path found u}, ExecutesAll host nodes t index path found u →
      Executes host whole s (branch index :: path) found u) : HarmlessAll kept host nodes t :=
  fun id handle arguments v ⟨_, _, found, u, hexecutes, hcalls⟩ =>
    h id handle arguments v ⟨_, found, u, hpart hexecutes, hcalls⟩

theorem HarmlessAll.head (h : HarmlessAll kept host (node :: nodes) s) :
    Harmless kept host node s :=
  fun id handle arguments v ⟨path, found, u, hexecutes, hcalls⟩ =>
    h id handle arguments v ⟨0, path, found, u, .here hexecutes, hcalls⟩

theorem HarmlessAll.tail {value : Value ν} (h : HarmlessAll kept host (node :: nodes) s)
    (hnode : (execute host node).on s = (.ok value, t)) : HarmlessAll kept host nodes t :=
  fun id handle arguments v ⟨index, path, found, u, hexecutes, hcalls⟩ =>
    h id handle arguments v ⟨index + 1, path, found, u, .there hnode hexecutes, hcalls⟩

end Parts

private theorem keeps_executeAll {nodes : List Annotated}
    (hnodes : ∀ node ∈ nodes, ∀ s, kept id s → Harmless kept host node s →
      kept id ((execute host node).on s).2) {s : Session ν} (hs : kept id s)
    (hharmless : HarmlessAll kept host nodes s) : kept id ((executeAll host nodes).on s).2 := by
  induction nodes generalizing s with
  | nil => exact hs
  | cons node nodes ih =>
      rw [List.forall_mem_cons] at hnodes
      rw [executeAll]
      refine Act.keeps_bind (hnodes.1 s hs hharmless.head) ?_
      intro value t hrun ht
      exact ih hnodes.2 ht (hharmless.tail hrun)

private theorem keeps_executeArguments {nodes : List Annotated}
    (hnodes : ∀ node ∈ nodes, ∀ s, kept id s → Harmless kept host node s →
      kept id ((execute host node).on s).2) {s : Session ν} (hs : kept id s)
    (hharmless : HarmlessAll kept host nodes s) :
    kept id ((executeArguments host nodes).on s).2 := by
  induction nodes generalizing s with
  | nil => exact hs
  | cons node nodes ih =>
      rw [List.forall_mem_cons] at hnodes
      rw [executeArguments]
      refine Act.keeps_bind (hnodes.1 s hs hharmless.head) ?_
      intro value t hrun ht
      have hrest := ih hnodes.2 ht (hharmless.tail hrun)
      exact Act.keeps_bind hrest fun _ _ _ hu => hu

/-- Executing a tree whose blocks bear scopes right below those in which they stand keeps the
condition if the native functions do that are invoked on the way. -/
theorem keeps_execute (h : Tracks forest kept) {node : Annotated} (hnode : Nested forest id node) :
    ∀ s, kept id s → Harmless kept host node s → kept id ((execute host node).on s).2 := by
  induction hnode with
  | @block outer inner scope nodes token hinner hparent _ ih =>
      intro s hs hharmless
      rw [execute]
      refine Act.Ensures.state (((h.entering hinner hparent hs).and (Act.ensures_on _ s)).bind
        (fun _ _ h => h.1) ?_)
      intro _ t ⟨ht, henter⟩
      have hbody := keeps_executeAll ih ht (hharmless.parts (.statement henter))
      have hclosed : (Act.closing (onScopes Scoping.leave) (executeAll host nodes)).Ensures t
          (fun _ u => kept outer u) (fun _ u => kept outer u) :=
        (Act.ensures_state hbody).closing (fun _ _ hu => h.leaving hinner hparent hu)
          (fun _ _ hu => h.leaving hinner hparent hu)
      exact hclosed.bind (fun _ _ h => h) fun _ _ hu => Act.ensures_pure hu
  | literal =>
      intro s hs _
      rw [execute]
      exact ((Preserves.ofExcept _).bind fun _ => h.preserves_fresh _) s hs
  | reference =>
      intro s hs _
      rw [execute]
      exact h.preserves_readVariable _ _ s hs
  | declare _ ih =>
      intro s hs hharmless
      rw [execute]
      refine Act.keeps_bind (ih s hs (hharmless.part .initializer)) ?_
      exact fun value t _ => ((h.preserves_bind _ value).bind fun _ => .pure _) t
  | assign _ ih =>
      intro s hs hharmless
      rw [execute]
      refine Act.keeps_bind (ih s hs (hharmless.part .value)) ?_
      exact fun value t _ => ((h.preserves_bind _ value).bind fun _ => .pure _) t
  | @call scope callee nodes token _ _ ihCallee ihArguments =>
      intro s hs hharmless
      rw [execute]
      refine Act.keeps_bind (ihCallee s hs (hharmless.part .callee)) ?_
      rintro ⟨value, payload⟩ t hcallee ht
      cases payload with
      | nothing => exact h.keeps_call ht (by simp) token
      | primitive primitive => exact h.keeps_call ht (by simp) token
      | native name handle result =>
          have harguments :=
            keeps_executeArguments ihArguments ht (hharmless.parts (.argument hcallee))
          refine Act.keeps_bind harguments fun values u hvalues hu => ?_
          refine h.keeps_call hu ?_ token
          rintro _ _ _ ⟨⟩ hbegun
          exact hharmless _ _ _ _ ⟨[], _, s, .here, .call hcallee hvalues⟩ hbegun
  | conditional _ _ ihCondition ihBody =>
      intro s hs hharmless
      rw [execute]
      refine Act.keeps_bind (ihCondition s hs (hharmless.part .condition)) ?_
      intro test t hcondition ht
      by_cases htest : isTrue test = true
      · simp only [if_pos htest]
        have hbody := ihBody t ht (hharmless.part (.body hcondition htest))
        exact Act.keeps_bind hbody fun _ _ _ hu => hu
      · simp only [if_neg htest]
        exact ht
  | debugPrint _ ih =>
      intro s hs hharmless
      rw [execute]
      refine Act.keeps_bind (ih s hs (hharmless.part .operand)) ?_
      exact fun value t _ => ((Preserves.ofExcept _).bind fun _ =>
        (h.preserves_record _).bind fun _ => .pure _) t

/-- If all native functions of the host preserve the condition, so does the execution. -/
theorem preserves_execute (h : Tracks forest kept)
    (hhost : ∀ id handle arguments, Preserves (kept id) (host.invoke handle arguments))
    {node : Annotated} (hnode : Nested forest id node) :
    Preserves (kept id) (execute host node) :=
  fun s hs => h.keeps_execute hnode s hs fun id handle arguments v _ => hhost id handle arguments v

end Tracks

/-! ## Statements -/

theorem preserves_statements {kept : Session ν → Prop} {watch : Watch} {trees : List Tree}
    (h : ∀ tree ∈ trees, Preserves kept (runStatement host watch tree)) (last : Value ν) :
    Preserves kept (runStatements host watch last trees) := by
  induction trees generalizing last with
  | nil =>
      rw [runStatements]
      exact .pure last
  | cons tree trees ih =>
      rw [List.forall_mem_cons] at h
      rw [runStatements_cons]
      exact h.1.bind fun value => ih h.2 value

end Scriptlet.Session
