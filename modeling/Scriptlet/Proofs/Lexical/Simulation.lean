import Scriptlet.Proofs.Lexical.Reference
import Scriptlet.Proofs.Sessions.Coverage
/-!
# Execution as lexical scoping by name

Where executing an annotated tree succeeds, the reference evaluator succeeds on
the tree that it was made from, with the same value and the same effects.  The
frames of the evaluator are the scopes in view, each symbol taken as its name and
its value.
-/

namespace Scriptlet

variable {ν : Type}

/-- The native functions forge no values: what one returns it was given now or
earlier, had already, or made under a new identity. -/
def Natives.Genuine (own : Value ν → Prop) (natives : Natives ν) : Prop :=
  ∀ handle arguments trace next value,
    (natives.respond handle arguments trace next).outcome = .ok (.value value) →
      value = .nothing ∨ own value ∨ value ∈ arguments ∨
        (∃ name other passed, Event.called name other passed ∈ trace ∧ value ∈ passed) ∨
        next ≤ value.id.number ∧
          value.id.number < next + (natives.respond handle arguments trace next).taken

namespace Session

variable {natives : Natives ν} {own book book' : Value ν → Prop} {s t : Session ν}
  {forest : Forest} {scope : ScopeId} {env after : Env}

private theorem observed_wrote (s : Session ν) (texts : List String) (next : Nat) :
    (s.noted (texts.map .wrote) next).observed = texts.map .wrote ++ s.observed := by
  have hall : (texts.map Event.wrote : List (Event ν)).filter isObservable =
      texts.map Event.wrote := by
    rw [List.filter_eq_self]
    intro event hevent
    obtain ⟨text, -, rfl⟩ := List.mem_map.1 hevent
    rfl
  rw [observed, noted, List.filter_append, hall]
  rfl

theorem resembles_rescoped (s : Session ν) (scoping : Scoping) :
    s.Resembles (s.rescoped scoping) := by
  refine ⟨fun _ => rfl, rfl, ?_⟩
  have hlog : (scoping.log.map Event.scope : List (Event ν)).filter isObservable = [] := by
    rw [List.filter_eq_nil_iff]
    intro event hevent
    obtain ⟨_, -, rfl⟩ := List.mem_map.1 hevent
    simp [isObservable]
  rw [observed, rescoped, drain, List.filter_append, hlog]
  rfl

private theorem reference_entering (s : Session ν) (scope : Scope) (env : Env) :
    (s.entering scope).reference env = s.reference env :=
  (resembles_rescoped s _).reference env

theorem reference_leaving (s : Session ν) (scope : Scope) (parent : ScopeId) (env : Env) :
    (s.leaving scope parent).reference env = s.reference env :=
  (resembles_rescoped s _).reference env

theorem on_invoke (natives : Natives ν) (handle : ν) (arguments : List (Value ν))
    (s : Session ν) {response : Response ν}
    (h : natives.respond handle arguments s.observed s.nextValue = response) :
    (natives.host.invoke handle arguments).on s = (response.outcome,
      s.noted (response.texts.map .wrote) (s.nextValue + response.taken)) := by
  rw [← h]
  rfl

/-- A host of natives that forge no values is honest. -/
theorem honest_host (h : natives.Genuine own) : natives.host.Honest own := by
  refine ⟨?_, ?_⟩
  · intro handle arguments s
    exact ⟨_, _, Nat.le_add_right _ _, rfl⟩
  · intro handle arguments s value t hinvoke
    rw [on_invoke natives handle arguments s rfl, Prod.mk.injEq] at hinvoke
    obtain ⟨houtcome, rfl⟩ := hinvoke
    rcases h _ _ _ _ _ houtcome with hvalue | hvalue | hvalue | hvalue | hvalue
    · exact .inl hvalue
    · exact .inr (.inl hvalue)
    · exact .inr (.inr (.inl hvalue))
    · obtain ⟨name, other, passed, hcalled, hmem⟩ := hvalue
      have hjournal := List.mem_of_mem_filter hcalled
      exact .inr (.inr (.inr (.inl (.inr ⟨name, other, passed, hjournal, hmem⟩))))
    · exact .inr (.inr (.inr (.inr hvalue)))

/-! ## Calls -/

private theorem ofReply_mirrored (reply : Reply ν) (t : Session ν)
    (frames : List (List (String × Value ν))) :
    (ofReply reply).Ensures t
      (fun value u => (Reference.ofReply reply).on ⟨frames, t.nextValue, t.observed⟩ =
        (.ok value, ⟨frames, u.nextValue, u.observed⟩))
      (fun _ _ => True) := by
  have hfresh : ∀ outcome : Except Failure (Payload ν),
      (Act.ofExcept outcome >>= fresh).Ensures t
        (fun value u => (Act.ofExcept outcome >>= Reference.fresh).on
          ⟨frames, t.nextValue, t.observed⟩ = (.ok value, ⟨frames, u.nextValue, u.observed⟩))
        (fun _ _ => True) := by
    intro outcome
    cases outcome with
    | ok payload => exact rfl
    | error failure => exact trivial
  cases reply with
  | value value => exact rfl
  | function => exact trivial
  | datum datum =>
      cases datum with
      | nothing => exact rfl
      | _ => exact hfresh (Payload.ofDatum _)

/-- A call has the same outcome and the same effects on both sides. -/
theorem call_mirrored (natives : Natives ν) (callee : Value ν) (arguments : List (Value ν))
    (token : Token) (s : Session ν) (frames : List (List (String × Value ν))) :
    (call natives.host callee arguments token).Ensures s
      (fun value t => (Reference.call natives callee arguments token).on
        ⟨frames, s.nextValue, s.observed⟩ = (.ok value, ⟨frames, t.nextValue, t.observed⟩))
      (fun _ _ => True) := by
  unfold call Reference.call
  cases callee.payload with
  | nothing => exact trivial
  | primitive value =>
      dsimp only
      cases (Payload.primitive value : Payload ν).render with
      | ok shown => exact trivial
      | error error => exact trivial
  | native name handle result =>
      dsimp only
      have hrecord : (record (.called name handle arguments)).on s =
          (.ok (), s.noted [.called name handle arguments] s.nextValue) := rfl
      have hobserve : (Reference.observe (.called name handle arguments)).on
          ⟨frames, s.nextValue, s.observed⟩ =
          (.ok (), ⟨frames, (s.noted [.called name handle arguments] s.nextValue).nextValue,
            (s.noted [.called name handle arguments] s.nextValue).observed⟩) := rfl
      unfold Act.Ensures
      rw [Act.on_bind_of_ok hrecord, Act.on_bind_of_ok hobserve,
        Act.on_bind_of_ok (Act.on_attempt _ _), Act.on_bind_of_ok (Act.on_get _)]
      -- From here on both sides work on the state in which the call was noted.
      generalize s.noted [.called name handle arguments] s.nextValue = s₁
      dsimp only
      generalize hresponse : natives.respond handle arguments s₁.observed s₁.nextValue = response
      rw [on_invoke natives handle arguments s₁ hresponse, Act.on_bind_of_ok (Act.on_set _ _),
        ← observed_wrote s₁ response.texts (s₁.nextValue + response.taken)]
      generalize hafter :
        s₁.noted (response.texts.map .wrote) (s₁.nextValue + response.taken) = t
      have hnext : s₁.nextValue + response.taken = t.nextValue := by
        rw [← hafter]
        rfl
      rw [hnext]
      cases response.outcome with
      | error failure =>
          cases failure with
          | fault diagnostic => exact trivial
          | host error => exact trivial
      | ok reply =>
          rw [Act.on_bind_of_ok (Act.on_ofExcept _ _)]
          cases result with
          | none => exact rfl
          | some kind =>
              refine (ofReply_mirrored reply t frames).bind (fun _ _ _ => trivial) ?_
              intro value u hvalue
              dsimp only
              rw [Act.on_bind_of_ok hvalue]
              by_cases hkind : value.payload.kind? = some kind
              · rw [if_pos hkind, if_pos hkind]
                exact rfl
              · rw [if_neg hkind]
                cases value.payload.render with
                | ok shown => exact trivial
                | error error => exact trivial

/-! ## Expressions -/

open Annotated (Typed)

/-- A session that stands in a scope.  Everything in view has a value, and no two
symbols in view are the same. -/
structure Framed (own : Value ν → Prop) (forest : Forest) (scope : ScopeId) (env : Env)
    (book : Value ν → Prop) (s : Session ν) : Prop extends Stands own forest scope book s where
  covers : s.Covers (fun _ => False) env
  distinct : env.Distinct

theorem Framed.follows (h : Framed own forest scope env book s)
    (hfollows : Follows book book' s t) : Framed own forest scope env book' t :=
  ⟨h.toStands.follows hfollows, h.covers.later hfollows.later, h.distinct⟩

theorem Covers.exists_value (h : s.Covers (fun _ => False) env) {name : String} {symbol : Symbol}
    (hresolve : env.resolve name = some symbol) {type : SymbolId}
    (htype : symbol.variant.type? = some type) : ∃ value, s.valueOf? symbol.id = some value := by
  obtain ⟨frame, hframe, hfind⟩ := List.exists_of_findSome?_eq_some hresolve
  have hcovered := h frame hframe symbol (List.mem_of_find?_eq_some hfind) type htype
  exact Option.isSome_iff_exists.1 (hcovered.resolve_right id)

/-- The evaluator yields what executing the tree yields. -/
def ReadsByName (natives : Natives ν) (own : Value ν → Prop) (forest : Forest) (scope : ScopeId)
    (node : Annotated) : Prop :=
  ∀ (env : Env) (tree : Tree), Resolves env tree node →
    ∀ (s : Session ν) (book : Value ν → Prop), Framed own forest scope env book s →
      (execute natives.host node).Ensures s
        (fun value t => (Reference.evaluate natives tree).on (s.reference env) =
          (.ok value, t.reference env))
        (fun _ _ => True)

private theorem literal_readsByName (token : Token) (kind : Primitive.Kind) :
    ReadsByName natives own forest scope (.literal token kind) := by
  intro env tree hresolves s book _
  cases hresolves
  rw [execute, Reference.evaluate]
  cases literalValue token kind with
  | ok value => exact rfl
  | error diagnostic => exact trivial

private theorem reference_readsByName {symbol : Symbol} {token : Token}
    (hvisible : forest.Visible scope symbol) :
    ReadsByName natives own forest scope (.reference symbol.id token) := by
  intro env tree hresolves s book hs
  cases hresolves with
  | @reference _ found _ type hresolve hid htype =>
      obtain ⟨value, hvalue⟩ := hs.covers.exists_value hresolve htype
      obtain ⟨current, hcurrent⟩ := hs.current
      rw [← hs.forest, ← hs.cursor] at hcurrent hvisible
      have hread : (Reference.evaluate natives (.reference token)).on (s.reference env) =
          (.ok value, s.reference env) := by
        rw [Reference.evaluate, Reference.lookup, Act.on_bind_of_ok (Act.on_get _)]
        have hframes : Reference.read (s.reference env).frames token.text = some value :=
          read_frames hresolve hvalue
        rw [hframes]
        rfl
      rw [hid] at hvalue
      unfold Act.Ensures
      rw [execute, on_readVariable hs.sound.forest hcurrent hvisible, hvalue]
      dsimp only
      rw [hread, (resembles_rescoped s s.scoping).reference]

private theorem assign_mirrored (hs : s.Sound book) (hdistinct : env.Distinct) {name : Token}
    {symbol : Symbol} (hresolve : env.resolve name.text = some symbol) {old value : Value ν}
    (hold : s.valueOf? symbol.id = some old) (hvalue : book value) :
    (Reference.assign (.reference name) value).on (s.reference env) =
      (.ok (), (s.bound symbol.id value).reference env) := by
  have hread : Reference.read (s.reference env).frames name.text = some old :=
    read_frames hresolve hold
  have hlookup : (Reference.lookup name).on (s.reference env) = (.ok old, s.reference env) := by
    rw [Reference.lookup, Act.on_bind_of_ok (Act.on_get _), hread]
    rfl
  have hframes := update_frames (t := s.bound symbol.id value) hresolve hdistinct hold
    (valueOf?_bound_self s symbol.id value) fun id hid => hs.valueOf?_bound_of_ne hid hvalue
  rw [Reference.assign, Act.on_bind_of_ok hlookup, Act.on_modify, Session.reference, hframes]
  rfl

private theorem evaluateArguments_mirrored (hhonest : natives.host.Honest own)
    {nodes : List Annotated} {parameters : List SymbolId} {trees : List Tree}
    (hlength : nodes.length = parameters.length)
    (hnodes : ∀ pair ∈ nodes.zip parameters, Typed forest scope pair.1 (some pair.2) ∧
      ReadsByName natives own forest scope pair.1)
    (htrees : trees.length = nodes.length)
    (hresolves : ∀ pair ∈ trees.zip nodes, Resolves env pair.1 pair.2)
    (hs : Framed own forest scope env book s) :
    (executeArguments natives.host nodes).Ensures s
      (fun values t => (Reference.evaluateArguments natives trees).on (s.reference env) =
        (.ok values, t.reference env))
      (fun _ _ => True) := by
  induction nodes generalizing parameters trees s book with
  | nil =>
      obtain rfl : trees = [] := List.length_eq_zero_iff.1 htrees
      rw [executeArguments, Reference.evaluateArguments]
      exact rfl
  | cons node nodes ih =>
      cases parameters with
      | nil => simp at hlength
      | cons parameter parameters =>
          cases trees with
          | nil => simp at htrees
          | cons tree trees =>
              rw [List.zip_cons_cons, List.forall_mem_cons] at hnodes hresolves
              have hsound := executionSound hhonest hnodes.1.1 s book hs.toStands
              have hfirst := hnodes.1.2 env tree hresolves.1 s book hs
              rw [executeArguments, Reference.evaluateArguments]
              refine (hsound.and hfirst).bind (fun _ _ _ => trivial) ?_
              rintro value t ⟨⟨book', hfollows, -⟩, hvalue⟩
              have hrest := ih (by simpa using hlength) hnodes.2 (by simpa using htrees)
                hresolves.2 (hs.follows hfollows)
              refine hrest.bind (fun _ _ _ => trivial) ?_
              intro values u hvalues
              refine Act.ensures_pure ?_
              rw [Act.on_bind_of_ok hvalue, Act.on_bind_of_ok hvalues]
              rfl

private theorem call_readsByName (hhonest : natives.host.Honest own) {callee : Annotated}
    {arguments : List Annotated} {type : SymbolId} {parameters : List SymbolId}
    {result : Option SymbolId} {token : Token}
    (hcallee : Typed forest scope callee (some type))
    (hfunction : forest.IsFunction type parameters result)
    (hlength : arguments.length = parameters.length)
    (harguments : ∀ pair ∈ arguments.zip parameters, Typed forest scope pair.1 (some pair.2))
    (ihCallee : ReadsByName natives own forest scope callee)
    (ihArguments : ∀ pair ∈ arguments.zip parameters,
      ReadsByName natives own forest scope pair.1) :
    ReadsByName natives own forest scope (.call callee arguments token) := by
  intro env tree hresolves s book hs
  cases hresolves with
  | @call calleeTree _ trees _ _ hcalleeTree htrees hpairs =>
      rw [execute, Reference.evaluate]
      have hfirst := executionSound hhonest hcallee s book hs.toStands
      refine (hfirst.and (ihCallee env _ hcalleeTree s book hs)).bind (fun _ _ _ => trivial) ?_
      rintro function t ⟨⟨book', hfollows, hbook, hagrees⟩, hvalue⟩
      have ht := hs.follows hfollows
      obtain ⟨name, handle, kind, hpayload, -⟩ :=
        hagrees.of_isFunction ht.sound.forest (ht.forest.symm ▸ hfunction)
      simp only [hpayload]
      have hsecond := executeArguments_ensures hlength
        (fun pair hpair => executionSound hhonest (harguments pair hpair)) ht.toStands
      have hmirrored := evaluateArguments_mirrored hhonest hlength
        (fun pair hpair => ⟨harguments pair hpair, ihArguments pair hpair⟩) htrees hpairs ht
      refine (hsecond.and hmirrored).bind (fun _ _ _ => trivial) ?_
      rintro values u ⟨⟨book'', hfollows', hvalues, hall⟩, hlist⟩
      have hu := ht.follows hfollows'
      have hcall := call_ensures hhonest hu.own hu.sound (hagrees.mono hfollows'.later)
        (hu.forest.symm ▸ hfunction) hvalues hall token
      have hsame := call_mirrored natives function values token u (env.map u.frameOf)
      refine (hcall.and hsame).mono ?_ (fun _ _ _ => trivial)
      rintro value w ⟨⟨-, hkept⟩, hon⟩
      rw [Act.on_bind_of_ok hvalue, Act.on_bind_of_ok hlist, Session.reference, hon,
        Session.reference, frames_congr hkept]

private theorem assign_readsByName (hhonest : natives.host.Honest own) {id type : SymbolId}
    {node : Annotated} {token : Token} (htyped : Typed forest scope node (some type))
    (ih : ReadsByName natives own forest scope node) :
    ReadsByName natives own forest scope (.assign id node token) := by
  intro env tree hresolves s book hs
  cases hresolves with
  | @assign name _ symbol _ type value _ hresolve hid hvariant hvalue =>
      rw [execute, Reference.evaluate]
      have hsound := executionSound hhonest htyped s book hs.toStands
      refine (hsound.and (ih env value hvalue s book hs)).bind (fun _ _ _ => trivial) ?_
      rintro result t ⟨⟨book', hfollows, hbook, -⟩, hresult⟩
      have ht := hs.follows hfollows
      have htype : symbol.variant.type? = some type := by
        rw [hvariant]
        rfl
      obtain ⟨old, hold⟩ := ht.covers.exists_value hresolve htype
      have hassign := assign_mirrored ht.sound ht.distinct hresolve hold hbook
      unfold Act.Ensures
      rw [Act.on_bind_of_ok (on_bind _ _ _), Act.on_bind_of_ok hresult,
        Act.on_bind_of_ok hassign, hid]
      rfl

theorem readsByName (hhonest : natives.host.Honest own) {node : Annotated}
    {type : Option SymbolId} (h : Typed forest scope node type) :
    ReadsByName natives own forest scope node := by
  induction h with
  | literal => exact literal_readsByName _ _
  | reference hvisible _ _ => exact reference_readsByName hvisible
  | assign _ _ hvalue ih => exact assign_readsByName hhonest hvalue ih
  | call hcallee hfunction hlength harguments ihCallee ihArguments =>
      exact call_readsByName hhonest hcallee hfunction hlength harguments ihCallee ihArguments
  | block | declare | conditional | debugPrint =>
      intro env tree hresolves
      cases hresolves

/-! ## Statements -/

def RunsByName (natives : Natives ν) (own : Value ν → Prop) (forest : Forest) (scope : ScopeId)
    (node : Annotated) : Prop :=
  ∀ (env after : Env) (tree : Tree), Scopes env tree node after → tree.IsStraight →
    ∀ (s : Session ν) (book : Value ν → Prop), Framed own forest scope env book s →
      (execute natives.host node).Ensures s
        (fun value t => (Reference.evaluate natives tree).on (s.reference env) =
          (.ok value, t.reference after) ∧ t.Covers (fun _ => False) after)
        (fun _ _ => True)

theorem expression_runsByName (hhonest : natives.host.Honest own) {node : Annotated}
    {type : Option SymbolId} (htyped : Typed forest scope node type) (hnode : node.IsExpression) :
    RunsByName natives own forest scope node := by
  intro env after tree hscopes _ s book hs
  obtain ⟨hresolves, rfl⟩ := hscopes.resolves hnode
  have hsound := executionSound hhonest htyped s book hs.toStands
  have hmirrored := readsByName hhonest htyped _ tree hresolves s book hs
  refine (hsound.and hmirrored).mono ?_ (fun _ _ _ => trivial)
  rintro value t ⟨⟨book', hfollows, -⟩, hvalue⟩
  exact ⟨hvalue, hs.covers.later hfollows.later⟩

private theorem evaluateAll_mirrored (hhonest : natives.host.Honest own) {nodes : List Annotated}
    {types : List (Option SymbolId)} {trees : List Tree}
    (hlength : nodes.length = types.length)
    (hnodes : ∀ pair ∈ nodes.zip types, Typed forest scope pair.1 pair.2 ∧
      RunsByName natives own forest scope pair.1)
    (hscopes : ScopesAll env trees nodes after)
    (hstraight : ∀ tree ∈ trees, tree.IsStraight)
    (hs : Framed own forest scope env book s) :
    (executeAll natives.host nodes).Ensures s
      (fun _ t => (Reference.evaluateAll natives trees).on (s.reference env) =
        (.ok (), t.reference after))
      (fun _ _ => True) := by
  induction nodes generalizing types trees env s book with
  | nil =>
      cases hscopes
      rw [executeAll, Reference.evaluateAll]
      exact rfl
  | cons node nodes ih =>
      cases types with
      | nil => simp at hlength
      | cons type types =>
          cases hscopes with
          | @cons _ between _ tree trees _ _ hfirst hrest =>
              rw [List.zip_cons_cons, List.forall_mem_cons] at hnodes
              rw [List.forall_mem_cons] at hstraight
              have hsound := executionSound hhonest hnodes.1.1 s book hs.toStands
              have hmirrored := hnodes.1.2 env between tree hfirst hstraight.1 s book hs
              rw [executeAll, Reference.evaluateAll]
              refine (hsound.and hmirrored).bind (fun _ _ _ => trivial) ?_
              rintro value t ⟨⟨book', hfollows, -⟩, hvalue, hcovers⟩
              have ht : Framed own forest scope between book' t :=
                ⟨hs.toStands.follows hfollows, hcovers, hfirst.distinct hs.distinct⟩
              refine (ih (by simpa using hlength) hnodes.2 hrest hstraight.2 ht).mono ?_
                (fun _ _ _ => trivial)
              intro _ u hu
              rw [Act.on_bind_of_ok hvalue, hu]

private theorem block_runsByName (hhonest : natives.host.Honest own) {outer inner : ScopeId}
    {owner : Scope} {nodes : List Annotated} {types : List (Option SymbolId)}
    {token : Option Token} (hinner : forest.get? inner = some owner)
    (hparent : owner.parent = some outer) (hlength : nodes.length = types.length)
    (htyped : ∀ pair ∈ nodes.zip types, Typed forest inner pair.1 pair.2)
    (ih : ∀ pair ∈ nodes.zip types, RunsByName natives own forest inner pair.1) :
    RunsByName natives own forest outer (.block nodes inner token) := by
  intro env after tree hscopes hstraight s book hs
  cases hscopes with
  | expression hresolves => cases hresolves
  | @block _ frame statements _ _ _ hstatements =>
      have hentered : Framed own forest inner ([] :: env) book (s.entering owner) :=
        ⟨hs.toStands.entering hinner, hs.covers.push, hs.distinct⟩
      have hbody := evaluateAll_mirrored hhonest hlength
        (fun pair hpair => ⟨htyped pair hpair, ih pair hpair⟩) hstatements
        (fun tree htree name hname => hstraight name (hname.of_child htree)) hentered
      have hrun := executeAll_ensures hlength
        (fun pair hpair => executionSound hhonest (htyped pair hpair)) hentered.toStands
      -- On entering, the evaluator has the frames of the scope that was entered.
      have hpush : (modify fun r => { r with frames := [] :: r.frames } :
          Act (Reference ν) Unit).on (s.reference env) =
          (.ok (), (s.entering owner).reference ([] :: env)) := by
        rw [reference_entering]
        rfl
      have hclosed : (Act.closing (onScopes Scoping.leave) (executeAll natives.host nodes)).Ensures
          (s.entering owner)
          (fun _ u => (Act.closing (modify fun r => { r with frames := r.frames.tail })
            (Reference.evaluateAll natives statements)).on
              ((s.entering owner).reference ([] :: env)) = (.ok (), u.reference env) ∧
            u.Covers (fun _ => False) env)
          (fun _ _ => True) := by
        apply (hrun.and hbody).closing
        · rintro _ t ⟨⟨book', hfollows⟩, hmirrored⟩
          obtain ⟨hleave, hback⟩ := hs.toStands.leave_entering hinner hparent hfollows
          refine .of_on_ok hleave ⟨?_, hs.covers.later hback.later⟩
          have hpop : (modify fun r => { r with frames := r.frames.tail } :
              Act (Reference ν) Unit).on (t.reference (frame :: env)) =
              (.ok (), t.reference env) := rfl
          rw [Act.on_closing hmirrored hpop, reference_leaving]
        · rintro failure t ⟨⟨⟨book', hfollows⟩, -⟩, -⟩
          exact .of_on_ok (hs.toStands.leave_entering hinner hparent hfollows).1 trivial
      have hget : s.scoping.forest.get? inner = some owner := by
        rw [hs.forest]
        exact hinner
      unfold Act.Ensures
      rw [execute, Act.on_bind_of_ok (on_entering hget), Reference.evaluate,
        Act.on_bind_of_ok hpush]
      refine hclosed.bind (fun _ _ _ => trivial) ?_
      rintro _ u ⟨hon, hcovers⟩
      refine Act.ensures_pure ⟨?_, hcovers⟩
      rw [Act.on_bind_of_ok hon]
      rfl

private theorem declare_runsByName (hhonest : natives.host.Honest own) {id type : SymbolId}
    {initializer : Annotated} {token : Token}
    (htyped : Typed forest scope initializer (some type)) :
    RunsByName natives own forest scope (.declare id initializer token) := by
  intro env after tree hscopes _ s book hs
  cases hscopes with
  | expression hresolves => cases hresolves
  | @declare frame env _ symbol _ _ tree _ hresolves hid hname _ _ hfresh =>
      subst hid
      have hsound := executionSound hhonest htyped s book hs.toStands
      have hmirrored := readsByName hhonest htyped _ tree hresolves s book hs
      rw [execute, Reference.evaluate]
      refine (hsound.and hmirrored).bind (fun _ _ _ => trivial) ?_
      rintro value t ⟨⟨book', hfollows, hbook, -⟩, hvalue⟩
      have hframes := define_frames (s := t) hfresh (valueOf?_bound_self t symbol.id value)
        fun id hid => hfollows.sound.valueOf?_bound_of_ne hid hbook
      rw [hname] at hframes
      have hcovers : (t.bound symbol.id value).Covers (fun _ => False) (frame :: env) := by
        intro frame' hframe' other hother type' htype'
        have hcovered := hs.covers.later hfollows.later frame' hframe' other hother type' htype'
        rw [hfollows.sound.valueOf?_bound_of_ne (hfresh frame' hframe' other hother) hbook]
        exact hcovered
      unfold Act.Ensures
      rw [Act.on_bind_of_ok (on_bind _ _ _), Act.on_bind_of_ok hvalue,
        Act.on_bind_of_ok (Act.on_modify _ _)]
      refine ⟨?_, hcovers.declare (by rw [valueOf?_bound_self]; rfl)⟩
      rw [Act.on_pure, Session.reference, hframes]
      rfl

private theorem conditional_runsByName (hhonest : natives.host.Honest own)
    {condition body : Annotated} {token : Token}
    (hcondition : Typed forest scope condition (some Primitive.Kind.truth.typeId))
    (ih : RunsByName natives own forest scope body) :
    RunsByName natives own forest scope (.conditional condition body token) := by
  intro env after tree hscopes hstraight s book hs
  cases hscopes with
  | expression hresolves => cases hresolves
  | @conditional _ _ conditionTree bodyTree _ _ _ hresolves hbody =>
      -- The body declares no name, so it does not matter to what is in view whether it runs.
      have hdeclared : bodyTree.declared? = none := by
        rw [Option.eq_none_iff_forall_ne_some]
        intro name hname
        exact hstraight name (Tree.guards_conditional hname)
      obtain rfl := hbody.env_eq hdeclared
      have hsound := executionSound hhonest hcondition s book hs.toStands
      have hmirrored := readsByName hhonest hcondition _ conditionTree hresolves s book hs
      rw [execute, Reference.evaluate]
      refine (hsound.and hmirrored).bind (fun _ _ _ => trivial) ?_
      rintro test t ⟨⟨book', hfollows, -⟩, htestValue⟩
      have ht := hs.follows hfollows
      rw [Act.on_bind_of_ok htestValue]
      by_cases htest : isTrue test = true
      · rw [if_pos htest, if_pos htest]
        have hchild : bodyTree ∈ (Tree.conditional conditionTree bodyTree token).children :=
          List.mem_cons_of_mem _ (List.mem_singleton_self _)
        have hrun := ih _ _ bodyTree hbody
          (fun name hname => hstraight name (hname.of_child hchild)) t book' ht
        refine hrun.bind (fun _ _ _ => trivial) ?_
        rintro value u ⟨hvalue, hcovers⟩
        refine Act.ensures_pure ⟨?_, hcovers⟩
        rw [Act.on_bind_of_ok hvalue]
        rfl
      · rw [if_neg htest, if_neg htest]
        exact Act.ensures_pure ⟨rfl, ht.covers⟩

private theorem debugPrint_runsByName (hhonest : natives.host.Honest own) {operand : Annotated}
    {type : SymbolId} {token : Token} (htyped : Typed forest scope operand (some type)) :
    RunsByName natives own forest scope (.debugPrint operand token) := by
  intro env after tree hscopes _ s book hs
  cases hscopes with
  | expression hresolves => cases hresolves
  | @debugPrint _ tree _ _ hresolves =>
      have hsound := executionSound hhonest htyped s book hs.toStands
      have hmirrored := readsByName hhonest htyped _ tree hresolves s book hs
      rw [execute, Reference.evaluate]
      refine (hsound.and hmirrored).bind (fun _ _ _ => trivial) ?_
      rintro value t ⟨⟨book', hfollows, -⟩, hvalue⟩
      have hcovers := hs.covers.later hfollows.later
      rw [Act.on_bind_of_ok hvalue]
      cases value.payload.render with
      | error error => exact trivial
      | ok shown => exact ⟨rfl, hcovers⟩

theorem runsByName (hhonest : natives.host.Honest own) {node : Annotated}
    {type : Option SymbolId} (h : Typed forest scope node type) :
    RunsByName natives own forest scope node := by
  induction h with
  | block hinner hparent hlength htyped ih =>
      exact block_runsByName hhonest hinner hparent hlength htyped ih
  | declare _ _ _ htyped _ => exact declare_runsByName hhonest htyped
  | conditional hcondition _ _ ih => exact conditional_runsByName hhonest hcondition ih
  | debugPrint htyped _ => exact debugPrint_runsByName hhonest htyped
  | literal hspells => exact expression_runsByName hhonest (.literal hspells) trivial
  | reference hvisible hname htype =>
      exact expression_runsByName hhonest (.reference hvisible hname htype) trivial
  | assign hvisible hvariant hvalue _ =>
      exact expression_runsByName hhonest (.assign hvisible hvariant hvalue) trivial
  | call hcallee hfunction hlength harguments _ _ =>
      exact expression_runsByName hhonest (.call hcallee hfunction hlength harguments) trivial

end Session

end Scriptlet
