import Scriptlet.Proofs.Sessions.Evaluation
/-!
# Variables that are bound before they are read

When no native function lets a program down and all its literals can be read, an
expression stops for one reason only: it reads a variable that has no value yet.
What is in view is covered if all its variables have values; statements keep it
covered.  The exceptions are names that a conditional declares: whether such a
declaration is run is not known when later names are resolved, so these names
are excused.
-/

namespace Scriptlet

variable {ν : Type}

/-- The literals of a tree are short enough to be read. -/
def Tree.IsReadable (tree : Tree) : Prop :=
  ∀ token kind, .literal token kind ∈ tree.preorder → ¬ token.IsOversized kind

theorem Tree.IsReadable.of_child {tree child : Tree} (h : tree.IsReadable)
    (hchild : child ∈ tree.children) : child.IsReadable :=
  fun token kind hmem => h token kind (preorder_subset_of_child hchild hmem)

/-- The reply is a value of the given sort, or becomes one. -/
def Reply.Gives (kind : Primitive.Kind) : Reply ν → Prop
  | .value given => given.payload.kind? = some kind
  | .datum given => ∃ primitive : Primitive, primitive.kind = kind ∧
      Payload.ofDatum given = (.ok (.primitive primitive) : Except Failure (Payload ν))
  | .function => False

/-- Whenever a native function is called as its signature demands, it succeeds
and returns what it declares. -/
def Host.Obliging (declared : ν → Option Primitive.Kind) (host : Host ν) : Prop :=
  ∀ (s : Session ν) (name : String) (handle : ν) (arguments : List (Value ν)),
    s.Admits name handle arguments →
    ∃ reply t, (host.invoke handle arguments).on s = (.ok reply, t) ∧
      ∀ kind, declared handle = some kind → reply.Gives kind

namespace Session

/-- Native functions are registered with the results that they declare. -/
def Serves (declared : ν → Option Primitive.Kind) (s : Session ν) : Prop :=
  ∀ name handle result type, s.Registered name handle result type → result = declared handle

/-- Every symbol in view that may have a value has one, or its name is excused. -/
def Covers (excused : String → Prop) (s : Session ν) (env : Env) : Prop :=
  ∀ frame ∈ env, ∀ symbol ∈ frame, ∀ type, symbol.variant.type? = some type →
    (s.valueOf? symbol.id).isSome ∨ excused symbol.name

/-- A variable of an excused name was read that was not bound. -/
def Excuses (excused : String → Prop) (failure : Failure) : Prop :=
  ∃ name span, failure = .located (.unboundValue name) span ∧ excused name

structure Tended (own : Value ν → Prop) (declared : ν → Option Primitive.Kind)
    (excused : String → Prop) (forest : Forest) (scope : ScopeId) (env : Env)
    (book : Value ν → Prop) (s : Session ν) : Prop extends Stands own forest scope book s where
  serves : s.Serves declared
  covers : s.Covers excused env

variable {host : Host ν} {own book book' : Value ν → Prop} {s t : Session ν}
  {declared : ν → Option Primitive.Kind} {excused : String → Prop} {forest : Forest}
  {scope : ScopeId} {env after : Env}

theorem Covers.later (h : s.Covers excused env) (hlater : s.Later t) : t.Covers excused env := by
  intro frame hframe symbol hsymbol type htype
  have hcovered := h frame hframe symbol hsymbol type htype
  exact hcovered.imp_left (hlater.bound symbol.id)

theorem Covers.push (h : s.Covers excused env) : s.Covers excused ([] :: env) := by
  intro frame hframe symbol hsymbol type htype
  rcases List.mem_cons.1 hframe with rfl | hframe
  · simp at hsymbol
  · exact h frame hframe symbol hsymbol type htype

theorem Covers.declare {frame : List Symbol} {symbol : Symbol}
    (h : s.Covers excused (frame :: env)) (hvalue : (s.valueOf? symbol.id).isSome) :
    s.Covers excused ((frame ++ [symbol]) :: env) := by
  intro frame' hframe' other hother type htype
  rcases List.mem_cons.1 hframe' with rfl | hframe'
  · rcases List.mem_append.1 hother with hother | hother
    · exact h frame List.mem_cons_self other hother type htype
    · rw [List.mem_singleton.1 hother]
      exact .inl hvalue
  · exact h frame' (List.mem_cons_of_mem _ hframe') other hother type htype

theorem Serves.follows (h : s.Serves declared) (hfollows : Follows book book' s t) :
    t.Serves declared := by
  rintro name handle result type ⟨symbol, hmem, hname, hvariant, value, hvalue, hpayload⟩
  rw [hfollows.forest] at hmem
  rw [hfollows.globals symbol hmem] at hvalue
  exact h name handle result type ⟨symbol, hmem, hname, hvariant, value, hvalue, hpayload⟩

theorem Tended.follows (h : Tended own declared excused forest scope env book s)
    (hfollows : Follows book book' s t) :
    Tended own declared excused forest scope env book' t :=
  ⟨h.toStands.follows hfollows, h.serves.follows hfollows, h.covers.later hfollows.later⟩

/-! ## Native functions -/

private theorem on_ofReply_of_gives {reply : Reply ν} {kind : Primitive.Kind} (h : reply.Gives kind)
    (t : Session ν) :
    ∃ value u, (ofReply reply).on t = (.ok value, u) ∧ value.payload.kind? = some kind := by
  cases reply with
  | value value => exact ⟨value, t, rfl, h⟩
  | datum datum =>
      obtain ⟨primitive, hkind, hpayload⟩ := h
      have hne : datum ≠ .nothing := by
        rintro rfl
        simp [Payload.ofDatum] at hpayload
      have hreceive : (receive datum).on t =
          (.ok ⟨⟨t.nextValue⟩, .primitive primitive⟩, t.noted [] (t.nextValue + 1)) := by
        rw [receive, hpayload]
        · rfl
        · exact hne
      exact ⟨_, _, hreceive, congrArg some hkind⟩
  | function => exact h.elim

private theorem call_succeeds (hobliging : host.Obliging declared) (hserves : s.Serves declared)
    (hs : s.scoping.forest.Sound) {callee : Value ν} {type : SymbolId}
    {parameters : List SymbolId} {result : Option SymbolId}
    (hcallee : s.Agrees callee.payload type)
    (hfunction : s.scoping.forest.IsFunction type parameters result) {arguments : List (Value ν)}
    (hagrees : List.Forall₂ (fun value parameter => s.Agrees value.payload parameter)
      arguments parameters) (token : Token) :
    (call host callee arguments token).Ensures s (fun _ _ => True) (fun _ _ => False) := by
  obtain ⟨name, handle, kind, hpayload, hregistered, rfl⟩ := hcallee.of_isFunction hs hfunction
  have hadmits : s.Admits name handle arguments :=
    ⟨kind, type, parameters, hregistered, hfunction, hagrees⟩
  have hrecord : (record (.called name handle arguments)).on s =
      (.ok (), s.noted [.called name handle arguments] s.nextValue) := rfl
  obtain ⟨reply, t, hinvoke, hgives⟩ := hobliging (s.noted [.called name handle arguments]
    s.nextValue) name handle arguments (hadmits.mono (later_noted _ _))
  unfold call
  simp only [hpayload]
  unfold Act.Ensures
  rw [Act.on_bind_of_ok hrecord, Act.on_bind_of_ok (Act.on_attempt _ _), hinvoke]
  cases kind with
  | none => trivial
  | some kind =>
      have hdeclared := (hserves name handle _ type hregistered).symm
      obtain ⟨value, u, hvalue, hkind⟩ := on_ofReply_of_gives (hgives kind hdeclared) t
      dsimp only
      rw [Act.on_bind_of_ok hvalue, if_pos hkind]
      trivial

/-! ## Expressions -/

open Annotated (Typed)

def ReadsCovered (host : Host ν) (own : Value ν → Prop) (declared : ν → Option Primitive.Kind)
    (excused : String → Prop) (forest : Forest) (scope : ScopeId) (node : Annotated) : Prop :=
  ∀ (env : Env) (tree : Tree), Resolves env tree node → tree.IsReadable →
    ∀ (s : Session ν) (book : Value ν → Prop),
      Tended own declared excused forest scope env book s →
      (execute host node).Ensures s (fun _ _ => True) (fun failure _ => Excuses excused failure)

private theorem literal_covered {token : Token} {kind : Primitive.Kind}
    (hspells : token.Spells kind) :
    ReadsCovered host own declared excused forest scope (.literal token kind) := by
  intro env tree hresolves hreadable s book _
  cases hresolves
  have hsize : ¬ token.IsOversized kind := by
    apply hreadable token kind
    rw [Tree.preorder]
    · exact List.mem_singleton_self _
    all_goals simp
  obtain ⟨value, hvalue, -⟩ := literalValue_of_spells hspells hsize
  have hon : (Act.ofDiagnostic (literalValue token kind) : Act (Session ν) Primitive).on s =
      (.ok value, s) := by
    rw [hvalue]
    rfl
  unfold Act.Ensures
  rw [execute, Act.on_bind_of_ok hon, on_fresh]
  trivial

private theorem reference_covered {symbol : Symbol} {token : Token}
    (hvisible : forest.Visible scope symbol) (hname : symbol.name = token.text) :
    ReadsCovered host own declared excused forest scope (.reference symbol.id token) := by
  intro env tree hresolves _ s book hs
  cases hresolves with
  | @reference _ found _ type hresolve hid htype =>
      obtain ⟨frame, hframe, hfind⟩ := List.exists_of_findSome?_eq_some hresolve
      have hfound : found.name = token.text := by simpa using List.find?_some hfind
      have hcovered := hs.covers frame hframe found (List.mem_of_find?_eq_some hfind) type htype
      obtain ⟨current, hcurrent⟩ := hs.current
      rw [← hs.forest, ← hs.cursor] at hcurrent hvisible
      unfold Act.Ensures
      rw [execute, on_readVariable hs.sound.forest hcurrent hvisible]
      cases hvalue : s.valueOf? symbol.id with
      | some value => trivial
      | none =>
          have hexcused : excused found.name := by
            rw [hid, hvalue] at hcovered
            simpa using hcovered
          refine ⟨symbol.name, token.span, rfl, ?_⟩
          rw [hname, ← hfound]
          exact hexcused

private theorem executeArguments_covered (hhonest : host.Honest own) {nodes : List Annotated}
    {parameters : List SymbolId} {trees : List Tree}
    (hlength : nodes.length = parameters.length)
    (hnodes : ∀ pair ∈ nodes.zip parameters, Typed forest scope pair.1 (some pair.2) ∧
      ReadsCovered host own declared excused forest scope pair.1)
    (htrees : trees.length = nodes.length)
    (hresolves : ∀ pair ∈ trees.zip nodes, Resolves env pair.1 pair.2)
    (hreadable : ∀ tree ∈ trees, tree.IsReadable)
    (hs : Tended own declared excused forest scope env book s) :
    (executeArguments host nodes).Ensures s (fun _ _ => True)
      (fun failure _ => Excuses excused failure) := by
  induction nodes generalizing parameters trees s book with
  | nil =>
      rw [executeArguments]
      exact Act.ensures_pure trivial
  | cons node nodes ih =>
      cases parameters with
      | nil => simp at hlength
      | cons parameter parameters =>
          cases trees with
          | nil => simp at htrees
          | cons tree trees =>
              rw [List.zip_cons_cons, List.forall_mem_cons] at hnodes hresolves
              rw [List.forall_mem_cons] at hreadable
              have hsound := executionSound hhonest hnodes.1.1 s book hs.toStands
              have hcovered := hnodes.1.2 env tree hresolves.1 hreadable.1 s book hs
              rw [executeArguments]
              refine (hsound.and hcovered).bind (fun _ _ h => h.2) ?_
              rintro value t ⟨⟨book', hfollows, -⟩, -⟩
              have hrest := ih (by simpa using hlength) hnodes.2 (by simpa using htrees)
                hresolves.2 hreadable.2 (hs.follows hfollows)
              exact hrest.bind (fun _ _ h => h) fun _ _ _ => Act.ensures_pure trivial

private theorem call_covered (hhonest : host.Honest own) (hobliging : host.Obliging declared)
    {callee : Annotated} {arguments : List Annotated} {type : SymbolId}
    {parameters : List SymbolId} {result : Option SymbolId} {token : Token}
    (hcallee : Typed forest scope callee (some type))
    (hfunction : forest.IsFunction type parameters result)
    (hlength : arguments.length = parameters.length)
    (harguments : ∀ pair ∈ arguments.zip parameters, Typed forest scope pair.1 (some pair.2))
    (ihCallee : ReadsCovered host own declared excused forest scope callee)
    (ihArguments : ∀ pair ∈ arguments.zip parameters,
      ReadsCovered host own declared excused forest scope pair.1) :
    ReadsCovered host own declared excused forest scope (.call callee arguments token) := by
  intro env tree hresolves hreadable s book hs
  cases hresolves with
  | @call calleeTree _ trees _ _ hcalleeTree htrees hpairs =>
      have hreadableCallee : calleeTree.IsReadable := hreadable.of_child List.mem_cons_self
      have hreadableTrees : ∀ tree ∈ trees, tree.IsReadable :=
        fun tree htree => hreadable.of_child (List.mem_cons_of_mem _ htree)
      rw [execute]
      have hfirst := executionSound hhonest hcallee s book hs.toStands
      refine (hfirst.and (ihCallee env _ hcalleeTree hreadableCallee s book hs)).bind
        (fun _ _ h => h.2) ?_
      rintro function t ⟨⟨book', hfollows, hbook, hagrees⟩, -⟩
      have ht := hs.follows hfollows
      obtain ⟨name, handle, kind, hpayload, -⟩ :=
        hagrees.of_isFunction ht.sound.forest (ht.forest.symm ▸ hfunction)
      simp only [hpayload]
      have hsecond := executeArguments_ensures hlength
        (fun pair hpair => executionSound hhonest (harguments pair hpair)) ht.toStands
      have hcovered := executeArguments_covered hhonest hlength
        (fun pair hpair => ⟨harguments pair hpair, ihArguments pair hpair⟩) htrees hpairs
        hreadableTrees ht
      refine (hsecond.and hcovered).bind (fun _ _ h => h.2) ?_
      rintro values u ⟨⟨book'', hfollows', hvalues, hall⟩, -⟩
      have hu := ht.follows hfollows'
      have hcall := call_succeeds hobliging hu.serves hu.sound.forest
        (hagrees.mono hfollows'.later) (hu.forest.symm ▸ hfunction) hall token
      exact hcall.mono (fun _ _ h => h) (fun _ _ h => h.elim)

theorem readsCovered (hhonest : host.Honest own) (hobliging : host.Obliging declared)
    {node : Annotated} {type : Option SymbolId} (h : Typed forest scope node type) :
    ReadsCovered host own declared excused forest scope node := by
  induction h with
  | literal hspells => exact literal_covered hspells
  | reference hvisible hname _ => exact reference_covered hvisible hname
  | assign _ _ _ ih =>
      intro env tree hresolves hreadable s book hs
      cases hresolves with
      | @assign _ _ _ _ _ value _ _ _ _ hvalue =>
          have hreadableValue : value.IsReadable :=
            hreadable.of_child (List.mem_cons_of_mem _ (List.mem_singleton_self _))
          rw [execute]
          refine (ih env value hvalue hreadableValue s book hs).bind (fun _ _ h => h) ?_
          intro result t _
          exact trivial
  | call hcallee hfunction hlength harguments ihCallee ihArguments =>
      exact call_covered hhonest hobliging hcallee hfunction hlength harguments ihCallee ihArguments
  | block | declare | conditional | debugPrint =>
      intro env tree hresolves
      cases hresolves

/-! ## Statements -/

/-- A statement stops for nothing but an excused name or an integer that cannot
be shown, and keeps what is in view covered. -/
def StatementCovered (host : Host ν) (own : Value ν → Prop)
    (declared : ν → Option Primitive.Kind) (excused : String → Prop) (forest : Forest)
    (scope : ScopeId) (node : Annotated) : Prop :=
  ∀ (env after : Env) (tree : Tree), Scopes env tree node after → tree.IsReadable →
    (∀ name, tree.Guards name → excused name) →
    ∀ (s : Session ν) (book : Value ν → Prop),
      Tended own declared excused forest scope env book s →
      (execute host node).Ensures s (fun _ t => t.Covers excused after)
        (fun failure t => Excuses excused failure ∨ IsNumeral failure ∧ t.Covers excused after)

private theorem executeAll_covered (hhonest : host.Honest own) {nodes : List Annotated}
    {types : List (Option SymbolId)} {trees : List Tree}
    (hlength : nodes.length = types.length)
    (hnodes : ∀ pair ∈ nodes.zip types, Typed forest scope pair.1 pair.2 ∧
      StatementCovered host own declared excused forest scope pair.1)
    (hscopes : ScopesAll env trees nodes after)
    (hreadable : ∀ tree ∈ trees, tree.IsReadable)
    (hexcused : ∀ tree ∈ trees, ∀ name, tree.Guards name → excused name)
    (hs : Tended own declared excused forest scope env book s) :
    (executeAll host nodes).Ensures s (fun _ _ => True)
      (fun failure _ => Excuses excused failure ∨ IsNumeral failure) := by
  induction nodes generalizing types trees env s book with
  | nil =>
      rw [executeAll]
      exact Act.ensures_pure trivial
  | cons node nodes ih =>
      cases types with
      | nil => simp at hlength
      | cons type types =>
          cases hscopes with
          | @cons _ between _ tree trees _ _ hfirst hrest =>
              rw [List.zip_cons_cons, List.forall_mem_cons] at hnodes
              rw [List.forall_mem_cons] at hreadable hexcused
              have hsound := executionSound hhonest hnodes.1.1 s book hs.toStands
              have hcovered := hnodes.1.2 env between tree hfirst hreadable.1 hexcused.1 s book hs
              rw [executeAll]
              refine (hsound.and hcovered).bind (fun _ _ h => h.2.imp_right And.left) ?_
              rintro value t ⟨⟨book', hfollows, -⟩, hcovers⟩
              have ht := hs.follows hfollows
              exact ih (by simpa using hlength) hnodes.2 hrest hreadable.2 hexcused.2
                ⟨ht.toStands, ht.serves, hcovers⟩

theorem expression_statementCovered (hhonest : host.Honest own) {node : Annotated}
    {type : Option SymbolId} (htyped : Typed forest scope node type) (hnode : node.IsExpression)
    (hcovered : ReadsCovered host own declared excused forest scope node) :
    StatementCovered host own declared excused forest scope node := by
  intro env after tree hscopes hreadable _ s book hs
  obtain ⟨hresolves, rfl⟩ := hscopes.resolves hnode
  have hsound := executionSound hhonest htyped s book hs.toStands
  refine (hsound.and (hcovered _ tree hresolves hreadable s book hs)).mono ?_ ?_
  · rintro value t ⟨⟨book', hfollows, -⟩, -⟩
    exact hs.covers.later hfollows.later
  · rintro failure t ⟨-, hexcuses⟩
    exact .inl hexcuses

private theorem block_statementCovered (hhonest : host.Honest own) {outer inner : ScopeId}
    {owner : Scope} {nodes : List Annotated} {types : List (Option SymbolId)}
    {token : Option Token} (hinner : forest.get? inner = some owner)
    (hparent : owner.parent = some outer) (hlength : nodes.length = types.length)
    (htyped : ∀ pair ∈ nodes.zip types, Typed forest inner pair.1 pair.2)
    (ih : ∀ pair ∈ nodes.zip types,
      StatementCovered host own declared excused forest inner pair.1) :
    StatementCovered host own declared excused forest outer (.block nodes inner token) := by
  intro env after tree hscopes hreadable hexcused s book hs
  have hblock : Typed forest outer (.block nodes inner token) none :=
    .block hinner hparent hlength htyped
  have hsound := executionSound hhonest hblock s book hs.toStands
  cases hscopes with
  | expression hresolves => cases hresolves
  | @block _ frame statements _ _ _ hstatements =>
      have hentered : Tended own declared excused forest inner ([] :: env) book
          (s.entering owner) :=
        ⟨hs.toStands.entering hinner, hs.serves, hs.covers.push⟩
      have hbody := executeAll_covered hhonest hlength
        (fun pair hpair => ⟨htyped pair hpair, ih pair hpair⟩) hstatements
        (fun tree htree => hreadable.of_child htree)
        (fun tree htree name hname =>
          hexcused name (hname.of_child htree)) hentered
      have hrun := executeAll_ensures hlength
        (fun pair hpair => executionSound hhonest (htyped pair hpair)) hentered.toStands
      have hclosed : (Act.closing (onScopes Scoping.leave) (executeAll host nodes)).Ensures
          (s.entering owner) (fun _ _ => True)
          (fun failure _ => Excuses excused failure ∨ IsNumeral failure) := by
        apply (hrun.and hbody).closing
        · rintro _ t ⟨⟨book', hfollows⟩, -⟩
          exact .of_on_ok (hs.toStands.leave_entering hinner hparent hfollows).1 trivial
        · rintro failure t ⟨⟨⟨book', hfollows⟩, -⟩, hfailure⟩
          exact .of_on_ok (hs.toStands.leave_entering hinner hparent hfollows).1 hfailure
      have hget : s.scoping.forest.get? inner = some owner := by
        rw [hs.forest]
        exact hinner
      have hcovered : (execute host (.block nodes inner token)).Ensures s (fun _ _ => True)
          (fun failure _ => Excuses excused failure ∨ IsNumeral failure) := by
        unfold Act.Ensures
        rw [execute, Act.on_bind_of_ok (on_entering hget)]
        exact hclosed.bind (fun _ _ h => h) fun _ _ _ => Act.ensures_pure trivial
      refine (hsound.and hcovered).mono ?_ ?_
      · rintro value t ⟨⟨book', hfollows, -⟩, -⟩
        exact hs.covers.later hfollows.later
      · rintro failure t ⟨⟨⟨book', hfollows⟩, -⟩, hfailure⟩
        exact hfailure.imp_right fun hnumeral => ⟨hnumeral, hs.covers.later hfollows.later⟩

private theorem declare_statementCovered (hhonest : host.Honest own) {owner : Scope}
    {symbol : Symbol} {type : SymbolId} {initializer : Annotated} {token : Token}
    (howner : forest.get? scope = some owner) (hsymbol : symbol ∈ owner.symbols)
    (hvariant : symbol.variant = .var type) (htyped : Typed forest scope initializer (some type))
    (hcovered : ReadsCovered host own declared excused forest scope initializer) :
    StatementCovered host own declared excused forest scope
      (.declare symbol.id initializer token) := by
  intro env after tree hscopes hreadable hexcused s book hs
  have hdeclare : Typed forest scope (.declare symbol.id initializer token) none :=
    .declare howner hsymbol hvariant htyped
  have hsound := executionSound hhonest hdeclare s book hs.toStands
  cases hscopes with
  | expression hresolves => cases hresolves
  | @declare frame env _ declaredSymbol _ _ tree _ hresolves hid =>
      have hreadableTree : tree.IsReadable := hreadable.of_child (List.mem_singleton_self _)
      have hbound : (execute host (.declare symbol.id initializer token)).Ensures s
          (fun _ t => (t.valueOf? symbol.id).isSome)
          (fun failure _ => Excuses excused failure) := by
        rw [execute]
        refine (hcovered _ tree hresolves hreadableTree s book hs).bind (fun _ _ h => h) ?_
        intro value t _
        unfold Act.Ensures
        rw [Act.on_bind_of_ok (on_bind _ _ _)]
        exact Option.isSome_iff_exists.2 ⟨value, valueOf?_bound_self t symbol.id value⟩
      refine (hsound.and hbound).mono ?_ (fun _ _ h => .inl h.2)
      rintro value t ⟨⟨book', hfollows, -⟩, hsome⟩
      rw [← hid] at hsome
      exact (hs.covers.later hfollows.later).declare hsome

private theorem conditional_statementCovered (hhonest : host.Honest own)
    {condition body : Annotated} {token : Token}
    (hcondition : Typed forest scope condition (some Primitive.Kind.truth.typeId))
    (hcovered : ReadsCovered host own declared excused forest scope condition)
    (ih : StatementCovered host own declared excused forest scope body) :
    StatementCovered host own declared excused forest scope
      (.conditional condition body token) := by
  intro env after tree hscopes hreadable hexcused s book hs
  cases hscopes with
  | expression hresolves => cases hresolves
  | @conditional _ _ conditionTree bodyTree _ _ _ hresolves hbody =>
      have hchild : bodyTree ∈ (Tree.conditional conditionTree bodyTree token).children :=
        List.mem_cons_of_mem _ (List.mem_singleton_self _)
      have hreadableCondition : conditionTree.IsReadable := hreadable.of_child List.mem_cons_self
      have hsound := executionSound hhonest hcondition s book hs.toStands
      have hreads := hcovered env conditionTree hresolves hreadableCondition s book hs
      rw [execute]
      refine (hsound.and hreads).bind (fun _ _ h => .inl h.2) ?_
      rintro test t ⟨⟨book', hfollows, -⟩, -⟩
      have ht := hs.follows hfollows
      by_cases htest : isTrue test = true
      · rw [if_pos htest]
        have hrun := ih env after bodyTree hbody (hreadable.of_child hchild)
          (fun name hname => hexcused name (hname.of_child hchild))
          t book' ht
        exact hrun.bind (fun _ _ h => h) fun _ _ h => Act.ensures_pure h
      · rw [if_neg htest]
        -- The body is skipped: what it would have declared stays without a value.
        refine Act.ensures_pure ?_
        intro frame hframe symbol hsymbol type htype
        rcases hbody.mem_or_declared frame hframe symbol hsymbol with
          ⟨before, hbefore, hmem⟩ | hname
        · exact ht.covers before hbefore symbol hmem type htype
        · exact .inr (hexcused _ (Tree.guards_conditional hname))

private theorem debugPrint_statementCovered (hhonest : host.Honest own) {operand : Annotated}
    {type : SymbolId} {token : Token} (htyped : Typed forest scope operand (some type))
    (hcovered : ReadsCovered host own declared excused forest scope operand) :
    StatementCovered host own declared excused forest scope (.debugPrint operand token) := by
  intro env after tree hscopes hreadable _ s book hs
  have hprinted : Typed forest scope (.debugPrint operand token) none := .debugPrint htyped
  have hsound := executionSound hhonest hprinted s book hs.toStands
  cases hscopes with
  | expression hresolves => cases hresolves
  | @debugPrint _ tree _ _ hresolves =>
      have hreadableTree : tree.IsReadable := hreadable.of_child (List.mem_singleton_self _)
      have hprint : (execute host (.debugPrint operand token)).Ensures s (fun _ _ => True)
          (fun failure _ => Excuses excused failure ∨ IsNumeral failure) := by
        rw [execute]
        refine (hcovered env tree hresolves hreadableTree s book hs).bind (fun _ _ h => .inl h) ?_
        intro value t _
        cases hshown : value.payload.render with
        | error error => exact .inr ⟨error, rfl⟩
        | ok shown => exact trivial
      refine (hsound.and hprint).mono ?_ ?_
      · rintro value t ⟨⟨book', hfollows, -⟩, -⟩
        exact hs.covers.later hfollows.later
      · rintro failure t ⟨⟨⟨book', hfollows⟩, -⟩, hfailure⟩
        exact hfailure.imp_right fun hnumeral => ⟨hnumeral, hs.covers.later hfollows.later⟩

theorem statementCovered (hhonest : host.Honest own) (hobliging : host.Obliging declared)
    {node : Annotated} {type : Option SymbolId} (h : Typed forest scope node type) :
    StatementCovered host own declared excused forest scope node := by
  induction h with
  | block hinner hparent hlength htyped ih =>
      exact block_statementCovered hhonest hinner hparent hlength htyped ih
  | declare howner hsymbol hvariant htyped _ =>
      exact declare_statementCovered hhonest howner hsymbol hvariant htyped
        (readsCovered hhonest hobliging htyped)
  | conditional hcondition _ _ ih =>
      exact conditional_statementCovered hhonest hcondition
        (readsCovered hhonest hobliging hcondition) ih
  | debugPrint htyped _ =>
      exact debugPrint_statementCovered hhonest htyped (readsCovered hhonest hobliging htyped)
  | literal hspells =>
      exact expression_statementCovered hhonest (.literal hspells) trivial
        (literal_covered hspells)
  | reference hvisible hname htype =>
      exact expression_statementCovered hhonest (.reference hvisible hname htype) trivial
        (reference_covered hvisible hname)
  | assign hvisible hvariant hvalue _ =>
      exact expression_statementCovered hhonest (.assign hvisible hvariant hvalue) trivial
        (readsCovered hhonest hobliging (.assign hvisible hvariant hvalue))
  | call hcallee hfunction hlength harguments _ _ =>
      exact expression_statementCovered hhonest (.call hcallee hfunction hlength harguments)
        trivial (readsCovered hhonest hobliging (.call hcallee hfunction hlength harguments))

end Session

end Scriptlet
