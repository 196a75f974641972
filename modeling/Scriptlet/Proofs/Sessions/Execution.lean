import Scriptlet.Proofs.Analysis.Typing
import Scriptlet.Proofs.Sessions.Invariant
/-!
# Soundness of execution

Executing a typed tree in a sound session yields a value of the tree's type, or
nothing for a statement, and leaves the session sound, also where it stops
halfway.  All it may stop for is listed in `Host.Stops`; among these there is no
inconsistency of scopes or types, only a variable that was never bound.
-/

namespace Scriptlet

variable {ν : Type}

/-- The value can be found in the session: it is stored, or it was passed to a
native function. -/
def Session.Knows (s : Session ν) (value : Value ν) : Prop :=
  value ∈ s.values.values ∨
    ∃ name handle arguments, Event.called name handle arguments ∈ s.journal ∧ value ∈ arguments

/-- A host that neither works on the session that calls it, apart from writing
to its output and making values, nor forges values: what it returns it was given,
found in the session, had already, or made under a new identity. -/
structure Host.Honest (own : Value ν → Prop) (host : Host ν) : Prop where
  apart : ∀ handle arguments s, ∃ (texts : List String) (next : Nat), s.nextValue ≤ next ∧
    ((host.invoke handle arguments).on s).2 = s.noted (texts.map Event.wrote) next
  genuine : ∀ handle arguments s value t,
    (host.invoke handle arguments).on s = (.ok (.value value), t) →
      value = .nothing ∨ own value ∨ value ∈ arguments ∨ s.Knows value ∨
        s.nextValue ≤ value.id.number ∧ value.id.number < t.nextValue

inductive Host.Stops (host : Host ν) : Failure → Prop where
  /-- A native function ended with a fault, which is passed on. -/
  | passed {handle : ν} {arguments : List (Value ν)} {s t : Session ν} {diagnostic : Diagnostic} :
      (host.invoke handle arguments).on s = (.error (.fault diagnostic), t) →
      Stops host (.fault diagnostic)
  /-- A native function failed on its own. -/
  | failed {handle : ν} {arguments : List (Value ν)} {s t : Session ν} {error : HostError}
      {name : String} {span : Span} :
      (host.invoke handle arguments).on s = (.error (.host error), t) →
      Stops host (.fault ((Diagnostic.of
        (.execution ("native function '" ++ name ++ "' failed: " ++ error.message))
        span).withCause error))
  /-- A native function returned what is no value. -/
  | unusable {handle : ν} {arguments : List (Value ν)} {s t u : Session ν} {reply : Reply ν}
      {failure : Failure} :
      (host.invoke handle arguments).on s = (.ok reply, t) →
      (Session.ofReply reply).on t = (.error failure, u) → Stops host failure
  /-- A native function returned a value of another sort than it declared. -/
  | undeclared {handle : ν} {arguments : List (Value ν)} {s t : Session ν} {reply : Reply ν}
      {name shown : String} {kind : Primitive.Kind} {span : Span} :
      (host.invoke handle arguments).on s = (.ok reply, t) →
      Stops host (.located (.internal ("native function '" ++ name ++ "' returned " ++ shown ++
        ", declared " ++ kind.label)) span)
  /-- A variable was read that was not bound. -/
  | unbound {name : String} {span : Span} : Stops host (.located (.unboundValue name) span)
  /-- An integer literal has too many digits to be read. -/
  | oversized {token : Token} : token.IsOversized .integer →
      Stops host (.fault (malformedLiteral token .integer))
  /-- An integer has too many digits to be shown. -/
  | unshown {error : Numeral.Error} : Stops host (.host (.numeral error))

namespace Session

/-- The session went on from one state to another within the same scopes, while
the book of values grew.  Symbols of the global scope keep their values. -/
structure Follows (book book' : Value ν → Prop) (s t : Session ν) : Prop where
  forest : t.scoping.forest = s.scoping.forest
  cursor : t.scoping.cursor = s.scoping.cursor
  globals : ∀ symbol ∈ s.scoping.forest.global.symbols,
    t.valueOf? symbol.id = s.valueOf? symbol.id
  later : s.Later t
  book : ∀ v, book v → book' v
  sound : t.Sound book'

def Yields (book : Value ν → Prop) (s : Session ν) (value : Value ν) : Option SymbolId → Prop
  | some type => book value ∧ s.Agrees value.payload type
  | none => value = .nothing

theorem Follows.refl {s : Session ν} {book : Value ν → Prop} (hs : s.Sound book) :
    Follows book book s s :=
  ⟨rfl, rfl, fun _ _ => rfl, .refl s, fun _ h => h, hs⟩

theorem Follows.trans {s t u : Session ν} {book book' book'' : Value ν → Prop}
    (h : Follows book book' s t) (h' : Follows book' book'' t u) : Follows book book'' s u := by
  refine ⟨h'.forest.trans h.forest, h'.cursor.trans h.cursor, ?_, h.later.trans h'.later,
    fun v hv => h'.book v (h.book v hv), h'.sound⟩
  intro symbol hsymbol
  rw [h'.globals symbol (by rw [h.forest]; exact hsymbol), h.globals symbol hsymbol]

theorem Sound.follows_noted {s : Session ν} {book : Value ν → Prop} (hs : s.Sound book)
    {events : List (Event ν)} {next : Nat} (hnext : s.nextValue ≤ next)
    (hevents : ∀ name handle arguments, Event.called name handle arguments ∈ events →
      (∀ v ∈ arguments, book v) ∧ s.Admits name handle arguments) :
    Follows book book s (s.noted events next) :=
  ⟨rfl, rfl, fun _ _ => rfl, later_noted events next, fun _ h => h, hs.noted hnext hevents⟩

theorem Sound.follows_event {s : Session ν} {book : Value ν → Prop} (hs : s.Sound book)
    (event : Event ν)
    (hevent : ∀ name handle arguments, Event.called name handle arguments ≠ event) :
    Follows book book s (s.noted [event] s.nextValue) := by
  apply hs.follows_noted (Nat.le_refl _)
  intro name handle arguments hmem
  exact absurd (List.mem_singleton.1 hmem) (hevent name handle arguments)

theorem Sound.follows_fresh {s : Session ν} {book : Value ν → Prop} (hs : s.Sound book)
    {value : Value ν} {next : Nat} (hlow : s.nextValue ≤ value.id.number)
    (hhigh : value.id.number < next) :
    Follows book (Session.entered book value) s (s.noted [] next) :=
  ⟨rfl, rfl, fun _ _ => rfl, later_noted [] next, fun _ h => .inl h,
    hs.entered_fresh hlow hhigh⟩

theorem Sound.follows_minted {s : Session ν} {book : Value ν → Prop} (hs : s.Sound book)
    (payload : Payload ν) :
    Follows book (Session.entered book ⟨⟨s.nextValue⟩, payload⟩) s
      (s.noted [] (s.nextValue + 1)) :=
  hs.follows_fresh (Nat.le_refl _) (Nat.lt_succ_self _)

theorem Sound.follows_storing {s : Session ν} {book : Value ν → Prop} (hs : s.Sound book)
    {value : Value ν} (hvalue : book value) : Follows book book s (s.storing value) :=
  ⟨rfl, rfl, fun _ _ => hs.valueOf?_storing hvalue _, hs.later_storing hvalue, fun _ h => h,
    hs.storing hvalue⟩

theorem Sound.follows_bound {s : Session ν} {book : Value ν → Prop} (hs : s.Sound book)
    {symbol : Symbol} {type : SymbolId} {value : Value ν} (hdeclares : s.Declares symbol)
    (hvariant : symbol.variant = .var type) (hvalue : book value)
    (hagrees : s.Agrees value.payload type) : Follows book book s (s.bound symbol.id value) := by
  refine ⟨rfl, rfl, ?_, hs.later_bound_var hdeclares hvariant hvalue, fun _ h => h,
    hs.bind_var hdeclares hvariant hvalue hagrees⟩
  intro other hother
  exact hs.valueOf?_bound_of_ne (hs.global_ne_var hdeclares hvariant hother) hvalue

/-! ## Leaves -/

variable {host : Host ν} {own book : Value ν → Prop} {s : Session ν}

private theorem literal_ensures (hs : s.Sound book) {token : Token} {kind : Primitive.Kind}
    (h : token.Spells kind) :
    (execute host (.literal token kind)).Ensures s
      (fun value t => ∃ book', Follows book book' s t ∧ Yields book' t value (some kind.typeId))
      (fun failure t => (∃ book', Follows book book' s t) ∧ host.Stops failure) := by
  unfold Act.Ensures
  rw [execute]
  by_cases hsize : token.IsOversized kind
  · have hvalue : (Act.ofDiagnostic (literalValue token kind) : Act (Session ν) Primitive).on s =
        (.error (.fault (malformedLiteral token kind)), s) := by
      rw [literalValue_of_oversized h hsize]
      rfl
    rw [Act.on_bind_of_error hvalue]
    obtain ⟨rfl, hlength⟩ := hsize
    exact ⟨⟨book, .refl hs⟩, .oversized ⟨rfl, hlength⟩⟩
  · obtain ⟨value, hvalue, hkind⟩ := literalValue_of_spells h hsize
    have hvalue : (Act.ofDiagnostic (literalValue token kind) : Act (Session ν) Primitive).on s =
        (.ok value, s) := by
      rw [hvalue]
      rfl
    rw [Act.on_bind_of_ok hvalue, on_fresh]
    refine ⟨_, hs.follows_minted _, .inr rfl, ?_⟩
    rw [← hkind]
    exact .primitive value

theorem on_readVariable_found {id : SymbolId} {symbol : Symbol}
    (h : s.scoping.forest.lookupId s.scoping.cursor id = .ok (some symbol)) (token : Token) :
    (readVariable id token).on s =
      (match s.valueOf? symbol.id with
        | some value => .ok value
        | none => .error (.located (.unboundValue symbol.name) token.span),
        s.rescoped s.scoping) := by
  have hresolve : (Scoping.resolveId id).on s.scoping = (.ok (some symbol), s.scoping) := by
    rw [Scoping.on_resolveId, h]
  unfold readVariable
  rw [Act.on_bind_of_ok (on_onScopes hresolve)]
  dsimp only
  rw [Act.on_bind_of_ok (Act.on_get _)]
  have hsame : (s.rescoped s.scoping).valueOf? symbol.id = s.valueOf? symbol.id := rfl
  cases hvalue : s.valueOf? symbol.id with
  | none =>
      rw [hvalue, valueOf?] at hsame
      simp only [hsame, Act.on_fail]
  | some value =>
      rw [hvalue, valueOf?] at hsame
      simp only [hsame, Act.on_pure]

theorem on_readVariable (hs : s.scoping.forest.Sound) {scope : Scope}
    (hscope : s.scoping.forest.get? s.scoping.cursor = some scope) {symbol : Symbol}
    (hvisible : s.scoping.forest.Visible s.scoping.cursor symbol) (token : Token) :
    (readVariable symbol.id token).on s =
      (match s.valueOf? symbol.id with
        | some value => .ok value
        | none => .error (.located (.unboundValue symbol.name) token.span),
        s.rescoped s.scoping) :=
  on_readVariable_found (hs.lawful.lookupId_of_visible hscope hvisible) token

theorem Sound.follows_rescoped (hs : s.Sound book) :
    Follows book book s (s.rescoped s.scoping) :=
  ⟨rfl, rfl, fun _ _ => rfl, later_rescoped (Forest.Extends.refl _), fun _ h => h,
    hs.rescoped hs.forest (Forest.Extends.refl _)⟩

theorem Sound.agrees_of_valueOf? (hs : s.Sound book) {symbol : Symbol}
    (hdeclares : s.Declares symbol) {type : SymbolId} (htype : symbol.variant.type? = some type)
    {value : Value ν} (hvalue : s.valueOf? symbol.id = some value) :
    book value ∧ s.Agrees value.payload type := by
  obtain ⟨key, hkey, hget⟩ := valueOf?_eq_some.1 hvalue
  obtain ⟨other, otherType, stored, ⟨owner', howner', hmem'⟩, hid, hother, hstored, hagrees⟩ :=
    hs.bound _ _ hkey
  obtain ⟨owner, howner, hmem⟩ := hdeclares
  obtain ⟨rfl, -⟩ := hs.forest.identified owner' howner' owner howner other hmem' symbol hmem hid
  rw [htype, Option.some.injEq] at hother
  rw [hget, Option.some.injEq] at hstored
  refine ⟨hs.stored _ (ValueTable.mem_of_get? hget), ?_⟩
  rw [hother, hstored]
  exact hagrees

private theorem readVariable_ensures (hs : s.Sound book) {scope : Scope}
    (hscope : s.scoping.forest.get? s.scoping.cursor = some scope) {symbol : Symbol}
    (hvisible : s.scoping.forest.Visible s.scoping.cursor symbol) {type : SymbolId}
    (htype : symbol.variant.type? = some type) (token : Token) :
    (readVariable symbol.id token).Ensures s
      (fun value t => ∃ book', Follows book book' s t ∧ Yields book' t value (some type))
      (fun failure t => (∃ book', Follows book book' s t) ∧ host.Stops failure) := by
  have hfollows := hs.follows_rescoped
  have hdeclares : (s.rescoped s.scoping).Declares symbol := by
    obtain ⟨owner, howner, hmem⟩ := hvisible
    exact ⟨owner, Forest.mem_scopes_of_mem_chainIn howner, hmem⟩
  unfold Act.Ensures
  rw [on_readVariable hs.forest hscope hvisible]
  cases hvalue : s.valueOf? symbol.id with
  | none => exact ⟨⟨book, hfollows⟩, .unbound⟩
  | some value => exact ⟨book, hfollows, hfollows.sound.agrees_of_valueOf? hdeclares htype hvalue⟩

/-! ## Calls -/

/-- A datum becomes nothing, a new value, or a failure. -/
theorem on_receive (datum : Datum) (s : Session ν) :
    (receive datum).on s = (.ok .nothing, s) ∨
      (∃ payload, (receive datum).on s =
        (.ok ⟨⟨s.nextValue⟩, payload⟩, s.noted [] (s.nextValue + 1))) ∨
      ∃ failure, (receive datum).on s = (.error failure, s) := by
  have hfresh : ∀ outcome : Except Failure (Payload ν),
      (∃ payload, (Act.ofExcept outcome >>= fresh).on s =
        (.ok ⟨⟨s.nextValue⟩, payload⟩, s.noted [] (s.nextValue + 1))) ∨
      ∃ failure, (Act.ofExcept outcome >>= fresh).on s = (.error failure, s) := by
    intro outcome
    cases outcome with
    | ok payload => exact .inl ⟨payload, rfl⟩
    | error failure => exact .inr ⟨failure, rfl⟩
  cases datum with
  | nothing => exact .inl rfl
  | _ => exact .inr (hfresh (Payload.ofDatum _))

/-- A reply becomes a value that exists, unless it is nothing.  No variable gets
another value. -/
theorem ofReply_ensures (hhonest : host.Honest own) (hown : ∀ v, own v → book v)
    (hs : s.Sound book) {handle : ν} {arguments : List (Value ν)}
    (harguments : ∀ v ∈ arguments, book v) {t : Session ν} {reply : Reply ν}
    (hinvoke : (host.invoke handle arguments).on s = (.ok reply, t))
    (hfollows : Follows book book s t) (hkept : ∀ id, t.valueOf? id = s.valueOf? id) :
    (ofReply reply).Ensures t
      (fun value u => (∃ book', Follows book book' s u ∧ (value = .nothing ∨ book' value)) ∧
        ∀ id, u.valueOf? id = s.valueOf? id)
      (fun failure u => (∃ book', Follows book book' s u) ∧ host.Stops failure) := by
  have hsame : ∀ value, book value →
      ∃ book', Follows book book' s t ∧ (value = .nothing ∨ book' value) :=
    fun value hvalue => ⟨book, hfollows, .inr hvalue⟩
  cases reply with
  | value value =>
      refine Act.ensures_pure ⟨?_, hkept⟩
      rcases hhonest.genuine _ _ _ _ _ hinvoke with rfl | hvalue | hvalue | hvalue | ⟨hlow, hhigh⟩
      · exact ⟨book, hfollows, .inl rfl⟩
      · exact hsame value (hown value hvalue)
      · exact hsame value (harguments value hvalue)
      · rcases hvalue with hstored | ⟨name, other, passed, hcalled, hmem⟩
        · exact hsame value (hs.stored value hstored)
        · exact hsame value ((hs.called name other passed hcalled).1 value hmem)
      · have hnew : ∀ v, book v → v.id ≠ value.id := by
          intro v hv heq
          have hlt := hs.minted v hv
          rw [heq] at hlt
          omega
        have hentered := hfollows.sound.entered hnew hhigh
        exact ⟨entered book value, ⟨hfollows.forest, hfollows.cursor, hfollows.globals,
          hfollows.later, fun _ h => .inl h, hentered⟩, .inr (.inr rfl)⟩
  | datum datum =>
      rcases on_receive datum t with hvalue | ⟨payload, hvalue⟩ | ⟨failure, hfailure⟩
      · exact .of_on_ok hvalue ⟨⟨book, hfollows, .inl rfl⟩, hkept⟩
      · exact .of_on_ok hvalue
          ⟨⟨_, hfollows.trans (hfollows.sound.follows_minted payload), .inr (.inr rfl)⟩, hkept⟩
      · exact .of_on_error hfailure ⟨⟨book, hfollows⟩, .unusable hinvoke hfailure⟩
  | function =>
      exact Act.ensures_throw ⟨⟨book, hfollows⟩, .unusable hinvoke rfl⟩

theorem Agrees.of_isFunction {payload : Payload ν} {type : SymbolId} {parameters : List SymbolId}
    {result : Option SymbolId} (hs : s.scoping.forest.Sound) (h : s.Agrees payload type)
    (hfunction : s.scoping.forest.IsFunction type parameters result) :
    ∃ name handle kind, payload = .native name handle kind ∧
      s.Registered name handle kind type ∧ result = kind.map Primitive.Kind.typeId := by
  cases h with
  | primitive value => exact absurd hfunction (hs.lawful.not_isFunction_typeId _)
  | native hregistered hfunction' =>
      obtain ⟨-, hresult⟩ := hs.lawful.isFunction_inj hfunction hfunction'
      exact ⟨_, _, _, rfl, hregistered, hresult⟩

private theorem agrees_of_kind? {payload : Payload ν} {kind : Primitive.Kind}
    (h : payload.kind? = some kind) : s.Agrees payload kind.typeId := by
  cases payload with
  | primitive value =>
      rw [← Option.some.inj h]
      exact .primitive value
  | nothing => simp [Payload.kind?] at h
  | native => simp [Payload.kind?] at h

theorem call_ensures (hhonest : host.Honest own) (hown : ∀ v, own v → book v)
    (hs : s.Sound book) {callee : Value ν} {type : SymbolId} {parameters : List SymbolId}
    {result : Option SymbolId} (hcallee : s.Agrees callee.payload type)
    (hfunction : s.scoping.forest.IsFunction type parameters result) {arguments : List (Value ν)}
    (harguments : ∀ v ∈ arguments, book v)
    (hagrees : List.Forall₂ (fun value parameter => s.Agrees value.payload parameter)
      arguments parameters) (token : Token) :
    (call host callee arguments token).Ensures s
      (fun value t => (∃ book', Follows book book' s t ∧ Yields book' t value result) ∧
        ∀ id, t.valueOf? id = s.valueOf? id)
      (fun failure t => (∃ book', Follows book book' s t) ∧ host.Stops failure) := by
  obtain ⟨name, handle, kind, hpayload, hregistered, rfl⟩ :=
    hcallee.of_isFunction hs.forest hfunction
  have hadmits : s.Admits name handle arguments :=
    ⟨kind, type, parameters, hregistered, hfunction, hagrees⟩
  have hcalled : Follows book book s (s.noted [.called name handle arguments] s.nextValue) := by
    apply hs.follows_noted (Nat.le_refl _)
    intro name' handle' arguments' hmem
    obtain ⟨rfl, rfl, rfl⟩ := Event.called.inj (List.mem_singleton.1 hmem)
    exact ⟨harguments, hadmits⟩
  have hrecord : (record (.called name handle arguments)).on s =
      (.ok (), s.noted [.called name handle arguments] s.nextValue) := rfl
  have hkept : ∀ id, (s.noted [.called name handle arguments] s.nextValue).valueOf? id =
      s.valueOf? id := fun _ => rfl
  generalize s.noted [.called name handle arguments] s.nextValue = s₁ at hcalled hrecord hkept
  obtain ⟨texts, next, hnext, hstate⟩ := hhonest.apart handle arguments s₁
  have hinvoked : Follows book book s₁ (s₁.noted (texts.map .wrote) next) :=
    hcalled.sound.follows_noted hnext (by simp)
  have hsteady : ∀ id, (s₁.noted (texts.map .wrote) next).valueOf? id = s₁.valueOf? id :=
    fun _ => rfl
  rw [← hstate] at hinvoked hsteady
  unfold call
  simp only [hpayload]
  unfold Act.Ensures
  rw [Act.on_bind_of_ok hrecord, Act.on_bind_of_ok (Act.on_attempt _ _)]
  match hrun : (host.invoke handle arguments).on s₁ with
  | (.error (.fault diagnostic), t) =>
      rw [hrun] at hinvoked
      exact ⟨⟨book, hcalled.trans hinvoked⟩, .passed hrun⟩
  | (.error (.host error), t) =>
      rw [hrun] at hinvoked
      exact ⟨⟨book, hcalled.trans hinvoked⟩, .failed hrun⟩
  | (.ok reply, t) =>
      rw [hrun] at hinvoked hsteady
      cases kind with
      | none =>
          exact ⟨⟨book, hcalled.trans hinvoked, rfl⟩, fun id => (hsteady id).trans (hkept id)⟩
      | some kind =>
          have hreply := ofReply_ensures hhonest hown hcalled.sound harguments hrun hinvoked hsteady
          refine hreply.bind ?_ ?_
          · rintro failure u ⟨⟨book', hfollows⟩, hstops⟩
            exact ⟨⟨book', hcalled.trans hfollows⟩, hstops⟩
          rintro value u ⟨⟨book', hfollows, hvalue⟩, hsteady'⟩
          have hfollows := hcalled.trans hfollows
          by_cases hkind : value.payload.kind? = some kind
          · rw [if_pos hkind]
            have hbook : book' value := by
              rcases hvalue with rfl | hvalue
              · simp [Value.nothing, Payload.kind?] at hkind
              · exact hvalue
            have hstored := hfollows.sound.follows_storing hbook
            refine ⟨⟨book', hfollows.trans hstored, hbook, agrees_of_kind? hkind⟩, ?_⟩
            intro id
            exact (hfollows.sound.valueOf?_storing hbook id).trans ((hsteady' id).trans (hkept id))
          · rw [if_neg hkind]
            cases hshown : value.payload.render with
            | error error => exact ⟨⟨book', hfollows⟩, .unshown⟩
            | ok shown => exact ⟨⟨book', hfollows⟩, .undeclared hrun⟩

/-! ## Trees -/

open Annotated (Typed)

structure Stands (own : Value ν → Prop) (forest : Forest) (scope : ScopeId)
    (book : Value ν → Prop) (s : Session ν) : Prop where
  sound : s.Sound book
  own : ∀ v, own v → book v
  current : ∃ current, forest.get? scope = some current
  forest : s.scoping.forest = forest
  cursor : s.scoping.cursor = scope

theorem Stands.follows {forest : Forest} {scope : ScopeId} {t : Session ν}
    {book' : Value ν → Prop} (h : Stands own forest scope book s)
    (hfollows : Follows book book' s t) : Stands own forest scope book' t :=
  ⟨hfollows.sound, fun v hv => hfollows.book v (h.own v hv), h.current,
    hfollows.forest.trans h.forest, hfollows.cursor.trans h.cursor⟩

/-- What executing a tree of the given type does in any sound session that
stands in the scope of the tree. -/
def ExecutionSound (host : Host ν) (own : Value ν → Prop) (forest : Forest) (scope : ScopeId)
    (node : Annotated) (type : Option SymbolId) : Prop :=
  ∀ (s : Session ν) (book : Value ν → Prop), Stands own forest scope book s →
    (execute host node).Ensures s
      (fun value t => ∃ book', Follows book book' s t ∧ Yields book' t value type)
      (fun failure t => (∃ book', Follows book book' s t) ∧ host.Stops failure)

theorem executeAll_ensures {forest : Forest} {scope : ScopeId} {nodes : List Annotated}
    {types : List (Option SymbolId)} (hlength : nodes.length = types.length)
    (hnodes : ∀ pair ∈ nodes.zip types, ExecutionSound host own forest scope pair.1 pair.2)
    (hs : Stands own forest scope book s) :
    (executeAll host nodes).Ensures s (fun _ t => ∃ book', Follows book book' s t)
      (fun failure t => (∃ book', Follows book book' s t) ∧ host.Stops failure) := by
  induction nodes generalizing types s book with
  | nil =>
      rw [executeAll]
      exact Act.ensures_pure ⟨book, .refl hs.sound⟩
  | cons node nodes ih =>
      cases types with
      | nil => simp at hlength
      | cons type types =>
          rw [List.zip_cons_cons, List.forall_mem_cons] at hnodes
          rw [executeAll]
          refine (hnodes.1 s book hs).bind (fun _ _ h => h) ?_
          rintro value t ⟨book', hfollows, -⟩
          have hrest := ih (by simpa using hlength) hnodes.2 (hs.follows hfollows)
          refine hrest.mono ?_ ?_
          · rintro _ u ⟨book'', hfollows'⟩
            exact ⟨book'', hfollows.trans hfollows'⟩
          · rintro failure u ⟨⟨book'', hfollows'⟩, hstops⟩
            exact ⟨⟨book'', hfollows.trans hfollows'⟩, hstops⟩

theorem executeArguments_ensures {forest : Forest} {scope : ScopeId} {nodes : List Annotated}
    {parameters : List SymbolId} (hlength : nodes.length = parameters.length)
    (hnodes : ∀ pair ∈ nodes.zip parameters,
      ExecutionSound host own forest scope pair.1 (some pair.2))
    (hs : Stands own forest scope book s) :
    (executeArguments host nodes).Ensures s
      (fun values t => ∃ book', Follows book book' s t ∧ (∀ v ∈ values, book' v) ∧
        List.Forall₂ (fun value parameter => t.Agrees value.payload parameter) values parameters)
      (fun failure t => (∃ book', Follows book book' s t) ∧ host.Stops failure) := by
  induction nodes generalizing parameters s book with
  | nil =>
      cases parameters with
      | nil =>
          rw [executeArguments]
          exact Act.ensures_pure ⟨book, .refl hs.sound, by simp, .nil⟩
      | cons => simp at hlength
  | cons node nodes ih =>
      cases parameters with
      | nil => simp at hlength
      | cons parameter parameters =>
          rw [List.zip_cons_cons, List.forall_mem_cons] at hnodes
          rw [executeArguments]
          refine (hnodes.1 s book hs).bind (fun _ _ h => h) ?_
          rintro value t ⟨book', hfollows, hvalue, hagrees⟩
          have hrest := ih (by simpa using hlength) hnodes.2 (hs.follows hfollows)
          refine hrest.bind ?_ ?_
          · rintro failure u ⟨⟨book'', hfollows'⟩, hstops⟩
            exact ⟨⟨book'', hfollows.trans hfollows'⟩, hstops⟩
          rintro values u ⟨book'', hfollows', hvalues, hall⟩
          refine Act.ensures_pure ⟨book'', hfollows.trans hfollows', ?_, ?_⟩
          · exact List.forall_mem_cons.2 ⟨hfollows'.book value hvalue, hvalues⟩
          · exact .cons (hagrees.mono hfollows'.later) hall

def entering (s : Session ν) (scope : Scope) : Session ν :=
  s.rescoped { s.scoping with
    cursor := scope.id, log := .entered scope.id scope.name :: s.scoping.log }

def leaving (s : Session ν) (scope : Scope) (parent : ScopeId) : Session ν :=
  s.rescoped { s.scoping with
    cursor := parent, log := .left scope.id scope.name :: s.scoping.log }

theorem on_entering {id : ScopeId} {scope : Scope} (h : s.scoping.forest.get? id = some scope) :
    (onScopes (Scoping.enter id)).on s = (.ok (), s.entering scope) := by
  obtain rfl := Forest.id_of_get? h
  exact on_onScopes (Scoping.on_enter h)

theorem on_leaving {scope : Scope} {parent : ScopeId}
    (h : s.scoping.forest.get? s.scoping.cursor = some scope)
    (hparent : scope.parent = some parent) :
    (onScopes Scoping.leave).on s = (.ok (), s.leaving scope parent) :=
  on_onScopes (Scoping.on_leave h hparent)

theorem Sound.entering (hs : s.Sound book) (scope : Scope) : (s.entering scope).Sound book :=
  hs.rescoped hs.forest (Forest.Extends.refl _)

theorem later_entering (s : Session ν) (scope : Scope) : s.Later (s.entering scope) :=
  later_rescoped (Forest.Extends.refl _)

theorem Sound.leaving (hs : s.Sound book) (scope : Scope) (parent : ScopeId) :
    (s.leaving scope parent).Sound book :=
  hs.rescoped hs.forest (Forest.Extends.refl _)

theorem later_leaving (s : Session ν) (scope : Scope) (parent : ScopeId) :
    s.Later (s.leaving scope parent) :=
  later_rescoped (Forest.Extends.refl _)

theorem Stands.entering {forest : Forest} {outer inner : ScopeId} {scope : Scope}
    (hs : Stands own forest outer book s) (hinner : forest.get? inner = some scope) :
    Stands own forest inner book (s.entering scope) :=
  ⟨hs.sound.entering scope, hs.own, ⟨scope, hinner⟩, hs.forest, Forest.id_of_get? hinner⟩

/-- Leaving a block comes back to the scope around it from wherever its statements
stopped. -/
theorem Stands.leave_entering {forest : Forest} {outer inner : ScopeId} {scope : Scope}
    (hs : Stands own forest outer book s) (hinner : forest.get? inner = some scope)
    (hparent : scope.parent = some outer) {t : Session ν} {book' : Value ν → Prop}
    (hfollows : Follows book book' (s.entering scope) t) :
    (onScopes Scoping.leave).on t = (.ok (), t.leaving scope outer) ∧
      Follows book book' s (t.leaving scope outer) := by
  have ht := (hs.entering hinner).follows hfollows
  have hget : t.scoping.forest.get? t.scoping.cursor = some scope := by
    rw [ht.forest, ht.cursor]
    exact hinner
  refine ⟨on_leaving hget hparent, hfollows.forest, hs.cursor.symm, hfollows.globals, ?_,
    hfollows.book, hfollows.sound.leaving scope outer⟩
  exact (later_entering s scope).trans (hfollows.later.trans (later_leaving t scope outer))

theorem block_sound {forest : Forest} {outer inner : ScopeId} {scope : Scope}
    {nodes : List Annotated} {types : List (Option SymbolId)} {token : Option Token}
    (hinner : forest.get? inner = some scope) (hparent : scope.parent = some outer)
    (hlength : nodes.length = types.length)
    (hnodes : ∀ pair ∈ nodes.zip types, ExecutionSound host own forest inner pair.1 pair.2) :
    ExecutionSound host own forest outer (.block nodes inner token) none := by
  intro s book hs
  have hbody := executeAll_ensures hlength hnodes (hs.entering hinner)
  have hclosed : (Act.closing (onScopes Scoping.leave) (executeAll host nodes)).Ensures
      (s.entering scope) (fun _ u => ∃ book', Follows book book' s u)
      (fun failure u => (∃ book', Follows book book' s u) ∧ host.Stops failure) := by
    apply hbody.closing
    · rintro _ t ⟨book', hfollows⟩
      obtain ⟨hleave, hback⟩ := hs.leave_entering hinner hparent hfollows
      exact .of_on_ok hleave ⟨book', hback⟩
    · rintro failure t ⟨⟨book', hfollows⟩, hstops⟩
      obtain ⟨hleave, hback⟩ := hs.leave_entering hinner hparent hfollows
      exact .of_on_ok hleave ⟨⟨book', hback⟩, hstops⟩
  have hget : s.scoping.forest.get? inner = some scope := by
    rw [hs.forest]
    exact hinner
  unfold Act.Ensures
  rw [execute, Act.on_bind_of_ok (on_entering hget)]
  refine hclosed.bind (fun _ _ h => h) ?_
  rintro _ u ⟨book', hfollows⟩
  exact Act.ensures_pure ⟨book', hfollows, rfl⟩

private theorem binding_ensures {forest : Forest} {scope : ScopeId} {node : Annotated}
    {symbol : Symbol} {type : SymbolId}
    (hnode : ExecutionSound host own forest scope node (some type))
    (hdeclares : ∃ owner ∈ forest.scopes, symbol ∈ owner.symbols)
    (hvariant : symbol.variant = .var type) (hs : Stands own forest scope book s) :
    (do bind symbol.id (← execute host node); return Value.nothing : Act (Session ν) _).Ensures s
      (fun value t => ∃ book', Follows book book' s t ∧ Yields book' t value none)
      (fun failure t => (∃ book', Follows book book' s t) ∧ host.Stops failure) := by
  refine (hnode s book hs).bind (fun _ _ h => h) ?_
  rintro value t ⟨book', hfollows, hvalue, hagrees⟩
  have hdeclares : t.Declares symbol := by
    rw [Declares, hfollows.forest, hs.forest]
    exact hdeclares
  have hbound := hfollows.sound.follows_bound hdeclares hvariant hvalue hagrees
  unfold Act.Ensures
  rw [Act.on_bind_of_ok (on_bind _ _ _)]
  exact ⟨book', hfollows.trans hbound, rfl⟩

theorem executionSound (hhonest : host.Honest own) {forest : Forest} {scope : ScopeId}
    {node : Annotated} {type : Option SymbolId} (h : Typed forest scope node type) :
    ExecutionSound host own forest scope node type := by
  induction h with
  | block hinner hparent hlength _ ih => exact block_sound hinner hparent hlength ih
  | literal hspells =>
      intro s book hs
      exact literal_ensures hs.sound hspells
  | reference hvisible _ htype =>
      intro s book hs
      obtain ⟨current, hcurrent⟩ := hs.current
      rw [← hs.forest, ← hs.cursor] at hcurrent hvisible
      rw [execute]
      exact readVariable_ensures hs.sound hcurrent hvisible htype _
  | declare howner hsymbol hvariant _ ih =>
      intro s book hs
      rw [execute]
      exact binding_ensures ih ⟨_, Forest.mem_of_get? howner, hsymbol⟩ hvariant hs
  | assign hvisible hvariant _ ih =>
      intro s book hs
      obtain ⟨owner, howner, hsymbol⟩ := hvisible
      rw [execute]
      exact binding_ensures ih ⟨owner, Forest.mem_scopes_of_mem_chainIn howner, hsymbol⟩ hvariant hs
  | @call scope type parameters result callee arguments token _ hfunction hlength _ ihCallee
      ihArguments =>
      intro s book hs
      rw [execute]
      refine (ihCallee s book hs).bind (fun _ _ h => h) ?_
      rintro function t ⟨book', hfollows, hbook, hagrees⟩
      have ht := hs.follows hfollows
      obtain ⟨name, handle, kind, hpayload, -⟩ :=
        hagrees.of_isFunction ht.sound.forest (ht.forest.symm ▸ hfunction)
      simp only [hpayload]
      refine (executeArguments_ensures hlength ihArguments ht).bind ?_ ?_
      · rintro failure u ⟨⟨book'', hfollows'⟩, hstops⟩
        exact ⟨⟨book'', hfollows.trans hfollows'⟩, hstops⟩
      rintro values u ⟨book'', hfollows', hvalues, hall⟩
      have hu := ht.follows hfollows'
      have hcall := call_ensures hhonest hu.own hu.sound (hagrees.mono hfollows'.later)
        (hu.forest.symm ▸ hfunction) hvalues hall token
      refine hcall.mono ?_ ?_
      · rintro value w ⟨⟨bookAfter, hfollows'', hyields⟩, -⟩
        exact ⟨bookAfter, hfollows.trans (hfollows'.trans hfollows''), hyields⟩
      · rintro failure w ⟨⟨bookAfter, hfollows''⟩, hstops⟩
        exact ⟨⟨bookAfter, hfollows.trans (hfollows'.trans hfollows'')⟩, hstops⟩
  | @conditional scope type condition body token _ _ ihCondition ihBody =>
      intro s book hs
      rw [execute]
      refine (ihCondition s book hs).bind (fun _ _ h => h) ?_
      rintro test t ⟨book', hfollows, -⟩
      by_cases htest : isTrue test = true
      · rw [if_pos htest]
        refine (ihBody t book' (hs.follows hfollows)).bind ?_ ?_
        · rintro failure u ⟨⟨book'', hfollows'⟩, hstops⟩
          exact ⟨⟨book'', hfollows.trans hfollows'⟩, hstops⟩
        · rintro value u ⟨book'', hfollows', -⟩
          exact Act.ensures_pure ⟨book'', hfollows.trans hfollows', rfl⟩
      · rw [if_neg htest]
        exact Act.ensures_pure ⟨book', hfollows, rfl⟩
  | @debugPrint scope type operand token _ ih =>
      intro s book hs
      rw [execute]
      refine (ih s book hs).bind (fun _ _ h => h) ?_
      rintro value t ⟨book', hfollows, -⟩
      cases hshown : value.payload.render with
      | error error => exact ⟨⟨book', hfollows⟩, .unshown⟩
      | ok shown =>
          have hwrote := hfollows.sound.follows_event (.wrote (shown ++ "\n")) (by simp)
          exact ⟨book', hfollows.trans hwrote, rfl⟩

end Session

end Scriptlet
