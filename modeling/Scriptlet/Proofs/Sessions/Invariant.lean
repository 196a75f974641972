import Scriptlet.Proofs.Scopes.Cursor
import Scriptlet.Proofs.Sessions.Store
/-!
# Sound sessions

The invariant that ties scopes, bindings, stored values and the calls of native
functions together.  It is kept relative to a book of all values that were ever
handed out, in which an identity stands for one value.  Every change that a
session makes to its state is one of a few: each keeps the invariant and what
was known about registered functions.
-/

namespace Scriptlet.Session

variable {ν : Type}

/-- The native function is registered: the global symbol of its name has the
given function type and is bound to it. -/
def Registered (s : Session ν) (name : String) (handle : ν) (result : Option Primitive.Kind)
    (type : SymbolId) : Prop :=
  ∃ symbol ∈ s.scoping.forest.global.symbols, symbol.name = name ∧
    symbol.variant = .native type ∧
    ∃ value, s.valueOf? symbol.id = some value ∧ value.payload = .native name handle result

/-- The payload is of the given type: a primitive value of its sort, or a native
function of its signature. -/
inductive Agrees (s : Session ν) : Payload ν → SymbolId → Prop where
  | primitive (value : Primitive) : Agrees s (.primitive value) value.kind.typeId
  | native {name : String} {handle : ν} {result : Option Primitive.Kind} {type : SymbolId}
      {parameters : List SymbolId} :
      s.Registered name handle result type →
      s.scoping.forest.IsFunction type parameters (result.map Primitive.Kind.typeId) →
      Agrees s (.native name handle result) type

/-- The arguments are those that the signature of the function demands. -/
def Admits (s : Session ν) (name : String) (handle : ν) (arguments : List (Value ν)) : Prop :=
  ∃ result type parameters, s.Registered name handle result type ∧
    s.scoping.forest.IsFunction type parameters (result.map Primitive.Kind.typeId) ∧
    List.Forall₂ (fun value parameter => s.Agrees value.payload parameter) arguments parameters

def Declares (s : Session ν) (symbol : Symbol) : Prop :=
  ∃ scope ∈ s.scoping.forest.scopes, symbol ∈ scope.symbols

/-- The state of a session, given the book of all values that exist. -/
structure Sound (book : Value ν → Prop) (s : Session ν) : Prop where
  forest : s.scoping.forest.Sound
  distinct : ∀ v w, book v → book w → v.id = w.id → v = w
  minted : ∀ v, book v → v.id.number < s.nextValue
  stored : ∀ v ∈ s.values.values, book v
  bound : ∀ id value, s.boundTo? id = some value → ∃ symbol type stored, s.Declares symbol ∧
    symbol.id = id ∧ symbol.variant.type? = some type ∧ s.values.get? value = some stored ∧
    s.Agrees stored.payload type
  called : ∀ name handle arguments, Event.called name handle arguments ∈ s.journal →
    (∀ v ∈ arguments, book v) ∧ s.Admits name handle arguments

/-- What stays when a session goes on: scopes only grow, registered functions
stay registered, bound symbols stay bound and no event is forgotten. -/
structure Later (s t : Session ν) : Prop where
  grown : s.scoping.forest.Extends t.scoping.forest
  natives : ∀ name handle result type, s.Registered name handle result type →
    t.Registered name handle result type
  bound : ∀ id, (s.valueOf? id).isSome → (t.valueOf? id).isSome
  journal : s.journal ⊆ t.journal

variable {s t u : Session ν} {book : Value ν → Prop}

theorem Later.refl (s : Session ν) : s.Later s :=
  ⟨Forest.Extends.refl _, fun _ _ _ _ h => h, fun _ h => h, fun _ h => h⟩

theorem Later.trans (h : s.Later t) (h' : t.Later u) : s.Later u :=
  ⟨h.grown.trans h'.grown, fun _ _ _ _ hr => h'.natives _ _ _ _ (h.natives _ _ _ _ hr),
    fun id hid => h'.bound id (h.bound id hid), fun _ hmem => h'.journal (h.journal hmem)⟩

theorem Agrees.mono (hlater : s.Later t) {payload : Payload ν} {type : SymbolId}
    (h : s.Agrees payload type) : t.Agrees payload type := by
  cases h with
  | primitive value => exact .primitive value
  | native hregistered hfunction =>
      exact .native (hlater.natives _ _ _ _ hregistered) (hfunction.mono hlater.grown)

theorem Admits.mono (hlater : s.Later t) {name : String} {handle : ν}
    {arguments : List (Value ν)} (h : s.Admits name handle arguments) :
    t.Admits name handle arguments := by
  obtain ⟨result, type, parameters, hregistered, hfunction, harguments⟩ := h
  exact ⟨result, type, parameters, hlater.natives _ _ _ _ hregistered,
    hfunction.mono hlater.grown, harguments.imp fun _ _ h => h.mono hlater⟩

theorem Declares.mono (hn : Forest.Numbered s.scoping.forest.scopes) (hlater : s.Later t)
    {symbol : Symbol} (h : s.Declares symbol) : t.Declares symbol := by
  obtain ⟨scope, hscope, hsymbol⟩ := h
  obtain ⟨scope', hget', -, hsymbols⟩ := hlater.grown _ scope (Forest.get?_of_mem hn hscope)
  exact ⟨scope', Forest.mem_of_get? hget', hsymbols.subset hsymbol⟩

/-- A change that touches neither the forest nor what symbols are bound to keeps
the registered functions. -/
theorem Later.of_valueOf? (hforest : s.scoping.forest.Extends t.scoping.forest)
    (hvalues : ∀ id value, s.valueOf? id = some value → t.valueOf? id = some value)
    (hjournal : s.journal ⊆ t.journal) : s.Later t := by
  refine ⟨hforest, ?_, ?_, hjournal⟩
  · rintro name handle result type ⟨symbol, hmem, hname, hvariant, value, hvalue, hpayload⟩
    exact ⟨symbol, hforest.global_subset hmem, hname, hvariant, value, hvalues _ _ hvalue, hpayload⟩
  · intro id hid
    obtain ⟨value, hvalue⟩ := Option.isSome_iff_exists.1 hid
    rw [hvalues id value hvalue]
    rfl

/-! ## Growing scopes, new events -/

/-- A change that touches no stored value and no binding, and under which only
admissible calls are new, keeps a session sound. -/
theorem Sound.of_frame (hs : s.Sound book) (hlater : s.Later t) (hforest : t.scoping.forest.Sound)
    (hvalues : t.values = s.values) (hbindings : t.bindings = s.bindings)
    (hnext : s.nextValue ≤ t.nextValue)
    (hcalled : ∀ name handle arguments, Event.called name handle arguments ∈ t.journal →
      Event.called name handle arguments ∈ s.journal ∨
        (∀ v ∈ arguments, book v) ∧ s.Admits name handle arguments) : t.Sound book := by
  refine ⟨hforest, hs.distinct, fun v hv => Nat.lt_of_lt_of_le (hs.minted v hv) hnext,
    hvalues ▸ hs.stored, ?_, ?_⟩
  · intro id value hbound
    rw [boundTo?, hbindings] at hbound
    obtain ⟨symbol, type, stored, hdeclares, hid, htype, hget, hagrees⟩ := hs.bound id value hbound
    exact ⟨symbol, type, stored, hdeclares.mono hs.forest.numbered hlater, hid, htype,
      hvalues ▸ hget, hagrees.mono hlater⟩
  · intro name handle arguments hmem
    have hadmits : (∀ v ∈ arguments, book v) ∧ s.Admits name handle arguments := by
      rcases hcalled name handle arguments hmem with hold | hnew
      · exact hs.called name handle arguments hold
      · exact hnew
    exact ⟨hadmits.1, hadmits.2.mono hlater⟩

theorem later_rescoped {scoping : Scoping}
    (hforest : s.scoping.forest.Extends scoping.forest) : s.Later (s.rescoped scoping) :=
  .of_valueOf? hforest (fun _ _ h => h) (fun _ h => List.mem_append_right _ h)

theorem Sound.rescoped (hs : s.Sound book) {scoping : Scoping} (hsound : scoping.forest.Sound)
    (hforest : s.scoping.forest.Extends scoping.forest) : (s.rescoped scoping).Sound book := by
  refine hs.of_frame (later_rescoped hforest) hsound rfl rfl (Nat.le_refl _) ?_
  intro name handle arguments hmem
  rcases List.mem_append.1 hmem with hmem | hmem
  · simp at hmem
  · exact .inl hmem

def noted (s : Session ν) (events : List (Event ν)) (next : Nat) : Session ν :=
  { s with journal := events ++ s.journal, nextValue := next }

theorem later_noted (events : List (Event ν)) (next : Nat) : s.Later (s.noted events next) :=
  .of_valueOf? (Forest.Extends.refl _) (fun _ _ h => h) (fun _ h => List.mem_append_right _ h)

theorem Sound.noted (hs : s.Sound book) {events : List (Event ν)} {next : Nat}
    (hnext : s.nextValue ≤ next)
    (hevents : ∀ name handle arguments, Event.called name handle arguments ∈ events →
      (∀ v ∈ arguments, book v) ∧ s.Admits name handle arguments) :
    (s.noted events next).Sound book := by
  refine hs.of_frame (later_noted events next) hs.forest rfl rfl hnext ?_
  intro name handle arguments hmem
  rcases List.mem_append.1 hmem with hmem | hmem
  · exact .inr (hevents name handle arguments hmem)
  · exact .inl hmem

/-! ## New values -/

def entered (book : Value ν → Prop) (value : Value ν) : Value ν → Prop :=
  fun v => book v ∨ v = value

theorem Sound.entered (hs : s.Sound book) {value : Value ν} (hnew : ∀ v, book v → v.id ≠ value.id)
    (hminted : value.id.number < s.nextValue) : s.Sound (entered book value) := by
  refine ⟨hs.forest, ?_, ?_, fun v hv => .inl (hs.stored v hv), hs.bound, ?_⟩
  · rintro v w (hv | rfl) (hw | rfl) hid
    · exact hs.distinct v w hv hw hid
    · exact absurd hid (hnew v hv)
    · exact absurd hid.symm (hnew w hw)
    · rfl
  · rintro v (hv | rfl)
    · exact hs.minted v hv
    · exact hminted
  · intro name handle arguments hmem
    have hcalled := hs.called name handle arguments hmem
    exact ⟨fun v hv => .inl (hcalled.1 v hv), hcalled.2⟩

theorem Sound.entered_fresh (hs : s.Sound book) {value : Value ν} {next : Nat}
    (hlow : s.nextValue ≤ value.id.number) (hhigh : value.id.number < next) :
    (s.noted [] next).Sound (Session.entered book value) := by
  have hnoted : (s.noted [] next).Sound book := hs.noted (by omega) (by simp)
  refine hnoted.entered ?_ hhigh
  intro v hv heq
  have hlt := hs.minted v hv
  rw [heq] at hlt
  omega

/-! ## Storing, binding, collecting -/

theorem valueOf?_eq_some {id : SymbolId} {value : Value ν} :
    s.valueOf? id = some value ↔
      ∃ key, s.boundTo? id = some key ∧ s.values.get? key = some value := by
  rw [valueOf?, Option.bind_eq_some_iff]

def storing (s : Session ν) (value : Value ν) : Session ν :=
  { s with values := s.values.insert value }

theorem Sound.get?_storing (hs : s.Sound book) {value old : Value ν} (hvalue : book value)
    {key : ValueId} (h : s.values.get? key = some old) :
    (s.values.insert value).get? key = some old :=
  ValueTable.get?_insert h
    (hs.distinct old value (hs.stored old (ValueTable.mem_of_get? h)) hvalue)

/-- What a bound symbol is bound to is stored, so that the table has the same
value for it after one more value is stored. -/
theorem Sound.bind_get?_insert (hs : s.Sound book) {value : Value ν} (hvalue : book value)
    (id : SymbolId) :
    (s.boundTo? id).bind (s.values.insert value).get? = s.valueOf? id := by
  rw [valueOf?]
  cases hkey : s.boundTo? id with
  | none => rfl
  | some key =>
      obtain ⟨symbol, type, stored, -, -, -, hget, -⟩ := hs.bound id key hkey
      rw [Option.bind_some, Option.bind_some, hs.get?_storing hvalue hget, hget]

theorem Sound.valueOf?_storing (hs : s.Sound book) {value : Value ν} (hvalue : book value)
    (id : SymbolId) : (s.storing value).valueOf? id = s.valueOf? id :=
  hs.bind_get?_insert hvalue id

theorem Sound.later_storing (hs : s.Sound book) {value : Value ν} (hvalue : book value) :
    s.Later (s.storing value) :=
  .of_valueOf? (Forest.Extends.refl _) (fun id _ h => (hs.valueOf?_storing hvalue id).trans h)
    (fun _ h => h)

theorem Sound.storing (hs : s.Sound book) {value : Value ν} (hvalue : book value) :
    (s.storing value).Sound book := by
  have hlater := hs.later_storing hvalue
  refine ⟨hs.forest, hs.distinct, hs.minted, ?_, ?_, ?_⟩
  · intro v hv
    rcases ValueTable.mem_insert hv with rfl | hv
    · exact hvalue
    · exact hs.stored v hv
  · intro id key hbound
    obtain ⟨symbol, type, stored, hdeclares, hid, htype, hget, hagrees⟩ := hs.bound id key hbound
    exact ⟨symbol, type, stored, hdeclares, hid, htype, hs.get?_storing hvalue hget,
      hagrees.mono hlater⟩
  · intro name handle arguments hmem
    have hcalled := hs.called name handle arguments hmem
    exact ⟨hcalled.1, hcalled.2.mono hlater⟩

theorem boundTo?_bound_self (s : Session ν) (id : SymbolId) (value : Value ν) :
    (s.bound id value).boundTo? id = some value.id :=
  lookup_rebind_self _ _ _

theorem boundTo?_bound_of_ne (s : Session ν) {id other : SymbolId} (h : other ≠ id)
    (value : Value ν) : (s.bound id value).boundTo? other = s.boundTo? other :=
  lookup_rebind_of_ne _ h _

theorem valueOf?_bound_self (s : Session ν) (id : SymbolId) (value : Value ν) :
    (s.bound id value).valueOf? id = some value :=
  valueOf?_eq_some.2
    ⟨value.id, boundTo?_bound_self s id value, ValueTable.get?_insert_self _ _⟩

theorem Sound.valueOf?_bound_of_ne (hs : s.Sound book) {id other : SymbolId} (h : other ≠ id)
    {value : Value ν} (hvalue : book value) :
    (s.bound id value).valueOf? other = s.valueOf? other := by
  rw [valueOf?, boundTo?_bound_of_ne s h]
  exact hs.bind_get?_insert hvalue other

/-- Binding a symbol keeps the registered functions, unless the symbol is one of
them. -/
theorem Sound.later_bound (hs : s.Sound book) {id : SymbolId} {value : Value ν}
    (hvalue : book value)
    (hnative : ∀ symbol ∈ s.scoping.forest.global.symbols, ∀ type,
      symbol.variant = .native type → symbol.id = id → s.valueOf? id = none) :
    s.Later (s.bound id value) := by
  refine ⟨Forest.Extends.refl _, ?_, ?_, fun _ h => List.mem_cons_of_mem _ h⟩
  · rintro name handle result type ⟨symbol, hmem, hname, hvariant, old, hold, hpayload⟩
    refine ⟨symbol, hmem, hname, hvariant, old, ?_, hpayload⟩
    by_cases hid : symbol.id = id
    · rw [hid, hnative symbol hmem type hvariant hid] at hold
      simp at hold
    · rw [hs.valueOf?_bound_of_ne hid hvalue, hold]
  · intro other hother
    by_cases hid : other = id
    · rw [hid, valueOf?_bound_self]
      rfl
    · rw [hs.valueOf?_bound_of_ne hid hvalue]
      exact hother

theorem Sound.bind (hs : s.Sound book) {symbol : Symbol} {type : SymbolId} {value : Value ν}
    (hdeclares : s.Declares symbol) (htype : symbol.variant.type? = some type)
    (hvalue : book value) (hlater : s.Later (s.bound symbol.id value))
    (hagrees : (s.bound symbol.id value).Agrees value.payload type) :
    (s.bound symbol.id value).Sound book := by
  refine ⟨hs.forest, hs.distinct, hs.minted, ?_, ?_, ?_⟩
  · intro v hv
    rcases ValueTable.mem_insert hv with rfl | hv
    · exact hvalue
    · exact hs.stored v hv
  · intro id key hkey
    by_cases hid : id = symbol.id
    · subst hid
      rw [boundTo?_bound_self, Option.some.injEq] at hkey
      subst hkey
      exact ⟨symbol, type, value, hdeclares, rfl, htype, ValueTable.get?_insert_self _ _, hagrees⟩
    · rw [boundTo?_bound_of_ne s hid] at hkey
      obtain ⟨other, otherType, stored, hother, hotherId, hotherType, hget, hstored⟩ :=
        hs.bound id key hkey
      exact ⟨other, otherType, stored, hother, hotherId, hotherType, hs.get?_storing hvalue hget,
        hstored.mono hlater⟩
  · intro name handle arguments hmem
    rcases List.mem_cons.1 hmem with hmem | hmem
    · simp at hmem
    · have hcalled := hs.called name handle arguments hmem
      exact ⟨hcalled.1, hcalled.2.mono hlater⟩

theorem Sound.global_ne_var (hs : s.Sound book) {symbol other : Symbol} {type : SymbolId}
    (hdeclares : s.Declares symbol) (hvariant : symbol.variant = .var type)
    (hother : other ∈ s.scoping.forest.global.symbols) : other.id ≠ symbol.id := by
  intro hid
  obtain ⟨scope, hscope, hsymbol⟩ := hdeclares
  obtain ⟨rfl, -⟩ := hs.forest.identified _ hs.forest.lawful.global_mem scope hscope other hother
    symbol hsymbol hid
  have hfits := hs.forest.global_fits hother
  cases hfits with
  | var hne => exact hne rfl
  | _ => simp [Primitive.Kind.typeSymbol] at hvariant

theorem Sound.later_bound_var (hs : s.Sound book) {symbol : Symbol} {type : SymbolId}
    {value : Value ν} (hdeclares : s.Declares symbol) (hvariant : symbol.variant = .var type)
    (hvalue : book value) : s.Later (s.bound symbol.id value) := by
  apply hs.later_bound hvalue
  intro other hother _ _ hid
  exact absurd hid (hs.global_ne_var hdeclares hvariant hother)

theorem Sound.bind_var (hs : s.Sound book) {symbol : Symbol} {type : SymbolId} {value : Value ν}
    (hdeclares : s.Declares symbol) (hvariant : symbol.variant = .var type) (hvalue : book value)
    (hagrees : s.Agrees value.payload type) : (s.bound symbol.id value).Sound book := by
  have hlater := hs.later_bound_var hdeclares hvariant hvalue
  exact hs.bind hdeclares (by rw [hvariant]; rfl) hvalue hlater (hagrees.mono hlater)

def collected (s : Session ν) : Session ν :=
  let live := s.bindings.map Prod.snd
  { s with
    values := s.values.collect live
    journal := .collected (s.values.garbage live) (s.values.collect live).size :: s.journal }

theorem on_collect (s : Session ν) :
    collect.on s = (.ok (s.values.garbage (s.bindings.map Prod.snd)), s.collected) := rfl

theorem get?_collected {id : SymbolId} {key : ValueId} (h : s.boundTo? id = some key) :
    s.collected.values.get? key = s.values.get? key :=
  ValueTable.get?_collect (List.mem_map.2 ⟨(id, key), mem_of_lookup h, rfl⟩)

theorem valueOf?_collected (id : SymbolId) : s.collected.valueOf? id = s.valueOf? id := by
  cases h : s.boundTo? id with
  | none =>
      have h' : s.collected.boundTo? id = none := h
      rw [valueOf?, valueOf?, h, h']
      rfl
  | some key =>
      have h' : s.collected.boundTo? id = some key := h
      rw [valueOf?, valueOf?, h, h', Option.bind_some, Option.bind_some, get?_collected h]

theorem later_collected : s.Later s.collected :=
  .of_valueOf? (Forest.Extends.refl _) (fun id _ h => (valueOf?_collected id).trans h)
    (fun _ h => List.mem_cons_of_mem _ h)

theorem Sound.collected (hs : s.Sound book) : s.collected.Sound book := by
  have hlater : s.Later s.collected := later_collected
  refine ⟨hs.forest, hs.distinct, hs.minted, fun v hv => hs.stored v (ValueTable.mem_collect hv),
    ?_, ?_⟩
  · intro id key hkey
    have hkey : s.boundTo? id = some key := hkey
    obtain ⟨symbol, type, stored, hdeclares, hid, htype, hget, hagrees⟩ := hs.bound id key hkey
    exact ⟨symbol, type, stored, hdeclares, hid, htype, (get?_collected hkey).trans hget,
      hagrees.mono hlater⟩
  · intro name handle arguments hmem
    rcases List.mem_cons.1 hmem with hmem | hmem
    · simp at hmem
    · have hcalled := hs.called name handle arguments hmem
      exact ⟨hcalled.1, hcalled.2.mono hlater⟩

end Scriptlet.Session
