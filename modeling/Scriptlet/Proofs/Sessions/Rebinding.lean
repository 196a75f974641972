import Scriptlet.Proofs.Sessions.Writes
/-!
# Executions that write

Which symbols an execution writes, with which values and in which order, is told by its
declarations and assignments.  Native functions may work on the session that calls them,
evaluate a source for instance; what they write by it is told by an account of theirs.
-/

namespace Scriptlet

variable {ν : Type}

/-- The account tells what the native functions of the host write, none of which gives another
payload to an identity that a value has. -/
def Host.Accounts (own : Value ν → Prop)
    (account : ν → List (Value ν) → Session ν → List (SymbolId × Value ν)) (host : Host ν) : Prop :=
  ∀ book s handle arguments, s.Keyed book → (∀ v, own v → book v) → (∀ v ∈ arguments, book v) →
    Session.Conveys (account handle arguments s) book (host.invoke handle arguments) s
      fun book reply => ∀ value, reply = .value value → book value

namespace Session

variable {host : Host ν} {own book : Value ν → Prop}
  {account : ν → List (Value ν) → Session ν → List (SymbolId × Value ν)}

/-! ## What is written -/

section Trace

variable (host : Host ν) (account : ν → List (Value ν) → Session ν → List (SymbolId × Value ν))

mutual

/-- What the execution of a tree writes, the latest first: a declaration or an assignment writes its
symbol once its value is there. -/
def writes : Annotated → Session ν → List (SymbolId × Value ν)
  | .block nodes scope _, s =>
    match (onScopes (Scoping.enter scope)).on s with
    | (.ok _, t) => writesAll nodes t
    | (.error _, _) => []
  | .declare symbol node _, s =>
    match ((execute host node).on s).1 with
    | .ok value => (symbol, value) :: writes node s
    | .error _ => writes node s
  | .assign symbol node _, s =>
    match ((execute host node).on s).1 with
    | .ok value => (symbol, value) :: writes node s
    | .error _ => writes node s
  | .call callee nodes _, s =>
    match (execute host callee).on s with
    | (.ok ⟨_, .native name handle _⟩, t) =>
      match (executeArguments host nodes).on t with
      | (.ok arguments, u) =>
        account handle arguments (u.atCall name handle arguments) ++
          (writesAll nodes t ++ writes callee s)
      | (.error _, _) => writesAll nodes t ++ writes callee s
    | _ => writes callee s
  | .conditional condition body _, s =>
    match (execute host condition).on s with
    | (.ok test, t) =>
      if isTrue test then writes body t ++ writes condition s else writes condition s
    | (.error _, _) => writes condition s
  | .debugPrint operand _, s => writes operand s
  | .literal .., _ | .reference .., _ | .foreign .., _ => []

def writesAll : List Annotated → Session ν → List (SymbolId × Value ν)
  | [], _ => []
  | node :: nodes, s =>
    match (execute host node).on s with
    | (.ok _, t) => writesAll nodes t ++ writes node s
    | (.error _, _) => writes node s

end

/-- What the execution of a statement writes after its analysis. -/
def statementWrites (watch : Watch) (tree : Tree) (s : Session ν) : List (SymbolId × Value ν) :=
  match (onScopes (Analysis.analyse tree)).on s with
  | (.ok analysed, t) =>
    match (observe watch tree analysed.node).on t with
    | (.ok _, u) => writes host account analysed.node u
    | (.error _, _) => []
  | (.error _, _) => []

def statementsWrites (watch : Watch) : List Tree → Session ν → List (SymbolId × Value ν)
  | [], _ => []
  | tree :: trees, s =>
    match (runStatement host watch tree).on s with
    | (.ok _, t) => statementsWrites watch trees t ++ statementWrites host account watch tree s
    | (.error _, _) => statementWrites host account watch tree s

def evaluationWrites (watch : Watch) (source : String) (s : Session ν) :
    List (SymbolId × Value ν) :=
  match parseProgram source s.settings.sourceName with
  | .error _ => []
  | .ok trees =>
    match (onScopes (Scoping.enter Forest.replId)).on
      (s.noted [.parsed trees.length] s.nextValue) with
    | (.ok _, t) => statementsWrites host account watch trees t
    | (.error _, _) => []

end Trace

/-! ## The nodes that write -/

/-- A node that is executed in the session writes: a declaration or an assignment whose value is
there, or a call of a native function. -/
inductive Writes (host : Host ν)
    (account : ν → List (Value ν) → Session ν → List (SymbolId × Value ν)) :
    Annotated → Session ν → SymbolId × Value ν → Prop where
  | declare {symbol : SymbolId} {node : Annotated} {token : Token} {s : Session ν}
      {value : Value ν} : ((execute host node).on s).1 = .ok value →
      Writes host account (.declare symbol node token) s (symbol, value)
  | assign {symbol : SymbolId} {node : Annotated} {token : Token} {s : Session ν}
      {value : Value ν} : ((execute host node).on s).1 = .ok value →
      Writes host account (.assign symbol node token) s (symbol, value)
  | call {node : Annotated} {handle : ν} {arguments : List (Value ν)} {s v : Session ν}
      {write : SymbolId × Value ν} : Calls host node s handle arguments v →
      write ∈ account handle arguments v → Writes host account node s write

theorem Writes.mem_writes {node : Annotated} {s : Session ν} {write : SymbolId × Value ν}
    (h : Writes host account node s write) : write ∈ writes host account node s := by
  cases h with
  | declare hvalue =>
      rw [writes, hvalue]
      exact List.mem_cons_self
  | assign hvalue =>
      rw [writes, hvalue]
      exact List.mem_cons_self
  | call hcalls hmem =>
      obtain ⟨hcallee, harguments⟩ := hcalls
      rw [writes, hcallee]
      simp only [harguments]
      exact List.mem_append_left _ hmem

mutual

theorem mem_writes_of_executes : (node : Annotated) → ∀ {s t : Session ν} {path : List Branch}
    {found : Annotated} {write : SymbolId × Value ν}, Executes host node s path found t →
    Writes host account found t write → write ∈ writes host account node s
  | .block nodes scope token, s, t, path, found, write, h, hwrites => by
      cases h with
      | here => exact hwrites.mem_writes
      | statement henter hall =>
          rw [writes, henter]
          exact mem_writesAll_of_executesAll nodes hall hwrites
  | .literal token kind, s, t, path, found, write, h, hwrites => by
      cases h with
      | here => exact hwrites.mem_writes
  | .reference symbol token, s, t, path, found, write, h, hwrites => by
      cases h with
      | here => exact hwrites.mem_writes
  | .declare symbol node token, s, t, path, found, write, h, hwrites => by
      cases h with
      | here => exact hwrites.mem_writes
      | initializer hinner =>
          have hmem := mem_writes_of_executes node hinner hwrites
          rw [writes]
          split
          · exact List.mem_cons_of_mem _ hmem
          · exact hmem
  | .assign symbol node token, s, t, path, found, write, h, hwrites => by
      cases h with
      | here => exact hwrites.mem_writes
      | value hinner =>
          have hmem := mem_writes_of_executes node hinner hwrites
          rw [writes]
          split
          · exact List.mem_cons_of_mem _ hmem
          · exact hmem
  | .call callee nodes token, s, t, path, found, write, h, hwrites => by
      cases h with
      | here => exact hwrites.mem_writes
      | callee hinner =>
          have hmem := mem_writes_of_executes callee hinner hwrites
          rw [writes]
          split
          · split
            · exact List.mem_append_right _ (List.mem_append_right _ hmem)
            · exact List.mem_append_right _ hmem
          · exact hmem
      | argument hcallee hall =>
          have hmem := mem_writesAll_of_executesAll nodes hall hwrites
          rw [writes, hcallee]
          dsimp only
          split
          · exact List.mem_append_right _ (List.mem_append_left _ hmem)
          · exact List.mem_append_left _ hmem
  | .conditional condition body token, s, t, path, found, write, h, hwrites => by
      cases h with
      | here => exact hwrites.mem_writes
      | condition hinner =>
          have hmem := mem_writes_of_executes condition hinner hwrites
          rw [writes]
          split
          · split
            · exact List.mem_append_right _ hmem
            · exact hmem
          · exact hmem
      | body hcondition htest hinner =>
          rw [writes, hcondition]
          simp only [if_pos htest]
          exact List.mem_append_left _ (mem_writes_of_executes body hinner hwrites)
  | .debugPrint operand token, s, t, path, found, write, h, hwrites => by
      cases h with
      | here => exact hwrites.mem_writes
      | operand hinner =>
          rw [writes]
          exact mem_writes_of_executes operand hinner hwrites
  | .foreign sort, s, t, path, found, write, h, hwrites => by
      cases h with
      | here => exact hwrites.mem_writes

theorem mem_writesAll_of_executesAll : (nodes : List Annotated) → ∀ {s t : Session ν} {index : Nat}
    {path : List Branch} {found : Annotated} {write : SymbolId × Value ν},
    ExecutesAll host nodes s index path found t → Writes host account found t write →
    write ∈ writesAll host account nodes s
  | node :: nodes, s, t, index, path, found, write, h, hwrites => by
      cases h with
      | here hinner =>
          have hmem := mem_writes_of_executes node hinner hwrites
          rw [writesAll]
          split
          · exact List.mem_append_right _ hmem
          · exact hmem
      | there hnode hall =>
          rw [writesAll, hnode]
          exact List.mem_append_left _ (mem_writesAll_of_executesAll nodes hall hwrites)

end

def WritesWithin (host : Host ν)
    (account : ν → List (Value ν) → Session ν → List (SymbolId × Value ν))
    (node : Annotated) (s : Session ν) (write : SymbolId × Value ν) : Prop :=
  ∃ path found t, Executes host node s path found t ∧ Writes host account found t write

def WritesAmong (host : Host ν)
    (account : ν → List (Value ν) → Session ν → List (SymbolId × Value ν))
    (nodes : List Annotated) (s : Session ν) (write : SymbolId × Value ν) : Prop :=
  ∃ index path found t, ExecutesAll host nodes s index path found t ∧
    Writes host account found t write

section Parts

variable {whole node : Annotated} {nodes : List Annotated} {s t : Session ν}
  {write : SymbolId × Value ν}

theorem WritesWithin.part {branch : Branch} (h : WritesWithin host account node t write)
    (hpart : ∀ {path found u}, Executes host node t path found u →
      Executes host whole s (branch :: path) found u) :
    WritesWithin host account whole s write := by
  obtain ⟨path, found, u, hexecutes, hwrites⟩ := h
  exact ⟨_, found, u, hpart hexecutes, hwrites⟩

theorem WritesAmong.part {branch : Nat → Branch} (h : WritesAmong host account nodes t write)
    (hpart : ∀ {index path found u}, ExecutesAll host nodes t index path found u →
      Executes host whole s (branch index :: path) found u) :
    WritesWithin host account whole s write := by
  obtain ⟨index, path, found, u, hexecutes, hwrites⟩ := h
  exact ⟨_, found, u, hpart hexecutes, hwrites⟩

theorem Writes.within (h : Writes host account node s write) :
    WritesWithin host account node s write :=
  ⟨[], node, s, .here, h⟩

end Parts

mutual

theorem writesWithin_of_mem_writes {write : SymbolId × Value ν} : (node : Annotated) →
    {s : Session ν} → write ∈ writes host account node s → WritesWithin host account node s write
  | .block nodes scope token, s, h => by
      rw [writes] at h
      split at h
      · next t henter => exact (writesAmong_of_mem_writesAll nodes h).part (.statement henter)
      · simp at h
  | .literal token kind, s, h => by simp [writes] at h
  | .reference symbol token, s, h => by simp [writes] at h
  | .declare symbol node token, s, h => by
      rw [writes] at h
      split at h
      · next value hvalue =>
        rcases List.mem_cons.1 h with rfl | hmem
        · exact (Writes.declare hvalue).within
        · exact (writesWithin_of_mem_writes node hmem).part .initializer
      · exact (writesWithin_of_mem_writes node h).part .initializer
  | .assign symbol node token, s, h => by
      rw [writes] at h
      split at h
      · next value hvalue =>
        rcases List.mem_cons.1 h with rfl | hmem
        · exact (Writes.assign hvalue).within
        · exact (writesWithin_of_mem_writes node hmem).part .value
      · exact (writesWithin_of_mem_writes node h).part .value
  | .call callee nodes token, s, h => by
      rw [writes] at h
      split at h
      · next id name handle result t hcallee =>
        split at h
        · next arguments u harguments =>
          rcases List.mem_append.1 h with hmem | hmem
          · exact (Writes.call (.call hcallee harguments) hmem).within
          · rcases List.mem_append.1 hmem with hmem | hmem
            · exact (writesAmong_of_mem_writesAll nodes hmem).part (.argument hcallee)
            · exact (writesWithin_of_mem_writes callee hmem).part .callee
        · rcases List.mem_append.1 h with hmem | hmem
          · exact (writesAmong_of_mem_writesAll nodes hmem).part (.argument hcallee)
          · exact (writesWithin_of_mem_writes callee hmem).part .callee
      · exact (writesWithin_of_mem_writes callee h).part .callee
  | .conditional condition body token, s, h => by
      rw [writes] at h
      split at h
      · next test t hcondition =>
        split at h
        · next htest =>
          rcases List.mem_append.1 h with hmem | hmem
          · exact (writesWithin_of_mem_writes body hmem).part (.body hcondition htest)
          · exact (writesWithin_of_mem_writes condition hmem).part .condition
        · exact (writesWithin_of_mem_writes condition h).part .condition
      · exact (writesWithin_of_mem_writes condition h).part .condition
  | .debugPrint operand token, s, h => by
      rw [writes] at h
      exact (writesWithin_of_mem_writes operand h).part .operand
  | .foreign sort, s, h => by simp [writes] at h

theorem writesAmong_of_mem_writesAll {write : SymbolId × Value ν} : (nodes : List Annotated) →
    {s : Session ν} → write ∈ writesAll host account nodes s →
    WritesAmong host account nodes s write
  | [], s, h => by simp [writesAll] at h
  | node :: nodes, s, h => by
      have hfirst : write ∈ writes host account node s →
          WritesAmong host account (node :: nodes) s write := by
        intro hmem
        obtain ⟨path, found, t, hexecutes, hwrites⟩ := writesWithin_of_mem_writes node hmem
        exact ⟨0, path, found, t, .here hexecutes, hwrites⟩
      rw [writesAll] at h
      split at h
      · next value t hnode =>
        rcases List.mem_append.1 h with hmem | hmem
        · obtain ⟨index, path, found, u, hall, hwrites⟩ :=
            writesAmong_of_mem_writesAll nodes hmem
          exact ⟨_, path, found, u, .there hnode hall, hwrites⟩
        · exact hfirst hmem
      · exact hfirst h

end

/-- What the execution of a tree writes is what the nodes write that it comes to. -/
theorem mem_writes_iff {node : Annotated} {s : Session ν} {write : SymbolId × Value ν} :
    write ∈ writes host account node s ↔ WritesWithin host account node s write :=
  ⟨writesWithin_of_mem_writes node,
    fun ⟨_, _, _, h, hwrites⟩ => mem_writes_of_executes node h hwrites⟩

/-! ## Execution -/

private theorem conveys_readVariable {s : Session ν} (hs : s.Keyed book) (id : SymbolId)
    (token : Token) :
    Conveys [] book (readVariable id token) s (fun book value => book value) := by
  unfold readVariable
  refine (hs.conveys_onScopes _).bind_nil fun found t book' _ ht _ _ => ?_
  cases found with
  | none => exact ht.conveys_throw _
  | some symbol =>
      unfold Conveys
      dsimp only
      rw [Act.on_bind_of_ok (Act.on_get t)]
      cases hvalue : (t.boundTo? symbol.id).bind t.values.get? with
      | none => exact ht.conveys_throw _
      | some value =>
          obtain ⟨key, -, hget⟩ := Option.bind_eq_some_iff.1 hvalue
          exact ht.conveys_pure (ht.stored value (ValueTable.mem_of_get? hget))

private theorem conveys_fresh {s : Session ν} (hs : s.Keyed book) (payload : Payload ν) :
    Conveys [] book (fresh payload) s (fun book value => book value) :=
  ⟨_, hs.updates_fresh payload, fun _ h => by cases h; exact .inr rfl⟩

private theorem conveys_bind {s : Session ν} (hs : s.Keyed book) (symbol : SymbolId)
    {value : Value ν} (hvalue : book value) :
    Conveys [(symbol, value)] book (bind symbol value) s (fun _ _ => True) :=
  ⟨book, hs.updates_bound symbol hvalue, fun _ _ => trivial⟩

private theorem conveys_store {s : Session ν} (hs : s.Keyed book) {value : Value ν}
    (hvalue : book value) :
    Conveys [] book (store value) s (fun _ _ => True) :=
  ⟨book, hs.updates_stored hvalue, fun _ _ => trivial⟩

theorem conveys_record {s : Session ν} (hs : s.Keyed book) {event : Event ν}
    (hcollection : event.isCollection = false)
    (hpassed : ∀ name handle arguments, Event.called name handle arguments = event →
      ∀ v ∈ arguments, book v) : Conveys [] book (record event) s (fun _ _ => True) :=
  ⟨book, hs.updates_event event hcollection hpassed, fun _ _ => trivial⟩

private theorem conveys_ofReply {s : Session ν} (hs : s.Keyed book) {reply : Reply ν}
    (hreply : ∀ value, reply = .value value → book value) :
    Conveys [] book (ofReply reply) s (fun book value => book value) := by
  cases reply with
  | value value => exact hs.conveys_pure (hreply value rfl)
  | function => exact hs.conveys_throw _
  | datum datum =>
      cases datum with
      | nothing => exact hs.conveys_pure hs.nothing
      | _ =>
          exact (hs.conveys_ofExcept _).bind_nil
            fun payload t book' _ ht _ _ => conveys_fresh ht payload

private theorem conveys_call_failing {s : Session ν} (hs : s.Keyed book) {callee : Value ν}
    (hcallee : ∀ name handle result, callee.payload ≠ .native name handle result)
    (arguments : List (Value ν)) (token : Token) :
    Conveys [] book (call host callee arguments token) s (fun book value => book value) := by
  unfold call
  cases hpayload : callee.payload with
  | native name handle result => exact absurd hpayload (hcallee name handle result)
  | nothing =>
      exact (hs.conveys_ofExcept _).bind_nil
        fun _ _ _ _ ht _ _ => ht.conveys_throw _
  | primitive value =>
      exact (hs.conveys_ofExcept _).bind_nil
        fun _ _ _ _ ht _ _ => ht.conveys_throw _

private theorem conveys_call (hhost : host.Accounts own account) {s : Session ν} (hs : s.Keyed book)
    (hown : ∀ v, own v → book v) {id : ValueId} {name : String} {handle : ν}
    {result : Option Primitive.Kind} {arguments : List (Value ν)}
    (harguments : ∀ v ∈ arguments, book v) (token : Token) :
    Conveys (account handle arguments (s.atCall name handle arguments)) book
      (call host ⟨id, .native name handle result⟩ arguments token) s
      (fun book value => book value) := by
  have hrecord : Conveys [] book (record (.called name handle arguments)) s (fun _ _ => True) := by
    refine conveys_record hs rfl ?_
    rintro _ _ _ ⟨⟩
    exact harguments
  unfold call
  refine hrecord.bind (fun _ _ h => by cases h) ?_
  rintro _ t book' hrun ht hbook -
  cases hrun
  refine ⟨_, (List.append_nil _).symm, ?_⟩
  obtain ⟨book'', hupdates, hreply⟩ := hhost book' _ handle arguments ht
    (fun v hv => hbook v (hown v hv)) (fun v hv => hbook v (harguments v hv))
  have hinvoke : Conveys (account handle arguments (s.atCall name handle arguments)) book'
      (Act.attempt (host.invoke handle arguments)) (s.atCall name handle arguments)
      (fun book outcome => ∀ value, outcome = .ok (.value value) → book value) := by
    refine ⟨book'', hupdates, ?_⟩
    rintro _ ⟨⟩ value hvalue
    exact hreply _ hvalue value rfl
  refine hinvoke.bind_nil fun outcome u book hrun hu _ houtcome => ?_
  cases outcome with
  | error failure =>
      cases failure with
      | fault diagnostic => exact hu.conveys_throw _
      | host error => exact hu.conveys_throw _
  | ok reply =>
      cases result with
      | none => exact hu.conveys_pure hu.nothing
      | some kind =>
          refine (conveys_ofReply hu fun value hvalue => houtcome value (by rw [hvalue])).bind_nil
            fun value w book _ hw _ hvalue => ?_
          by_cases hkind : value.payload.kind? = some kind
          · simp only [if_pos hkind]
            exact (conveys_store hw hvalue).bind_nil fun _ _ _ _ hx hbook _ =>
              hx.conveys_pure (hbook _ hvalue)
          · simp only [if_neg hkind]
            exact (hw.conveys_ofExcept _).bind_nil
              fun _ _ _ _ hx _ _ => hx.conveys_throw _

private theorem conveys_write {act : Act (Session ν) (Value ν)} {s : Session ν}
    {before : List (SymbolId × Value ν)}
    (hact : Conveys before book act s (fun book value => book value)) (symbol : SymbolId) :
    Conveys (match (act.on s).1 with
        | .ok value => (symbol, value) :: before
        | .error _ => before) book
      (do
        bind symbol (← act)
        return .nothing) s (fun book (value : Value ν) => book value) := by
  refine hact.bind ?_ fun value t book' hrun ht hbook hvalue => ?_
  · intro failure t hrun
    rw [hrun]
  · refine ⟨[(symbol, value)], by rw [hrun]; rfl, ?_⟩
    exact (conveys_bind ht symbol hvalue).bind_nil fun _ _ _ _ hu _ _ =>
      hu.conveys_pure hu.nothing

mutual

theorem conveys_execute (hhost : host.Accounts own account) : (node : Annotated) →
    ∀ {book : Value ν → Prop} {s : Session ν}, s.Keyed book → (∀ v, own v → book v) →
    Conveys (writes host account node s) book (execute host node) s (fun book value => book value)
  | .block nodes scope token, book, s, hs, hown => by
      rw [execute, writes]
      refine (hs.conveys_onScopes _).bind ?_ fun _ t book' hrun ht hbook _ => ?_
      · intro failure t hrun
        rw [hrun]
      refine ⟨_, by rw [hrun, List.append_nil], ?_⟩
      have hclosed := (conveys_executeAll hhost nodes ht fun v hv => hbook v (hown v hv)).closing
        (fun _ _ _ _ _ => trivial) fun u _ hu => hu.conveys_onScopes Scoping.leave
      exact hclosed.bind_nil fun _ _ _ _ hu _ _ => hu.conveys_pure hu.nothing
  | .literal token kind, book, s, hs, hown => by
      rw [execute, writes]
      exact (hs.conveys_ofExcept _).bind_nil
        fun _ _ _ _ ht _ _ => conveys_fresh ht _
  | .reference symbol token, book, s, hs, hown => by
      rw [execute, writes]
      exact conveys_readVariable hs symbol token
  | .declare symbol node token, book, s, hs, hown => by
      rw [execute, writes]
      exact conveys_write (conveys_execute hhost node hs hown) symbol
  | .assign symbol node token, book, s, hs, hown => by
      rw [execute, writes]
      exact conveys_write (conveys_execute hhost node hs hown) symbol
  | .call callee nodes token, book, s, hs, hown => by
      rw [execute]
      refine (conveys_execute hhost callee hs hown).bind ?_
        fun function t book' hrun ht hbook _ => ?_
      · intro failure t hrun
        rw [writes, hrun]
      obtain ⟨id, payload⟩ := function
      have hown' : ∀ v, own v → book' v := fun v hv => hbook v (hown v hv)
      cases payload with
      | nothing =>
          refine ⟨[], by rw [writes, hrun]; rfl, ?_⟩
          exact conveys_call_failing ht (by simp) [] token
      | primitive primitive =>
          refine ⟨[], by rw [writes, hrun]; rfl, ?_⟩
          exact conveys_call_failing ht (by simp) [] token
      | native name handle result =>
          have harguments := conveys_executeArguments hhost nodes ht hown'
          rcases hvalues : (executeArguments host nodes).on t with ⟨outcome, u⟩
          cases outcome with
          | error failure =>
              refine ⟨writesAll host account nodes t, by rw [writes, hrun]; simp only [hvalues], ?_⟩
              refine harguments.bind_nil fun values w book hrun' _ _ _ => ?_
              rw [hvalues] at hrun'
              cases hrun'
          | ok arguments =>
              refine ⟨account handle arguments (u.atCall name handle arguments) ++
                writesAll host account nodes t, by rw [writes, hrun]; simp [hvalues], ?_⟩
              refine harguments.bind ?_ fun values w book hrun' hw hbook' hvalues' => ?_
              · intro failure w hrun'
                rw [hvalues] at hrun'
                cases hrun'
              · rw [hvalues] at hrun'
                cases hrun'
                exact ⟨_, rfl, conveys_call hhost hw (fun v hv => hbook' v (hown' v hv)) hvalues'
                  token⟩
  | .conditional condition body token, book, s, hs, hown => by
      rw [execute]
      refine (conveys_execute hhost condition hs hown).bind ?_
        fun test t book' hrun ht hbook _ => ?_
      · intro failure t hrun
        rw [writes, hrun]
      have hown' : ∀ v, own v → book' v := fun v hv => hbook v (hown v hv)
      by_cases htest : isTrue test = true
      · refine ⟨writes host account body t, by rw [writes, hrun]; simp only [if_pos htest], ?_⟩
        simp only [if_pos htest]
        exact (conveys_execute hhost body ht hown').bind_nil fun _ _ _ _ hu _ _ =>
          hu.conveys_pure hu.nothing
      · refine ⟨[], by rw [writes, hrun]; simp only [if_neg htest]; rfl, ?_⟩
        simp only [if_neg htest]
        exact ht.conveys_pure ht.nothing
  | .debugPrint operand token, book, s, hs, hown => by
      rw [execute, writes]
      refine (conveys_execute hhost operand hs hown).bind_nil fun value t book' _ ht _ _ => ?_
      refine (ht.conveys_ofExcept _).bind_nil
        fun text u book _ hu _ _ => ?_
      exact (conveys_record hu rfl (by simp)).bind_nil fun _ _ _ _ hw _ _ =>
        hw.conveys_pure hw.nothing
  | .foreign sort, book, s, hs, hown => by
      rw [execute, writes]
      exact hs.conveys_throw _

private theorem conveys_executeAll (hhost : host.Accounts own account) : (nodes : List Annotated) →
    ∀ {book : Value ν → Prop} {s : Session ν}, s.Keyed book → (∀ v, own v → book v) →
    Conveys (writesAll host account nodes s) book (executeAll host nodes) s (fun _ _ => True)
  | [], book, s, hs, hown => by
      rw [executeAll, writesAll]
      exact hs.conveys_pure trivial
  | node :: nodes, book, s, hs, hown => by
      rw [executeAll, writesAll]
      refine (conveys_execute hhost node hs hown).bind ?_ fun value t book' hrun ht hbook _ => ?_
      · intro failure t hrun
        rw [hrun]
      · refine ⟨writesAll host account nodes t, by rw [hrun], ?_⟩
        exact conveys_executeAll hhost nodes ht fun v hv => hbook v (hown v hv)

private theorem conveys_executeArguments (hhost : host.Accounts own account) :
    (nodes : List Annotated) →
    ∀ {book : Value ν → Prop} {s : Session ν}, s.Keyed book → (∀ v, own v → book v) →
    Conveys (writesAll host account nodes s) book (executeArguments host nodes) s
      (fun book values => ∀ v ∈ values, book v)
  | [], book, s, hs, hown => by
      rw [executeArguments, writesAll]
      exact hs.conveys_pure (by simp)
  | node :: nodes, book, s, hs, hown => by
      rw [executeArguments, writesAll]
      refine (conveys_execute hhost node hs hown).bind ?_
        fun value t book' hrun ht hbook hvalue => ?_
      · intro failure t hrun
        rw [hrun]
      · refine ⟨writesAll host account nodes t, by rw [hrun], ?_⟩
        refine (conveys_executeArguments hhost nodes ht fun v hv => hbook v (hown v hv)).bind_nil
          fun values u book _ hu hbook' hvalues => ?_
        exact hu.conveys_pure (List.forall_mem_cons.2 ⟨hbook' _ hvalue, hvalues⟩)

end

/-! ## Evaluation -/

private theorem conveys_writeLine {s : Session ν} (hs : s.Keyed book) (text : String) :
    Conveys [] book (writeLine text) s (fun _ _ => True) :=
  conveys_record hs rfl (by simp)

private theorem conveys_labelling {α : Type} {s : Session ν} (hs : s.Keyed book)
    (work : Annotated.Labelling α) :
    Conveys [] book (labelling work) s (fun _ _ => True) :=
  ⟨book, hs.updates_apart [] rfl rfl (Nat.le_refl _) rfl (by simp) (by simp),
    fun _ _ => trivial⟩

/-- The dumps before a statement write nothing. -/
theorem conveys_observe {s : Session ν} (hs : s.Keyed book) (watch : Watch) (tree : Tree)
    (node : Annotated) : Conveys [] book (observe watch tree node) s (fun _ _ => True) := by
  have hsecond : ∀ {t : Session ν} {book : Value ν → Prop}, t.Keyed book → Conveys [] book
      (if watch.annotatedTree = true then labelling (node.dump .standard) >>= writeLine
        else pure () : Act (Session ν) Unit) t (fun _ _ => True) := by
    intro t book ht
    split
    · exact (conveys_labelling ht _).bind_nil fun text _ _ _ hu _ _ => conveys_writeLine hu text
    · exact ht.conveys_pure trivial
  unfold observe
  dsimp only
  split
  · exact (hs.conveys_ofExcept _).bind_nil
      fun text _ _ _ ht _ _ => (conveys_writeLine ht text).bind_nil fun _ _ _ _ hu _ _ => hsecond hu
  · exact hsecond hs

private theorem conveys_runStatement (hhost : host.Accounts own account) {s : Session ν}
    (hs : s.Keyed book) (hown : ∀ v, own v → book v) (watch : Watch) (tree : Tree) :
    Conveys (statementWrites host account watch tree s) book (runStatement host watch tree) s
      (fun book value => book value) := by
  unfold runStatement
  refine (hs.conveys_onScopes _).bind ?_ fun analysed t book' hrun ht hbook _ => ?_
  · intro failure t hrun
    rw [statementWrites, hrun]
  refine ⟨_, (List.append_nil _).symm, ?_⟩
  refine (conveys_observe ht watch tree analysed.node).bind ?_
    fun _ u book'' hrun' hu hbook' _ => ?_
  · intro failure u hrun'
    rw [statementWrites, hrun]
    simp only [hrun']
  · refine ⟨writes host account analysed.node u, ?_, ?_⟩
    · rw [statementWrites, hrun, List.append_nil]
      simp only [hrun']
    · exact conveys_execute hhost analysed.node hu fun v hv => hbook' v (hbook v (hown v hv))

private theorem conveys_runStatements (hhost : host.Accounts own account) (watch : Watch)
    (trees : List Tree) {s : Session ν} {last : Value ν} (hs : s.Keyed book)
    (hown : ∀ v, own v → book v) (hlast : book last) :
    Conveys (statementsWrites host account watch trees s) book
      (runStatements host watch last trees) s (fun book value => book value) := by
  induction trees generalizing book s last with
  | nil =>
      rw [runStatements, statementsWrites]
      exact hs.conveys_pure hlast
  | cons tree trees ih =>
      rw [runStatements_cons, statementsWrites]
      refine (conveys_runStatement hhost hs hown watch tree).bind ?_
        fun value t book' hrun ht hbook hvalue => ?_
      · intro failure t hrun
        rw [hrun]
      · refine ⟨statementsWrites host account watch trees t, by rw [hrun], ?_⟩
        exact ih ht (fun v hv => hbook v (hown v hv)) hvalue

private theorem conveys_conclude {s : Session ν} (hs : s.Keyed book) (count : Nat) {value : Value ν}
    (hvalue : book value) :
    Conveys [] book (conclude count value) s (fun book value => book value) := by
  have hcounted : Updates [] book book s (s.counted count) :=
    hs.updates_apart [.evaluated count s.bindings.length s.values.size] rfl rfl
      (Nat.le_refl _) rfl (by simp [Event.isCollection]) (by simp)
  unfold Conveys
  rw [on_conclude]
  rcases on_collectIfDue (s.counted count) with hon | hon
  · rw [Act.on_bind_of_ok hon]
    exact ⟨book, hcounted, fun _ h => by cases h; exact hvalue⟩
  · rw [Act.on_bind_of_ok hon]
    exact ⟨book, hcounted.trans hcounted.keyed.updates_collected,
      fun _ h => by cases h; exact hvalue⟩

/-- Evaluating a source writes what the execution of its statements writes, as far as it comes. -/
theorem conveys_evaluate (hhost : host.Accounts own account) {s : Session ν} (hs : s.Keyed book)
    (hown : ∀ v, own v → book v) (watch : Watch) (source : String) :
    Conveys (evaluationWrites host account watch source s) book (evaluate host watch source) s
      (fun book value => book value) := by
  cases hparse : parseProgram source s.settings.sourceName with
  | error diagnostic =>
      unfold Conveys evaluationWrites
      rw [hparse, on_evaluate_refused hparse]
      exact ⟨book, hs.updates_refl, fun _ h => by cases h⟩
  | ok trees =>
      have hread : Updates [] book book s (s.noted [.parsed trees.length] s.nextValue) :=
        hs.updates_event (.parsed trees.length) rfl (by simp)
      have hrest : Conveys (evaluationWrites host account watch source s) book (do
          onScopes (Scoping.enter Forest.replId)
          let value ← Act.closing (onScopes Scoping.leave)
            (runStatements host watch .nothing trees)
          conclude trees.length value) (s.noted [.parsed trees.length] s.nextValue)
          (fun book value => book value) := by
        refine (hread.keyed.conveys_onScopes _).bind ?_ fun _ t book' hrun ht hbook _ => ?_
        · intro failure t hrun
          simp only [evaluationWrites, hparse, hrun]
        · refine ⟨statementsWrites host account watch trees t, ?_, ?_⟩
          · simp only [evaluationWrites, hparse, hrun, List.append_nil]
          · have hstatements := conveys_runStatements hhost watch trees ht
              (fun v hv => hbook v (hown v hv)) ht.nothing
            have hclosed := hstatements.closing (fun _ _ _ h => h _)
              fun u _ hu => hu.conveys_onScopes Scoping.leave
            exact hclosed.bind_nil fun value u book _ hu _ hvalue =>
              conveys_conclude hu trees.length hvalue
      obtain ⟨book', hupdates, hvalue⟩ := hrest
      have htotal := hread.trans hupdates
      rw [List.append_nil] at htotal
      unfold Conveys
      rw [on_evaluate_read hparse]
      exact ⟨book', htotal, hvalue⟩

end Session

end Scriptlet
