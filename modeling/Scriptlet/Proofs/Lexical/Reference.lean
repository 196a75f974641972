import Scriptlet.Proofs.Sessions.Evaluation
/-!
# Lexical scoping by name

A reference evaluator that works on syntax trees.  It knows no symbols and no
scopes: a stack of frames takes names to values, a block works on a frame of its
own, a declaration adds to the top frame, and a name stands for the value in the
innermost frame that holds it.  Native functions respond to their arguments and
to what could be observed before; they do not work on the evaluator's state.
-/

namespace Scriptlet

structure Response (ν : Type) where
  /-- The texts that were written, the latest first. -/
  texts : List String
  /-- How many identities of values were taken. -/
  taken : Nat
  outcome : Except Failure (Reply ν)

/-- Native functions that do not work on the session that calls them.  They may
remember what happened before: the calls with their arguments, and the output. -/
structure Natives (ν : Type) where
  respond : ν → List (Value ν) → List (Event ν) → Nat → Response ν

/-- The state of the evaluator: the frames, the innermost first, the identity of
the next value, and what could be observed so far, the latest first. -/
structure Reference (ν : Type) where
  frames : List (List (String × Value ν))
  next : Nat
  trace : List (Event ν)

variable {ν : Type}

def Natives.host (natives : Natives ν) : Host ν where
  invoke handle arguments := do
    let session ← get
    let response := natives.respond handle arguments session.observed session.nextValue
    set (session.noted (response.texts.map .wrote) (session.nextValue + response.taken))
    Act.ofExcept response.outcome

namespace Reference

def read (frames : List (List (String × Value ν))) (name : String) : Option (Value ν) :=
  frames.findSome? (List.lookup name)

def put (name : String) (value : Value ν) :
    List (String × Value ν) → List (String × Value ν)
  | [] => []
  | (other, old) :: rest =>
    if other = name then (name, value) :: rest else (other, old) :: put name value rest

def update (name : String) (value : Value ν) :
    List (List (String × Value ν)) → List (List (String × Value ν))
  | [] => []
  | frame :: frames =>
    if (frame.lookup name).isSome then put name value frame :: frames
    else frame :: update name value frames

def define (name : String) (value : Value ν) :
    List (List (String × Value ν)) → List (List (String × Value ν))
  | [] => [[(name, value)]]
  | frame :: frames => (frame ++ [(name, value)]) :: frames

def lookup (name : Token) : Act (Reference ν) (Value ν) := do
  match read (← get).frames name.text with
  | some value => return value
  | none => Act.fail (.undefinedSymbol name.text "variable") name.span

def assign (target : Tree) (value : Value ν) : Act (Reference ν) Unit := do
  match target with
  | .reference name =>
    let _ ← lookup name
    modify fun r => { r with frames := update name.text value r.frames }
  | _ => throw (.placeless (.invalidTarget ("'" ++ target.describe ++ "'")))

def observe (event : Event ν) : Act (Reference ν) Unit :=
  modify fun r => { r with trace := event :: r.trace }

def fresh (payload : Payload ν) : Act (Reference ν) (Value ν) :=
  modifyGet fun r => (⟨⟨r.next⟩, payload⟩, { r with next := r.next + 1 })

/-- The value of a reply; a plain datum becomes a new value. -/
def ofReply : Reply ν → Act (Reference ν) (Value ν)
  | .value value => return value
  | .datum .nothing => return .nothing
  | .datum datum => do fresh (← Act.ofExcept (Payload.ofDatum datum))
  | .function => throw (.placeless (.internal "cannot convert function to a value"))

def call (natives : Natives ν) (callee : Value ν) (arguments : List (Value ν)) (token : Token) :
    Act (Reference ν) (Value ν) := do
  match callee.payload with
  | .native name handle result =>
    observe (.called name handle arguments)
    let r ← get
    let response := natives.respond handle arguments r.trace r.next
    set { r with
      next := r.next + response.taken
      trace := response.texts.map Event.wrote ++ r.trace }
    let reply ← Act.ofExcept response.outcome
    match result with
    | none => return .nothing
    | some kind =>
      let value ← ofReply reply
      if value.payload.kind? = some kind then return value
      else
        Act.fail (.internal ("native function '" ++ name ++ "' returned no " ++ kind.label))
          token.span
  | _ => Act.fail (.internal "cannot call what is no function") token.span

mutual

def evaluate (natives : Natives ν) : Tree → Act (Reference ν) (Value ν)
  | .block statements _ => do
    modify fun r => { r with frames := [] :: r.frames }
    Act.closing (modify fun r => { r with frames := r.frames.tail })
      (evaluateAll natives statements)
    return .nothing
  | .literal token kind => do
    fresh (.primitive (← Act.ofDiagnostic (Session.literalValue token kind)))
  | .reference name => lookup name
  | .declare name initializer => do
    let value ← evaluate natives initializer
    modify fun r => { r with frames := define name.text value r.frames }
    return .nothing
  | .assign target value _ => do
    assign target (← evaluate natives value)
    return .nothing
  | .call callee arguments token => do
    let function ← evaluate natives callee
    call natives function (← evaluateArguments natives arguments) token
  | .conditional condition body _ => do
    let test ← evaluate natives condition
    if Session.isTrue test then
      let _ ← evaluate natives body
    return .nothing
  | .debugPrint operand _ => do
    let value ← evaluate natives operand
    observe (.wrote ((← Act.ofNumeral value.payload.render) ++ "\n"))
    return .nothing
  | .foreign sort => throw (.host (.foreignStatement sort))

def evaluateAll (natives : Natives ν) : List Tree → Act (Reference ν) Unit
  | [] => return ()
  | tree :: trees => do
    let _ ← evaluate natives tree
    evaluateAll natives trees

def evaluateArguments (natives : Natives ν) : List Tree → Act (Reference ν) (List (Value ν))
  | [] => return []
  | tree :: trees => do
    let value ← evaluate natives tree
    return value :: (← evaluateArguments natives trees)

end

/-- Evaluates the statements of a program; yields the value of the last one, or
`last` if there is none. -/
def run (natives : Natives ν) (last : Value ν) : List Tree → Act (Reference ν) (Value ν)
  | [] => return last
  | tree :: trees => do
    let value ← evaluate natives tree
    run natives value trees

end Reference

/-! ## Frames of a session -/

namespace Session

variable {s t : Session ν} {env : Env}

/-- The names and values of the symbols of a scope that have a value. -/
def frameOf (s : Session ν) (frame : List Symbol) : List (String × Value ν) :=
  frame.filterMap fun symbol => (s.valueOf? symbol.id).map fun value => (symbol.name, value)

/-- The state of the evaluator that stands for a session. -/
def reference (s : Session ν) (env : Env) : Reference ν where
  frames := env.map s.frameOf
  next := s.nextValue
  trace := s.observed

theorem frameOf_congr {frame : List Symbol}
    (h : ∀ symbol ∈ frame, t.valueOf? symbol.id = s.valueOf? symbol.id) :
    t.frameOf frame = s.frameOf frame := by
  induction frame with
  | nil => rfl
  | cons symbol frame ih =>
      rw [List.forall_mem_cons] at h
      rw [frameOf, frameOf, List.filterMap_cons, List.filterMap_cons, h.1]
      have hrest := ih h.2
      rw [frameOf, frameOf] at hrest
      rw [hrest]

theorem frames_congr (h : ∀ id, t.valueOf? id = s.valueOf? id) :
    env.map t.frameOf = env.map s.frameOf :=
  List.map_congr_left fun _ _ => frameOf_congr fun symbol _ => h symbol.id

theorem Resembles.reference (h : s.Resembles t) (env : Env) :
    t.reference env = s.reference env := by
  rw [Session.reference, Session.reference, frames_congr h.values, h.next, h.observed]

theorem frameOf_cons (s : Session ν) (symbol : Symbol) (frame : List Symbol) :
    s.frameOf (symbol :: frame) =
      ((s.valueOf? symbol.id).map fun value => (symbol.name, value)).toList ++
        s.frameOf frame := by
  rw [frameOf, List.filterMap_cons]
  cases s.valueOf? symbol.id <;> rfl

/-! ## Reading a name -/

private theorem lookup_frameOf_none {frame : List Symbol} {name : String}
    (h : frame.find? (fun symbol => symbol.name = name) = none) :
    (s.frameOf frame).lookup name = none := by
  induction frame with
  | nil => rfl
  | cons symbol frame ih =>
      rw [List.find?_cons] at h
      by_cases hname : symbol.name = name
      · simp [hname] at h
      · simp only [decide_eq_false hname] at h
        rw [frameOf_cons]
        cases s.valueOf? symbol.id with
        | none => exact ih h
        | some value =>
            have hne : (name == symbol.name) = false := beq_eq_false_iff_ne.2 (Ne.symm hname)
            simp only [Option.map_some, Option.toList_some, List.singleton_append,
              List.lookup_cons, hne]
            exact ih h

private theorem lookup_frameOf {frame : List Symbol} {name : String} {symbol : Symbol}
    {value : Value ν} (h : frame.find? (fun symbol => symbol.name = name) = some symbol)
    (hvalue : s.valueOf? symbol.id = some value) :
    (s.frameOf frame).lookup name = some value := by
  induction frame with
  | nil => simp at h
  | cons first frame ih =>
      rw [List.find?_cons] at h
      rw [frameOf_cons]
      by_cases hname : first.name = name
      · simp only [decide_eq_true hname, Option.some.injEq] at h
        subst h
        simp [hvalue, hname]
      · simp only [decide_eq_false hname] at h
        cases s.valueOf? first.id with
        | none => exact ih h
        | some other =>
            have hne : (name == first.name) = false := beq_eq_false_iff_ne.2 (Ne.symm hname)
            simp only [Option.map_some, Option.toList_some, List.singleton_append,
              List.lookup_cons, hne]
            exact ih h

theorem read_frames {name : String} {symbol : Symbol} {value : Value ν}
    (h : env.resolve name = some symbol) (hvalue : s.valueOf? symbol.id = some value) :
    Reference.read (env.map s.frameOf) name = some value := by
  induction env with
  | nil => simp [Env.resolve] at h
  | cons frame env ih =>
      rw [Env.resolve, List.findSome?_cons] at h
      rw [Reference.read, List.map_cons, List.findSome?_cons]
      cases hfind : frame.find? (fun symbol => symbol.name = name) with
      | none =>
          rw [hfind] at h
          rw [lookup_frameOf_none hfind]
          exact ih h
      | some found =>
          rw [hfind, Option.some.injEq] at h
          subst h
          rw [lookup_frameOf hfind hvalue]

/-! ## Writing to a name -/

private theorem put_frameOf {frame : List Symbol} {name : String} {symbol : Symbol}
    {old value : Value ν} (h : frame.find? (fun symbol => symbol.name = name) = some symbol)
    (hdistinct : (frame.map Symbol.id).Nodup) (hold : s.valueOf? symbol.id = some old)
    (hnew : t.valueOf? symbol.id = some value)
    (hother : ∀ id, id ≠ symbol.id → t.valueOf? id = s.valueOf? id) :
    Reference.put name value (s.frameOf frame) = t.frameOf frame := by
  induction frame with
  | nil => simp at h
  | cons first frame ih =>
      rw [List.map_cons, List.nodup_cons] at hdistinct
      rw [List.find?_cons] at h
      rw [frameOf_cons, frameOf_cons]
      by_cases hname : first.name = name
      · simp only [decide_eq_true hname, Option.some.injEq] at h
        subst h
        have hrest : t.frameOf frame = s.frameOf frame := by
          apply frameOf_congr
          intro other hmem
          apply hother
          intro heq
          exact hdistinct.1 (heq ▸ List.mem_map_of_mem hmem)
        simp [hold, hnew, hname, hrest, Reference.put]
      · simp only [decide_eq_false hname] at h
        have hmem := List.mem_of_find?_eq_some h
        have hne : first.id ≠ symbol.id := by
          intro heq
          exact hdistinct.1 (heq ▸ List.mem_map_of_mem hmem)
        rw [hother first.id hne]
        cases s.valueOf? first.id with
        | none => exact ih h hdistinct.2
        | some other =>
            simp only [Option.map_some, Option.toList_some, List.singleton_append,
              Reference.put, if_neg hname]
            rw [ih h hdistinct.2]

theorem update_frames {name : String} {symbol : Symbol} {old value : Value ν}
    (h : env.resolve name = some symbol) (hdistinct : env.Distinct)
    (hold : s.valueOf? symbol.id = some old) (hnew : t.valueOf? symbol.id = some value)
    (hother : ∀ id, id ≠ symbol.id → t.valueOf? id = s.valueOf? id) :
    Reference.update name value (env.map s.frameOf) = env.map t.frameOf := by
  induction env with
  | nil => simp [Env.resolve] at h
  | cons frame env ih =>
      rw [Env.Distinct, List.flatten_cons, List.map_append, List.nodup_append] at hdistinct
      rw [Env.resolve, List.findSome?_cons] at h
      rw [List.map_cons, List.map_cons, Reference.update]
      -- A symbol of another frame has another identity, so its value stays.
      cases hfind : frame.find? (fun symbol => symbol.name = name) with
      | none =>
          rw [hfind] at h
          obtain ⟨owner, howner, hfound⟩ := List.exists_of_findSome?_eq_some h
          have hmem : symbol ∈ env.flatten :=
            List.mem_flatten.2 ⟨owner, howner, List.mem_of_find?_eq_some hfound⟩
          have hframe : t.frameOf frame = s.frameOf frame := by
            apply frameOf_congr
            intro other hother'
            apply hother
            intro heq
            exact hdistinct.2.2 _ (List.mem_map_of_mem hother') _ (List.mem_map_of_mem hmem) heq
          rw [lookup_frameOf_none hfind, hframe, ih h hdistinct.2.1]
          rfl
      | some found =>
          rw [hfind, Option.some.injEq] at h
          subst h
          have hmem := List.mem_of_find?_eq_some hfind
          have hrest : env.map t.frameOf = env.map s.frameOf := by
            apply List.map_congr_left
            intro owner howner
            apply frameOf_congr
            intro other hother'
            apply hother
            intro heq
            have hflat : other ∈ env.flatten := List.mem_flatten.2 ⟨owner, howner, hother'⟩
            exact hdistinct.2.2 _ (List.mem_map_of_mem hmem) _ (List.mem_map_of_mem hflat) heq.symm
          rw [lookup_frameOf hfind hold, Option.isSome_some, if_pos rfl, hrest,
            put_frameOf hfind hdistinct.1 hold hnew hother]

theorem define_frames {frame : List Symbol} {symbol : Symbol} {value : Value ν}
    (hfresh : ∀ scope ∈ frame :: env, ∀ other ∈ scope, other.id ≠ symbol.id)
    (hnew : t.valueOf? symbol.id = some value)
    (hother : ∀ id, id ≠ symbol.id → t.valueOf? id = s.valueOf? id) :
    Reference.define symbol.name value ((frame :: env).map s.frameOf) =
      ((frame ++ [symbol]) :: env).map t.frameOf := by
  have hframes : ∀ scope ∈ frame :: env, t.frameOf scope = s.frameOf scope := by
    intro scope hscope
    apply frameOf_congr
    intro other hmem
    exact hother other.id (hfresh scope hscope other hmem)
  have hadded : t.frameOf (frame ++ [symbol]) = s.frameOf frame ++ [(symbol.name, value)] := by
    rw [← hframes frame List.mem_cons_self, frameOf, List.filterMap_append]
    simp [frameOf, hnew]
  rw [List.map_cons, List.map_cons, hadded, List.map_congr_left
    fun scope hscope => hframes scope (List.mem_cons_of_mem _ hscope)]
  rfl

end Session

end Scriptlet
