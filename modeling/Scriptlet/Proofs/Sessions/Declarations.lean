import Scriptlet.Proofs.Sessions.Readability
import Scriptlet.Proofs.Sessions.Variables
import Scriptlet.Proofs.Syntax.Literals
/-!
# Declared literals

A name that is declared with a literal stands for the value that was written, whatever
is evaluated later on that does not assign to the name.
-/

namespace Scriptlet

variable {ν : Type}

theorem Scope.find?_push {scope : Scope} {name : String} (h : scope.find? name = none)
    {symbol : Symbol} (hname : symbol.name = name) :
    (scope.push symbol).find? name = some symbol := by
  unfold Scope.find? at h ⊢
  rw [Scope.push, List.find?_append, h]
  simp [hname]

theorem Scope.get?_push {scope : Scope} {id : SymbolId} (h : scope.get? id = none)
    {symbol : Symbol} (hid : symbol.id = id) : (scope.push symbol).get? id = some symbol := by
  unfold Scope.get? at h ⊢
  rw [Scope.push, List.find?_append, h]
  simp [hid]

namespace Forest

theorem lookup_of_find? {forest : Forest} (hn : Numbered forest.scopes) {id : ScopeId}
    {scope : Scope} (hget : forest.get? id = some scope) {name : String} {symbol : Symbol}
    (hfind : scope.find? name = some symbol) : forest.lookup id name = .ok (some symbol) := by
  rw [lookup_of_get? hget, chainIn_of_get? hn hget, List.findSome?_cons, hfind]

private theorem lookupId_of_find? {forest : Forest} (hn : Numbered forest.scopes) {id : ScopeId}
    {scope : Scope} (hget : forest.get? id = some scope) {identity : SymbolId} {symbol : Symbol}
    (hfind : scope.get? identity = some symbol) :
    forest.lookupId id identity = .ok (some symbol) := by
  rw [lookupId_of_get? hget, chainIn_of_get? hn hget, List.findSome?_cons, hfind]

end Forest

theorem Token.Denotes.isReadable {initializer : Token} {content : Primitive}
    (h : initializer.Denotes content) (token : Token) :
    (Tree.declare token (.literal initializer content.kind)).IsReadable := by
  have hliteral : (Tree.literal initializer content.kind).IsReadable := by
    rw [Tree.isReadable_iff]
    refine ⟨?_, by simp [Tree.children]⟩
    rintro _ _ ⟨⟩
    exact h.size
  rw [Tree.isReadable_iff]
  exact ⟨by simp, by simpa [Tree.children] using hliteral⟩

/-! ## Variables of the top level -/

namespace Variable

/-- The symbol is found in the scope of the top level, by the name of the variable and by its
identity, and denotes a value. -/
structure AtTop (x : Variable ν) (forest : Forest) (repl : Scope) (symbol : Symbol) : Prop where
  scope : forest.get? Forest.replId = some repl
  parent : repl.parent = some Forest.globalId
  byName : repl.find? x.name = some symbol
  byId : repl.get? x.symbol = some symbol
  type : ∃ type, symbol.variant.type? = some type

variable {x : Variable ν} {forest grown : Forest} {repl : Scope} {symbol : Symbol}

theorem AtTop.mono (h : x.AtTop forest repl symbol) (hext : forest.Extends grown) :
    ∃ repl, x.AtTop grown repl symbol := by
  obtain ⟨later, hlater, hparent, hprefix⟩ := hext _ _ h.scope
  exact ⟨later, hlater, hparent.trans h.parent, hprefix.find?_eq_some h.byName,
    hprefix.find?_eq_some h.byId, h.type⟩

theorem AtTop.id (h : x.AtTop forest repl symbol) : symbol.id = x.symbol := by
  simpa using List.find?_some h.byId

end Variable

namespace Session

variable {host : Host ν} {watch : Watch} {s t : Session ν} {source : String} {tree : Tree}
  {value : Value ν}

/-- Running a statement that is accepted and can be dumped comes down to executing it. -/
theorem exists_on_runStatement (host : Host ν) (watch : Watch) {analysed : Analysed}
    {scoping : Scoping} (htree : tree.IsStatement) (hreadable : tree.IsReadable)
    (hanalyse : (Analysis.analyse tree).on s.scoping = (.ok analysed, scoping))
    (hnode : Analysis.Elaborates s.scoping tree analysed.node scoping) :
    ∃ t, (s.rescoped scoping).Shown t ∧
      (runStatement host watch tree).on s = (execute host analysed.node).on t := by
  obtain ⟨t, hshown, hobserve⟩ :=
    exists_observed watch htree hreadable hnode (s.rescoped scoping)
  refine ⟨t, hshown, ?_⟩
  unfold runStatement
  rw [Act.on_bind_of_ok (on_onScopes hanalyse), Act.on_bind_of_ok hobserve]

private theorem on_evaluate_statement {repl top : Scope} {parent : ScopeId}
    (hparse : parseProgram source s.settings.sourceName = .ok [tree])
    (hrepl : s.scoping.forest.get? Forest.replId = some repl)
    (hrun : (runStatement host watch tree).on (s.begun 1 repl) = (.ok value, t))
    (htop : t.scoping.forest.get? t.scoping.cursor = some top)
    (hparent : top.parent = some parent) :
    (evaluate host watch source).on s = (conclude 1 value).on (t.leaving top parent) := by
  have hstatements : (runStatements host watch .nothing [tree]).on (s.begun 1 repl) =
      (.ok value, t) := by
    rw [runStatements_cons, Act.on_bind_of_ok hrun, runStatements, Act.on_pure]
  have hclosed := Act.on_closing hstatements (on_leaving htop hparent)
  rw [on_evaluate hparse hrepl]
  exact Act.on_bind_of_ok hclosed _

/-! ## Reading a variable -/

variable {x : Variable ν} {repl : Scope} {symbol : Symbol}

private theorem on_readVariable_top (hn : Forest.Numbered s.scoping.forest.scopes)
    (hcursor : s.scoping.cursor = Forest.replId) (htop : x.AtTop s.scoping.forest repl symbol)
    (hvalue : s.valueOf? x.symbol = some x.value) {token : Token} :
    (readVariable x.symbol token).on s = (.ok x.value, s.rescoped s.scoping) := by
  have hfound : s.scoping.forest.lookupId s.scoping.cursor x.symbol = .ok (some symbol) := by
    rw [hcursor, Forest.lookupId_of_find? hn htop.scope htop.byId]
  rw [on_readVariable_found hfound, htop.id, hvalue]

private theorem exists_run_reference (hn : Forest.Numbered s.scoping.forest.scopes)
    (hcursor : s.scoping.cursor = Forest.replId) (htop : x.AtTop s.scoping.forest repl symbol)
    (hvalue : s.valueOf? x.symbol = some x.value) {token : Token} (htoken : token.text = x.name)
    (host : Host ν) (watch : Watch) :
    ∃ t, (runStatement host watch (.reference token)).on s = (.ok x.value, t) ∧
      t.scoping.forest = s.scoping.forest ∧ t.scoping.cursor = Forest.replId := by
  obtain ⟨type, htype⟩ := htop.type
  have hlookup : s.scoping.forest.lookup s.scoping.cursor token.text = .ok (some symbol) := by
    rw [hcursor, htoken, Forest.lookup_of_find? hn htop.scope htop.byName]
  have hanalyse : (Analysis.analyse (.reference token)).on s.scoping =
      (.ok ⟨.reference x.symbol token, some type⟩, s.scoping) := by
    rw [Analysis.analyse, Analysis.reference,
      Act.on_bind_of_ok (by rw [Scoping.on_resolve, hlookup])]
    simp only [htype, htop.id]
    rfl
  have hnode : Analysis.Elaborates s.scoping (.reference token) (.reference x.symbol token)
      s.scoping := .term (.reference (Scoping.resolve_of_lookup hlookup) htop.id htype)
  have hreadable : (Tree.reference token).IsReadable := by
    rw [Tree.isReadable_iff]
    simp [Tree.children]
  obtain ⟨t, hshown, hrun⟩ := exists_on_runStatement host watch (.expression .reference)
    hreadable hanalyse hnode
  have hread : (readVariable x.symbol token).on t = (.ok x.value, t.rescoped t.scoping) ∧
      t.scoping.forest = s.scoping.forest ∧ t.scoping.cursor = Forest.replId := by
    obtain ⟨labels, journal, rfl⟩ := hshown
    refine ⟨?_, rfl, hcursor⟩
    apply on_readVariable_top
    exacts [hn, hcursor, htop, hvalue]
  rw [execute, hread.1] at hrun
  exact ⟨_, hrun, hread.2⟩

private theorem exists_evaluate_name (hname : IsName x.name)
    (hn : Forest.Numbered s.scoping.forest.scopes) (htop : x.AtTop s.scoping.forest repl symbol)
    (hvalue : s.valueOf? x.symbol = some x.value) (host : Host ν) (watch : Watch) :
    ∃ t, (evaluate host watch x.name).on s = (.ok x.value, t) := by
  obtain ⟨token, hparse, htoken⟩ := parseProgram_name hname s.settings.sourceName
  obtain ⟨t, hrun, hforest, hcursor⟩ := exists_run_reference (s := s.begun 1 repl) hn
    (Forest.id_of_get? htop.scope) htop hvalue htoken host watch
  have hleft : t.scoping.forest.get? t.scoping.cursor = some repl := by
    rw [hforest, hcursor]
    exact htop.scope
  obtain ⟨w, hon, -⟩ := on_conclude_ok 1 x.value (t.leaving repl Forest.globalId)
  exact ⟨w, (on_evaluate_statement hparse htop.scope hrun hleft htop.parent).trans hon⟩

theorem on_lookup (hn : Forest.Numbered s.scoping.forest.scopes)
    (htop : x.AtTop s.scoping.forest repl symbol) (hvalue : s.valueOf? x.symbol = some x.value) :
    (lookup x.name).on s = (.ok (some x.value), s) := by
  have hlookup := Forest.lookup_of_find? hn htop.scope htop.byName
  rw [← htop.id, valueOf?] at hvalue
  unfold lookup
  rw [Act.on_bind_of_ok (Act.on_get s), Act.on_bind_of_ok (by rw [Act.on_ofExcept, hlookup]),
    Option.bind_some, hvalue, Act.on_pure]

/-! ## Declaring a variable -/

def declaring (s : Session ν) (name : String) (content : Primitive) : Variable ν where
  name := name
  symbol := ⟨s.scoping.forest.nextSymbol⟩
  value := ⟨⟨s.nextValue⟩, .primitive content⟩

structure Gains (s : Session ν) (x : Variable ν) (type : SymbolId) (t : Session ν) : Prop where
  forest : t.scoping.forest =
    s.scoping.forest.withSymbol Forest.replId ⟨x.symbol, x.name, .var type⟩
  bindings : t.bindings = rebind s.bindings x.symbol x.value.id
  values : t.values = s.values.insert x.value
  next : t.nextValue = s.nextValue + 1

variable {name literal : String} {content : Primitive} {type : SymbolId}

private theorem on_execute_declaration {initializer : Token} (h : initializer.Denotes content)
    (symbol : SymbolId) (token : Token) (host : Host ν) (s : Session ν) :
    (execute host (.declare symbol (.literal initializer content.kind) token)).on s =
      (.ok .nothing, ({ s with nextValue := s.nextValue + 1 } : Session ν).bound symbol
        ⟨⟨s.nextValue⟩, .primitive content⟩) := by
  rw [execute, execute, h.read]
  rfl

private theorem exists_run_declaration {token initializer : Token}
    (hrepl : s.scoping.forest.get? Forest.replId = some repl)
    (hcursor : s.scoping.cursor = Forest.replId) (hfree : repl.find? token.text = none)
    (hdenotes : initializer.Denotes content)
    (htree : (Tree.declare token (.literal initializer content.kind)).IsStatement)
    (host : Host ν) (watch : Watch) :
    ∃ t, (runStatement host watch (.declare token (.literal initializer content.kind))).on s =
        (.ok .nothing, t) ∧
      s.Gains (s.declaring token.text content) content.kind.typeId t ∧
      t.scoping.cursor = Forest.replId := by
  have hcurrent : s.scoping.forest.get? s.scoping.cursor = some repl := hcursor ▸ hrepl
  have hdeclare := Scoping.on_declare hcurrent hfree (.var content.kind.typeId) token.span
  have hanalyse : (Analysis.analyse (.declare token (.literal initializer content.kind))).on
      s.scoping = (.ok ⟨.declare ⟨s.scoping.forest.nextSymbol⟩
        (.literal initializer content.kind) token, none⟩,
        s.scoping.inserted repl token.text (.var content.kind.typeId) "variable") := by
    rw [Analysis.analyse, Analysis.analyse]
    exact Act.on_bind_of_ok hdeclare _
  have hnode : Analysis.Elaborates s.scoping
      (.declare token (.literal initializer content.kind))
      (.declare ⟨s.scoping.forest.nextSymbol⟩ (.literal initializer content.kind) token)
      (s.scoping.inserted repl token.text (.var content.kind.typeId) "variable") :=
    .declare .literal hcurrent hfree
  obtain ⟨t, ⟨labels, journal, rfl⟩, hrun⟩ := exists_on_runStatement host watch htree
    (hdenotes.isReadable token) hanalyse hnode
  refine ⟨_, hrun.trans (on_execute_declaration hdenotes _ _ _ _), ⟨?_, rfl, rfl, rfl⟩, hcursor⟩
  rw [← Forest.id_of_get? hrepl]
  rfl

/-- A declaration succeeds with nothing, up to a collection that may be due. -/
theorem exists_evaluate_declaration (hrepl : s.scoping.forest.get? Forest.replId = some repl)
    (hparent : repl.parent = some Forest.globalId) (hfree : repl.find? name = none)
    (hname : IsName name) (hliteral : content.WrittenAs literal) (host : Host ν)
    (watch : Watch) :
    ∃ t, (evaluate host watch ("var " ++ name ++ " = " ++ literal)).on s =
        (conclude 1 .nothing).on t ∧
      s.Gains (s.declaring name content) content.kind.typeId t ∧
      t.scoping.cursor = Forest.globalId := by
  obtain ⟨token, initializer, hparse, rfl, hdenotes⟩ :=
    parseProgram_declaration hname hliteral s.settings.sourceName
  have htree := parseProgram_isStatement hparse _ (List.mem_singleton_self _)
  obtain ⟨t, hrun, hgains, hcursor⟩ := exists_run_declaration (s := s.begun 1 repl) hrepl
    (Forest.id_of_get? hrepl) hfree hdenotes htree host watch
  have htop : t.scoping.forest.get? t.scoping.cursor = some (repl.push
      ⟨⟨s.scoping.forest.nextSymbol⟩, token.text, .var content.kind.typeId⟩) := by
    rw [hcursor, hgains.forest]
    exact Forest.get?_withSymbol_self hrepl _
  exact ⟨_, on_evaluate_statement hparse hrepl hrun htop hparent,
    ⟨hgains.forest, hgains.bindings, hgains.values, hgains.next⟩, rfl⟩

theorem Gains.atTop (h : s.Gains (s.declaring name content) type t) (hs : s.Ordered .initial)
    (hrepl : s.scoping.forest.get? Forest.replId = some repl)
    (hparent : repl.parent = some Forest.globalId) (hfree : repl.find? name = none) :
    ∃ repl symbol, (s.declaring name content).AtTop t.scoping.forest repl symbol := by
  have hnew : repl.get? ⟨s.scoping.forest.nextSymbol⟩ = none := by
    rw [Scope.get?, List.find?_eq_none]
    intro symbol hsymbol hid
    have hminted := hs.minted repl (Forest.mem_of_get? hrepl) symbol hsymbol
    rw [of_decide_eq_true hid] at hminted
    exact Nat.lt_irrefl _ hminted
  refine ⟨repl.push ⟨⟨s.scoping.forest.nextSymbol⟩, name, .var type⟩,
    ⟨⟨s.scoping.forest.nextSymbol⟩, name, .var type⟩, ?_, hparent, ?_, ?_, type, rfl⟩
  · rw [h.forest]
    exact Forest.get?_withSymbol_self hrepl _
  · exact Scope.find?_push hfree rfl
  · exact Scope.get?_push hnew rfl

theorem Gains.meets (h : s.Gains (s.declaring name content) type t) (hs : s.Ordered .initial)
    (hcursor : t.scoping.cursor = Forest.globalId) {functions : ν → Prop}
    (hfunctions : ∀ value ∈ s.values.values, ∀ called handle result,
      value.payload = .native called handle result → functions handle) :
    Meets ((s.declaring name content).DeclaredIn t.scoping.forest)
      ((s.declaring name content).HeldBy functions) t := by
  obtain ⟨repl, hrepl, -⟩ := hs.exists_repl
  obtain ⟨global, hglobal, -⟩ := hs.exists_global
  have hinserted := hs.inserted repl name (.var type) "variable"
  have hforest : t.scoping.forest =
      (s.scoping.inserted repl name (.var type) "variable").forest := by
    rw [h.forest, ← Forest.id_of_get? hrepl]
    rfl
  have hroot : ∃ global, (s.scoping.inserted repl name (.var type) "variable").forest.get?
      t.scoping.cursor = some global := by
    obtain ⟨grown, hgrown, -⟩ := Forest.extends_withSymbol repl.id
      (s.scoping.forest.newSymbol name (.var type)) _ _ hglobal
    rw [hcursor]
    exact ⟨grown, hgrown⟩
  obtain ⟨_, hroot⟩ := hroot
  have hnamed : (s.declaring name content).Named t.scoping.forest := by
    rw [hforest]
    refine ⟨Nat.lt_succ_self _, ?_⟩
    intro scope hscope symbol hsymbol hid
    obtain ⟨old, hold, rfl⟩ := List.mem_map.1 hscope
    rcases Scope.mem_pushAt.1 hsymbol with hsymbol | ⟨-, rfl⟩
    · have hminted := hs.minted old hold symbol hsymbol
      rw [hid] at hminted
      exact absurd hminted (Nat.lt_irrefl _)
    · rfl
  refine ⟨⟨(hinserted.moved hforest hroot).self, hnamed⟩, ?_, ?_, ?_, ?_⟩
  · rw [boundTo?, h.bindings]
    exact lookup_rebind_self _ _ _
  · rw [h.values]
    exact ValueTable.get?_insert_self _ _
  · rw [h.values]
    intro value hvalue
    refine ⟨ValueTable.eq_of_mem_insert hvalue, ?_⟩
    intro called handle result hpayload
    rcases ValueTable.mem_insert hvalue with rfl | hvalue
    · cases hpayload
    · exact hfunctions value hvalue called handle result hpayload
  · rw [h.next]
    exact Nat.lt_succ_self _

/-! ## Declared literals -/

/-- In any session that can be reached, a name that is free at the top level can be declared with
any literal as its initial value.  From then on it stands for the value that was written, both for
programs and for look-ups, whatever is done to the session that leaves the variable alone: programs
are evaluated that do not assign to it, successfully or not, and call native functions that leave
it alone, too. -/
theorem declared_literal_reads_back {settings : Settings} {functions : ν → Prop}
    (hs : (initial settings).EvolvesInto .free s) (hname : IsName name)
    (hfree : ∀ repl, s.scoping.forest.get? Forest.replId = some repl → repl.find? name = none)
    (hliteral : content.WrittenAs literal)
    (hfunctions : ∀ value ∈ s.values.values, ∀ called handle result,
      value.payload = .native called handle result → functions handle)
    (host : Host ν) (watch : Watch) :
    ∃ t, (evaluate host watch ("var " ++ name ++ " = " ++ literal)).on s = (.ok .nothing, t) ∧
      ∀ u, t.EvolvesInto ((s.declaring name content).spared functions) u → ∀ host watch,
        (∃ w, (evaluate host watch name).on u =
          (.ok ⟨⟨s.nextValue⟩, .primitive content⟩, w)) ∧
        (lookup name).on u = (.ok (some ⟨⟨s.nextValue⟩, .primitive content⟩), u) := by
  obtain ⟨hordered, hnext⟩ := hs.ordered
  obtain ⟨repl, hrepl, hparent⟩ := hordered.exists_repl
  obtain ⟨t, hevaluate, hgains, hcursor⟩ := exists_evaluate_declaration hrepl hparent
    (hfree repl hrepl) hname hliteral host watch
  obtain ⟨top, symbol, htop⟩ := hgains.atTop hordered hrepl hparent (hfree repl hrepl)
  have hkeeps := (s.declaring name content).keeps t.scoping.forest functions hnext
  have hmeets := hkeeps.conclude 1 .nothing t (hgains.meets hordered hcursor hfunctions)
  obtain ⟨w, hconclude, -⟩ := on_conclude_ok 1 .nothing t
  rw [hconclude] at hevaluate hmeets
  refine ⟨w, hevaluate, ?_⟩
  intro u hu host watch
  have hlater := hu.meets hkeeps hmeets
  obtain ⟨later, hfound⟩ := htop.mono hlater.scopes.ordered.grown
  have hvalue : u.valueOf? (s.declaring name content).symbol =
      some (s.declaring name content).value := by
    rw [valueOf?, hlater.stores.bound, Option.bind_some, hlater.stores.stored]
  have hnumbered := hlater.scopes.ordered.numbered
  have hread := exists_evaluate_name (x := s.declaring name content) hname hnumbered hfound hvalue
    host watch
  have hlookup := on_lookup hnumbered hfound hvalue
  exact ⟨hread, hlookup⟩

/-- A session in which a function was registered and `x` declared as a text of two lines. -/
def textDeclared : Session Unit :=
  ((evaluate sevens .nothing ("var " ++ "x" ++ " = " ++ Text.lineLiteral "a\nb")).on
    ((register "seven" [] (some "int") ()).on (initial .standard)).2).2

/-- A source that declares another `x` in a block, calls the function there, and fails. -/
def brokenSource : String :=
  "{ var x = seven() }\nz"

theorem text_reads_back_after_failure :
    ((evaluate sevens .nothing brokenSource).on textDeclared).1.isOk = false ∧
    ∃ w, (evaluate sevens .nothing "x").on
      ((evaluate sevens .nothing brokenSource).on textDeclared).2 =
        (.ok ⟨⟨2⟩, .primitive (.text "a\nb")⟩, w) := by
  have hname : IsName "x" := ⟨"", ⟨.name, "x", 1, 1, "x", ""⟩, by decide +kernel, rfl, rfl⟩
  have hfree : ∀ repl, ((register "seven" [] (some "int") ()).on
      (initial .standard)).2.scoping.forest.get? Forest.replId = some repl →
      repl.find? "x" = none := by
    have hrepl : ((register "seven" [] (some "int") ()).on
        (initial .standard)).2.scoping.forest.get? Forest.replId =
        some ⟨Forest.replId, "repl", some Forest.globalId, []⟩ := rfl
    intro repl hget
    rw [hrepl, Option.some.injEq] at hget
    rw [← hget]
    rfl
  have hfunctions : ∀ value ∈ ((register "seven" [] (some "int") ()).on
      (initial .standard)).2.values.values, ∀ called handle result,
      value.payload = .native called handle result → True :=
    fun _ _ _ _ _ _ => trivial
  obtain ⟨t, hevaluate, hlater⟩ := declared_literal_reads_back
    (.register "seven" [] (some "int") trivial) hname hfree (.text "a\nb") hfunctions sevens
    .nothing
  have ht : t = textDeclared := by rw [textDeclared, hevaluate]
  subst ht
  have hprogram : (parseProgram brokenSource textDeclared.settings.sourceName).toOption.all
      (fun trees => decide (∀ tree ∈ trees, tree.Spares "x")) = true := by decide +kernel
  refine ⟨by decide +kernel, (hlater _ (.evaluate ?_ ?_ ?_) sevens .nothing).1⟩
  · intro trees hparse
    rw [hparse] at hprogram
    have hspares : ∀ tree ∈ trees, tree.Spares "x" := of_decide_eq_true hprogram
    exact hspares
  · exact fun _ _ _ _ => .apart rfl rfl rfl (Nat.le_refl _)
  · intro handle arguments s t value _ h
    simp [sevens] at h

end Session

end Scriptlet
