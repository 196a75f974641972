import Mathlib.Data.List.Induction
import Scriptlet.CommandLine
import Scriptlet.Proofs.CommandLine.Choking
import Scriptlet.Proofs.Sessions.TypeSoundness
/-!
# Conversations at the command line

A run without a given source evaluates the lines of its input one after the other in a
single session.  Every line that is not blank is answered by its result or by the fault
that it has, and the run ends well, unless the session chokes on a line: then the run
fails there.
-/

namespace Scriptlet

/-! ## The session at the start -/

/-- The function only writes its argument, and it can be called by its name. -/
def NativeFunction.Writes (function : NativeFunction) : Prop :=
  ReadsAsName function.name ∧ function.result = none ∧
    (function.behaviour = .writeText ∨ function.behaviour = .writeInteger)

namespace Session

open Act (Preserves)

def Unassuming (s : Session Behaviour) : Prop :=
  ∀ value ∈ s.values.values, value.payload.IsModest

theorem unassuming_onScopes {α : Type} (act : Act Scoping α) :
    Preserves Unassuming (onScopes act) :=
  fun _ hs => hs

private theorem unassuming_enlist (name : String) {handle : Behaviour}
    (hhandle : handle = .writeText ∨ handle = .writeInteger) (type : Symbol) :
    Preserves Unassuming (enlist name handle none type) := by
  unfold enlist
  refine (unassuming_onScopes _).bind fun symbol => ?_
  intro s hs value hvalue
  rcases ValueTable.mem_insert hvalue with rfl | hvalue
  · exact ⟨hhandle, rfl⟩
  · exact hs value hvalue

private theorem unassuming_register (name : String) (arguments : List String) {handle : Behaviour}
    (hhandle : handle = .writeText ∨ handle = .writeInteger) :
    Preserves Unassuming (register name arguments none handle) := by
  rw [register_eq]
  simp only [resultKind, pure_bind]
  refine (unassuming_onScopes _).bind fun argumentTypes => ?_
  refine (unassuming_onScopes _).bind fun resultType => ?_
  refine (unassuming_onScopes _).bind fun type => ?_
  exact unassuming_enlist name hhandle type

private theorem writes_prelude : ∀ function ∈ prelude, function.Writes := by
  have hprint : ReadsAsName "print" := ⟨"", ⟨.name, "print", 1, 1, "print", ""⟩, by decide +kernel, rfl⟩
  have hprintInt : ReadsAsName "print_int" :=
    ⟨"", ⟨.name, "print_int", 1, 1, "print_int", ""⟩, by decide +kernel, rfl⟩
  rw [prelude, List.forall_mem_cons, List.forall_mem_singleton]
  exact ⟨⟨hprint, rfl, .inl rfl⟩, hprintInt, rfl, .inr rfl⟩

/-- Installing functions that write their arguments leads from reachable states to reachable
ones and stores no values but modest ones. -/
theorem reachable_install {functions : List NativeFunction}
    (h : ∀ function ∈ functions, function.Writes) :
    Preserves (fun s => Reachable (fun _ => False) s ∧ Unassuming s) (install functions) := by
  induction functions with
  | nil => exact .pure ()
  | cons function functions ih =>
      rw [List.forall_mem_cons] at h
      obtain ⟨⟨hname, hresult, hbehaviour⟩, h⟩ := h
      have hprepare : Behaviour.register function.name function.arguments function.result
          function.behaviour =
          register function.name function.arguments none function.behaviour := by
        rw [hresult]
        rcases hbehaviour with hbehaviour | hbehaviour
        · rw [hbehaviour]
          rfl
        · rw [hbehaviour]
          rfl
      rw [install, hprepare]
      refine Preserves.bind ?_ fun _ => ih h
      rintro s ⟨hreachable, hs⟩
      exact ⟨.register hreachable hname (Prod.eta _).symm,
        unassuming_register _ _ hbehaviour s hs⟩

private theorem install_prelude (settings : Settings) :
    ((install prelude).on (initial settings)).1 = .ok () := by
  let s := ((Behaviour.register "print" ["text"] none .writeText).on (initial settings)).2
  have hprint : (Behaviour.register "print" ["text"] none .writeText).on (initial settings) =
      (.ok ⟨⟨6⟩, "print", .native ⟨5⟩⟩, s) := Prod.ext rfl rfl
  have hscoping : s.scoping = ⟨⟨[⟨⟨2⟩, "repl", some ⟨1⟩, []⟩,
      ⟨⟨1⟩, "global", none, Primitive.Kind.all.map Primitive.Kind.typeSymbol ++
        [⟨⟨5⟩, "<text:>", .function [⟨3⟩] none⟩, ⟨⟨6⟩, "print", .native ⟨5⟩⟩]⟩], 7⟩, ⟨1⟩, []⟩ := rfl
  clear_value s
  -- The second registration reads nothing of the session before it but the scopes.
  have hprintInt : ((Behaviour.register "print_int" ["int"] none .writeInteger).on s).1 =
      .ok ⟨⟨8⟩, "print_int", .native ⟨7⟩⟩ := by
    obtain ⟨settings, scoping, values, bindings, evaluations, next, labels, journal⟩ := s
    subst hscoping
    rfl
  change ((do
    let _ ← Behaviour.register "print" ["text"] none .writeText
    let _ ← Behaviour.register "print_int" ["int"] none .writeInteger
    pure ()).on (initial settings)).1 = _
  rw [Act.on_bind_of_ok hprint, Act.on_bind_of_ok (Prod.ext hprintInt rfl)]
  rfl

/-- A session starts, with or without the prelude, unless its settings are refused. -/
theorem exists_start {settings : Settings} (h : settings.problems = []) :
    ∃ session, start settings = .ok session ∧ session.Calm Forest.globalId := by
  have hinstall : ∀ functions, (∀ function ∈ functions, function.Writes) →
      ((install functions).on (initial settings)).1 = .ok () →
      ∃ session, (install functions).on (initial settings) = (.ok (), session) ∧
        session.Calm Forest.globalId := by
    intro functions hwrites hok
    obtain ⟨hreachable, hvalues⟩ := reachable_install hwrites (initial settings)
      ⟨.initial settings, by simp [Unassuming, initial, drain, ValueTable.empty]⟩
    obtain ⟨book, hinv⟩ := hreachable.exists_inv
    exact ⟨_, Prod.ext hok rfl, hinv.sound.forest, hinv.cursor, hvalues⟩
  have hstart : ∀ session, (install (if settings.prelude then prelude else [])).on
      (initial settings) = (.ok (), session) → start settings = .ok session := by
    intro session hon
    rw [start, h]
    dsimp only
    rw [show (install (if settings.prelude then prelude else [])).run (initial settings) =
      (.ok (), session) from hon]
  have hchosen : ∃ session, (install (if settings.prelude then prelude else [])).on
      (initial settings) = (.ok (), session) ∧ session.Calm Forest.globalId := by
    split
    · exact hinstall prelude writes_prelude (install_prelude settings)
    · exact hinstall [] (by simp) rfl
  obtain ⟨session, hon, hcalm⟩ := hchosen
  exact ⟨session, hstart session hon, hcalm⟩

end Session

namespace CommandLine

def Invocation.lines (invocation : Invocation) : List String :=
  (linesOf invocation.input.toList).map String.ofList

def greeting (interactive : Bool) : List Output :=
  if interactive then [.out banner] else []

def farewell (interactive : Bool) : List Output :=
  prompting interactive ++ if interactive then [.out "\n"] else []

variable {options : Options} {console next : Console} {interactive : Bool} {line : String}
  {lines : List String} {said : List Output}

def IsBlank (line : String) : Prop :=
  line.toList.all Text.isEdgeSpace = true

namespace Console

def cleared (console : Console) : Session Behaviour :=
  { console.session with journal := [] }

def Gives (console : Console) (line : String) (outcome : Except Failure (Value Behaviour))
    (session : Session Behaviour) : Prop :=
  (Session.evaluate Behaviour.standardHost console.options.watch line).on console.cleared =
    (outcome, session)

/-- The console chokes on a line: it is not blank, and one of its statements is accepted, after
those before it were run, but has an integer literal of too many digits and so cannot be dumped,
though a dump is asked for. -/
def ChokesOn (console : Console) (line : String) : Prop :=
  ¬ IsBlank line ∧ console.cleared.ChokesOn Behaviour.standardHost console.options.watch line

def shown (console : Console) (session : Session Behaviour) : List Output :=
  Output.ofJournal console.options.verbosity session.journal

end Console

/-- A conversation: the lines are evaluated in order, blank ones apart, each in the session that the
one before left, and each is answered by its result, which is shown unless it is nothing, or by the
fault that it has. -/
inductive Converses (interactive : Bool) :
    Console → List String → List Output → Console → Prop where
  | nil {console : Console} : Converses interactive console [] [] console
  | blank {console last : Console} {line : String} {lines : List String} {said : List Output} :
      IsBlank line → Converses interactive console lines said last →
      Converses interactive console (line :: lines) (prompting interactive ++ said) last
  | answered {console last : Console} {line : String} {lines : List String} {said : List Output}
      {value : Value Behaviour} {session : Session Behaviour} {text : String} :
      ¬ IsBlank line → console.Gives line (.ok value) session → value.payload.render = .ok text →
      Converses interactive ⟨console.options, session⟩ lines said last →
      Converses interactive console (line :: lines)
        (prompting interactive ++ console.shown session ++
          (if value.payload.isNothing then [] else [.out (text ++ "\n")]) ++ said) last
  | refused {console last : Console} {line : String} {lines : List String} {said : List Output}
      {diagnostic : Diagnostic} {session : Session Behaviour} :
      ¬ IsBlank line → console.Gives line (.error (.fault diagnostic)) session →
      Converses interactive ⟨console.options, session⟩ lines said last →
      Converses interactive console (line :: lines)
        (prompting interactive ++ console.shown session ++
          [.err (diagnostic.render ++ "\n")] ++ said) last

/-! ## The loop follows conversations -/

private theorem feed_blank (h : IsBlank line) : console.feed line = ([], .fine, console) :=
  if_pos h

def Console.reply : Except Failure (Value Behaviour) → List Output × Verdict
  | .ok value => ofResult value
  | .error failure => ofFailure failure

theorem feed_of_gives (h : ¬ IsBlank line) {outcome : Except Failure (Value Behaviour)}
    {session : Session Behaviour} (hgives : console.Gives line outcome session) {verdict : Verdict}
    (hreply : Console.reply outcome = (said, verdict)) :
    console.feed line = (console.shown session ++ said, verdict, ⟨console.options, session⟩) := by
  have hrun : (Session.evaluate Behaviour.standardHost console.options.watch line).run
      { console.session with journal := [] } = (outcome, session) := hgives
  have hfeed : console.feed line = console.evaluate line := if_neg h
  rw [hfeed, Console.evaluate]
  dsimp only
  rw [hrun]
  cases outcome with
  | ok value =>
      have hsaid : Console.ofResult value = (said, verdict) := hreply
      dsimp only
      rw [hsaid]
      rfl
  | error failure =>
      have hsaid : Console.ofFailure failure = (said, verdict) := hreply
      dsimp only
      rw [hsaid]
      rfl

theorem loop_of_feed {inputEnd : InputEnd} {verdict : Verdict}
    (h : console.feed line = (said, verdict, next)) (hverdict : verdict ≠ .broken) :
    loop interactive inputEnd console (line :: lines) =
      (prompting interactive ++ said ++ (loop interactive inputEnd next lines).1,
        (loop interactive inputEnd next lines).2) := by
  rw [loop, h]
  cases verdict with
  | fine => rfl
  | faulty => rfl
  | broken => exact absurd rfl hverdict

private theorem ofResult_of_render {value : Value Behaviour} {text : String}
    (h : value.payload.render = .ok text) :
    Console.ofResult value =
      (if value.payload.isNothing then [] else [.out (text ++ "\n")], .fine) := by
  rw [Console.ofResult, h]
  split <;> rfl

/-- The loop says what is said in a conversation and goes on where the conversation ended. -/
theorem Converses.loop {last : Console} (h : Converses interactive console lines said last)
    (inputEnd : InputEnd) (further : List String) :
    loop interactive inputEnd console (lines ++ further) =
      (said ++ (loop interactive inputEnd last further).1,
        (loop interactive inputEnd last further).2) := by
  induction h with
  | nil => rfl
  | blank hblank _ ih =>
      rw [List.cons_append, loop_of_feed (feed_blank hblank) (by decide), ih]
      simp
  | answered hblank hgives hrender _ ih =>
      have hfeed := feed_of_gives hblank hgives (ofResult_of_render hrender)
      rw [List.cons_append, loop_of_feed hfeed (by decide), ih]
      simp
  | refused hblank hgives _ ih =>
      have hfeed := feed_of_gives hblank hgives rfl
      rw [List.cons_append, loop_of_feed hfeed (by decide), ih]
      simp

/-! ## Conversations go on -/

def Console.Ready (console : Console) : Prop :=
  console.session.Calm Forest.globalId

theorem Console.Ready.cleared (h : console.Ready) : console.cleared.Calm Forest.globalId :=
  ⟨h.forest, h.cursor, h.values⟩

theorem Converses.ready {last : Console} (h : Converses interactive console lines said last)
    (hready : console.Ready) : last.Ready := by
  have hgives : ∀ {console : Console} {line : String} {outcome : Except Failure (Value Behaviour)}
      {session : Session Behaviour}, console.Ready → console.Gives line outcome session →
      Console.Ready ⟨console.options, session⟩ := by
    intro console line outcome session hready hgives
    have hevaluate := Session.evaluate_calm hready.cleared console.options.watch line
    unfold Act.Ensures at hevaluate
    rw [hgives] at hevaluate
    cases outcome with
    | ok value => exact hevaluate.1.2
    | error failure => exact hevaluate.1
  induction h with
  | nil => exact hready
  | blank _ _ ih => exact ih hready
  | answered _ hok _ _ ih => exact ih (hgives hready hok)
  | refused _ herror _ ih => exact ih (hgives hready herror)

private theorem exists_converses_line (hready : console.Ready) (hline : ¬ console.ChokesOn line) :
    ∃ said next, Converses interactive console [line] said next := by
  by_cases hblank : IsBlank line
  · exact ⟨_, _, .blank hblank .nil⟩
  have hfine : ¬ console.cleared.ChokesOn Behaviour.standardHost console.options.watch line :=
    fun h => hline ⟨hblank, h⟩
  have hevaluate := Session.evaluate_calm hready.cleared console.options.watch line
  unfold Act.Ensures at hevaluate
  match hon : (Session.evaluate Behaviour.standardHost console.options.watch line).on
    console.cleared with
  | (.ok value, session) =>
      rw [hon] at hevaluate
      obtain ⟨text, htext⟩ := hevaluate.1.1.render
      exact ⟨_, _, .answered hblank hon htext .nil⟩
  | (.error failure, session) =>
      rw [hon] at hevaluate
      obtain ⟨diagnostic, rfl⟩ := hevaluate.2.2 hfine
      exact ⟨_, _, .refused hblank hon .nil⟩

theorem Converses.append {middle last : Console} {further : List String} {said' : List Output}
    (h : Converses interactive console lines said middle)
    (h' : Converses interactive middle further said' last) :
    Converses interactive console (lines ++ further) (said ++ said') last := by
  induction h with
  | nil => exact h'
  | blank hblank _ ih =>
      rw [List.append_assoc]
      exact .blank hblank (ih h')
  | answered hblank hgives hrender _ ih =>
      rw [List.append_assoc]
      exact .answered hblank hgives hrender (ih h')
  | refused hblank hgives _ ih =>
      rw [List.append_assoc]
      exact .refused hblank hgives (ih h')

/-- A conversation about all lines, if the console chokes on none of them. -/
theorem exists_converses (hready : console.Ready) (lines : List String)
    (h : ∀ before line after said last, lines = before ++ line :: after →
      Converses interactive console before said last → ¬ last.ChokesOn line) :
    ∃ said last, Converses interactive console lines said last := by
  induction lines using List.reverseRecOn with
  | nil => exact ⟨_, _, .nil⟩
  | append_singleton lines line ih =>
      obtain ⟨said, middle, hlines⟩ := ih fun before other after said last hsplit =>
        h before other (after ++ [line]) said last (by simp [hsplit])
      have hline : ¬ middle.ChokesOn line := h lines line [] said middle (by simp) hlines
      obtain ⟨answer, last, hanswer⟩ := exists_converses_line (hlines.ready hready) hline
      exact ⟨_, last, hlines.append hanswer⟩

/-- A line that the console chokes on ends the loop. -/
theorem loop_choking (hready : console.Ready) (hline : console.ChokesOn line)
    (inputEnd : InputEnd) (lines : List String) :
    ∃ error session, console.Gives line (.error (.host error)) session ∧
      loop interactive inputEnd console (line :: lines) =
        (prompting interactive ++ console.shown session ++ Console.breakdown error.message,
          .failure) := by
  have hevaluate := Session.evaluate_calm hready.cleared console.options.watch line
  unfold Act.Ensures at hevaluate
  match hon : (Session.evaluate Behaviour.standardHost console.options.watch line).on
    console.cleared with
  | (.ok value, session) =>
      rw [hon] at hevaluate
      exact absurd hline.2 hevaluate.2
  | (.error (.fault diagnostic), session) =>
      rw [hon] at hevaluate
      exact absurd hline.2 (hevaluate.2.1 ⟨diagnostic, rfl⟩)
  | (.error (.host error), session) =>
      refine ⟨error, session, hon, ?_⟩
      have hfeed := feed_of_gives hline.1 hon rfl
      rw [loop, hfeed]
      simp

/-! ## Runs -/

theorem Options.problems_settings (h : options.command = none) :
    options.settings.problems = [] := by
  simp [Options.settings, Settings.problems, h]

private theorem exists_start_console (h : options.command = none) :
    ∃ shown console, Console.start options = (shown, .ok console) ∧ console.Ready ∧
      console.options = options := by
  obtain ⟨session, hstart, hcalm⟩ := Session.exists_start (Options.problems_settings h)
  refine ⟨Output.ofJournal options.verbosity session.journal, ⟨options, session⟩, ?_, hcalm, rfl⟩
  rw [Console.start, hstart]

theorem Converses.options_eq {last : Console} (h : Converses interactive console lines said last) :
    last.options = console.options := by
  induction h with
  | nil => rfl
  | blank _ _ ih => exact ih
  | answered _ _ _ _ ih => exact ih
  | refused _ _ _ ih => exact ih

theorem Console.not_chokesOn (hsyntactic : console.options.dumpTree = false)
    (hannotated : console.options.dumpAnnotated = false) (line : String) :
    ¬ console.ChokesOn line := by
  have hwatch : ∀ tree, ¬ console.options.watch.ChokesOn tree := by
    rintro tree ⟨hasked | hasked, -⟩
    · rw [show console.options.watch.syntaxTree = false from hsyntactic] at hasked
      cases hasked
    · rw [show console.options.watch.annotatedTree = false from hannotated] at hasked
      cases hasked
  rintro ⟨-, trees, value, session, -, -, hchokes⟩
  induction hchokes with
  | here hbalks => exact hwatch _ hbalks.2
  | later _ _ ih => exact ih

theorem Console.Ready.chokesOn_numeral (h : console.Ready)
    (hoptions : console.options.dumpTree = true ∨ console.options.dumpAnnotated = true)
    (hblank : ¬ IsBlank line) (hdigits : ∀ c ∈ line.toList, c.isDigit = true)
    (hlong : Numeral.digitLimit < line.toList.length) : console.ChokesOn line := by
  obtain ⟨repl, hrepl, -⟩ := h.cleared.forest.repl
  exact ⟨hblank, Session.chokesOn_numeral hrepl hoptions hdigits hlong _⟩

private theorem run_of_loop {invocation : Invocation} {shown : List Output} {exit : Exit}
    (hrequest : Request.ofArguments invocation.arguments = .run options)
    (hcommand : options.command = none) (hstart : Console.start options = (shown, .ok console))
    (hloop : loop invocation.interactive invocation.inputEnd console invocation.lines =
      (said, exit)) :
    run invocation = (shown ++ greeting invocation.interactive ++ said, exit) := by
  have hlines : loop invocation.interactive invocation.inputEnd console
      ((linesOf invocation.input.toList).map String.ofList) = (said, exit) := hloop
  rw [run, hrequest]
  dsimp only
  rw [runSession, hstart]
  dsimp only
  rw [hcommand]
  dsimp only
  rw [hlines]
  rfl

/-- The arguments ask for dumps or do without the prelude, and for nothing else. -/
def AsksForLines (arguments : List String) : Prop :=
  ∀ argument ∈ arguments, argument = "--dump-ast" ∨ argument = "--dump-semantic" ∨
    argument = "--no-prelude"

def Options.asked (options : Options) (arguments : List String) : Options :=
  { options with
    dumpTree := options.dumpTree || decide ("--dump-ast" ∈ arguments)
    dumpAnnotated := options.dumpAnnotated || decide ("--dump-semantic" ∈ arguments)
    prelude := options.prelude && !decide ("--no-prelude" ∈ arguments) }

theorem ofWords_long {switch : Switch} {after : Options} (h : switch.takesArgument = false)
    (happly : options.applyAll [switch] = .ok after) (left : List String) (words : List Word) :
    Request.ofWords options left (.long switch none :: words) = .ofWords after left words := by
  simp [Request.ofWords, Group.ofWord, h, happly]

private theorem exists_words {arguments : List String} (h : AsksForLines arguments) :
    ∃ words, Word.ofArguments arguments = .ok words ∧
      ∀ options, Request.ofWords options [] words = .run (options.asked arguments) := by
  induction arguments with
  | nil => exact ⟨[], rfl, fun options => by simp [Request.ofWords, Options.asked]⟩
  | cons argument arguments ih =>
      rw [AsksForLines, List.forall_mem_cons] at h
      obtain ⟨words, hwords, hrun⟩ := ih h.2
      have hcons : ∀ {word : Word}, argument ≠ "--" → Word.ofArgument argument = .ok word →
          Word.ofArguments (argument :: arguments) = .ok (word :: words) := by
        intro word hends hword
        rw [Word.ofArguments, if_neg hends, hword, hwords]
        rfl
      rcases h.1 with rfl | rfl | rfl
      · refine ⟨.long .dumpTree none :: words, hcons (by decide) rfl, fun options => ?_⟩
        rw [ofWords_long rfl rfl, hrun]
        simp [Options.asked]
      · refine ⟨.long .dumpAnnotated none :: words, hcons (by decide) rfl, fun options => ?_⟩
        rw [ofWords_long rfl rfl, hrun]
        simp [Options.asked]
      · refine ⟨.long .noPrelude none :: words, hcons (by decide) rfl, fun options => ?_⟩
        rw [ofWords_long rfl rfl, hrun]
        simp [Options.asked]

private theorem ofArguments_asked {arguments : List String} (h : AsksForLines arguments) :
    Request.ofArguments arguments = .run (Options.standard.asked arguments) := by
  obtain ⟨words, hwords, hrun⟩ := exists_words h
  rw [Request.ofArguments, hwords]
  exact hrun .standard

/-- The run evaluates all lines and ends well. -/
def Invocation.Completes (invocation : Invocation) (shown : List Output) (console : Console) :
    Prop :=
  ∃ said last, Converses invocation.interactive console invocation.lines said last ∧
    run invocation = (shown ++ greeting invocation.interactive ++
      (said ++ farewell invocation.interactive), .success)

/-- With the arguments for dumps and the prelude, and none but those, a run evaluates the lines of
its input.  Whenever it does, it starts a session and holds a conversation about all the lines,
unless it chokes on one, which it never does without dumps.  A line that it chokes on ends the
run. -/
theorem run_converses {invocation : Invocation} (hend : invocation.inputEnd = .ended) :
    (AsksForLines invocation.arguments → Request.ofArguments invocation.arguments =
      .run (Options.standard.asked invocation.arguments)) ∧
    ∀ options, Request.ofArguments invocation.arguments = .run options →
      options.command = none →
      ∃ shown console, Console.start options = (shown, .ok console) ∧
        ((∀ before line after said last, invocation.lines = before ++ line :: after →
            Converses invocation.interactive console before said last → ¬ last.ChokesOn line) →
          invocation.Completes shown console) ∧
        (options.dumpTree = false → options.dumpAnnotated = false →
          invocation.Completes shown console) ∧
        ∀ before line after said last, invocation.lines = before ++ line :: after →
          Converses invocation.interactive console before said last → last.ChokesOn line →
          ∃ error session, last.Gives line (.error (.host error)) session ∧
            run invocation = (shown ++ greeting invocation.interactive ++
              (said ++ (prompting invocation.interactive ++ last.shown session ++
                Console.breakdown error.message)), .failure) := by
  refine ⟨ofArguments_asked, ?_⟩
  intro options hrequest hcommand
  obtain ⟨shown, console, hstart, hready, hoptions⟩ := exists_start_console hcommand
  have hcompletes : (∀ before line after said last, invocation.lines = before ++ line :: after →
      Converses invocation.interactive console before said last → ¬ last.ChokesOn line) →
      invocation.Completes shown console := by
    intro hfine
    obtain ⟨said, last, hconverses⟩ := exists_converses hready invocation.lines hfine
    have hloop := hconverses.loop invocation.inputEnd []
    rw [List.append_nil, hend, loop] at hloop
    exact ⟨said, last, hconverses, run_of_loop hrequest hcommand hstart (hend ▸ hloop)⟩
  refine ⟨shown, console, hstart, hcompletes, ?_, ?_⟩
  · intro hsyntactic hannotated
    apply hcompletes
    intro before line after said last _ hconverses
    rw [← hoptions, ← hconverses.options_eq] at hsyntactic hannotated
    exact last.not_chokesOn hsyntactic hannotated line
  · intro before line after said last hlines hconverses hchokes
    obtain ⟨error, session, hgives, hbroken⟩ :=
      loop_choking (hconverses.ready hready) hchokes invocation.inputEnd after
    have hloop := hconverses.loop invocation.inputEnd (line :: after)
    rw [← hlines, hbroken] at hloop
    exact ⟨error, session, hgives, run_of_loop hrequest hcommand hstart hloop⟩

def overlong : Invocation where
  arguments := ["--dump-ast"]
  input := String.ofList (List.replicate 4301 '1')
  interactive := false
  inputEnd := .ended

private theorem overlong_lines : overlong.lines = [overlong.input] := by
  have hline : ∀ n, linesOf (List.replicate (n + 1) '1') = [List.replicate (n + 1) '1'] := by
    intro n
    induction n with
    | zero => rfl
    | succ n ih => rw [List.replicate_succ, linesOf, if_neg (by decide), ih]
  rw [Invocation.lines, overlong, String.toList_ofList, hline]
  rfl

/-- Such a run does not end well. -/
theorem overlong_fails : ∃ said, run overlong = (said, .failure) := by
  have hasks : AsksForLines overlong.arguments := fun _ h => .inl (List.mem_singleton.1 h)
  have hend : overlong.inputEnd = .ended := rfl
  obtain ⟨hrequest, hruns⟩ := run_converses hend
  obtain ⟨shown, console, hstart, -, -, hchoking⟩ := hruns _ (hrequest hasks) rfl
  have hchokes : console.ChokesOn overlong.input := by
    have hcommand : (Options.standard.asked overlong.arguments).command = none := rfl
    obtain ⟨shown', console', hstart', hready, hoptions⟩ := exists_start_console hcommand
    rw [hstart, Prod.mk.injEq, Except.ok.injEq] at hstart'
    obtain rfl := hstart'.2
    have hchars : overlong.input.toList = List.replicate 4301 '1' := String.toList_ofList
    refine hready.chokesOn_numeral (.inl (by rw [hoptions]; rfl)) ?_ ?_ ?_
    · rw [IsBlank, hchars, List.all_replicate]
      decide
    · rw [hchars]
      intro c hc
      rw [List.eq_of_mem_replicate hc]
      rfl
    · rw [hchars, List.length_replicate]
      decide
  obtain ⟨error, session, -, hrun⟩ := hchoking [] _ [] [] console overlong_lines .nil hchokes
  exact ⟨_, hrun⟩

end CommandLine

end Scriptlet
