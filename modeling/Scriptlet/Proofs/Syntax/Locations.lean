import Scriptlet.Proofs.Scanning.Places
import Scriptlet.Proofs.Syntax.Laziness
import Scriptlet.Proofs.Syntax.Spelling
/-!
# Locations of faults

A source is refused at a character that no token starts with, at a token, or behind its
last token.  The parser computes the last of these places by counting the token's
characters on from its column, which is right unless the token is a newline.

The trees of a source carry its own tokens, so that faults about them point at tokens
as well.
-/

namespace Scriptlet

def Fault.phase (fault : Fault) : Phase :=
  fault.kind.code.phase

/-- A fault of a source stands at a place of it that the fault is about. -/
inductive Diagnostic.LocatedIn (source file : String) (d : Diagnostic) : Prop where
  /-- A lexical fault stands at the character that no token starts with. -/
  | character (before after : List Char) (c : Char) :
      source.toList = before ++ c :: after → Lexeme.read? c after = none →
      d.fault = .ofCharacter c → d.span = Span.point file (lineAfter before) (columnAfter before) →
      LocatedIn source file d
  /-- A token that cannot stand where it stands is where the fault says. -/
  | token (token : Token) (before : List Char) (expected : List String) :
      token ∈ (TokenStream.scan source file).tokens → token.StandsBehind before source.toList →
      d.fault = .unexpectedToken token.describe expected → d.span = token.span →
      LocatedIn source file d
  /-- A semantic fault stands at a token. -/
  | semantic (token : Token) (before : List Char) :
      token ∈ (TokenStream.scan source file).tokens → token.StandsBehind before source.toList →
      d.fault.phase = .semantic → d.span = token.span → LocatedIn source file d
  | emptyEnd (expected : List String) :
      (TokenStream.scan source file).tokens = [] → d.fault = .unexpectedEnd expected →
      d.span = Span.point file 1 1 → LocatedIn source file d
  /-- The end of the input stands right behind its last token. -/
  | tokenEnd (token : Token) (before : List Char) (expected : List String) :
      (TokenStream.scan source file).tokens.getLast? = some token → token.kind ≠ .newline →
      token.StandsBehind before source.toList → d.fault = .unexpectedEnd expected →
      d.span = Span.point file (lineAfter (before ++ token.lexeme.toList))
        (columnAfter (before ++ token.lexeme.toList)) →
      LocatedIn source file d
  /-- Behind a newline the end of the input is said to stand in the line that the newline ends. -/
  | newlineEnd (token : Token) (before : List Char) (expected : List String) :
      (TokenStream.scan source file).tokens.getLast? = some token → token.kind = .newline →
      token.StandsBehind before source.toList → d.fault = .unexpectedEnd expected →
      d.span = Span.point file (lineAfter before) (columnAfter before + 1) →
      LocatedIn source file d

/-- The input ended behind a newline where something else was expected. -/
def Diagnostic.EndsBehindNewline (source file : String) (d : Diagnostic) : Prop :=
  ∃ expected token, d.fault = .unexpectedEnd expected ∧
    (TokenStream.scan source file).tokens.getLast? = some token ∧ token.kind = .newline

theorem Fault.ofCharacter_ne_unexpectedEnd (c : Char) (expected : List String) :
    Fault.ofCharacter c ≠ .unexpectedEnd expected := by
  unfold ofCharacter
  split <;> exact nofun

/-- A fault of a source starts at a place of it, unless the input ended behind a newline. -/
theorem Diagnostic.LocatedIn.startsIn_iff {source file : String} {d : Diagnostic}
    (h : d.LocatedIn source file) :
    d.span.StartsIn source.toList ↔ ¬ d.EndsBehindNewline source file := by
  cases h with
  | character before after c hsource _ hfault hspan =>
      have hstarts : d.span.StartsIn source.toList :=
        ⟨before, c :: after, hsource, by rw [hspan]; exact ⟨rfl, rfl⟩⟩
      refine iff_of_true hstarts ?_
      rintro ⟨expected, -, hend, -⟩
      exact Fault.ofCharacter_ne_unexpectedEnd c expected (hfault.symm.trans hend)
  | token token before expected _ hstands hfault hspan =>
      refine iff_of_true (hspan ▸ hstands.startsIn) ?_
      rintro ⟨other, -, hend, -⟩
      rw [hfault] at hend
      cases hend
  | semantic token before _ hstands hphase hspan =>
      refine iff_of_true (hspan ▸ hstands.startsIn) ?_
      rintro ⟨other, -, hend, -⟩
      rw [hend] at hphase
      cases hphase
  | emptyEnd expected hempty _ hspan =>
      have hstarts : d.span.StartsIn source.toList :=
        ⟨[], source.toList, rfl, by rw [hspan]; exact ⟨rfl, rfl⟩⟩
      refine iff_of_true hstarts ?_
      rintro ⟨-, token, -, hlast, -⟩
      rw [hempty] at hlast
      cases hlast
  | tokenEnd token before expected hlast hkind hstands _ hspan =>
      obtain ⟨after, hsource⟩ := hstands.exists_after
      rw [← List.append_assoc] at hsource
      have hstarts : d.span.StartsIn source.toList :=
        ⟨_, after, hsource, by rw [hspan]; exact ⟨rfl, rfl⟩⟩
      refine iff_of_true hstarts ?_
      rintro ⟨-, other, -, hother, hnewline⟩
      rw [hlast] at hother
      exact hkind (Option.some.inj hother ▸ hnewline)
  | newlineEnd token before expected hlast hkind hstands hfault hspan =>
      obtain ⟨after, hsource⟩ := hstands.exists_after
      rw [hstands.lexeme_newline hkind] at hsource
      refine iff_of_false ?_ (not_not_intro ⟨expected, token, hfault, hlast, hkind⟩)
      rw [hsource, hspan]
      exact not_startsIn_behind_newline rfl rfl

/-! ## Faults of the parser -/

namespace Parser

/-- A finished list of tokens is refused at one of them or at its end. -/
theorem program_error_cases {file : String} {tokens : List Token} {d : Diagnostic}
    (h : (TokenStream.ofList tokens).program file = .error d) :
    ∃ expected hint, (∃ token ∈ tokens, d = unexpected token expected hint) ∨
      d = (Context.ofStream file (.ofList tokens)).ended expected hint := by
  have hfault : (Context.ofStream file (.ofList tokens)).fault = none := rfl
  have hforesees := whole_foresees hfault tokens
  unfold Foresees at hforesees
  rw [(program_error_iff file tokens d).1 h] at hforesees
  cases hforesees with
  | @token before after token expected hint htokens =>
      exact ⟨expected, hint, .inl ⟨token, by simp [htokens], rfl⟩⟩
  | @ended expected hint => exact ⟨expected, hint, .inr rfl⟩

/-- A source is refused where the scan is stuck, at one of its tokens or behind the last one. -/
theorem parseProgram_error_cases {source file : String} {d : Diagnostic}
    (h : parseProgram source file = .error d) :
    (TokenStream.scan source file).fault = some d ∨
    ∃ expected hint,
      (∃ token ∈ (TokenStream.scan source file).tokens, d = unexpected token expected hint) ∨
      d = (Diagnostic.of (.unexpectedEnd expected)
        (Context.ofStream file (TokenStream.scan source file)).endSpan).withHint hint := by
  unfold parseProgram at h
  match hstream : TokenStream.scan source file with
  | ⟨tokens, none⟩ =>
      rw [hstream] at h
      exact .inr (program_error_cases h)
  | ⟨tokens, some fault⟩ =>
      rw [hstream] at h
      have hmeets := (program_lags file tokens fault).meets
      rw [h] at hmeets
      generalize hfinished : (TokenStream.ofList tokens).program file = finished at hmeets
      cases hmeets with
      | stuck => exact .inl rfl
      | refused token expected hint =>
          obtain ⟨expected', hint', ⟨other, hmem, heq⟩ | heq⟩ := program_error_cases hfinished
          · exact .inr ⟨expected', hint', .inl ⟨other, hmem, heq⟩⟩
          · exact absurd heq (unexpected_ne_ended rfl token expected expected' hint hint')

end Parser

private theorem locatedIn_end {source file : String} {expected : List String} {d : Diagnostic}
    (hfault : d.fault = .unexpectedEnd expected)
    (hspan : d.span = (Parser.Context.ofStream file (TokenStream.scan source file)).endSpan) :
    d.LocatedIn source file := by
  cases hlast : (TokenStream.scan source file).tokens.getLast? with
  | none =>
      refine .emptyEnd expected (List.getLast?_eq_none_iff.1 hlast) hfault (hspan.trans ?_)
      simp only [Parser.Context.endSpan, Parser.Context.ofStream, hlast]
  | some token =>
      obtain ⟨-, before, hstands⟩ :=
        TokenStream.scan_standsBehind (List.mem_of_mem_getLast? hlast)
      have hplace : d.span =
          Span.point file (lineAfter before) (columnAfter before + token.lexeme.toList.length) := by
        rw [hspan]
        simp only [Parser.Context.endSpan, Parser.Context.ofStream, hlast]
        rw [hstands.spelling, hstands.line, hstands.column, String.length_toList]
      by_cases hkind : token.kind = .newline
      · rw [hstands.lexeme_newline hkind] at hplace
        exact .newlineEnd token before expected hlast hkind hstands hfault hplace
      · refine .tokenEnd token before expected hlast hkind hstands hfault ?_
        have hnewline := hstands.newline_notMem hkind
        rw [hplace, lineAfter_append hnewline, columnAfter_append hnewline, Int.natCast_add]

/-- What the parser reports about a source stands at a place that it is about. -/
theorem parseProgram_locatedIn {source file : String} {d : Diagnostic}
    (h : parseProgram source file = .error d) : d.LocatedIn source file := by
  rcases Parser.parseProgram_error_cases h with
    hscan | ⟨expected, hint, ⟨token, hmem, rfl⟩ | rfl⟩
  · obtain ⟨text, c, after, hsource, hread, hfault, hspan⟩ := TokenStream.scan_stuckBehind hscan
    exact .character text after c hsource hread hfault hspan
  · obtain ⟨-, before, hstands⟩ := TokenStream.scan_standsBehind hmem
    exact .token token before expected hmem hstands rfl rfl
  · exact locatedIn_end rfl rfl

/-! ## Tokens of a tree -/

/-- A tree as the parser builds it from some of the tokens: it has no foreign parts, and its blocks
have an opening brace. -/
inductive Tree.DrawnFrom (tokens : List Token) : Tree → Prop where
  | literal {token : Token} {kind : Primitive.Kind} :
      token ∈ tokens → DrawnFrom tokens (.literal token kind)
  | reference {name : Token} : name ∈ tokens → DrawnFrom tokens (.reference name)
  | assign {target value : Tree} {token : Token} :
      DrawnFrom tokens target → DrawnFrom tokens value →
      DrawnFrom tokens (.assign target value token)
  | declare {name : Token} {initializer : Tree} :
      name ∈ tokens → DrawnFrom tokens initializer → DrawnFrom tokens (.declare name initializer)
  | call {callee : Tree} {arguments : List Tree} {token : Token} :
      DrawnFrom tokens callee → (∀ argument ∈ arguments, DrawnFrom tokens argument) →
      token ∈ tokens → DrawnFrom tokens (.call callee arguments token)
  | conditional {condition body : Tree} {token : Token} :
      token ∈ tokens → DrawnFrom tokens condition → DrawnFrom tokens body →
      DrawnFrom tokens (.conditional condition body token)
  | debugPrint {operand : Tree} {token : Token} :
      token ∈ tokens → DrawnFrom tokens operand → DrawnFrom tokens (.debugPrint operand token)
  | block {statements : List Tree} {token : Token} :
      token ∈ tokens → (∀ statement ∈ statements, DrawnFrom tokens statement) →
      DrawnFrom tokens (.block statements (some token))

theorem Tree.DrawnFrom.span {tokens : List Token} {tree : Tree} (h : tree.DrawnFrom tokens) :
    ∃ token ∈ tokens, tree.span = .ok token.span := by
  induction h with
  | literal htoken => exact ⟨_, htoken, rfl⟩
  | reference hname => exact ⟨_, hname, rfl⟩
  | assign _ _ ih _ => exact ih
  | declare hname => exact ⟨_, hname, rfl⟩
  | call _ _ _ ih _ => exact ih
  | conditional htoken => exact ⟨_, htoken, rfl⟩
  | debugPrint htoken => exact ⟨_, htoken, rfl⟩
  | block htoken => exact ⟨_, htoken, rfl⟩

theorem Tree.TermOver.drawnFrom {tokens : List Token} {tree : Tree}
    (h : tree.TermOver (· ∈ tokens)) : tree.DrawnFrom tokens := by
  induction h with
  | factor htoken hfactor =>
      cases hfactor with
      | number | truth | text => exact .literal htoken
      | name => exact .reference htoken
  | assign _ _ _ _ ihTarget ihValue => exact .assign ihTarget ihValue
  | call _ _ htoken _ ihCallee ihArguments => exact .call ihCallee ihArguments htoken

theorem Tree.StatementOver.drawnFrom {tokens : List Token} {tree : Tree}
    (h : tree.StatementOver (· ∈ tokens)) : tree.DrawnFrom tokens := by
  induction h with
  | term h => exact h.drawnFrom
  | declare hname _ h => exact .declare hname h.drawnFrom
  | block htoken _ _ ih => exact .block htoken ih
  | conditional htoken _ hcondition _ ih => exact .conditional htoken hcondition.drawnFrom ih
  | debugPrint htoken _ h => exact .debugPrint htoken h.drawnFrom

theorem parseProgram_drawnFrom {source file : String} {trees : List Tree}
    (h : parseProgram source file = .ok trees) :
    ∀ tree ∈ trees, tree.DrawnFrom (TokenStream.scan source file).tokens :=
  fun tree htree => ((TokenStream.program_reads h).statementOver
    (fun _ htoken => htoken) tree htree).drawnFrom

end Scriptlet
