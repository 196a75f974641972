import Scriptlet.Proofs.Analysis.Stamps
import Scriptlet.Proofs.Scanning.Partition
import Scriptlet.Proofs.Sessions.Carrying
import Scriptlet.Proofs.Sessions.Coverage
import Scriptlet.Proofs.Syntax.Origins
/-!
# When a tree can be dumped

A statement of a source can be dumped, as it was read or with its names resolved, just
if none of its integer literals has too many digits.  A session that is to dump one that
cannot be dumped fails with an error from outside the language.
-/

namespace Scriptlet

def Succeeds {α : Type} (work : Except HostError α) : Prop :=
  ∃ value, work = .ok value

theorem succeeds_ok {α : Type} (value : α) : Succeeds (.ok value) ↔ True :=
  iff_true_intro ⟨value, rfl⟩

theorem succeeds_bind {α β : Type} {work : Except HostError α} {next : α → Except HostError β}
    {p q : Prop} (h : Succeeds work ↔ p) (hnext : ∀ value, Succeeds (next value) ↔ q) :
    Succeeds (work >>= next) ↔ p ∧ q := by
  cases work with
  | error error =>
      have hp : ¬ p := fun hp => by
        obtain ⟨value, hvalue⟩ := h.2 hp
        cases hvalue
      refine ⟨?_, fun hpq => absurd hpq.1 hp⟩
      rintro ⟨value, hvalue⟩
      cases hvalue
  | ok value =>
      have hp : p := h.1 ⟨value, rfl⟩
      exact (hnext value).trans (and_iff_right hp).symm

theorem succeeds_map {α β : Type} {work : Except HostError α} {p : Prop} (h : Succeeds work ↔ p)
    (f : α → β) : Succeeds (do return f (← work)) ↔ p :=
  (succeeds_bind h fun value => succeeds_ok (f value)).trans (iff_of_eq (and_true p))

/-! ## Trees -/

namespace Tree

theorem isReadable_iff {tree : Tree} :
    tree.IsReadable ↔ (∀ token kind, tree = .literal token kind → ¬ token.IsOversized kind) ∧
      ∀ child ∈ tree.children, child.IsReadable := by
  refine ⟨fun h => ⟨?_, fun child hchild => h.of_child hchild⟩, ?_⟩
  · rintro token kind rfl
    exact h token kind (by rw [preorder_eq]; exact List.mem_cons_self)
  · rintro ⟨hself, hchildren⟩ token kind hmem
    rw [preorder_eq, List.mem_cons, mem_preorderAll] at hmem
    rcases hmem with heq | ⟨child, hchild, hmem⟩
    · exact hself token kind heq.symm
    · exact hchildren child hchild token kind hmem

theorem ofLiteral_integer {token : Token} (h : token.Spells .integer) :
    Sexp.ofLiteral .integer token.text =
      if Numeral.digitLimit < token.text.toList.length then
        .error (.numeral (.tooManyDigits token.text.toList.length))
      else .ok (.list [.word Primitive.Kind.integer.label,
        .datum (.integer (Nat.ofDigitChars 10 token.text.toList 0))]) := by
  have hdigits : (!token.text.toList.isEmpty && token.text.toList.all Text.isAnyDigit) = true := by
    rw [Bool.and_eq_true, Bool.not_eq_true', List.isEmpty_eq_false_iff, List.all_eq_true]
    refine ⟨h.1, fun c hc => ?_⟩
    rw [Text.isAnyDigit, Text.isDecimalDigit, Numeral.decimalValue?_of_isDigit (h.2 c hc)]
    rfl
  rw [Sexp.ofLiteral, if_pos hdigits, Numeral.read_of_digits h.1 h.2]
  by_cases hlength : Numeral.digitLimit < token.text.toList.length
  · rw [if_pos hlength, if_pos hlength]
  · rw [if_neg hlength, if_neg hlength, Numeral.ofDigits, List.foldl_map]
    rfl

private theorem succeeds_ofLiteral {token : Token} {kind : Primitive.Kind} (h : token.Spells kind) :
    Succeeds (Sexp.ofLiteral kind token.text) ↔ ¬ token.IsOversized kind := by
  cases kind with
  | integer =>
      rw [ofLiteral_integer h]
      by_cases hlength : Numeral.digitLimit < token.text.toList.length
      · rw [if_pos hlength]
        refine ⟨?_, fun hsize => absurd ⟨rfl, hlength⟩ hsize⟩
        rintro ⟨value, hvalue⟩
        cases hvalue
      · rw [if_neg hlength]
        exact ⟨fun _ hsize => hlength hsize.2, fun _ => ⟨_, rfl⟩⟩
  | decimal => exact h.elim
  | text =>
      refine iff_of_true ⟨_, rfl⟩ ?_
      rintro ⟨⟨⟩, -⟩
  | truth =>
      refine iff_of_true ⟨_, rfl⟩ ?_
      rintro ⟨⟨⟩, -⟩

private theorem succeeds_toSexpAll {trees : List Tree}
    (h : ∀ tree ∈ trees, Succeeds tree.toSexp ↔ tree.IsReadable) :
    Succeeds (toSexpAll trees) ↔ ∀ tree ∈ trees, tree.IsReadable := by
  induction trees with
  | nil =>
      rw [toSexpAll, succeeds_ok]
      simp
  | cons tree trees ih =>
      rw [List.forall_mem_cons] at h
      rw [toSexpAll, List.forall_mem_cons]
      exact succeeds_bind h.1 fun first => succeeds_map (ih h.2) _

theorem IsExpression.succeeds_toSexp {tree : Tree} (h : tree.IsExpression) :
    Succeeds tree.toSexp ↔ tree.IsReadable := by
  induction h with
  | literal hspells =>
      rw [toSexp, succeeds_ofLiteral hspells, isReadable_iff]
      simp [children]
  | reference =>
      rw [toSexp, succeeds_ok, isReadable_iff]
      simp [children]
  | assign _ _ ihTarget ihValue =>
      rw [toSexp, isReadable_iff]
      refine (succeeds_bind ihTarget fun _ => succeeds_map ihValue _).trans ?_
      simp [children]
  | call _ _ ihCallee ihArguments =>
      rw [toSexp, isReadable_iff]
      refine (succeeds_bind ihCallee fun _ =>
        succeeds_map (succeeds_toSexpAll ihArguments) _).trans ?_
      simp [children]

/-- A statement of a source can be dumped just if its literals can be read. -/
theorem IsStatement.succeeds_toSexp {tree : Tree} (h : tree.IsStatement) :
    Succeeds tree.toSexp ↔ tree.IsReadable := by
  induction h with
  | expression h => exact h.succeeds_toSexp
  | declare h =>
      rw [toSexp, isReadable_iff]
      refine (succeeds_map h.succeeds_toSexp _).trans ?_
      simp [children]
  | block _ ih =>
      rw [toSexp, isReadable_iff]
      refine (succeeds_map (succeeds_toSexpAll ih) _).trans ?_
      simp [children]
  | conditional hcondition _ ih =>
      rw [toSexp, isReadable_iff]
      refine (succeeds_bind hcondition.succeeds_toSexp fun _ => succeeds_map ih _).trans ?_
      simp [children]
  | debugPrint h =>
      rw [toSexp, isReadable_iff]
      refine (succeeds_map h.succeeds_toSexp _).trans ?_
      simp [children]

theorem IsStatement.succeeds_dump {tree : Tree} (h : tree.IsStatement) (page : Sexp.Page) :
    Succeeds (tree.dump page) ↔ tree.IsReadable :=
  succeeds_map h.succeeds_toSexp _

mutual

/-- Dumps do not show the operators of assignments. -/
theorem toSexp_withOperator (operator : Token) :
    (tree : Tree) → (tree.withOperator operator).toSexp = tree.toSexp
  | .block statements token => by
      rw [withOperator, toSexp, toSexp, toSexpAll_withOperatorAll operator statements]
  | .literal token kind => rfl
  | .reference name => rfl
  | .declare name initializer => by
      rw [withOperator, toSexp, toSexp, toSexp_withOperator operator initializer]
  | .assign target value token => by
      rw [withOperator, toSexp, toSexp, toSexp_withOperator operator target,
        toSexp_withOperator operator value]
  | .call callee arguments token => by
      rw [withOperator, toSexp, toSexp, toSexp_withOperator operator callee,
        toSexpAll_withOperatorAll operator arguments]
  | .conditional condition body token => by
      rw [withOperator, toSexp, toSexp, toSexp_withOperator operator condition,
        toSexp_withOperator operator body]
  | .debugPrint operand token => by
      rw [withOperator, toSexp, toSexp, toSexp_withOperator operator operand]
  | .foreign sort => rfl

theorem toSexpAll_withOperatorAll (operator : Token) :
    (trees : List Tree) → toSexpAll (withOperatorAll operator trees) = toSexpAll trees
  | [] => rfl
  | tree :: trees => by
      rw [withOperatorAll, toSexpAll, toSexpAll, toSexp_withOperator operator tree,
        toSexpAll_withOperatorAll operator trees]

end

end Tree

/-! ## Annotated trees -/

namespace Annotated

/-- Whether the work has a result does not depend on the labels given before. -/
def Labelling.Settles {α : Type} (work : Labelling α) (p : Prop) : Prop :=
  ∀ labels, Succeeds (work.run labels).1 ↔ p

namespace Labelling

private theorem settles_pure {α : Type} (value : α) : Settles (pure value) True :=
  fun _ => succeeds_ok value

private theorem settles_labelOf (identity : Identity) : Settles (labelOf identity) True :=
  fun labels => succeeds_ok (Labels.label identity labels).1

theorem Settles.bind {α β : Type} {work : Labelling α} {next : α → Labelling β} {p q : Prop}
    (h : work.Settles p) (hnext : ∀ value, (next value).Settles q) :
    (work >>= next).Settles (p ∧ q) := by
  intro labels
  have hwork := h labels
  rw [run_bind]
  match hcase : work.run labels with
  | (.ok value, after) =>
      rw [hcase] at hwork
      exact (hnext value after).trans (and_iff_right (hwork.1 ⟨value, rfl⟩)).symm
  | (.error error, after) =>
      rw [hcase] at hwork
      have hp : ¬ p := fun hp => by
        obtain ⟨value, hvalue⟩ := hwork.2 hp
        cases hvalue
      refine ⟨?_, fun hpq => absurd hpq.1 hp⟩
      rintro ⟨value, hvalue⟩
      cases hvalue

theorem Settles.of_iff {α : Type} {work : Labelling α} {p q : Prop} (h : work.Settles p)
    (hiff : p ↔ q) : work.Settles q :=
  fun labels => (h labels).trans hiff

theorem Settles.map {α β : Type} {work : Labelling α} {p : Prop} (h : work.Settles p)
    (f : α → β) : Settles (do return f (← work)) p :=
  (h.bind fun value => settles_pure (f value)).of_iff (iff_of_eq (and_true p))

theorem settles_labelled (token : Token) (symbol : SymbolId) :
    Settles (labelled token symbol) True :=
  (settles_labelOf _).map _

private theorem settles_lift {α : Type} (work : Except HostError α) :
    Settles (liftM work : Labelling α) (Succeeds work) := by
  intro labels
  cases work <;> rfl

end Labelling

open Labelling

mutual

theorem settles_toSexp (operator : Token) :
    (node : Annotated) → node.toSexp.Settles (Succeeds (node.erase operator).toSexp)
  | .block statements scope token => by
      rw [erase, toSexp, Tree.toSexp]
      refine ((settles_labelOf _).bind fun _ =>
        (settles_toSexpAll operator statements).map _).of_iff ?_
      rw [true_and]
      exact (succeeds_map Iff.rfl _).symm
  | .literal token kind => by
      rw [erase, toSexp, Tree.toSexp]
      exact settles_lift _
  | .reference symbol token => by
      rw [erase, toSexp, Tree.toSexp, succeeds_ok]
      exact (settles_labelled token symbol).map _
  | .declare symbol initializer token => by
      rw [erase, toSexp, Tree.toSexp]
      refine ((settles_labelled token symbol).bind fun _ =>
        (settles_toSexp operator initializer).map _).of_iff ?_
      rw [true_and]
      exact (succeeds_map Iff.rfl _).symm
  | .assign symbol value token => by
      rw [erase, toSexp, Tree.toSexp]
      refine ((settles_labelled token symbol).bind fun _ =>
        (settles_toSexp operator value).map _).of_iff ?_
      exact (succeeds_bind (succeeds_ok _) fun _ => succeeds_map Iff.rfl _).symm
  | .call callee arguments token => by
      rw [erase, toSexp, Tree.toSexp]
      refine ((settles_toSexp operator callee).bind fun _ =>
        (settles_toSexpAll operator arguments).map _).of_iff ?_
      exact (succeeds_bind Iff.rfl fun _ => succeeds_map Iff.rfl _).symm
  | .conditional condition body token => by
      rw [erase, toSexp, Tree.toSexp]
      refine ((settles_toSexp operator condition).bind fun _ =>
        (settles_toSexp operator body).map _).of_iff ?_
      exact (succeeds_bind Iff.rfl fun _ => succeeds_map Iff.rfl _).symm
  | .debugPrint operand token => by
      rw [erase, toSexp, Tree.toSexp]
      refine ((settles_toSexp operator operand).map _).of_iff ?_
      exact (succeeds_map Iff.rfl _).symm
  | .foreign sort => by
      rw [erase, toSexp, Tree.toSexp]
      exact settles_lift (.error (.foreignDump sort))

theorem settles_toSexpAll (operator : Token) :
    (nodes : List Annotated) →
      (toSexpAll nodes).Settles (Succeeds (Tree.toSexpAll (eraseAll operator nodes)))
  | [] => by
      rw [eraseAll, toSexpAll, Tree.toSexpAll, succeeds_ok]
      exact settles_pure _
  | node :: nodes => by
      rw [eraseAll, toSexpAll, Tree.toSexpAll]
      refine ((settles_toSexp operator node).bind fun _ =>
        (settles_toSexpAll operator nodes).map _).of_iff ?_
      exact (succeeds_bind Iff.rfl fun _ => succeeds_map Iff.rfl _).symm

end

/-- The annotated tree of an accepted statement can be dumped just if the literals of the statement
can be read. -/
theorem settles_dump {s t : Scoping} {tree : Tree} {node : Annotated}
    (h : Analysis.Elaborates s tree node t) (htree : tree.IsStatement) (page : Sexp.Page) :
    (node.dump page).Settles tree.IsReadable := by
  have hnode := settles_toSexp default node
  rw [h.erase default, Tree.toSexp_withOperator, htree.succeeds_toSexp] at hnode
  exact hnode.map _

end Annotated

/-! ## Dumps before a statement -/

namespace Session

variable {ν : Type} {s t : Session ν} {tree : Tree}

/-- A dump is asked for, and the statement has an integer literal of too many digits. -/
def Watch.ChokesOn (watch : Watch) (tree : Tree) : Prop :=
  (watch.syntaxTree = true ∨ watch.annotatedTree = true) ∧ ¬ tree.IsReadable

def Shown (s t : Session ν) : Prop :=
  ∃ labels journal, t = { s with labels := labels, journal := journal }

theorem Shown.trans {u : Session ν} (h : s.Shown t) (h' : t.Shown u) : s.Shown u := by
  obtain ⟨labels, journal, rfl⟩ := h
  obtain ⟨labels', journal', rfl⟩ := h'
  exact ⟨labels', journal', rfl⟩

/-- Showing a tree changes nothing else, and fails just if the tree cannot be dumped. -/
def Shows (tree : Tree) {α : Type} (act : Act (Session ν) α) : Prop :=
  ∀ s, act.Ensures s (fun _ t => s.Shown t ∧ tree.IsReadable)
    (fun failure t => s.Shown t ∧ ¬ failure.IsFault ∧ ¬ tree.IsReadable)

private theorem shows_ofHost {α : Type} {outcome : Except HostError α}
    (h : Succeeds outcome ↔ tree.IsReadable) :
    Shows tree (Act.ofHost outcome : Act (Session ν) α) := by
  intro s
  have hsame : s.Shown s := ⟨s.labels, s.journal, rfl⟩
  cases outcome with
  | ok value => exact ⟨hsame, h.1 ⟨value, rfl⟩⟩
  | error error =>
      refine ⟨hsame, Failure.not_isFault_host error, fun hreadable => ?_⟩
      obtain ⟨value, hvalue⟩ := h.2 hreadable
      cases hvalue

private theorem shows_labelling {α : Type} {work : Annotated.Labelling α}
    (h : work.Settles tree.IsReadable) : Shows tree (labelling work : Act (Session ν) α) := by
  intro s
  have hwork := h s.labels
  unfold labelling Act.Ensures
  rw [Act.on_bind_of_ok (Act.on_get s)]
  match hrun : work.run s.labels with
  | (outcome, labels) =>
      rw [hrun] at hwork
      dsimp only
      rw [Act.on_bind_of_ok (Act.on_set _ _)]
      have hlabelled : s.Shown { s with labels := labels } := ⟨labels, s.journal, rfl⟩
      refine (shows_ofHost hwork _).mono ?_ ?_
      · exact fun _ t ht => ⟨hlabelled.trans ht.1, ht.2⟩
      · exact fun _ t ht => ⟨hlabelled.trans ht.1, ht.2⟩

theorem Shows.writeLine {act : Act (Session ν) String} (h : Shows tree act) :
    Shows tree (act >>= Session.writeLine) := by
  intro s
  refine (h s).bind (fun _ _ ht => ht) ?_
  rintro text t ⟨ht, hreadable⟩
  exact ⟨ht.trans ⟨t.labels, _, rfl⟩, hreadable⟩

/-- The dumps before an accepted statement fail just if the session chokes on it. -/
theorem observe_shown (watch : Watch) (htree : tree.IsStatement) {r u : Scoping}
    {node : Annotated} (hnode : Analysis.Elaborates r tree node u) (s : Session ν) :
    (observe watch tree node).Ensures s (fun _ t => s.Shown t ∧ ¬ watch.ChokesOn tree)
      (fun failure t => s.Shown t ∧ ¬ failure.IsFault ∧ watch.ChokesOn tree) := by
  have hplain : Shows tree (Act.ofHost (tree.dump .standard) >>= writeLine :
      Act (Session ν) Unit) := (shows_ofHost (htree.succeeds_dump .standard)).writeLine
  have hlabelled : Shows tree (labelling (node.dump .standard) >>= writeLine :
      Act (Session ν) Unit) :=
    (shows_labelling (Annotated.settles_dump hnode htree .standard)).writeLine
  have hsecond : ∀ t, s.Shown t → (watch.syntaxTree = true → tree.IsReadable) →
      (if watch.annotatedTree = true then
        (labelling (node.dump .standard) >>= writeLine : Act (Session ν) Unit)
        else pure ()).Ensures t (fun _ u => s.Shown u ∧ ¬ watch.ChokesOn tree)
        (fun failure u => s.Shown u ∧ ¬ failure.IsFault ∧ watch.ChokesOn tree) := by
    intro t ht hfirst
    split
    · next hannotated =>
      refine (hlabelled t).mono ?_ ?_
      · exact fun _ u hu => ⟨ht.trans hu.1, fun hchokes => hchokes.2 hu.2⟩
      · exact fun _ u hu => ⟨ht.trans hu.1, hu.2.1, .inr hannotated, hu.2.2⟩
    · next hannotated =>
      refine Act.ensures_pure ⟨ht, ?_⟩
      rintro ⟨hsyntactic | hsyntactic, hunreadable⟩
      · exact hunreadable (hfirst hsyntactic)
      · exact hannotated hsyntactic
  unfold observe
  dsimp only
  split
  · next hsyntactic =>
    rw [← bind_assoc]
    refine (hplain s).bind ?_ ?_
    · exact fun _ t ht => ⟨ht.1, ht.2.1, .inl hsyntactic, ht.2.2⟩
    · exact fun _ t ht => hsecond t ht.1 fun _ => ht.2
  · next hsyntactic => exact hsecond s ⟨s.labels, s.journal, rfl⟩ fun h => absurd h hsyntactic

theorem exists_observed (watch : Watch) (htree : tree.IsStatement) (hreadable : tree.IsReadable)
    {r u : Scoping} {node : Annotated} (hnode : Analysis.Elaborates r tree node u)
    (s : Session ν) : ∃ t, s.Shown t ∧ (observe watch tree node).on s = (.ok (), t) := by
  have hshown := (observe_shown watch htree hnode s).mono (fun _ _ ht => ht.1)
    (fun _ _ ht => ht.2.2.2 hreadable)
  obtain ⟨_, t, hon, ht⟩ := hshown.exists_ok
  exact ⟨t, ht, hon⟩

end Session

/-! ## Short sources -/

theorem Scanner.length_numeral_le (file : String) (s : Scanner) :
    ∀ token ∈ (s.run file).tokens, token.kind = .number →
      token.text.toList.length ≤ s.rest.length := by
  induction hlength : s.rest.length using Nat.strongRecOn generalizing s with
  | _ n ih =>
      rcases s.step_cases file with ⟨-, hstep⟩ | ⟨c, rest, -, hstep⟩ |
        ⟨c, rest, lexeme, left, hrest, hread, hstep⟩
      · simp [run_of_done hstep]
      · simp [run_of_stuck hstep]
      · rw [run_of_token hstep]
        intro token htoken hkind
        rcases List.mem_cons.1 htoken with rfl | htoken
        · have htext : lexeme.text = lexeme.chars := by
            apply Lexeme.text_eq_chars hread
            rw [show lexeme.kind = .number from hkind]
            decide
          have hle := Lexeme.length_dropWhile_le Text.isBlank s.rest
          rw [hrest, Lexeme.read?_eq_append hread, List.length_append] at hle
          change (String.ofList lexeme.text).toList.length ≤ n
          rw [String.toList_ofList, htext]
          omega
        · have hlt := hlength ▸ length_step hstep
          exact (ih _ hlt _ rfl token htoken hkind).trans hlt.le

namespace Tree

theorem StatementOver.isReadable {tree : Tree}
    (h : tree.StatementOver fun token =>
      token.kind = .number → token.text.toList.length ≤ Numeral.digitLimit) : tree.IsReadable := by
  rw [isReadable_iff]
  refine ⟨?_, fun child hchild => (h.of_child hchild).isReadable⟩
  rintro token kind rfl ⟨rfl, hsize⟩
  obtain ⟨htoken, hfactor⟩ := statementOver_literal.1 h
  cases hfactor with
  | number hkind => exact absurd (htoken hkind) (Nat.not_le.2 hsize)
termination_by sizeOf tree
decreasing_by exact sizeOf_lt_of_mem_children hchild

end Tree

theorem isReadable_of_length {source file : String} {trees : List Tree}
    (hlength : source.toList.length ≤ Numeral.digitLimit)
    (hparse : parseProgram source file = .ok trees) : ∀ tree ∈ trees, tree.IsReadable := by
  intro tree htree
  have hover := (TokenStream.program_reads hparse).statementOver (fun _ h => h) tree htree
  refine (hover.mono fun token htoken hkind => ?_).isReadable
  exact (Scanner.length_numeral_le file _ token htoken hkind).trans hlength

end Scriptlet
