import Scriptlet.Annotated
/-!
# Moving down

A piece of source that moves down keeps everything but its line numbers: its
tokens, the trees that are made of them, and the faults at their places.  An
unknown place stays unknown.  The texts that messages and dumps make of a tree
name no lines, so they stay as they are.
-/

namespace Scriptlet

/-- A line some lines further down; line zero stands for an unknown place. -/
def lowerLine (n : Nat) (line : Int) : Int :=
  if line = 0 then 0 else line + n

namespace Span

def down (n : Nat) (span : Span) : Span :=
  { span with line := lowerLine n span.line, endLine := lowerLine n span.endLine }

@[simp] theorem down_unknown (n : Nat) : unknown.down n = unknown := rfl

private theorem down_ofLexeme (n : Nat) (file : String) (line column : Int) (lexeme : String) :
    (ofLexeme file line column lexeme).down n =
      ofLexeme file (lowerLine n line) column lexeme := by
  simp [ofLexeme, between, down]

end Span

namespace Token

def down (n : Nat) (token : Token) : Token :=
  { token with line := lowerLine n token.line }

@[simp] theorem down_kind (n : Nat) (token : Token) : (token.down n).kind = token.kind := rfl

@[simp] theorem down_text (n : Nat) (token : Token) : (token.down n).text = token.text := rfl

@[simp] theorem down_spelling (n : Nat) (token : Token) :
    (token.down n).spelling = token.spelling := rfl

@[simp] theorem down_span (n : Nat) (token : Token) : (token.down n).span = token.span.down n :=
  (Span.down_ofLexeme n token.file token.line token.column token.lexeme).symm

end Token

def Diagnostic.down (n : Nat) (d : Diagnostic) : Diagnostic :=
  { d with
    span := d.span.down n
    notes := d.notes.map fun note => { note with span := note.span.map (Span.down n) } }

namespace Failure

/-- The failure some lines further down; an error outside the language has no place. -/
def down (n : Nat) : Failure → Failure
  | .fault diagnostic => .fault (diagnostic.down n)
  | .host error => .host error

@[simp] theorem down_located (n : Nat) (fault : Fault) (span : Span) :
    (located fault span).down n = located fault (span.down n) := rfl

@[simp] theorem down_placeless (n : Nat) (fault : Fault) :
    (placeless fault).down n = placeless fault := rfl

end Failure

namespace Tree

mutual

def down (n : Nat) : Tree → Tree
  | block statements token => block (downAll n statements) (token.map (Token.down n))
  | literal token kind => literal (token.down n) kind
  | reference name => reference (name.down n)
  | assign target value token => assign (target.down n) (value.down n) (token.down n)
  | declare name initializer => declare (name.down n) (initializer.down n)
  | call callee arguments token => call (callee.down n) (downAll n arguments) (token.down n)
  | conditional condition body token =>
    conditional (condition.down n) (body.down n) (token.down n)
  | debugPrint operand token => debugPrint (operand.down n) (token.down n)
  | foreign sort => foreign sort

def downAll (n : Nat) : List Tree → List Tree
  | [] => []
  | tree :: trees => tree.down n :: downAll n trees

end

theorem downAll_eq_map (n : Nat) (trees : List Tree) : downAll n trees = trees.map (down n) := by
  induction trees with
  | nil => rfl
  | cons tree trees ih => rw [downAll, ih, List.map_cons]

@[simp] theorem length_downAll (n : Nat) (trees : List Tree) :
    (downAll n trees).length = trees.length := by
  rw [downAll_eq_map, List.length_map]

@[simp] theorem describe_down (n : Nat) (tree : Tree) : (tree.down n).describe = tree.describe := by
  cases tree with
  | call callee arguments token => rw [down, describe, describe, describe_down n callee]
  | assign target value token => rw [down, describe, describe, describe_down n target]
  | _ => rfl

theorem span_down (n : Nat) (tree : Tree) : (tree.down n).span = tree.span.map (Span.down n) := by
  match tree with
  | literal token _ | conditional _ _ token | debugPrint _ token =>
      rw [down, span, span, Token.down_span]
      rfl
  | reference name | declare name _ =>
      rw [down, span, span, Token.down_span]
      rfl
  | assign target _ _ =>
      rw [down, span, span]
      exact span_down n target
  | call callee _ _ =>
      rw [down, span, span]
      exact span_down n callee
  | block _ (some token) =>
      rw [down, Option.map_some, span, span, Token.down_span]
      rfl
  | block (first :: rest) none =>
      rw [down, downAll, Option.map_none, span, span]
      exact span_down n first
  | block [] none => rfl
  | foreign sort => rfl

mutual

@[simp] theorem toSexp_down (n : Nat) : (tree : Tree) → (tree.down n).toSexp = tree.toSexp
  | block statements token => by rw [down, toSexp, toSexp, toSexpAll_downAll n statements]
  | literal token kind => rfl
  | reference name => rfl
  | assign target value token => by
      rw [down, toSexp, toSexp, toSexp_down n target, toSexp_down n value]
  | declare name initializer => by
      rw [down, toSexp, toSexp, toSexp_down n initializer, Token.down_text]
  | call callee arguments token => by
      rw [down, toSexp, toSexp, toSexp_down n callee, toSexpAll_downAll n arguments]
  | conditional condition body token => by
      rw [down, toSexp, toSexp, toSexp_down n condition, toSexp_down n body]
  | debugPrint operand token => by rw [down, toSexp, toSexp, toSexp_down n operand]
  | foreign sort => rfl

theorem toSexpAll_downAll (n : Nat) :
    (trees : List Tree) → toSexpAll (downAll n trees) = toSexpAll trees
  | [] => rfl
  | tree :: trees => by
      rw [downAll, toSexpAll, toSexpAll, toSexp_down n tree, toSexpAll_downAll n trees]

end

@[simp] theorem dump_down (n : Nat) (page : Sexp.Page) (tree : Tree) :
    (tree.down n).dump page = tree.dump page := by
  rw [dump, dump, toSexp_down]

end Tree

namespace Annotated

mutual

def down (n : Nat) : Annotated → Annotated
  | block statements scope token => block (downAll n statements) scope (token.map (Token.down n))
  | literal token kind => literal (token.down n) kind
  | reference symbol token => reference symbol (token.down n)
  | declare symbol initializer token => declare symbol (initializer.down n) (token.down n)
  | assign symbol value token => assign symbol (value.down n) (token.down n)
  | call callee arguments token => call (callee.down n) (downAll n arguments) (token.down n)
  | conditional condition body token =>
    conditional (condition.down n) (body.down n) (token.down n)
  | debugPrint operand token => debugPrint (operand.down n) (token.down n)
  | foreign sort => foreign sort

def downAll (n : Nat) : List Annotated → List Annotated
  | [] => []
  | node :: nodes => node.down n :: downAll n nodes

end

mutual

@[simp] theorem toSexp_down (n : Nat) : (node : Annotated) → (node.down n).toSexp = node.toSexp
  | block statements scope token => by
      rw [down, toSexp, toSexp, toSexpAll_downAll n statements]
  | literal token kind => rfl
  | reference symbol token => rfl
  | declare symbol initializer token => by
      rw [down, toSexp, toSexp, toSexp_down n initializer]
      rfl
  | assign symbol value token => by
      rw [down, toSexp, toSexp, toSexp_down n value]
      rfl
  | call callee arguments token => by
      rw [down, toSexp, toSexp, toSexp_down n callee, toSexpAll_downAll n arguments]
  | conditional condition body token => by
      rw [down, toSexp, toSexp, toSexp_down n condition, toSexp_down n body]
  | debugPrint operand token => by rw [down, toSexp, toSexp, toSexp_down n operand]
  | foreign sort => rfl

theorem toSexpAll_downAll (n : Nat) :
    (nodes : List Annotated) → toSexpAll (downAll n nodes) = toSexpAll nodes
  | [] => rfl
  | node :: nodes => by
      rw [downAll, toSexpAll, toSexpAll, toSexp_down n node, toSexpAll_downAll n nodes]

end

@[simp] theorem dump_down (n : Nat) (page : Sexp.Page) (node : Annotated) :
    (node.down n).dump page = node.dump page := by
  rw [dump, dump, toSexp_down]

end Annotated

/-! ## No lines down -/

@[simp] theorem lowerLine_zero (line : Int) : lowerLine 0 line = line := by
  unfold lowerLine
  split
  · next h => exact h.symm
  · exact Int.add_zero line

@[simp] theorem Span.down_zero (span : Span) : span.down 0 = span := by
  simp [down]

@[simp] theorem Token.down_zero (token : Token) : token.down 0 = token := by
  simp [down]

@[simp] theorem Diagnostic.down_zero (d : Diagnostic) : d.down 0 = d := by
  have hspan : ∀ span : Option Span, span.map (Span.down 0) = span := by
    intro span
    cases span <;> simp
  simp [down, hspan]

@[simp] theorem Failure.down_zero (failure : Failure) : failure.down 0 = failure := by
  cases failure <;> simp [down]

namespace Tree

mutual

@[simp] theorem down_zero : (tree : Tree) → tree.down 0 = tree
  | block statements token => by
      cases token <;> simp [down, downAll_zero statements]
  | literal token kind => by simp [down]
  | reference name => by simp [down]
  | assign target value token => by simp [down, down_zero target, down_zero value]
  | declare name initializer => by simp [down, down_zero initializer]
  | call callee arguments token => by simp [down, down_zero callee, downAll_zero arguments]
  | conditional condition body token => by simp [down, down_zero condition, down_zero body]
  | debugPrint operand token => by simp [down, down_zero operand]
  | foreign sort => rfl

theorem downAll_zero : (trees : List Tree) → downAll 0 trees = trees
  | [] => rfl
  | tree :: trees => by rw [downAll, down_zero tree, downAll_zero trees]

end

end Tree

end Scriptlet
