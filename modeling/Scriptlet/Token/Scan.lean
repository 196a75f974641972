import Scriptlet.Diagnostic
import Scriptlet.Text.Word
import Scriptlet.Token
/-!
# Scanning

A source is read from left to right, one token at a time.  Blanks between tokens are skipped; a
newline is a token of its own.  A character that starts no token, and a text literal that does not
end on its line, stop the scan for good.
-/

namespace Scriptlet

/-- Where a scan stands: what is left to read, the line and column of its first character, and the
rest of the source as it was at the start of that line. -/
structure Scanner where
  rest : List Char
  line : Nat
  column : Nat
  lineStart : List Char
deriving DecidableEq, Repr, Inhabited

namespace Scanner

def start (source : String) : Scanner where
  rest := source.toList
  line := 1
  column := 1
  lineStart := source.toList

/-- The line that the scan stands in, without its newline. -/
def currentLine (s : Scanner) : String :=
  String.ofList (s.lineStart.takeWhile (· != '\n'))

def skipBlanks (s : Scanner) : Scanner where
  rest := s.rest.dropWhile Text.isBlank
  line := s.line
  column := s.column + (s.rest.takeWhile Text.isBlank).length
  lineStart := s.lineStart

/-- Moves past a lexeme, after which `rest` is left. -/
def advance (s : Scanner) (kind : Token.Kind) (lexeme rest : List Char) : Scanner :=
  match kind with
  | .newline => { rest := rest, line := s.line + 1, column := 1, lineStart := rest }
  | _ => { s with rest := rest, column := s.column + lexeme.length }

end Scanner

/-- A token without its place: its sort, the text it denotes and its lexeme. -/
structure Lexeme where
  kind : Token.Kind
  text : List Char
  chars : List Char
deriving DecidableEq, Repr, Inhabited

namespace Lexeme

/-- The words that are no names. -/
def keyword? (word : List Char) : Option Token.Kind :=
  match String.ofList word with
  | "var" => some .var
  | "true" | "false" => some .truth
  | "if" => some .if_
  | _ => none

/-- The tokens of one character. -/
def punctuation? : Char → Option Token.Kind
  | '\n' => some .newline
  | '=' => some .assign
  | ';' => some .semicolon
  | '\x7b' => some .leftCurly
  | '\x7d' => some .rightCurly
  | '(' => some .leftParen
  | ')' => some .rightParen
  | ',' => some .comma
  | ':' => some .debugPrint
  | _ => none

/-- The character that an escape stands for; an unknown one stands for itself. -/
def unescape : Char → Char
  | 'n' => '\n'
  | 'r' => '\r'
  | 't' => '\t'
  | 'b' => '\x08'
  | 'a' => '\x07'
  | 'v' => '\x0b'
  | c => c

/-- Reads a text literal behind its opening quote: the content, the characters up to and with the
closing quote, and what follows.  There is none if the line ends first. -/
def textBody? : List Char → Option (List Char × List Char × List Char)
  | [] => none
  | '"' :: rest => some ([], ['"'], rest)
  | '\\' :: c :: rest =>
    if c = '\n' then none
    else
      (textBody? rest).map fun (text, chars, left) =>
        (unescape c :: text, '\\' :: c :: chars, left)
  | c :: rest =>
    if c = '\n' ∨ c = '\\' then none
    else (textBody? rest).map fun (text, chars, left) => (c :: text, c :: chars, left)

/-- Reads the lexeme at the start of a list that starts with `c`, and what follows it. -/
def read? (c : Char) (rest : List Char) : Option (Lexeme × List Char) :=
  if Text.isNameStart c then
    let word := c :: rest.takeWhile Text.isWord
    some (⟨(keyword? word).getD .name, word, word⟩, rest.dropWhile Text.isWord)
  else if c.isDigit then
    let digits := c :: rest.takeWhile Char.isDigit
    some (⟨.number, digits, digits⟩, rest.dropWhile Char.isDigit)
  else if c = '"' then
    (textBody? rest).map fun (text, chars, left) => (⟨.text, text, '"' :: chars⟩, left)
  else
    (punctuation? c).map fun kind => (⟨kind, [c], [c]⟩, rest)

theorem length_textBody? {chars text body left : List Char}
    (h : textBody? chars = some (text, body, left)) : left.length ≤ chars.length := by
  fun_induction textBody? chars generalizing text body left with
  | case1 => simp at h
  | case2 rest => simp at h; simp [← h.2.2]
  | case3 => simp at h
  | case4 c rest _ ih =>
    obtain ⟨⟨t, b, l⟩, hb, he⟩ := Option.map_eq_some_iff.1 h
    simp only [Prod.mk.injEq] at he
    have := ih hb
    simp only [List.length_cons, ← he.2.2]
    omega
  | case5 => simp at h
  | case6 c rest _ _ _ ih =>
    obtain ⟨⟨t, b, l⟩, hb, he⟩ := Option.map_eq_some_iff.1 h
    simp only [Prod.mk.injEq] at he
    have := ih hb
    simp only [List.length_cons, ← he.2.2]
    omega

theorem length_dropWhile_le (p : Char → Bool) (chars : List Char) :
    (chars.dropWhile p).length ≤ chars.length :=
  (List.dropWhile_suffix p).length_le

theorem length_read? {c : Char} {rest left : List Char} {lexeme : Lexeme}
    (h : read? c rest = some (lexeme, left)) : left.length < (c :: rest).length := by
  unfold read? at h
  split at h
  · simp only [Option.some.injEq, Prod.mk.injEq] at h
    rw [← h.2]
    exact Nat.lt_succ_of_le (length_dropWhile_le _ _)
  · split at h
    · simp only [Option.some.injEq, Prod.mk.injEq] at h
      rw [← h.2]
      exact Nat.lt_succ_of_le (length_dropWhile_le _ _)
    · split at h
      · obtain ⟨⟨t, b, l⟩, hb, he⟩ := Option.map_eq_some_iff.1 h
        simp only [Prod.mk.injEq] at he
        rw [← he.2]
        exact Nat.lt_succ_of_le (length_textBody? hb)
      · obtain ⟨kind, _, he⟩ := Option.map_eq_some_iff.1 h
        simp only [Prod.mk.injEq] at he
        rw [← he.2]
        exact Nat.lt_succ_self _

end Lexeme

namespace Scanner

/-- The fault of a character at which no token can be read. -/
def stuck (file : String) (s : Scanner) (c : Char) : Diagnostic :=
  let fault := if c = '"' then .unterminatedText "\"" else .invalidCharacter (String.singleton c)
  (Diagnostic.of fault (Span.point file s.line s.column)).withSource s.currentLine

/-- The token that a lexeme makes where the scan stands. -/
def place (file : String) (s : Scanner) (lexeme : Lexeme) : Token where
  kind := lexeme.kind
  text := String.ofList lexeme.text
  line := s.line
  column := s.column
  lexeme := String.ofList lexeme.chars
  file := file

inductive Step where
  | done
  | stuck (diagnostic : Diagnostic)
  | token (token : Token) (next : Scanner)

def read (file : String) (s : Scanner) : Step :=
  match s.rest with
  | [] => .done
  | c :: rest =>
    match Lexeme.read? c rest with
    | none => .stuck (s.stuck file c)
    | some (lexeme, left) => .token (s.place file lexeme) (s.advance lexeme.kind lexeme.chars left)

def step (file : String) (s : Scanner) : Step :=
  s.skipBlanks.read file

theorem rest_advance (s : Scanner) (kind : Token.Kind) (lexeme rest : List Char) :
    (s.advance kind lexeme rest).rest = rest := by
  unfold advance
  split <;> rfl

theorem length_read {file : String} {s next : Scanner} {token : Token}
    (h : s.read file = .token token next) : next.rest.length < s.rest.length := by
  unfold read at h
  split at h
  · simp at h
  · next c rest heq =>
    split at h
    · simp at h
    · next lexeme left hread =>
      simp only [Step.token.injEq] at h
      rw [← h.2, rest_advance, heq]
      exact Lexeme.length_read? hread

theorem length_step {file : String} {s next : Scanner} {token : Token}
    (h : s.step file = .token token next) : next.rest.length < s.rest.length :=
  Nat.lt_of_lt_of_le (length_read h) (Lexeme.length_dropWhile_le _ _)

end Scanner

/-- The tokens of a source up to its end, or up to the fault that stops the scan. -/
structure TokenStream where
  tokens : List Token
  fault : Option Diagnostic
deriving DecidableEq, Repr, Inhabited

/-- Reads tokens until the source ends or the scan is stuck. -/
def Scanner.run (file : String) (s : Scanner) : TokenStream :=
  match _h : s.step file with
  | .done => ⟨[], none⟩
  | .stuck diagnostic => ⟨[], some diagnostic⟩
  | .token token next =>
    let stream := next.run file
    ⟨token :: stream.tokens, stream.fault⟩
termination_by s.rest.length
decreasing_by exact Scanner.length_step _h

namespace TokenStream

def scan (source file : String) : TokenStream :=
  (Scanner.start source).run file

def ofList (tokens : List Token) : TokenStream where
  tokens := tokens
  fault := none

inductive Answer where
  | token (token : Token)
  | stuck (diagnostic : Diagnostic)
  | done

/-- The answers to the first `count` requests.  Once ended or stuck, a stream stays so. -/
def answers (stream : TokenStream) (count : Nat) : List Answer :=
  let last := match stream.fault with
    | some diagnostic => Answer.stuck diagnostic
    | none => Answer.done
  (stream.tokens.take count).map .token ++ List.replicate (count - stream.tokens.length) last

end TokenStream

end Scriptlet
