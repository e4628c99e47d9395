import Calculator.Failure
import Calculator.Grammar.Lexer
import Calculator.Grammar.Tree
import Calculator.Text.Quoted

/-!
# From a source to its tree

Lines are read one by one. A line that is none is rejected at its first token that cannot come next.
-/

namespace Calculator.Grammar

/-- The tokens of a line, and the newline at its end. -/
structure Line where
  body : List Token
  newline : Option Token

/-- Nothing after the last newline is no line. -/
def Line.split : List Token → List Line
  | [] => []
  | token :: tokens =>
    if token.kind = .newline then ⟨[], some token⟩ :: split tokens
    else
      match split tokens with
      | [] => [⟨[token], none⟩]
      | line :: lines =>
        { line with body := token :: line.body } :: lines

/-- Why tokens are no script. -/
inductive Rejection where
  | token (token : Token)
  /-- All tokens could be the start of a script. -/
  | unfinished

/-- The children of the line, the last one first. -/
def Line.read (line : Line) : Except Rejection (List Sketch) :=
  let mark := (line.newline.map Sketch.leaf).toList
  if line.body.isEmpty then .ok mark
  else
    let found := (Chart.ofTokens line.body).top .lineBody
    match found.ends.find? fun e => e.rest = 0 with
    | some e => .ok (mark ++ e.parts)
    | none =>
      match line.body[line.body.length - found.reach]?.or line.newline with
      | some token => .error (.token token)
      | none => .error .unfinished

def readLines : List Line → Except Rejection (List Sketch)
  | [] => .ok []
  | line :: lines => do
    let parts ← line.read
    return .node .line parts :: (← readLines lines)

def readTokens (tokens : List Token) : Except Rejection (List Sketch) :=
  readLines (Line.split tokens)

/-- The source from a place on. -/
def siteFrom (source : String) (index : Nat) : Site :=
  ⟨String.ofList (source.toList.drop index), index⟩

def rejectToken (source : String) (token : Token) : Failure :=
  .located (siteFrom source token.site.index)
    (.grammar ("unexpected " ++ token.kind.name ++ " " ++ Text.quoted token.site.text))

def rejectCharacter (source : String) (index : Nat) : Failure :=
  let site := siteFrom source index
  .located site
    (.grammar ("unexpected character " ++ Text.quoted (String.ofList (site.text.toList.take 1))))

def rejectEnd (source : String) : Failure :=
  .located (siteFrom source source.length) (.grammar "unexpected end of input")

/-- A token that cannot come next is reported before a character that starts none. -/
def parse (source : String) : Attempt Tree :=
  let lexed := lex source
  match readTokens lexed.tokens, lexed.stuck with
  | .error (.token token), _ => .error (rejectToken source token)
  | _, some index => .error (rejectCharacter source index)
  | .error .unfinished, none => .error (rejectEnd source)
  | .ok lines, none =>
    let chars := source.toList.toArray
    .ok (Tree.collapse chars .script (lines.map (Tree.ofSketch chars)))

/-- The root of a tree is a script. -/
theorem parse_eq_script {source : String} {tree : Tree} (h : parse source = .ok tree) :
    ∃ site children, tree = .node .script site children := by
  unfold parse at h
  dsimp only at h
  split at h
  case h_4 =>
    cases h
    unfold Tree.collapse
    split
    · exact ⟨_, _, rfl⟩
    · exact ⟨_, _, rfl⟩
  all_goals cases h

end Calculator.Grammar
