/-!
# Escapes in string literals

A backslash and the character after it may stand for one other character. Other pairs stay as they
are.
-/

namespace Calculator.Text

def escaped? : Char → Option Char
  | '\\' => some '\\'
  | '\'' => some '\''
  | '"' => some '"'
  | 'n' => some '\n'
  | 'r' => some '\r'
  | 't' => some '\t'
  | _ => none

def unescapeChars : List Char → List Char
  | '\\' :: c :: cs =>
    match escaped? c with
    | some d => d :: unescapeChars cs
    | none => '\\' :: c :: unescapeChars cs
  | c :: cs => c :: unescapeChars cs
  | [] => []

def unescape (s : String) : String := String.ofList (unescapeChars s.toList)

end Calculator.Text
