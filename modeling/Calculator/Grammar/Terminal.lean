import Calculator.Site

/-! # Terminals and tokens -/

namespace Calculator.Grammar

inductive Terminal where
  | hex | bin | oct | sci | float | int | boolean | string
  /-- A quote that nothing closes, with the rest of its line. -/
  | openLiteral
  | currencySymbol | identifier
  | pow | star | slash | percent | plus | minus | shiftLeft | shiftRight
  | le | ge | lt | gt | eq | ne | equal
  | and | or | amp | pipe | caret | tilde | bang
  | question | colon | comma
  | lpar | rpar | lsqb | rsqb | lbrace | rbrace | atSign
  | newline
  /-- A line continuation that nothing follows. -/
  | openLine
  deriving DecidableEq, Repr

namespace Terminal

/-- How messages and trees name it. -/
def name : Terminal → String
  | hex => "hex" | bin => "bin" | oct => "oct" | sci => "sci" | float => "float" | int => "int"
  | boolean => "boolean" | string => "string" | openLiteral => "error_unterminated_literal"
  | currencySymbol => "currency_symbol" | identifier => "identifier"
  | pow => "pow" | star => "star" | slash => "slash" | percent => "percent"
  | plus => "plus" | minus => "minus" | shiftLeft => "lshift" | shiftRight => "rshift"
  | le => "le" | ge => "ge" | lt => "lt" | gt => "gt" | eq => "eq" | ne => "ne"
  | equal => "equal" | and => "and" | or => "or" | amp => "amp" | pipe => "pipe"
  | caret => "caret" | tilde => "tilde" | bang => "bang"
  | question => "qmark" | colon => "colon" | comma => "comma"
  | lpar => "lpar" | rpar => "rpar" | lsqb => "lsqb" | rsqb => "rsqb"
  | lbrace => "lbrace" | rbrace => "rbrace" | atSign => "at"
  | newline => "newline" | openLine => "error_unterminated_linebreak"

end Terminal

structure Token where
  kind : Terminal
  site : Site
  deriving DecidableEq, Repr

end Calculator.Grammar
