import Registrar.Text.Letter

/-!
# Tokens

The tokens of projections and queries, their names, and the classes of characters that they are
made of.
-/

set_option autoImplicit false

namespace Registrar

/-- **The kinds of tokens.** -/
inductive Token where
  /-- A character that starts no token. -/
  | illegal
  | endOfInput
  /-- A run of blanks. -/
  | blank
  /-- The name of an attribute. -/
  | name
  /-- What a query compares an attribute with. -/
  | value
  /-- How a query compares them. -/
  | operator
  | asterisk
  | backslash
  | closeParenthesis
  | closeBracket
  | colon
  | comma
  | equals
  | slash
  | greater
  | less
  | openParenthesis
  | openBracket
  | singleQuote
  | tilde
  /-- An underscore that no name goes on from. -/
  | underscore
deriving DecidableEq, Repr

namespace Token

def all : List Token :=
  [ .illegal, .endOfInput, .blank, .name, .value, .operator, .asterisk, .backslash,
    .closeParenthesis, .closeBracket, .colon, .comma, .equals, .slash, .greater, .less,
    .openParenthesis, .openBracket, .singleQuote, .tilde, .underscore ]

/-- How a token is shown: a symbol by itself, any other by the name of its kind. -/
def display : Token → String
  | .illegal => "ILLEGAL"
  | .endOfInput => "EOS"
  | .blank => "WS"
  | .name => "IDENT"
  | .value => "VALUE"
  | .operator => "OP"
  | .asterisk => "*"
  | .backslash => "\\"
  | .closeParenthesis => ")"
  | .closeBracket => "]"
  | .colon => ":"
  | .comma => ","
  | .equals => "="
  | .slash => "/"
  | .greater => ">"
  | .less => "<"
  | .openParenthesis => "("
  | .openBracket => "["
  | .singleQuote => "'"
  | .tilde => "~"
  | .underscore => "_"

/-- The token that a character is by itself. -/
def ofSymbol? (c : Char) : Option Token :=
  match c with
  | '*' => some .asterisk
  | '\\' => some .backslash
  | ')' => some .closeParenthesis
  | ']' => some .closeBracket
  | ':' => some .colon
  | ',' => some .comma
  | '=' => some .equals
  | '/' => some .slash
  | '>' => some .greater
  | '<' => some .less
  | '(' => some .openParenthesis
  | '[' => some .openBracket
  | '\'' => some .singleQuote
  | '~' => some .tilde
  | '_' => some .underscore
  | _ => none

def startsName (c : Char) : Bool := Text.isLetter c || c == '_'

def continuesName (c : Char) : Bool := Text.isLetterOrNumeral c || c == '_'

def isOperator (c : Char) : Bool := c == '=' || c == ':' || c == '>' || c == '<'

end Token

end Registrar
