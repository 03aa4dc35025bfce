/-
This file lists the kinds of tokens of the language and their fixed spellings.
-/

namespace Lox

/-- What a token is. -/
inductive Token.Kind where
  | leftParen | rightParen | leftBrace | rightBrace | comma | minus | plus | semicolon | slash
  | star | percent
  | bang | bangEqual | equal | equalEqual | greater | greaterEqual | less | lessEqual
  | identifier | string | number
  | and | else | false | for | fun | if | nil | or | print | return | true | var | while | const
  | eof
  deriving DecidableEq, Repr

/-- A token: its kind, its spelling in the source and the line it stands on. -/
structure Token where
  kind : Token.Kind
  lexeme : String
  line : Nat
  deriving DecidableEq, Repr

namespace Token

/-- The kind of a character that is a token by itself whatever follows. -/
def Kind.ofSingle? : Char → Option Kind
  | '(' => some .leftParen
  | ')' => some .rightParen
  | '{' => some .leftBrace
  | '}' => some .rightBrace
  | ',' => some .comma
  | '-' => some .minus
  | '+' => some .plus
  | ';' => some .semicolon
  | '*' => some .star
  | '%' => some .percent
  | _ => none

/-- The kinds of a character that may stand alone or have an equals sign after it. -/
def Kind.ofOperator? : Char → Option (Kind × Kind)
  | '!' => some (.bang, .bangEqual)
  | '=' => some (.equal, .equalEqual)
  | '<' => some (.less, .lessEqual)
  | '>' => some (.greater, .greaterEqual)
  | _ => none

/-- The words that are no identifiers. -/
def reservedWords : List (String × Kind) :=
  [("and", .and), ("else", .else), ("false", .false), ("for", .for), ("fun", .fun), ("if", .if),
    ("nil", .nil), ("or", .or), ("print", .print), ("return", .return), ("true", .true),
    ("var", .var), ("while", .while), ("const", .const)]

/-- The kind of a word: its own if it is reserved, else an identifier. -/
def Kind.ofWord (word : String) : Kind :=
  (reservedWords.lookup word).getD .identifier

end Token

/-- The tokens of a source text and the token that marks its end. -/
structure TokenStream where
  tokens : List Token
  eof : Token
  deriving DecidableEq, Repr

namespace TokenStream

/-- All tokens of the stream, the end included. -/
def toList (stream : TokenStream) : List Token := stream.tokens ++ [stream.eof]

@[simp] theorem length_toList (stream : TokenStream) :
    stream.toList.length = stream.tokens.length + 1 := by
  simp [toList]

end TokenStream

end Lox
