import IntLang.Single.Shortest
import IntLang.Text.Quoted

/-!
# Tokens

The vocabulary of the language: operators, value types, keywords, literals, and the flat stream
of tokens made of them.

Operators, types and keywords have numbers, and streams may be handed over in numbers. A number
outside the table is kept as `unassigned`: it is carried along and printed, and means nothing.

## Main definitions

* `Operator`, `ValueType`, `Keyword`, each with `ofCode`, a spelling and a look-up;
* `Literal` and `ValueType.zero`, the value a parameter has by default;
* `Token` and `Token.describe`, the form in which tokens are listed and shown in messages;
* `Token.fields`, a token as a record that has room for every kind, and `Token.Fields.token`.
-/

namespace IntLang

/-! ### Operators -/

/-- Punctuation and symbols, one character each. -/
inductive Operator where
  | plus
  | minus
  | star
  | slash
  | equals
  | ampersand
  | hash
  | less
  | greater
  | openBrace
  | closeBrace
  | openParen
  | closeParen
  | quote
  | comma
  | dot
  | semicolon
  /-- A number that no operator has. -/
  | unassigned (code : Int)
deriving DecidableEq, Inhabited

/-- How a value without a name is shown. -/
def unknownName : Text := "UNKNOWN"

namespace Operator

/-- The character an operator is written with, if it has one. -/
def char? : Operator → Option Char
  | plus => some '+'
  | minus => some '-'
  | star => some '*'
  | slash => some '/'
  | equals => some '='
  | ampersand => some '&'
  | hash => some '#'
  | less => some '<'
  | greater => some '>'
  | openBrace => some '{'
  | closeBrace => some '}'
  | openParen => some '('
  | closeParen => some ')'
  | quote => some '"'
  | comma => some ','
  | dot => some '.'
  | semicolon => some ';'
  | unassigned _ => none

/-- The operator written with a character. -/
def ofChar? : Char → Option Operator
  | '+' => some plus
  | '-' => some minus
  | '*' => some star
  | '/' => some slash
  | '=' => some equals
  | '&' => some ampersand
  | '#' => some hash
  | '<' => some less
  | '>' => some greater
  | '{' => some openBrace
  | '}' => some closeBrace
  | '(' => some openParen
  | ')' => some closeParen
  | '"' => some quote
  | ',' => some comma
  | '.' => some dot
  | ';' => some semicolon
  | _ => none

/-- Whether a character is an operator. -/
def isOperatorChar (c : Char) : Bool := (ofChar? c).isSome

/-- The character of an operator; `UNKNOWN` for a number without one. -/
def symbol (o : Operator) : Text :=
  match o.char? with
  | some c => .ofChars [c]
  | none => unknownName

/-- The operator with a number. -/
def ofCode : Int → Operator
  | 0 => plus
  | 1 => minus
  | 2 => star
  | 3 => slash
  | 4 => equals
  | 5 => ampersand
  | 6 => hash
  | 7 => less
  | 8 => greater
  | 9 => openBrace
  | 10 => closeBrace
  | 11 => openParen
  | 12 => closeParen
  | 13 => quote
  | 14 => comma
  | 15 => dot
  | 16 => semicolon
  | n => unassigned n

/-- The number of an operator. -/
def code : Operator → Int
  | plus => 0
  | minus => 1
  | star => 2
  | slash => 3
  | equals => 4
  | ampersand => 5
  | hash => 6
  | less => 7
  | greater => 8
  | openBrace => 9
  | closeBrace => 10
  | openParen => 11
  | closeParen => 12
  | quote => 13
  | comma => 14
  | dot => 15
  | semicolon => 16
  | unassigned n => n

/-- Looking a character up finds exactly the operator written with it. -/
theorem ofChar?_eq_some_iff {c : Char} {o : Operator} : ofChar? c = some o ↔ o.char? = some c := by
  constructor
  · intro h
    unfold ofChar? at h
    split at h <;> simp_all <;> subst h <;> rfl
  · intro h
    cases o <;> simp [char?] at h <;> subst h <;> rfl

/-- Every number is the number of the operator it stands for. -/
@[simp]
theorem code_ofCode (n : Int) : (ofCode n).code = n := by
  unfold ofCode
  split <;> rfl

end Operator

/-! ### Types -/

/-- The built-in types of values. -/
inductive ValueType where
  | real
  | int
  | string
  | bool
  | func
  /-- A number that no type has. -/
  | unassigned (code : Int)
deriving DecidableEq, Inhabited

namespace ValueType

/-- The word for a type; `UNKNOWN` for a number without one. -/
def name : ValueType → Text
  | real => "real"
  | int => "int"
  | string => "string"
  | bool => "bool"
  | func => "func"
  | unassigned _ => unknownName

/-- The types that have a word, by number. -/
def all : List ValueType := [real, int, string, bool, func]

/-- The type a word names. -/
def ofName? (word : Text) : Option ValueType := all.find? (·.name = word)

/-- The type with a number. -/
def ofCode : Int → ValueType
  | 0 => real
  | 1 => int
  | 2 => string
  | 3 => bool
  | 4 => func
  | n => unassigned n

/-- The number of a type. -/
def code : ValueType → Int
  | real => 0
  | int => 1
  | string => 2
  | bool => 3
  | func => 4
  | unassigned n => n

end ValueType

/-! ### Keywords -/

/-- The words that control a program. -/
inductive Keyword where
  /-- `if` -/
  | cond
  /-- `else` -/
  | alternative
  /-- `loop`, also written `while` -/
  | loop
  /-- `ret` -/
  | ret
  /-- `import` -/
  | importHeader
  /-- `global` -/
  | globals
  /-- A number that no keyword has. -/
  | unassigned (code : Int)
deriving DecidableEq, Inhabited

namespace Keyword

/-- The word for a keyword; `UNKNOWN` for a number without one. -/
def name : Keyword → Text
  | cond => "if"
  | alternative => "else"
  | loop => "loop"
  | ret => "ret"
  | importHeader => "import"
  | globals => "global"
  | unassigned _ => unknownName

/-- The words and the keywords they stand for. -/
def spellings : List (Text × Keyword) :=
  [("if", cond), ("else", alternative), ("loop", loop), ("while", loop), ("ret", ret),
    ("import", importHeader), ("global", globals)]

/-- The keyword a word stands for. -/
def ofName? (word : Text) : Option Keyword :=
  (spellings.find? (·.1 = word)).map (·.2)

/-- The keyword with a number. -/
def ofCode : Int → Keyword
  | 0 => cond
  | 1 => alternative
  | 2 => loop
  | 3 => ret
  | 4 => importHeader
  | 5 => globals
  | n => unassigned n

/-- The number of a keyword. -/
def code : Keyword → Int
  | cond => 0
  | alternative => 1
  | loop => 2
  | ret => 3
  | importHeader => 4
  | globals => 5
  | unassigned n => n

end Keyword

/-! ### Literals -/

/-- A value written out in a program. -/
inductive Literal where
  | real (value : Single)
  | int (value : Int32)
  | string (value : Text)
  | bool (value : Bool)
  /-- The value of type `func`, which carries nothing. -/
  | func
  /-- A value of a type that does not exist. -/
  | unassigned (code : Int)
deriving DecidableEq, Inhabited

namespace Literal

/-- The type of a value. -/
def type : Literal → ValueType
  | real _ => .real
  | int _ => .int
  | string _ => .string
  | bool _ => .bool
  | func => .func
  | unassigned n => .unassigned n

/-- The text of a value. -/
def text : Literal → Text
  | real x => x.text
  | int n => .ofInt n.toInt
  | string s => s
  | bool b => if b then "true" else "false"
  | func => ""
  | unassigned _ => ""

end Literal

/-- The value a variable of a type begins with. -/
def ValueType.zero : ValueType → Literal
  | real => .real .zero
  | int => .int 0
  | string => .string ""
  | bool => .bool false
  | func => .func
  | unassigned _ => .func

/-! ### Tokens -/

/-- One element of the token stream. -/
inductive Token where
  | operator (o : Operator)
  | type (t : ValueType)
  | ident (name : Text)
  | keyword (k : Keyword)
  | literal (l : Literal)
  /-- A kind of token that does not exist. -/
  | unassigned (kind : Int)
deriving DecidableEq, Inhabited

namespace Token

/-- Whether a token is the given operator. -/
def isOperator (o : Operator) (t : Token) : Bool := t = operator o

/-- Whether a token is the given keyword. -/
def isKeyword (k : Keyword) (t : Token) : Bool := t = keyword k

/-- A token in a listing: its kind, and in parentheses what it says. -/
def describe : Token → Text
  | operator o => "OP(" ++ o.symbol ++ ")"
  | type t => "TYPE(" ++ t.name ++ ")"
  | ident name => "IDENT(" ++ name ++ ")"
  | keyword k => "KEY(" ++ k.name ++ ")"
  | literal l => "LIT(" ++ l.type.name ++ ":" ++ l.text.quote ++ ")"
  | unassigned _ => unknownName

/-- The token at a place of a stream, or what stands behind its end. -/
def describeAt (tokens : List Token) (index : Nat) : Text :=
  match tokens[index]? with
  | some t => t.describe
  | none => "end of input"

/-! ### Tokens as records -/

/-- A token laid out as a record, with one field for each kind of content. Nothing is set unless it
is said to be. -/
structure Fields where
  /-- The number of the kind. -/
  kind : Int
  /-- The number of the operator. -/
  operator : Int := 0
  /-- The number of the type. -/
  type : Int := 0
  /-- The name of the identifier. -/
  ident : Text := ""
  /-- The number of the keyword. -/
  keyword : Int := 0
  /-- The number of the type of the literal. -/
  literal : Int := 0
  /-- The value of a real. -/
  real : Single := .zero
  /-- The value of an integer. -/
  int : Int32 := 0
  /-- The value of a piece of a string. -/
  string : Text := ""
  /-- The value of a truth value. -/
  bool : Bool := false
deriving DecidableEq

/-- The record of a token. -/
def fields : Token → Fields
  | operator o => { kind := 0, operator := o.code }
  | type t => { kind := 1, type := t.code }
  | ident name => { kind := 2, ident := name }
  | keyword k => { kind := 3, keyword := k.code }
  | literal (.real x) => { kind := 4, literal := 0, real := x }
  | literal (.int n) => { kind := 4, literal := 1, int := n }
  | literal (.string s) => { kind := 4, literal := 2, string := s }
  | literal (.bool b) => { kind := 4, literal := 3, bool := b }
  | literal .func => { kind := 4, literal := 4 }
  | literal (.unassigned n) => { kind := 4, literal := n }
  | unassigned n => { kind := n }

namespace Fields

/-- The value in a record: the type of the literal says which field counts. -/
def value (f : Fields) : Literal :=
  match f.literal with
  | 0 => .real f.real
  | 1 => .int f.int
  | 2 => .string f.string
  | 3 => .bool f.bool
  | 4 => .func
  | n => .unassigned n

/-- The type in a record. -/
def namedType (f : Fields) : ValueType := .ofCode f.type

/-- The token of a record: its kind says which field counts. -/
def token (f : Fields) : Token :=
  match f.kind with
  | 0 => .operator (.ofCode f.operator)
  | 1 => .type f.namedType
  | 2 => .ident f.ident
  | 3 => .keyword (.ofCode f.keyword)
  | 4 => .literal f.value
  | n => .unassigned n

end Fields

end Token

end IntLang
