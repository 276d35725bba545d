import IntLang.Program

/-!
# C++ text of tokens and functions

Writing goes token by token: each one has a fixed text that does not depend on its neighbours,
and the order of the tokens is kept. Identifiers get a prefix of their own, so that no name of a
program can be a reserved word of C++.
-/

namespace IntLang.Cpp

/-! ### Tokens -/

/-- What stands in front of every identifier. -/
def identMark : Text := "intc_"

/-- The text of an identifier. -/
def ident (name : Text) : Text := identMark ++ name

/-- The text of an operator. Braces and the end of a statement end the line. -/
def operator : Operator → Text
  | .openBrace => "\x7b\n"
  | .closeBrace => "\x7d\n\n"
  | .semicolon => ";\n"
  | o => o.symbol

/-- The text of a keyword. What only arranges the source has no text. -/
def keyword : Keyword → Text
  | .cond => "if "
  | .alternative => "else "
  | .loop => "while "
  | .ret => "return "
  | _ => ""

/-- The text of a type. -/
def type : ValueType → Text
  | .real => "float "
  | .int => "int "
  | .string => "std::string "
  | .bool => "bool "
  | _ => "void "

/-- The text of a value. The quotes around a string are tokens of their own. -/
def literal : Literal → Text
  | .func => " "
  | l => l.text

/-- The text of a token. -/
def token : Token → Text
  | .operator o => operator o
  | .type t => type t
  | .ident name => ident name
  | .keyword k => keyword k
  | .literal l => literal l
  | .unassigned _ => ""

/-- The text of tokens in a row. -/
def tokens (ts : List Token) : Text := .concat (ts.map token)

/-! ### Functions -/

/-- The text of a parameter. -/
def parameter (p : Parameter) : Text := type p.type ++ ident p.name

/-- The signature of a function, without an end. -/
def declaration (f : Function) : Text :=
  type f.result ++ ident f.name ++ operator .openParen
    ++ Text.intercalate (operator .comma) (f.parameters.map parameter)
    ++ operator .closeParen

/-- A function in full. -/
def definition (f : Function) : Text :=
  declaration f ++ operator .openBrace ++ tokens f.body ++ operator .closeBrace

end IntLang.Cpp
