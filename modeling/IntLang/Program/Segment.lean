import IntLang.Program

/-!
# From tokens to a program

Segmentation is by position. The global region is what stands between the braces behind the
first `global`. A function begins wherever a type, an identifier and an opening parenthesis
follow one another, at any depth; its parameters reach to the next closing parenthesis, and its
body to the brace that matches the one behind. Nothing else is asked of the tokens, and no tree
is built.

When a delimiter is missing, the answer is a `Misfit`: where it was looked for, what was
expected there, and what was found.

## Main definitions

* `closing?`, the brace that closes a scope;
* `globalRegion` and `Signature.read`, the two kinds of region;
* `segment`, all of it.
-/

namespace IntLang

/-! ### What can be missing -/

/-- What was looked for. -/
inductive Expected where
  /-- The brace behind `global`. -/
  | globalScope
  /-- The parenthesis behind the parameters of a function. -/
  | parametersEnd (function : Text)
  | parameterType
  | parameterName
  /-- The brace in front of the body of a function. -/
  | body (function : Text)
  /-- The brace that closes a scope. -/
  | scopeEnd
deriving DecidableEq, Inhabited

/-- The wording of what was looked for. -/
def Expected.text : Expected → Text
  | globalScope => "'\x7b' after global"
  | parametersEnd name => "')' closing the parameter list of " ++ name
  | parameterType => "parameter type"
  | parameterName => "parameter name"
  | body name => "'\x7b' opening the body of " ++ name
  | scopeEnd => "'\x7d' matching the '\x7b' at this index"

/-- A delimiter or region that could not be found. -/
structure Misfit where
  /-- The place in the token stream. -/
  index : Nat
  /-- What was looked for. -/
  expected : Expected
  /-- What was there; `none` for the end of the stream. -/
  found : Option Token
deriving DecidableEq, Inhabited

namespace Misfit

/-- The wording of what was there. -/
def foundText (m : Misfit) : Text :=
  match m.found with
  | some t => t.describe
  | none => "end of input"

/-- The sentence that reports a missing structure. -/
def sentence (index : Int) (expected found : Text) : Text :=
  "structure not found at token " ++ .ofInt index ++ ": expected " ++ expected
    ++ ", found " ++ found

/-- The message of a misfit. -/
def message (m : Misfit) : Text := sentence m.index m.expected.text m.foundText

end Misfit

/-! ### Scopes -/

/-- How many tokens stand before the brace that closes a scope, `depth` inner scopes being open
where the tokens begin. -/
def closing? : Nat → List Token → Option Nat
  | _, [] => none
  | depth, t :: ts =>
    if t.isOperator .openBrace then (closing? (depth + 1) ts).map (· + 1)
    else if t.isOperator .closeBrace then
      match depth with
      | 0 => some 0
      | depth + 1 => (closing? depth ts).map (· + 1)
    else (closing? depth ts).map (· + 1)

/-- The tokens strictly inside the scope that opens at `index`, where `tokens` begins. -/
def readScope (index : Nat) (opening : Expected) (tokens : List Token) :
    Except Misfit (List Token) :=
  match tokens with
  | .operator .openBrace :: inner =>
    match closing? 0 inner with
    | some n => .ok (inner.take n)
    | none => .error ⟨index, .scopeEnd, none⟩
  | other => .error ⟨index, opening, other.head?⟩

/-- The tokens of the global region; `none` if there is no word `global`. -/
def globalRegion (tokens : List Token) : Except Misfit (Option (List Token)) :=
  let index := tokens.findIdx (·.isKeyword .globals)
  if index < tokens.length then
    (readScope (index + 1) .globalScope (tokens.drop (index + 1))).map some
  else .ok none

/-! ### Functions -/

/-- Pairs of a type and a name, out of tokens that carry their places; `finish` is the place
behind them. -/
def readParameters (finish : Nat × Option Token) :
    List (Token × Nat) → Except Misfit (List Parameter)
  | [] => .ok []
  | (.type type, _) :: rest =>
    match rest with
    | [] => .error ⟨finish.1, .parameterName, finish.2⟩
    | (.ident name, _) :: rest => do
      let others ← readParameters finish rest
      return ⟨type, name, type.zero⟩ :: others
    | (other, place) :: _ => .error ⟨place, .parameterName, some other⟩
  | (other, place) :: _ => .error ⟨place, .parameterType, some other⟩

/-- The beginning of a function: a type, a name and an opening parenthesis. -/
structure Signature where
  /-- The place of the type in the token stream. -/
  index : Nat
  /-- The type of the result. -/
  result : ValueType
  /-- The name. -/
  name : Text
  /-- The tokens behind the parenthesis. -/
  rest : List Token

/-- The signature that begins with the first of the tokens, whose place is `index`. -/
def Signature.at? (index : Nat) : List Token → Option Signature
  | .type result :: .ident name :: .operator .openParen :: rest =>
    some { index, result, name, rest }
  | _ => none

/-- The signatures in a stream, by place. -/
def signaturesFrom : Nat → List Token → List Signature
  | _, [] => []
  | index, t :: ts => (Signature.at? index (t :: ts)).toList ++ signaturesFrom (index + 1) ts

/-- The signatures in a stream. -/
def signatures (tokens : List Token) : List Signature := signaturesFrom 0 tokens

/-- The function that begins with a signature. Commas among the parameters are passed over. -/
def Signature.read (s : Signature) : Except Misfit Function := do
  let size := s.rest.findIdx (·.isOperator .closeParen)
  match s.rest.drop size with
  | [] => .error ⟨s.index + 2, .parametersEnd s.name, none⟩
  | close :: behind =>
    let start := s.index + 3
    let items := ((s.rest.take size).zipIdx start).filter fun item => !item.1.isOperator .comma
    let parameters ← readParameters (start + size, some close) items
    let body ← readScope (start + size + 1) (.body s.name) behind
    return { result := s.result, name := s.name, parameters, body }

/-! ### The whole program -/

/-- The program in a stream of tokens. The global region is read first, then the functions by
place; the first misfit is the answer. -/
def segment (tokens : List Token) : Except Misfit Program := do
  let globals ← globalRegion tokens
  let functions ← (signatures tokens).mapM Signature.read
  let program : Program := { globals := globals.getD [] }
  return program.addAll functions

end IntLang
