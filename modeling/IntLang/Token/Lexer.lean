import IntLang.Single.Numeral
import IntLang.Token

/-!
# From text to tokens

A source text is first cut into fragments: every blank and every operator character is a
fragment of its own, and what lies between two of them is a word. Nothing is dropped, so the
fragments put together are the text. Then the fragments are read one by one in one of three
modes. In normal mode blanks are skipped, `#` opens a comment, `"` opens a string, any other
operator is a token, and a word is classified. In a comment everything is skipped up to the next
`#`. In a string every fragment is a token as it stands, blanks included, up to the next `"`
that no backslash takes away.

Reading never fails: a word that is nothing else is an identifier, and a string or comment
without an end runs to the end of the text.

## Main definitions

* `fragments`, the cutting;
* `classify`, what a word is;
* `Mode`, `Mode.step` and `lex`, the reading.
-/

namespace IntLang

/-! ### Cutting -/

/-- Whether a glyph stands alone: a blank or an operator character. -/
def Glyph.isSeparator (g : Glyph) : Bool := isBlank g.char || Operator.isOperatorChar g.char

/-- The fragments of a list of glyphs. A glyph that does not stand alone joins the fragment
behind it, unless that one is a separator. -/
def cut : List Glyph → List (List Glyph)
  | [] => []
  | g :: gs =>
    if g.isSeparator then [g] :: cut gs
    else match cut gs with
      | (h :: hs) :: rest =>
        if h.isSeparator then [g] :: (h :: hs) :: rest else (g :: h :: hs) :: rest
      | other => [g] :: other

/-- The fragments of a text. -/
def fragments (source : Text) : List Text := (cut source.glyphs).map Text.ofGlyphs

/-! ### Words -/

/-- Whether a byte can occur in a real numeral. -/
def isNumeralByte (b : UInt8) : Bool :=
  isDigitByte b || b = 0x2B || b = 0x2D || b = 0x2E || b = 0x65 || b = 0x45

/-- The value of a word that is a real numeral. -/
def realWord? (word : Text) : Option Single :=
  if word.bytes.all isNumeralByte then Single.ofText? word else none

/-- The value of a word that is an integer of 32 bits. -/
def intWord? (word : Text) : Option Int32 :=
  (word.integerWithin? 32).map Int32.ofInt

/-- The value of a word that is a truth value. -/
def boolWord? (word : Text) : Option Bool :=
  if word = "true" then some true else if word = "false" then some false else none

/-- What a word is: a type, a keyword, an integer, a real, a truth value or an identifier; the
first that fits. -/
def classify (word : Text) : Token :=
  ((ValueType.ofName? word).map Token.type
    <|> (Keyword.ofName? word).map Token.keyword
    <|> (intWord? word).map (Token.literal ∘ Literal.int)
    <|> (realWord? word).map (Token.literal ∘ Literal.real)
    <|> (boolWord? word).map (Token.literal ∘ Literal.bool)).getD (.ident word)

/-! ### Reading -/

/-- Where in the text reading has come to. -/
inductive Mode where
  | normal
  /-- Inside a string; `escaped` if a quote would belong to it. -/
  | string (escaped : Bool)
  | comment
deriving DecidableEq, Inhabited

namespace Mode

/-- The word for a mode. -/
def name : Mode → Text
  | normal => "normal"
  | string _ => "string"
  | comment => "comment"

/-- The word for the mode with a number. -/
def nameOfCode : Int → Text
  | 0 => normal.name
  | 1 => (string false).name
  | 2 => comment.name
  | _ => "unknown"

/-- Whether a fragment ends in an odd number of backslashes, so that a quote behind it belongs
to the string. -/
def escapes (t : Text) : Bool := (t.bytes.reverse.takeWhile (· = 0x5C)).length % 2 == 1

/-- Reading one fragment: the mode behind it, and the tokens it yields. -/
def step (mode : Mode) (frag : List Glyph) : Mode × List Token :=
  let first := (frag.head?).map Glyph.char
  match mode with
  | comment => (if first = some '#' then normal else comment, [])
  | string escaped =>
    if first = some '"' && !escaped then (normal, [.operator .quote])
    else
      let content := Text.ofGlyphs frag
      (string (escapes content), [.literal (.string content)])
  | normal =>
    match first with
    | none => (normal, [])
    | some c =>
      if isBlank c then (normal, [])
      else match Operator.ofChar? c with
        | some .hash => (comment, [])
        | some .quote => (string false, [.operator .quote])
        | some o => (normal, [.operator o])
        | none => (normal, [classify (Text.ofGlyphs frag)])

/-- Reading fragments one after another. -/
def run : Mode → List (List Glyph) → Mode × List Token
  | mode, [] => (mode, [])
  | mode, frag :: frags =>
    let (mode, tokens) := mode.step frag
    let (mode, rest) := mode.run frags
    (mode, tokens ++ rest)

end Mode

/-- The tokens of a text, and the mode in which it ends. -/
def lex (source : Text) : Mode × List Token := Mode.normal.run (cut source.glyphs)

/-- The tokens of a text. -/
def tokenize (source : Text) : List Token := (lex source).2

end IntLang
