import IntLang.CommandLine.Flag

/-!
# Reading arguments

Arguments are read from the left. One that begins with a dash is a flag, or several letters in a
row; a flag that needs a value takes it from behind an equals sign, from the rest of its letters,
or from the next argument. Everything else is a word, and so is all that follows two dashes
alone. The first fault is the answer.

## Main definitions

* `Assignment` and `Arguments`, what was read;
* `ArgumentError`, what can be wrong;
* `Arguments.read`.
-/

namespace IntLang.CommandLine

/-! ### What can be wrong -/

/-- What is wrong with the arguments. -/
inductive ArgumentError where
  /-- No flag has the name. -/
  | unknownName (name : Text)
  /-- Two dashes with no name behind them. -/
  | badSyntax (argument : Text)
  /-- No flag has the letter. -/
  | unknownLetter (letter : UInt8) (group : Text)
  /-- The value of a flag is missing. -/
  | nameWithoutValue (argument : Text)
  /-- The value of a letter is missing. -/
  | letterWithoutValue (letter : UInt8) (group : Text)
  /-- The value of a flag is not what the flag takes. -/
  | badValue (flag : Flag) (value : Text) (cause : ValueError)

/-- A letter between single quotes; a byte that is not ASCII counts as the character with its
number. -/
def quoteLetter (b : UInt8) : Text :=
  let c := Char.ofNat b.toNat
  let inner : Text := if c = '\'' then "\\'" else if c = '"' then "\"" else quoteChar c
  "'" ++ inner ++ "'"

/-- The message of a fault in the arguments. -/
def ArgumentError.message : ArgumentError → Text
  | unknownName name => "unknown flag: --" ++ name
  | badSyntax argument => "bad flag syntax: " ++ argument
  | unknownLetter letter group =>
    "unknown shorthand flag: " ++ quoteLetter letter ++ " in -" ++ group
  | nameWithoutValue argument => "flag needs an argument: " ++ argument
  | letterWithoutValue letter group =>
    "flag needs an argument: " ++ quoteLetter letter ++ " in -" ++ group
  | badValue flag value cause =>
    "invalid argument " ++ value.quote ++ " for " ++ flag.title.quote ++ " flag: "
      ++ cause.message value

/-! ### Flags -/

/-- A flag that was given, and its value. -/
structure Assignment where
  /-- The flag. -/
  flag : FlagId
  /-- Its value. -/
  value : FlagValue
deriving DecidableEq, Inhabited

/-- Gives a flag the value that a text stands for. -/
def Flag.assign (f : Flag) (value : Text) : Except ArgumentError Assignment :=
  match f.kind.read value with
  | .ok v => .ok ⟨f.id, v⟩
  | .error cause => .error (.badValue f value cause)

/-- A flag with two dashes; `next` is the argument behind it. The answer says whether that one
was taken as the value. -/
def readNamed (argument : Text) (next : Option Text) :
    Except ArgumentError (List Assignment × Bool) := do
  let body : Text := ⟨argument.bytes.drop 2⟩
  if body.bytes.head? = some 0x2D || body.bytes.head? = some 0x3D then
    .error (.badSyntax argument)
  let name := body.before 0x3D
  match flagNamed? name with
  | none => .error (.unknownName name)
  | some flag =>
    match body.after? 0x3D, flag.kind, next with
    | some value, _, _ => return ([← flag.assign value], false)
    | none, .switch, _ => return ([← flag.assign "true"], false)
    | none, _, some value => return ([← flag.assign value], true)
    | none, _, none => .error (.nameWithoutValue argument)

/-- Letters in a row; `next` is the argument behind them. A group that goes on with `test.` is
passed over. -/
def readLetters (next : Option Text) : List UInt8 →
    Except ArgumentError (List Assignment × Bool)
  | [] => .ok ([], false)
  | c :: cs => do
    let group : Text := ⟨c :: cs⟩
    if Text.startsWith "test." group then return ([], false)
    match flagLettered? c with
    | none => .error (.unknownLetter c group)
    | some flag =>
      match cs, flag.kind with
      | 0x3D :: v :: vs, _ => return ([← flag.assign ⟨v :: vs⟩], false)
      | _, .switch =>
        let first ← flag.assign "true"
        let (others, took) ← readLetters next cs
        return (first :: others, took)
      | _ :: _, _ => return ([← flag.assign ⟨cs⟩], false)
      | [], _ =>
        match next with
        | some value => return ([← flag.assign value], true)
        | none => .error (.letterWithoutValue c group)

/-! ### Arguments -/

/-- What was read from the arguments. -/
structure Arguments where
  /-- The flags, in the order in which they were given. -/
  given : List Assignment := []
  /-- The words. -/
  words : List Text := []
deriving DecidableEq, Inhabited

/-- Whether an argument is a word: it does not begin with a dash, or is one. -/
def isWord (argument : Text) : Bool :=
  argument.bytes.head? != some 0x2D || argument.size == 1

/-- A flag or a group of letters. -/
def readFlag (argument : Text) (next : Option Text) :
    Except ArgumentError (List Assignment × Bool) :=
  match argument.bytes with
  | 0x2D :: 0x2D :: _ => readNamed argument next
  | _ :: letters => readLetters next letters
  | [] => .ok ([], false)

/-- Reads the arguments. -/
def Arguments.read : List Text → Except ArgumentError Arguments
  | [] => .ok {}
  | [argument] => do
    if argument = "--" then return {}
    if isWord argument then return { words := [argument] }
    let (given, _) ← readFlag argument none
    return { given }
  | argument :: next :: behind => do
    if argument = "--" then return { words := next :: behind }
    if isWord argument then
      let others ← read (next :: behind)
      return { others with words := argument :: others.words }
    let (given, took) ← readFlag argument (some next)
    let others ← if took then read behind else read (next :: behind)
    return { others with given := given ++ others.given }

end IntLang.CommandLine
