import IntLang.Text.Quoted

/-!
# Logging

A log record is a level, a message and attributes. A logger has a least level and a format, and
writes each record that is severe enough as one line, either as `key=value` pairs or as a JSON
object. What the clock says is not part of a record: it comes in as `Readings` when the line is
written.

## Main definitions

* `Level`, `Value`, `Record`;
* `Readings`, `Format` and `Record.render`;
* `Logger` and `Logger.make`.
-/

namespace IntLang.Log

/-! ### Records -/

/-- How severe a record is. -/
inductive Level where
  | debug
  | info
  | warn
  | error
deriving DecidableEq, Inhabited

namespace Level

/-- The severity as a number; the greater, the more severe. -/
def severity : Level → Int
  | debug => -4
  | info => 0
  | warn => 4
  | error => 8

/-- The word for a level in a record. -/
def label : Level → Text
  | debug => "DEBUG"
  | info => "INFO"
  | warn => "WARN"
  | error => "ERROR"

/-- The word for a level in a configuration. -/
def name : Level → Text
  | debug => "debug"
  | info => "info"
  | warn => "warn"
  | error => "error"

/-- All levels, the least severe first. -/
def all : List Level := [debug, info, warn, error]

/-- The level a word names. -/
def ofName? (word : Text) : Option Level := all.find? (·.name = word)

end Level

/-- The value of an attribute. -/
inductive Value where
  | text (t : Text)
  | number (n : Int)
  /-- The time that the reported work has taken. -/
  | elapsed
deriving DecidableEq, Inhabited

/-- A natural number as a value. -/
def Value.count (n : Nat) : Value := .number n

/-- Something worth telling. -/
structure Record where
  /-- How severe it is. -/
  level : Level
  /-- What happened. -/
  message : Text
  /-- With what; in order, and keys may repeat. -/
  attributes : List (Text × Value) := []
deriving DecidableEq, Inhabited

/-- A record with further attributes in front of its own. -/
def Record.tagged (tags : List (Text × Value)) (r : Record) : Record :=
  { r with attributes := tags ++ r.attributes }

/-! ### Lines -/

/-- What the clock says when a line is written. -/
structure Readings where
  /-- The time of day. -/
  time : Text
  /-- How long the work took, in words. -/
  elapsed : Text
  /-- How long the work took, in nanoseconds. -/
  nanoseconds : Int
deriving Inhabited

/-- How lines are written. -/
inductive Format where
  | text
  | json
deriving DecidableEq, Inhabited

/-- Whether a glyph keeps a text from being written bare. -/
def needsQuotes : Glyph → Bool
  | .stray _ => true
  | .scalar c =>
    if c.toNat < 0x80 then c.toNat ≤ 0x20 || c = '=' || c = '"'
    else c = Glyph.replacement || isBlank c || !isPrintable c

/-- A key or value among `key=value` pairs: bare, unless it is empty or has to be quoted. -/
def bareOrQuoted (t : Text) : Text :=
  if t.isEmpty || t.glyphs.any needsQuotes then t.quote else t

/-- A character inside a JSON string. -/
def jsonChar (c : Char) : Text :=
  match c with
  | '"' => "\\\""
  | '\\' => "\\\\"
  | '\n' => "\\n"
  | '\r' => "\\r"
  | '\t' => "\\t"
  | c =>
    if c.toNat < 0x20 || c.toNat = 0x2028 || c.toNat = 0x2029 then "\\u" ++ .ofHex 4 c.toNat
    else .ofChars [c]

/-- A JSON string; a stray byte becomes the replacement character. -/
def jsonString (t : Text) : Text := "\"" ++ .concat (t.chars.map jsonChar) ++ "\""

/-- An attribute as `key=value`. -/
def textAttribute (now : Readings) (key : Text) (value : Value) : Text :=
  bareOrQuoted key ++ "=" ++ match value with
    | .text t => bareOrQuoted t
    | .number n => .ofInt n
    | .elapsed => bareOrQuoted now.elapsed

/-- An attribute as a member of a JSON object. -/
def jsonAttribute (now : Readings) (key : Text) (value : Value) : Text :=
  jsonString key ++ ":" ++ match value with
    | .text t => jsonString t
    | .number n => .ofInt n
    | .elapsed => .ofInt now.nanoseconds

/-- The attributes of a line: time, level and message in front of the record's own. -/
def Record.fields (now : Readings) (r : Record) : List (Text × Value) :=
  ("time", .text now.time) :: ("level", .text r.level.label) :: ("msg", .text r.message)
    :: r.attributes

/-- A record as a line. -/
def Record.render (format : Format) (now : Readings) (r : Record) : Text :=
  match format with
  | .text =>
    Text.intercalate " " ((r.fields now).map fun (k, v) => textAttribute now k v) ++ "\n"
  | .json =>
    "\x7b" ++ Text.intercalate "," ((r.fields now).map fun (k, v) => jsonAttribute now k v)
      ++ "\x7d\n"

/-! ### Loggers -/

/-- Writes what is severe enough. -/
structure Logger where
  /-- The least severe level that is written. -/
  level : Level
  /-- How lines are written. -/
  format : Format
deriving DecidableEq, Inhabited

/-- Why there is no logger. -/
inductive SetupError where
  | level (name : Text)
  | format (name : Text)
deriving DecidableEq

/-- The message of a failed set-up. -/
def SetupError.message : SetupError → Text
  | level name => "invalid log level: " ++ name
  | format name => "invalid log format: " ++ name

/-- The level a word names, or the complaint that it names none. -/
def parseLevel (name : Text) : Except SetupError Level :=
  match Level.ofName? name with
  | some level => .ok level
  | none => .error (.level name)

/-- The format a word names; no word means text. -/
def parseFormat (name : Text) : Except SetupError Format :=
  if name = "text" || name = "" then .ok .text
  else if name = "json" then .ok .json
  else .error (.format name)

namespace Logger

/-- The logger of a configuration. The level is looked at first. -/
def make (level format : Text) : Except SetupError Logger := do
  let level ← parseLevel level
  let format ← parseFormat format
  return { level, format }

/-- Whether a level is severe enough. -/
def enabled (l : Logger) (level : Level) : Bool := l.level.severity ≤ level.severity

/-- The line of a record; nothing if it is not severe enough. -/
def line (l : Logger) (now : Readings) (r : Record) : Text :=
  if l.enabled r.level then r.render l.format now else .empty

end Logger

end IntLang.Log
