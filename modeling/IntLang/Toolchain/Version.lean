import IntLang.Text.Quoted

/-!
# Versions

A version is up to three numbers, of which the missing ones are zero, behind an optional `v`; a
pre-release and build metadata may follow. Versions are compared by their numbers.

## Main definitions

* `Version`, `Version.parse`, `Version.text`;
* `Version.atLeast`, the order of releases.
-/

namespace IntLang

/-- A version. -/
structure Version where
  /-- The first number. -/
  major : Nat
  /-- The second number. -/
  minor : Nat
  /-- The third number. -/
  patch : Nat
  /-- The pre-release; empty for a release. -/
  preRelease : Text := ""
  /-- Build metadata; it takes no part in comparisons. -/
  metadata : Text := ""
deriving DecidableEq, Inhabited

/-- Why a text is no version. -/
inductive VersionError where
  | malformed
  /-- A number does not fit in 64 bits. -/
  | tooLarge (digits : Text)
  /-- A number of the pre-release begins with a zero. -/
  | leadingZero
deriving DecidableEq

/-- The message of a failed reading. -/
def VersionError.message : VersionError → Text
  | malformed => "Invalid Semantic Version"
  | tooLarge digits =>
    "Error parsing version segment: strconv.ParseUint: parsing " ++ digits.quote
      ++ ": value out of range"
  | leadingZero => "Version segment starts with 0"

namespace Version

/-! ### Reading -/

/-- The digits a text begins with, at least one, and the rest. -/
def digits? (bytes : List UInt8) : Option (List UInt8 × List UInt8) :=
  match bytes.span isDigitByte with
  | ([], _) => none
  | found => some found

/-- The digits behind a dot, if the text begins with both, and the rest. -/
def dotted (bytes : List UInt8) : List UInt8 × List UInt8 :=
  match bytes with
  | 0x2E :: rest => (digits? rest).getD ([], bytes)
  | _ => ([], bytes)

/-- Whether a byte may occur in a pre-release or in metadata. -/
def isLabelByte (b : UInt8) : Bool :=
  isDigitByte b || (0x41 ≤ b && b ≤ 0x5A) || (0x61 ≤ b && b ≤ 0x7A) || b = 0x2D

/-- Whether a text is a label: parts between dots, none of them empty. -/
def isLabel (t : Text) : Bool :=
  (t.splitOn 0x2E).all fun part => !part.isEmpty && part.bytes.all isLabelByte

/-- The pre-release and the metadata at the end of a version. -/
def labels? (bytes : List UInt8) : Option (Text × Text) :=
  let metadata? (rest : List UInt8) : Option Text :=
    match rest with
    | [] => some ""
    | 0x2B :: rest => if isLabel ⟨rest⟩ then some ⟨rest⟩ else none
    | _ => none
  match bytes with
  | 0x2D :: rest =>
    let (pre, behind) := rest.span (· != 0x2B)
    if isLabel ⟨pre⟩ then (metadata? behind).map ((⟨pre⟩, ·)) else none
  | rest => (metadata? rest).map (("", ·))

/-- One of the three numbers; none written is zero. -/
def number (digits : List UInt8) : Except VersionError Nat :=
  let n := digitsValue digits
  if n < 0x10000000000000000 then .ok n else .error (.tooLarge ⟨digits⟩)

/-- Whether a part of a pre-release is a number with a zero in front. -/
def startsWithZero (part : Text) : Bool :=
  part.bytes.all isDigitByte && 1 < part.size && part.bytes.head? = some 0x30

/-- The version a text spells. Its form is looked at first, then its numbers one by one, then
its pre-release. -/
def parse (t : Text) : Except VersionError Version := do
  let bytes := match t.bytes with
    | 0x76 :: rest => rest
    | bytes => bytes
  match digits? bytes with
  | none => .error .malformed
  | some (major, rest) =>
    let (minor, rest) := dotted rest
    let (patch, rest) := dotted rest
    match labels? rest with
    | none => .error .malformed
    | some (preRelease, metadata) =>
      let major ← number major
      let minor ← number minor
      let patch ← number patch
      if !preRelease.isEmpty && (preRelease.splitOn 0x2E).any startsWithZero then
        .error .leadingZero
      else .ok { major, minor, patch, preRelease, metadata }

/-! ### Writing and comparing -/

/-- The text of a version. -/
def text (v : Version) : Text :=
  .ofNat v.major ++ "." ++ .ofNat v.minor ++ "." ++ .ofNat v.patch
    ++ (if v.preRelease.isEmpty then .empty else "-" ++ v.preRelease)
    ++ (if v.metadata.isEmpty then .empty else "+" ++ v.metadata)

/-- Whether the numbers of a version are at least those of another; the first difference
decides. -/
def atLeast (v w : Version) : Bool :=
  w.major < v.major || (w.major == v.major &&
    (w.minor < v.minor || (w.minor == v.minor && w.patch ≤ v.patch)))

end Version

end IntLang
