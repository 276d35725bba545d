/-!
# Text as bytes

Source files, names and messages are byte strings: a source file may hold bytes that are no
character at all, and every such byte has to come out again where it went in. `Text` is that
byte string. What its bytes say as characters is the business of `IntLang.Text.Utf8`.

## Main definitions

* `Text`, with `++`, `Text.concat` and `Text.intercalate`;
* `Text.ofString`, a coercion, so that fixed wording is written as a string literal;
* `Text.dropPrefix?`, `Text.splitOn` and `Text.before`, the ways a text is taken apart.
-/

namespace IntLang

/-- A byte string, in any encoding or none. -/
structure Text where
  /-- The bytes, first to last. -/
  bytes : List UInt8
deriving DecidableEq, Inhabited

namespace Text

/-! ### Putting together -/

/-- The text without bytes. -/
def empty : Text := ⟨[]⟩

instance : EmptyCollection Text := ⟨empty⟩

instance : Append Text := ⟨fun s t => ⟨s.bytes ++ t.bytes⟩⟩

@[simp]
theorem bytes_append (s t : Text) : (s ++ t).bytes = s.bytes ++ t.bytes := rfl

@[simp]
theorem bytes_empty : empty.bytes = [] := rfl

@[ext]
theorem ext {s t : Text} (h : s.bytes = t.bytes) : s = t := by
  cases s; cases t; exact congrArg _ h

/-- The UTF-8 bytes of a character: six bits of its number in each byte but the first. -/
def encodeChar (c : Char) : List UInt8 :=
  let n := c.toNat
  if n < 0x80 then [.ofNat n]
  else if n < 0x800 then [.ofNat (0xC0 + n / 64), .ofNat (0x80 + n % 64)]
  else if n < 0x10000 then
    [.ofNat (0xE0 + n / 4096), .ofNat (0x80 + n / 64 % 64), .ofNat (0x80 + n % 64)]
  else
    [.ofNat (0xF0 + n / 262144), .ofNat (0x80 + n / 4096 % 64), .ofNat (0x80 + n / 64 % 64),
      .ofNat (0x80 + n % 64)]

/-- The UTF-8 bytes of a list of characters. -/
def ofChars (cs : List Char) : Text := ⟨cs.flatMap encodeChar⟩

/-- The UTF-8 bytes of a string. -/
def ofString (s : String) : Text := ofChars s.toList

instance : Coe String Text := ⟨ofString⟩

/-- One byte. -/
def singleton (b : UInt8) : Text := ⟨[b]⟩

/-- All the pieces, one after another. -/
def concat (ts : List Text) : Text := ⟨ts.flatMap bytes⟩

@[simp]
theorem concat_nil : concat [] = empty := rfl

@[simp]
theorem concat_cons (t : Text) (ts : List Text) : concat (t :: ts) = t ++ concat ts := rfl

/-- The pieces with `sep` between each two of them. -/
def intercalate (sep : Text) : List Text → Text
  | [] => empty
  | [t] => t
  | t :: u :: ts => t ++ sep ++ intercalate sep (u :: ts)

/-- Each piece followed by a line end. -/
def lines (ts : List Text) : Text := concat (ts.map (· ++ "\n"))

/-- `n` copies of one byte. -/
def replicate (n : Nat) (b : UInt8) : Text := ⟨List.replicate n b⟩

/-- The text, with blanks in front where it is shorter than `width` bytes. -/
def padLeft (width : Nat) (t : Text) : Text :=
  replicate (width - t.bytes.length) 0x20 ++ t

/-- The text, with blanks behind where it is shorter than `width` bytes. -/
def padRight (width : Nat) (t : Text) : Text :=
  t ++ replicate (width - t.bytes.length) 0x20

/-! ### Taking apart -/

/-- The number of bytes. -/
def size (t : Text) : Nat := t.bytes.length

/-- Whether there are no bytes. -/
def isEmpty (t : Text) : Bool := t.bytes.isEmpty

/-- Whether the byte `b` occurs. -/
def hasByte (b : UInt8) (t : Text) : Bool := t.bytes.contains b

/-- Whether the text begins with `p`. -/
def startsWith (p t : Text) : Bool := p.bytes.isPrefixOf t.bytes

/-- What is left of `t` behind `p`, if it begins with `p`. -/
def dropPrefix? (p t : Text) : Option Text :=
  if p.startsWith t then some ⟨t.bytes.drop p.bytes.length⟩ else none

/-- The text without its last `n` bytes. -/
def dropEnd (n : Nat) (t : Text) : Text := ⟨t.bytes.take (t.bytes.length - n)⟩

/-- The bytes before the first `b`; all of them if there is none. -/
def before (b : UInt8) (t : Text) : Text := ⟨t.bytes.takeWhile (· != b)⟩

/-- The bytes behind the first `b`, if there is one. -/
def after? (b : UInt8) (t : Text) : Option Text :=
  match t.bytes.dropWhile (· != b) with
  | [] => none
  | _ :: rest => some ⟨rest⟩

/-- The pieces between the bytes `b`: one more than there are bytes `b`. -/
def splitOn (b : UInt8) (t : Text) : List Text :=
  (go t.bytes).map Text.mk
where
  /-- The pieces as byte lists; the first one grows to the left. -/
  go : List UInt8 → List (List UInt8)
    | [] => [[]]
    | c :: cs =>
      if c = b then [] :: go cs
      else match go cs with
        | [] => [[c]]
        | p :: ps => (c :: p) :: ps

/-- Every byte `a` replaced by `b`. -/
def replaceByte (a b : UInt8) (t : Text) : Text :=
  ⟨t.bytes.map fun c => if c = a then b else c⟩

/-! ### Order -/

/-- Byte order: the first difference decides, and a text comes before its extensions. -/
def le (s t : Text) : Bool := go s.bytes t.bytes
where
  /-- Byte order of two byte lists. -/
  go : List UInt8 → List UInt8 → Bool
    | [], _ => true
    | _ :: _, [] => false
    | a :: as, b :: bs => a < b || (a == b && go as bs)

/-- The texts in byte order; equal ones keep their places. -/
def sort (ts : List Text) : List Text := ts.mergeSort le

end Text

end IntLang
