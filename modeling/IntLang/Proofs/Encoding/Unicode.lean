import IntLang.Proofs.World.Looking

/-!
# Unicode texts in files

A text of Unicode characters can be put in a file in four ways (`Encoding.Encodes`): in UTF-8 or in
UTF-16 of either byte order behind a mark, or in UTF-8 without one, if it does not begin with a
mark itself. Whichever way is taken, the text comes out again, and the file compiles to the same
(`Encoding.decode_encodes`).

What comes out of any bytes is well-formed, with one exception: what stands behind a mark of UTF-8
is not looked at, so that stray bytes there are still in the text (`Encoding.decode_wellFormed`).
-/

namespace IntLang

/-! ### Writing UTF-16 -/

namespace Utf16

/-- The units of a character: its number, or a pair of surrogates for a large one. -/
def unitsOf (c : Char) : List Nat :=
  if c.toNat < 0x10000 then [c.toNat]
  else [0xD800 + (c.toNat - 0x10000) / 1024, 0xDC00 + (c.toNat - 0x10000) % 1024]

/-- The two bytes of a unit. -/
def ByteOrder.bytes (order : ByteOrder) (u : Nat) : List UInt8 :=
  match order with
  | littleEndian => [.ofNat (u % 256), .ofNat (u / 256)]
  | bigEndian => [.ofNat (u / 256), .ofNat (u % 256)]

/-- The bytes of characters in UTF-16. -/
def encode (order : ByteOrder) (cs : List Char) : List UInt8 :=
  (cs.flatMap unitsOf).flatMap order.bytes

/-- A unit is the unit of its two bytes. -/
theorem ByteOrder.exists_bytes_eq (order : ByteOrder) {u : Nat} (h : u < 0x10000) :
    ∃ a b, order.bytes u = [a, b] ∧ order.unit a b = u := by
  have hlow : (UInt8.ofNat (u % 256)).toNat = u % 256 := Utf8.toNat_ofNat_of_lt (by omega)
  have hhigh : (UInt8.ofNat (u / 256)).toNat = u / 256 := Utf8.toNat_ofNat_of_lt (by omega)
  cases order with
  | littleEndian =>
    refine ⟨_, _, rfl, ?_⟩
    rw [unit, hlow, hhigh]
    omega
  | bigEndian =>
    refine ⟨_, _, rfl, ?_⟩
    rw [unit, hlow, hhigh]
    omega

/-- Units that are written are read again. -/
theorem units_bytes (order : ByteOrder) {us : List Nat} (h : ∀ u ∈ us, u < 0x10000) :
    units order (us.flatMap order.bytes) = us.map some := by
  induction us with
  | nil => rfl
  | cons u us ih =>
    obtain ⟨a, b, hbytes, hunit⟩ := order.exists_bytes_eq (h u List.mem_cons_self)
    have hrest := ih fun v hv => h v (List.mem_cons_of_mem u hv)
    rw [List.flatMap_cons, hbytes, List.cons_append, List.cons_append, List.nil_append, units,
      hunit, hrest, List.map_cons]

theorem lt_of_mem_unitsOf {c : Char} {u : Nat} (h : u ∈ unitsOf c) : u < 0x10000 := by
  have hc := Utf8.toNat_valid c
  unfold unitsOf at h
  split at h
  · rw [List.mem_singleton] at h
    omega
  · rw [List.mem_cons, List.mem_singleton] at h
    omega

/-- A unit that is no surrogate is read alone. -/
theorem chars_cons_of_not_isSurrogate {u : Nat} (h : isSurrogate u = false)
    (us : List (Option Nat)) : chars (some u :: us) = Char.ofNat u :: chars us := by
  have hlone : lone (some u) = Char.ofNat u := by simp [lone, h]
  cases us with
  | nil => exact congrArg (· :: []) hlone
  | cons v behind =>
    have htogether : together? (some u) v = none := by cases v <;> simp [together?, h]
    rw [chars, htogether, hlone]

/-- A pair of surrogates is read together. -/
theorem chars_cons_cons_of_halves {u v : Nat} (hu : isFirstHalf u = true)
    (hv : isSecondHalf v = true) (us : List (Option Nat)) :
    chars (some u :: some v :: us)
      = Char.ofNat (0x10000 + u % 1024 * 1024 + v % 1024) :: chars us := by
  have hsurrogate : isSurrogate u = true := by
    simp only [isFirstHalf, isSurrogate, Bool.and_eq_true, decide_eq_true_eq] at hu ⊢
    omega
  have htogether : together? (some u) (some v) = some (pair u v) := by
    simp [together?, hsurrogate, hv]
  rw [chars, htogether, pair, if_pos hu]

/-- The units of a character are read as that character, whatever follows. -/
theorem chars_unitsOf (c : Char) (us : List (Option Nat)) :
    chars ((unitsOf c).map some ++ us) = c :: chars us := by
  have hc := Utf8.toNat_valid c
  unfold unitsOf
  split
  · have hplain : isSurrogate c.toNat = false := by
      simp only [isSurrogate, Bool.and_eq_false_iff, decide_eq_false_iff_not]
      omega
    rw [List.map_singleton, List.singleton_append, chars_cons_of_not_isSurrogate hplain,
      Char.ofNat_toNat]
  · have hfirst : isFirstHalf (0xD800 + (c.toNat - 0x10000) / 1024) = true := by
      simp only [isFirstHalf, Bool.and_eq_true, decide_eq_true_eq]
      omega
    have hsecond : isSecondHalf (0xDC00 + (c.toNat - 0x10000) % 1024) = true := by
      simp only [isSecondHalf, Bool.and_eq_true, decide_eq_true_eq]
      omega
    rw [List.map_cons, List.map_singleton, List.cons_append, List.singleton_append,
      chars_cons_cons_of_halves hfirst hsecond, Utf8.charOfNat_eq (c := c) (by omega)]

/-- **Characters that are written in UTF-16 are read again.** -/
theorem decode_encode (order : ByteOrder) (cs : List Char) :
    decode order (encode order cs) = cs := by
  have hlt : ∀ u ∈ cs.flatMap unitsOf, u < 0x10000 := by
    intro u hu
    obtain ⟨c, -, hc⟩ := List.mem_flatMap.1 hu
    exact lt_of_mem_unitsOf hc
  rw [decode, encode, units_bytes order hlt]
  clear hlt
  induction cs with
  | nil => rfl
  | cons c cs ih => rw [List.flatMap_cons, List.map_append, chars_unitsOf, ih]

end Utf16

/-! ### Marks -/

namespace Encoding

/-- The character that marks an encoding. -/
def byteOrderMark : Char := Char.ofNat 0xFEFF

/-- No character is written with the bytes `FE` and `FF`. -/
theorem lt_of_encodeChar_eq {c : Char} {a : UInt8} {rest : List UInt8}
    (h : Text.encodeChar c = a :: rest) : a.toNat < 0xFE := by
  have hc := Utf8.toNat_valid c
  have hlead : ∃ n, n < 0xFE ∧ a = .ofNat n := by
    unfold Text.encodeChar at h
    dsimp only at h
    split at h
    · exact ⟨_, by omega, (List.cons.inj h).1.symm⟩
    · split at h
      · exact ⟨_, by omega, (List.cons.inj h).1.symm⟩
      · split at h
        · exact ⟨_, by omega, (List.cons.inj h).1.symm⟩
        · exact ⟨_, by omega, (List.cons.inj h).1.symm⟩
  obtain ⟨n, hn, rfl⟩ := hlead
  rw [Utf8.toNat_ofNat_of_lt (by omega)]
  exact hn

/-- Characters that do not begin with a mark are written without the bytes of one. -/
theorem decode_ofChars {cs : List Char} (h : cs.head? ≠ some byteOrderMark) :
    decode (.ofChars cs) = (.ofChars cs, utf8) := by
  have hbegin {a : UInt8} {rest : List UInt8} (hbytes : (Text.ofChars cs).bytes = a :: rest) :
      ∃ c, cs.head? = some c ∧ Utf8.first a rest = .scalar c ∧ a.toNat < 0xFE := by
    cases cs with
    | nil => cases hbytes
    | cons c cs =>
      obtain ⟨b, more, hc⟩ := List.exists_cons_of_ne_nil (Text.encodeChar_ne_nil c)
      have hfirst : Text.encodeChar c <+: a :: rest := ⟨_, hbytes⟩
      obtain ⟨behind, hbehind⟩ := hfirst
      rw [hc, List.cons_append] at hbehind
      obtain ⟨rfl, -⟩ := List.cons.inj hbehind
      exact ⟨c, rfl, Utf8.first_eq_scalar_iff.2 ⟨_, hbytes⟩, lt_of_encodeChar_eq hc⟩
  unfold decode
  split
  · next rest hbytes =>
    obtain ⟨c, hhead, hfirst, -⟩ := hbegin hbytes
    have hmark : Utf8.first 0xEF (0xBB :: 0xBF :: rest) = .scalar byteOrderMark :=
      Utf8.first_eq_scalar_iff.2 ⟨rest, rfl⟩
    rw [hmark] at hfirst
    cases hfirst
    exact absurd hhead h
  · next rest hbytes =>
    obtain ⟨-, -, -, hlt⟩ := hbegin hbytes
    exact absurd hlt (by decide)
  · next rest hbytes =>
    obtain ⟨-, -, -, hlt⟩ := hbegin hbytes
    exact absurd hlt (by decide)
  · rw [if_pos (Text.isValidUtf8_ofChars cs)]

/-- The files that hold a text in Unicode, and their encodings. -/
inductive Encodes (cs : List Char) : Text → Encoding → Prop
  | marked : Encodes cs ⟨0xEF :: 0xBB :: 0xBF :: (Text.ofChars cs).bytes⟩ utf8
  | littleEndian : Encodes cs ⟨0xFF :: 0xFE :: Utf16.encode .littleEndian cs⟩ utf16
  | bigEndian : Encodes cs ⟨0xFE :: 0xFF :: Utf16.encode .bigEndian cs⟩ utf16
  /-- Without a mark, the text must not look as if it had one. -/
  | unmarked (h : cs.head? ≠ some byteOrderMark) : Encodes cs (.ofChars cs) utf8

/-- A text is read from a file as it was put there. -/
theorem Encodes.decode_eq {cs : List Char} {data : Text} {e : Encoding} (h : Encodes cs data e) :
    decode data = (.ofChars cs, e) := by
  cases h with
  | marked => rfl
  | littleEndian =>
    exact congrArg (fun chars => (Text.ofChars chars, utf16)) (Utf16.decode_encode _ cs)
  | bigEndian =>
    exact congrArg (fun chars => (Text.ofChars chars, utf16)) (Utf16.decode_encode _ cs)
  | unmarked h => exact decode_ofChars h

end Encoding

/-! ### Reading and compiling files -/

/-- A path leads to a file with some content. -/
structure Storage.Has {m : Type → Type} [Monad m] (storage : Storage m) (path content : Text) :
    Prop where
  stat : ∃ size, storage.stat path = pure (.ok ⟨false, size⟩)
  read : storage.read path = pure (.ok content)

theorem Disk.has_readOnly {d : Disk} {path content : Text} (h : d.read path = .ok content) :
    d.readOnly.Has path content where
  stat := ⟨content.size, congrArg pure (stat_of_read h)⟩
  read := congrArg pure h

namespace Encoding

/-- Without a log, a file in Unicode compiles to what its text does. -/
theorem Encodes.compileFile_eq {m : Type → Type} [Monad m] [LawfulMonad m] {ε : Type}
    {cs : List Char} {data path : Text} {e : Encoding} {storage : Storage m}
    (h : Encodes cs data e) (hfile : storage.Has path data) (headers : Resolver m ε) :
    compileFile storage (fun _ => pure ()) headers path =
      compile (fun _ => pure ()) headers (.ofChars cs) := by
  obtain ⟨size, hstat⟩ := hfile.stat
  simp only [compileFile, SourceFile.load, hstat, hfile.read, h.decode_eq, pure_bind,
    Bool.false_eq_true, if_false]

/-- **The Unicode encoding of a file does not matter.** A text is read from a file as it was put
there, and any two files that hold it compile to the same, whatever the headers are. -/
theorem decode_encodes {cs : List Char} {data : Text} {e : Encoding} (h : Encodes cs data e) :
    decode data = (.ofChars cs, e) ∧
      ∀ (data' : Text) (e' : Encoding), Encodes cs data' e' →
        ∀ (m : Type → Type) [Monad m] [LawfulMonad m] (ε : Type) (storage storage' : Storage m)
          (path path' : Text), storage.Has path data → storage'.Has path' data' →
          ∀ headers : Resolver m ε,
            compileFile storage (fun _ => pure ()) headers path =
              compileFile storage' (fun _ => pure ()) headers path' := by
  refine ⟨h.decode_eq, ?_⟩
  intro data' e' h' m _ _ ε storage storage' path path' hfile hfile' headers
  rw [h.compileFile_eq hfile, h'.compileFile_eq hfile']

/-- A second mark is part of the text, and so is a character that takes a pair of units. -/
theorem decode_encodes_secondMark :
    let little : Text := ⟨[0xFF, 0xFE, 0xFF, 0xFE, 0x3D, 0xD8, 0x00, 0xDE]⟩
    let big : Text := ⟨[0xFE, 0xFF, 0xFE, 0xFF, 0xD8, 0x3D, 0xDE, 0x00]⟩
    let disk : Disk :=
      { nodes := [(["little.int"], .file little), (["big.int"], .file big)] }
    Encodes [byteOrderMark, '😀'] little utf16 ∧ Encodes [byteOrderMark, '😀'] big utf16 ∧
      decode little = (.ofChars [byteOrderMark, '😀'], utf16) ∧
      ∀ headers : Resolver Id Unit,
        compileFile disk.readOnly (fun _ => pure ()) headers "little.int" =
          compileFile disk.readOnly (fun _ => pure ()) headers "big.int" := by
  intro little big disk
  have hlittle : Encodes [byteOrderMark, '😀'] little utf16 := .littleEndian
  have hbig : Encodes [byteOrderMark, '😀'] big utf16 := .bigEndian
  have hfile : disk.readOnly.Has "little.int" little := Disk.has_readOnly rfl
  have hfile' : disk.readOnly.Has "big.int" big := Disk.has_readOnly rfl
  obtain ⟨hdecode, hcompile⟩ := decode_encodes hlittle
  exact ⟨hlittle, hbig, hdecode, hcompile big utf16 hbig Id Unit _ _ _ _ hfile hfile'⟩

/-! ### Well-formed texts -/

/-- The bytes that mark UTF-8. -/
def utf8Mark : Text := ⟨[0xEF, 0xBB, 0xBF]⟩

/-- **The text in a file is well-formed, unless it stands behind a mark of UTF-8 and is not.** What
stands behind such a mark is taken as it is. -/
theorem decode_wellFormed (data : Text) :
    ((∃ cs, (decode data).1 = .ofChars cs) ↔
      ¬ ∃ rest, data = utf8Mark ++ rest ∧ ¬ ∃ cs, rest = .ofChars cs) ∧
      ∀ rest, decode (utf8Mark ++ rest) = (rest, utf8) := by
  refine ⟨?_, fun _ => rfl⟩
  constructor
  · rintro h ⟨rest, rfl, hrest⟩
    exact hrest h
  · intro h
    have hunmarked : ∀ rest, data = utf8Mark ++ rest → ∃ cs, rest = .ofChars cs := by
      intro rest hrest
      by_contra hmalformed
      exact h ⟨rest, hrest, hmalformed⟩
    unfold decode
    split
    · next rest hbytes => exact hunmarked ⟨rest⟩ (Text.ext hbytes)
    · exact ⟨_, rfl⟩
    · exact ⟨_, rfl⟩
    · split
      · next hvalid => exact Text.isValidUtf8_iff.1 hvalid
      · exact ⟨_, rfl⟩

/-- A stray byte behind a mark is in the text. -/
theorem decode_wellFormed_strayBehindMark :
    decode ⟨[0xEF, 0xBB, 0xBF, 0xFF]⟩ = (⟨[0xFF]⟩, utf8) ∧
      ¬ ∃ cs, (⟨[0xFF]⟩ : Text) = .ofChars cs := by
  refine ⟨rfl, ?_⟩
  rw [← Text.isValidUtf8_iff]
  decide

end Encoding

end IntLang
