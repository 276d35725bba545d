import IntLang.Log
import IntLang.Proofs.Text.Pieces
import IntLang.Proofs.Token.Words

/-!
# Log lines

Whatever a record holds, the logger writes it as one line: line ends in messages, keys and values
are spelled out, in both formats. Such a line begins with the time or with a brace, so that a log
is never mistaken for the report of a failure: no line of it begins as a report does
(`Log.not_startsWith_of_mem_splitOn`).
-/

namespace IntLang

/-! ### Texts without line ends -/

namespace Text

/-- There is no line end in a text. -/
def WithinLine (t : Text) : Prop := (0x0A : UInt8) ∉ t.bytes

instance (t : Text) : Decidable t.WithinLine := inferInstanceAs (Decidable (_ ∉ _))

namespace WithinLine

theorem append {s t : Text} (hs : s.WithinLine) (ht : t.WithinLine) : (s ++ t).WithinLine := by
  intro h
  exact (List.mem_append.1 h).elim hs ht

theorem concat {ts : List Text} (h : ∀ t ∈ ts, t.WithinLine) : (Text.concat ts).WithinLine := by
  intro hb
  obtain ⟨t, ht, hbt⟩ := List.mem_flatMap.1 hb
  exact h t ht hbt

theorem intercalate {sep : Text} (hsep : sep.WithinLine) {ts : List Text}
    (h : ∀ t ∈ ts, t.WithinLine) : (Text.intercalate sep ts).WithinLine := by
  fun_induction Text.intercalate sep ts with
  | case1 => exact List.not_mem_nil
  | case2 t => exact h t List.mem_cons_self
  | case3 t u ts ih =>
    exact ((h t List.mem_cons_self).append hsep).append
      (ih fun v hv => h v (List.mem_cons_of_mem t hv))

/-- A text whose glyphs are no line ends has none: no byte of another glyph is one. -/
theorem of_glyphs {t : Text} (h : Glyph.scalar '\n' ∉ t.glyphs) : t.WithinLine := by
  intro hb
  rw [← ofGlyphs_glyphs t] at hb
  exact h (mem_of_mem_bytes (Legible.glyphs t) (by decide) hb)

theorem ofChars {cs : List Char} (h : '\n' ∉ cs) : (Text.ofChars cs).WithinLine := by
  apply of_glyphs
  rw [glyphs_ofChars]
  simpa using h

end WithinLine

/-- The digits of a number are digits of the base. -/
theorem exists_digitChar_of_mem_toDigits {b : Nat} (hb : 1 < b) {n : Nat} {c : Char}
    (h : c ∈ Nat.toDigits b n) : ∃ d < b, c = d.digitChar := by
  induction n using Nat.strongRecOn with
  | ind n ih =>
    rcases Nat.lt_or_ge n b with hn | hn
    · rw [Nat.toDigits_of_lt_base hn] at h
      exact ⟨n, hn, List.mem_singleton.1 h⟩
    · rw [Nat.toDigits_of_base_le hb hn] at h
      rcases List.mem_append.1 h with h | h
      · exact ih (n / b) (Nat.div_lt_self (by omega) hb) h
      · exact ⟨n % b, Nat.mod_lt n (by omega), List.mem_singleton.1 h⟩

theorem newline_notMem_toDigits {b : Nat} (hb : 1 < b) (hb' : b ≤ 16) (n : Nat) :
    '\n' ∉ Nat.toDigits b n := by
  intro h
  obtain ⟨d, hd, heq⟩ := exists_digitChar_of_mem_toDigits hb h
  have hdigits : ∀ d < 16, '\n' ≠ d.digitChar := by decide
  exact hdigits d (by omega) heq

theorem withinLine_ofNat (n : Nat) : (ofNat n).WithinLine :=
  .ofChars (newline_notMem_toDigits (by decide) (by decide) n)

theorem withinLine_ofInt (i : Int) : (ofInt i).WithinLine := by
  cases i with
  | ofNat n => exact withinLine_ofNat n
  | negSucc n => exact .append (by decide) (withinLine_ofNat (n + 1))

theorem withinLine_ofHex (width n : Nat) : (ofHex width n).WithinLine := by
  apply WithinLine.ofChars
  intro h
  rcases List.mem_append.1 h with h | h
  · exact absurd (List.eq_of_mem_replicate h) (by decide)
  · exact newline_notMem_toDigits (by decide) (by decide) n h

theorem withinLine_padLeft (width : Nat) {t : Text} (h : t.WithinLine) :
    (t.padLeft width).WithinLine := by
  refine .append (fun hb => ?_) h
  exact absurd (List.eq_of_mem_replicate hb) (by decide)

/-! ### Quoted text -/

theorem withinLine_quoteChar (c : Char) : (quoteChar c).WithinLine := by
  rw [quoteChar]
  split
  · next h =>
    apply WithinLine.ofChars
    intro hc
    simp only [List.mem_cons, List.not_mem_nil, or_false, Char.reduceEq, false_or] at hc
    simp [← hc] at h
  split
  · next h =>
    apply WithinLine.ofChars
    intro hc
    obtain rfl : '\n' = c := List.mem_singleton.1 hc
    revert h
    decide
  split
  · next s h =>
    revert h
    unfold controlLetter?
    split <;> rintro ⟨⟩ <;> decide
  · dsimp only
    split
    · exact .append (by decide) (withinLine_ofHex 2 _)
    split
    · exact .append (by decide) (withinLine_ofHex 4 _)
    · exact .append (by decide) (withinLine_ofHex 8 _)

theorem withinLine_quote (t : Text) : t.quote.WithinLine := by
  refine .append (.append (by decide) (.concat ?_)) (by decide)
  intro q hq
  obtain ⟨g, -, rfl⟩ := List.mem_map.1 hq
  cases g with
  | scalar c => exact withinLine_quoteChar c
  | stray b => exact .append (by decide) (withinLine_ofHex 2 _)

/-- What stands before the first line end is the first line. -/
theorem splitOn_line {t : Text} (h : t.WithinLine) (u : Text) :
    (t ++ "\n" ++ u).splitOn 0x0A = t :: u.splitOn 0x0A := by
  rw [append_assoc]
  exact splitOn_append_cons h u.bytes

/-- Lines that are put together come out again, and behind the last line end there is nothing. -/
theorem splitOn_lines {ls : List Text} (h : ∀ l ∈ ls, l.WithinLine) :
    (lines ls).splitOn 0x0A = ls ++ [.empty] := by
  induction ls with
  | nil => rfl
  | cons l ls ih =>
    have hl := h l List.mem_cons_self
    have hls := ih fun l' hl' => h l' (List.mem_cons_of_mem l hl')
    rw [lines] at hls
    rw [lines, List.map_cons, concat_cons, splitOn_line hl, hls, List.cons_append]

end Text

/-! ### Records -/

namespace Log

theorem withinLine_bareOrQuoted (t : Text) : (bareOrQuoted t).WithinLine := by
  rw [bareOrQuoted]
  split
  · exact t.withinLine_quote
  · next h =>
    apply Text.WithinLine.of_glyphs
    intro hg
    refine h (Bool.or_eq_true_iff.2 (.inr (List.any_eq_true.2 ⟨_, hg, ?_⟩)))
    decide

theorem withinLine_jsonChar (c : Char) : (jsonChar c).WithinLine := by
  unfold jsonChar
  split
  any_goals decide
  next hnewline _ _ =>
  split
  · exact .append (by decide) (Text.withinLine_ofHex 4 _)
  · apply Text.WithinLine.ofChars
    intro hc
    exact hnewline (List.mem_singleton.1 hc).symm

theorem withinLine_jsonString (t : Text) : (jsonString t).WithinLine := by
  refine .append (.append (by decide) (.concat ?_)) (by decide)
  intro q hq
  obtain ⟨c, -, rfl⟩ := List.mem_map.1 hq
  exact withinLine_jsonChar c

theorem withinLine_textAttribute (now : Readings) (key : Text) (value : Value) :
    (textAttribute now key value).WithinLine := by
  refine .append (.append (withinLine_bareOrQuoted key) (by decide)) ?_
  cases value with
  | text t => exact withinLine_bareOrQuoted t
  | number n => exact Text.withinLine_ofInt n
  | elapsed => exact withinLine_bareOrQuoted now.elapsed

theorem withinLine_jsonAttribute (now : Readings) (key : Text) (value : Value) :
    (jsonAttribute now key value).WithinLine := by
  refine .append (.append (withinLine_jsonString key) (by decide)) ?_
  cases value with
  | text t => exact withinLine_jsonString t
  | number n => exact Text.withinLine_ofInt n
  | elapsed => exact Text.withinLine_ofInt now.nanoseconds

/-- A record is written as one line, which does not begin as a report does. -/
theorem exists_render_eq (format : Format) (now : Readings) (r : Record) :
    ∃ line : Text, r.render format now = line ++ "\n" ∧ line.WithinLine ∧
      Text.startsWith "Error:" line = false := by
  cases format with
  | text =>
    refine ⟨_, rfl, .intercalate (by decide) ?_, rfl⟩
    intro t ht
    obtain ⟨⟨key, value⟩, -, rfl⟩ := List.mem_map.1 ht
    exact withinLine_textAttribute now key value
  | json =>
    obtain ⟨inner, hinner, hwithin⟩ : ∃ inner : Text,
        r.render .json now = "\x7b" ++ inner ++ "\x7d\n" ∧ inner.WithinLine := by
      refine ⟨_, rfl, .intercalate (by decide) ?_⟩
      intro t ht
      obtain ⟨⟨key, value⟩, -, rfl⟩ := List.mem_map.1 ht
      exact withinLine_jsonAttribute now key value
    refine ⟨"\x7b" ++ inner ++ "\x7d", ?_, .append (.append (by decide) hwithin) (by decide), rfl⟩
    rw [hinner, Text.append_assoc _ "\x7d"]
    rfl

/-- A text that a logger writes for some record. -/
def IsLogged (t : Text) : Prop := ∃ logger now record, t = Logger.line logger now record

/-- No line of a log begins as a report does. -/
theorem not_startsWith_of_mem_splitOn {lines : List Text} (h : ∀ t ∈ lines, IsLogged t)
    {piece : Text} (hp : piece ∈ (Text.concat lines).splitOn 0x0A) :
    Text.startsWith "Error:" piece = false := by
  induction lines with
  | nil =>
    obtain rfl : piece = ⟨[]⟩ := List.mem_singleton.1 hp
    decide
  | cons t lines ih =>
    have hlines := ih fun u hu => h u (List.mem_cons_of_mem t hu)
    obtain ⟨logger, now, record, rfl⟩ := h t List.mem_cons_self
    rw [Text.concat_cons, Logger.line] at hp
    split at hp
    · obtain ⟨line, hline, hwithin, hmark⟩ := exists_render_eq logger.format now record
      rw [hline, Text.splitOn_line hwithin] at hp
      rcases List.mem_cons.1 hp with rfl | hp
      · exact hmark
      · exact hlines hp
    · exact hlines hp

end Log

end IntLang
