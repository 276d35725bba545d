import IntLang.Compile
import IntLang.Proofs.Token.Scanner

/-!
# Separators

Blanks and comments leave no trace among the tokens. A text that is one of these, a *separator*,
parts the texts before it and behind it: they are read as if each of them stood alone. Nothing joins
at the seams, not even where the first text ends within a character or the second begins within
one. A separator begins and ends with complete characters.

Since compiling sees the tokens only, it does not see which separator stands between two texts.

## Main results

* `Separates.lex_append_left`: a separator is skipped;
* `lex_separated`: texts with a separator between them are read one by one, and compiled alike.
-/

namespace IntLang

open Mode (normal comment)

/-- The texts that separate: blanks, at least one, and a comment with its two hashes. -/
inductive Separates : Text → Prop
  | blanks {cs : List Char} : cs ≠ [] → cs.all isBlank = true → Separates (.ofChars cs)
  | comment {c : Text} : 0x23 ∉ c.bytes → Separates ("#" ++ c ++ "#")

/-! ### One separator -/

/-- The glyphs of a comment and of what is behind it. -/
theorem glyphs_comment_append (c t : Text) :
    ("#" ++ c ++ "#" ++ t : Text).glyphs
      = .scalar '#' :: (c.glyphs ++ .scalar '#' :: t.glyphs) :=
  Text.glyphs_enclosed '#' c t

/-- There is no hash among the glyphs of a text without that byte. -/
theorem hash_not_mem_glyphs {c : Text} (h : 0x23 ∉ c.bytes) : .scalar '#' ∉ c.glyphs := by
  intro hmem
  refine h ?_
  rw [← Text.ofGlyphs_glyphs c]
  exact List.mem_flatMap.2 ⟨_, hmem, List.mem_singleton.2 rfl⟩

namespace Separates

variable {w : Text}

/-- A separator ends a word. -/
theorem endsWord (hw : Separates w) (t : Text) : EndsWord (w ++ t).glyphs := by
  cases hw with
  | blanks hne hblank =>
      rw [Text.glyphs_ofChars_append]
      exact endsWord_blanks hblank fun h => absurd h hne
  | comment _ =>
      rw [glyphs_comment_append]
      exact endsWord_cons (by decide) _

/-- **A separator is skipped**: what is behind it is read as if it stood alone. -/
theorem lex_append_left (hw : Separates w) (t : Text) : lex (w ++ t) = lex t := by
  cases hw with
  | blanks _ hblank =>
      rw [lex, Text.glyphs_ofChars_append]
      exact read_normal_blanks hblank t.glyphs
  | @comment c hc =>
      have hc' : .scalar '#' ∉ c.glyphs := hash_not_mem_glyphs hc
      have hdrop : (c.glyphs ++ .scalar '#' :: t.glyphs).dropWhile (· ≠ .scalar '#')
          = .scalar '#' :: t.glyphs := by
        rw [List.dropWhile_append_of_pos, List.dropWhile_cons_of_neg (by simp)]
        intro g hg
        exact decide_eq_true fun h => hc' (h ▸ hg)
      rw [lex, glyphs_comment_append]
      show normal.read _ = _
      rw [Mode.read_normal_hash, read_comment, if_pos (by simp), hdrop]
      rfl

end Separates

/-! ### Texts with a separator between them -/

/-- Without logging, compiling sees the tokens of a source only. -/
theorem compile_congr {m : Type → Type} [Monad m] {ε : Type} (headers : Resolver m ε)
    {s t : Text} (h : tokenize s = tokenize t) :
    compile (fun _ => pure ()) headers s = compile (fun _ => pure ()) headers t := by
  simp only [compile, h]

/-- **A separator parts two texts.** If the first ends in normal mode, the tokens of both with any
separator between them are those of the first and those of the second, and the mode in which they
end is that of the second. So, whatever the headers, compiling gives the same answer for any two
separators. -/
theorem lex_separated {p : Text} (hp : (lex p).1 = .normal) (s : Text) :
    (∀ w, Separates w →
      tokenize (p ++ w ++ s) = tokenize p ++ tokenize s ∧ (lex (p ++ w ++ s)).1 = (lex s).1) ∧
    ∀ w w', Separates w → Separates w' →
      ∀ (m : Type → Type) [Monad m] (ε : Type) (headers : Resolver m ε),
        compile (fun _ => pure ()) headers (p ++ w ++ s)
          = compile (fun _ => pure ()) headers (p ++ w' ++ s) := by
  have hlex {w : Text} (hw : Separates w) :
      lex (p ++ w ++ s) = ((lex s).1, tokenize p ++ tokenize s) := by
    have htokens : tokenize (w ++ s) = tokenize s := congrArg Prod.snd (hw.lex_append_left s)
    rw [Text.append_assoc, lex_append hp (hw.endsWord s), htokens, hw.lex_append_left]
  refine ⟨fun w hw => ?_, fun w w' hw hw' m _ ε headers => ?_⟩
  · rw [tokenize, hlex hw]
    exact ⟨rfl, rfl⟩
  · exact compile_congr headers (congrArg Prod.snd ((hlex hw).trans (hlex hw').symm))

/-- A wide blank and a comment with a quote in it part two texts alike, though the first ends with
the first byte of a character and the second begins with another byte of one. -/
theorem lex_separated_stray :
    (lex ⟨[0x61, 0xE2]⟩).1 = .normal ∧ Separates (.ofChars ['\u3000']) ∧
    tokenize (⟨[0x61, 0xE2]⟩ ++ .ofChars ['\u3000'] ++ ⟨[0x80, 0x22, 0x62]⟩)
      = [.ident ⟨[0x61, 0xE2]⟩, .ident ⟨[0x80]⟩, .operator .quote, .literal (.string "b")] ∧
    compile (m := Id) (fun _ => pure ()) (.absent : Resolver Id Empty)
        (⟨[0x61, 0xE2]⟩ ++ .ofChars ['\u3000'] ++ ⟨[0x80, 0x22, 0x62]⟩)
      = compile (fun _ => pure ()) .absent
        (⟨[0x61, 0xE2]⟩ ++ ("#" ++ "\"" ++ "#") ++ ⟨[0x80, 0x22, 0x62]⟩) := by
  have hp : (lex ⟨[0x61, 0xE2]⟩).1 = .normal := by decide +kernel
  have hblank : Separates (.ofChars ['\u3000']) := .blanks (by simp) (by decide)
  have hcomment : Separates ("#" ++ "\"" ++ "#") := .comment (by decide)
  obtain ⟨hread, hcompile⟩ := lex_separated hp ⟨[0x80, 0x22, 0x62]⟩
  refine ⟨hp, hblank, (hread _ hblank).1.trans ?_, hcompile _ _ hblank hcomment Id Empty .absent⟩
  decide +kernel

end IntLang
