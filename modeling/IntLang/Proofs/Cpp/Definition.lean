import IntLang.Proofs.Cpp.Spelling
import IntLang.Proofs.Program.Segmentation

/-!
# Functions do not run into each other

The text of a function is read again here. A function that was declared in a source is written
like a row of tokens (`definition_eq`), and these tokens are a stream again, from normal mode to
normal mode: the words of its signature are words of the source, and its body stands between two
braces, outside of strings (`DeclaredAt.stream_body`).

So whatever words may run together in the text, its marks are those of the function, its last brace
closes its first, and the text behind it is read as if it stood alone (`lex_definition_append`).
-/

namespace IntLang

open Mode (normal)

/-! ### The tokens of a function -/

/-- The tokens of parameters, with a comma between each two. -/
def parameterList (ps : List Parameter) : List Token :=
  List.intercalate [.operator .comma] (ps.map fun p => [.type p.type, .ident p.name])

/-- The tokens of a signature. -/
def Function.signatureTokens (f : Function) : List Token :=
  .type f.result :: .ident f.name :: .operator .openParen
    :: (parameterList f.parameters ++ [.operator .closeParen])

/-- The operators and pieces of strings of a function: its parentheses with a comma between each two
parameters, and its braces with those of its body. -/
def Function.marks (f : Function) : List Token :=
  .operator .openParen :: (List.replicate (f.parameters.length - 1) (.operator .comma)
    ++ .operator .closeParen :: .operator .openBrace
      :: (f.body.filter Token.isMark ++ [.operator .closeBrace]))

/-- The first parameter, a comma and the others. -/
theorem parameterList_cons_cons (p q : Parameter) (ps : List Parameter) :
    parameterList (p :: q :: ps)
      = .type p.type :: .ident p.name :: .operator .comma :: parameterList (q :: ps) := by
  simp [parameterList, List.intercalate_cons_cons]

/-- Apart from commas, there are the types and the names of the parameters. -/
theorem mem_parameterList {ps : List Parameter} {t : Token} (h : t ∈ parameterList ps) :
    t = .operator .comma ∨ t ∈ parameterTokens ps := by
  induction ps with
  | nil => cases h
  | cons p ps ih =>
      cases ps with
      | nil =>
          have hp : parameterList [p] = parameterTokens [p] := by
            simp [parameterList, parameterTokens]
          exact Or.inr (hp ▸ h)
      | cons q ps =>
          rw [parameterList_cons_cons] at h
          rw [parameterTokens_cons]
          simp only [List.mem_cons] at h ih ⊢
          rcases h with h | h | h | h
          · exact Or.inr (Or.inl h)
          · exact Or.inr (Or.inr (Or.inl h))
          · exact Or.inl h
          · exact (ih h).imp_right fun h => Or.inr (Or.inr h)

/-- The marks among parameters are the commas between them. -/
theorem filter_parameterList (ps : List Parameter) :
    (parameterList ps).filter Token.isMark
      = List.replicate (ps.length - 1) (.operator .comma) := by
  induction ps with
  | nil => rfl
  | cons p ps ih =>
      cases ps with
      | nil => simp [parameterList, Token.isMark]
      | cons q ps =>
          rw [parameterList_cons_cons, List.filter_cons_of_neg Bool.false_ne_true,
            List.filter_cons_of_neg Bool.false_ne_true, List.filter_cons_of_pos rfl, ih]
          rfl

namespace Cpp

/-- Parameters are written as their tokens. -/
theorem tokens_parameterList (ps : List Parameter) :
    tokens (parameterList ps) = Text.intercalate (operator .comma) (ps.map parameter) := by
  induction ps with
  | nil => rfl
  | cons p ps ih =>
      cases ps with
      | nil =>
          ext1
          simp [parameterList, tokens, Text.concat, Text.intercalate, parameter, token]
      | cons q ps =>
          rw [parameterList_cons_cons, List.map_cons, List.map_cons, Text.intercalate,
            ← List.map_cons, ← ih]
          ext1
          simp [tokens, Text.concat, parameter, token]

/-- A function is written as its tokens. -/
theorem definition_eq (f : Function) :
    definition f = tokens (f.signatureTokens ++ .operator .openBrace :: f.body)
      ++ token (.operator .closeBrace) := by
  rw [definition, declaration, ← tokens_parameterList]
  ext1
  simp [tokens, Text.concat, token, Function.signatureTokens]

end Cpp

/-! ### The tokens of a declared function -/

namespace DeclaredAt

variable {ts : List Token} {i : Nat} {f : Function} {m : Mode}

/-- The signature of a function that is declared in a stream stands outside of strings. -/
theorem isPlain_signatureTokens (hf : DeclaredAt ts i f) (hts : Stream normal ts m) {t : Token}
    (ht : t ∈ f.signatureTokens) : IsPlain t := by
  obtain ⟨close, finish, hregions, -⟩ := hf.regions
  have hparameter {t : Token} (ht : t ∈ parameterTokens f.parameters) : IsPlain t := by
    have hmark : t.isMark = false := by
      obtain ⟨p, -, hp⟩ := List.mem_flatMap.1 ht
      simp only [List.mem_cons, List.not_mem_nil, or_false] at hp
      rcases hp with rfl | rfl <;> rfl
    rw [← hregions.parameters] at ht
    have hbetween := List.mem_of_mem_filter ht
    exact hts.isPlain (List.mem_of_mem_take (List.mem_of_mem_drop hbetween)) hmark
  simp only [Function.signatureTokens, List.mem_cons, List.mem_append, List.not_mem_nil,
    or_false] at ht
  rcases ht with rfl | rfl | rfl | ht | rfl
  · exact hts.isPlain (List.mem_of_getElem? hf.signature.type) rfl
  · exact hts.isPlain (List.mem_of_getElem? hf.signature.ident) rfl
  · exact .operator rfl (by decide) (by decide)
  · rcases mem_parameterList ht with rfl | ht
    · exact .operator rfl (by decide) (by decide)
    · exact hparameter ht
  · exact .operator rfl (by decide) (by decide)

/-- The body of a function that is declared in a stream stands outside of strings. -/
theorem stream_body (hf : DeclaredAt ts i f) (hts : Stream normal ts m) :
    Stream normal f.body normal := by
  obtain ⟨close, finish, hregions, hbody⟩ := hf.regions
  obtain ⟨before, behind, happend⟩ := hregions.body.exists_append
  rw [happend] at hts
  rw [hbody]
  exact ((hts.at_operator (by decide)).2.at_operator (by decide)).1

/-- The braces in the body of a function that is declared in a stream are balanced. -/
theorem balanced_body (hf : DeclaredAt ts i f) : Balanced f.body := by
  obtain ⟨close, finish, hregions, hbody⟩ := hf.regions
  rw [hbody]
  exact hregions.body.balanced

end DeclaredAt

/-! ### The text of a declared function -/

/-- Balance is a matter of the marks. -/
theorem balanced_filter_isMark {ts : List Token} :
    Balanced (ts.filter Token.isMark) ↔ Balanced ts := by
  have ho (ts : List Token) : openCount (ts.filter Token.isMark) = openCount ts :=
    List.count_filter rfl
  have hc (ts : List Token) : closeCount (ts.filter Token.isMark) = closeCount ts :=
    List.count_filter rfl
  constructor
  · rintro ⟨hlevel, hlow⟩
    refine ⟨by rw [← ho, ← hc, hlevel], fun p hp => ?_⟩
    rw [← ho, ← hc]
    exact hlow _ (hp.filter _)
  · rintro ⟨hlevel, hlow⟩
    refine ⟨by rw [ho, hc, hlevel], fun p hp => ?_⟩
    obtain ⟨q, hq, rfl⟩ := List.prefix_filter_iff.1 hp
    rw [ho, hc]
    exact hlow q hq

/-- Tokens outside of strings, then an operator and then others: they are read one after
another. -/
theorem read_spelled_append {ts : List Token} (hts : Stream normal ts normal) {o : Operator}
    {c : Char} (hc : o.char? = some c) (hh : o ≠ .hash) (hq : o ≠ .quote) (more : List Token) :
    normal.read (spelled (ts ++ .operator o :: more))
      = ((normal.read (spelled more)).1,
        (normal.read (spelled ts)).2 ++ .operator o :: (normal.read (spelled more)).2) := by
  have hend : EndsWord (spelled (.operator o :: more)) := by
    obtain ⟨blanks, -, hs⟩ := exists_spelled_operator hc more
    rw [hs]
    exact endsWord_cons (isSeparator_of_char? hc) _
  have happend : spelled (ts ++ .operator o :: more)
      = spelled ts ++ spelled (.operator o :: more) := List.flatMap_append
  rw [happend, Mode.read_append _ hend, hts.marks_read.1, read_spelled_operator hc hh hq]

/-- **The text of a function ends what was opened in it**: whatever follows is read as if it stood
alone. -/
theorem lex_definition_append {f : Function} (hsignature : Stream normal f.signatureTokens normal)
    (hbody : Stream normal f.body normal) (next : Text) :
    lex (Cpp.definition f ++ next)
      = ((lex next).1, (normal.read (spelled f.signatureTokens)).2 ++ .operator .openBrace
        :: ((normal.read (spelled f.body)).2 ++ .operator .closeBrace :: tokenize next)) := by
  have hstream : Stream normal (f.signatureTokens ++ .operator .openBrace :: f.body) normal :=
    hsignature.append (.operator rfl (by decide) (by decide) hbody)
  have hclose : (Cpp.token (.operator .closeBrace) ++ next).glyphs
      = .scalar '\x7d' :: (['\n', '\n'].map .scalar ++ next.glyphs) :=
    Text.glyphs_ofChars_append ['\x7d', '\n', '\n'] next
  have hclean : BeginsClean (Cpp.token (.operator .closeBrace) ++ next).glyphs := by
    rw [hclose]
    rintro _ ⟨⟩
    exact ⟨_, rfl⟩
  have htext : Cpp.definition f ++ next
      = Cpp.tokens (f.signatureTokens ++ .operator .openBrace :: f.body)
        ++ (Cpp.token (.operator .closeBrace) ++ next) := by
    rw [Cpp.definition_eq]
    ext1
    simp
  have hglyphs : (Cpp.definition f ++ next).glyphs
      = spelled (f.signatureTokens ++ .operator .openBrace :: f.body)
        ++ .scalar '\x7d' :: (['\n', '\n'].map .scalar ++ next.glyphs) := by
    rw [htext, Text.glyphs_append _ hclean, hstream.glyphs_tokens, hclose]
  rw [lex, hglyphs, ← Mode.read, Mode.read_append _ (endsWord_cons (by decide) _),
    hstream.marks_read.1, Mode.read_normal_operator (o := .closeBrace) rfl (by decide) (by decide),
    read_normal_blanks (by decide), read_spelled_append hsignature rfl (by decide) (by decide),
    List.append_assoc, List.cons_append]
  rfl

/-- The marks of a signature are its parentheses, and a comma between each two parameters. -/
theorem filter_signatureTokens (f : Function) :
    f.signatureTokens.filter Token.isMark
      = .operator .openParen :: (List.replicate (f.parameters.length - 1) (.operator .comma)
        ++ [.operator .closeParen]) := by
  rw [Function.signatureTokens, List.filter_cons_of_neg Bool.false_ne_true,
    List.filter_cons_of_neg Bool.false_ne_true, List.filter_cons_of_pos rfl, List.filter_append,
    filter_parameterList]
  rfl

/-- There is no brace in a signature. -/
theorem not_mem_of_filter_eq {f : Function} {ts : List Token}
    (h : ts.filter Token.isMark = f.signatureTokens.filter Token.isMark) {o : Operator}
    (ho : o ≠ .openParen) (ho' : o ≠ .comma) (ho'' : o ≠ .closeParen) : .operator o ∉ ts := by
  intro hmem
  have hmark : .operator o ∈ ts.filter Token.isMark := List.mem_filter.2 ⟨hmem, rfl⟩
  rw [h, filter_signatureTokens] at hmark
  simp [ho, ho', ho'', List.mem_replicate] at hmark

/-- The first opening brace is the one behind tokens without any. -/
theorem findIdx_openBrace {head : List Token} (h : .operator .openBrace ∉ head)
    (more : List Token) :
    (head ++ .operator .openBrace :: more).findIdx (·.isOperator .openBrace) = head.length := by
  have hp (u : Token) : u.isOperator .openBrace = true ↔ u = .operator .openBrace := by
    simp [Token.isOperator]
  refine ((findIdx_eq_iff hp).2 ⟨by simp, fun k hk hkt => ?_⟩).1
  rw [List.getElem?_append_left hk] at hkt
  exact h (List.mem_of_getElem? hkt)

/-- **Functions do not run into each other.** The text of a function that was found in a source is
read to its end in normal mode, and yields the marks of the function; its braces are balanced, and
the last closes the first; what follows it is read as if it stood alone. -/
theorem lex_definition {source : Text} {p : Program} (hp : segment (tokenize source) = .ok p)
    {f : Function} (hf : f ∈ p.functions) :
    (lex (Cpp.definition f)).1 = .normal ∧
    (tokenize (Cpp.definition f)).filter Token.isMark = f.marks ∧
    Balanced (tokenize (Cpp.definition f)) ∧
    Matches (tokenize (Cpp.definition f))
      ((tokenize (Cpp.definition f)).findIdx (·.isOperator .openBrace))
      ((tokenize (Cpp.definition f)).length - 1) ∧
    ∀ next, lex (Cpp.definition f ++ next)
      = ((lex next).1, tokenize (Cpp.definition f) ++ tokenize next) := by
  obtain ⟨gs, ds, -, hds, rfl⟩ := segment_eq_ok hp
  obtain ⟨⟨i, f⟩, hd, rfl⟩ :=
    List.mem_map.1 (Program.mem_functions_addAll (Program.holds_nil gs) hf)
  have hdeclared : DeclaredAt (tokenize source) i f := hds.sound _ hd
  have hsource := stream_lex source
  have hsignature : Stream normal f.signatureTokens normal :=
    stream_of_isPlain fun t => hdeclared.isPlain_signatureTokens hsource
  have hbody := hdeclared.stream_body hsource
  have happend := lex_definition_append hsignature hbody
  have hhead := hsignature.marks_read.2
  have hinner := hbody.marks_read.2
  generalize (normal.read (spelled f.signatureTokens)).2 = head at happend hhead
  generalize (normal.read (spelled f.body)).2 = inner at happend hinner
  have hlex : lex (Cpp.definition f)
      = (normal, head ++ .operator .openBrace :: (inner ++ [.operator .closeBrace])) := by
    have hempty : Cpp.definition f ++ Text.empty = Cpp.definition f := by
      ext1
      simp
    rw [← hempty, happend]
    rfl
  have hopen : .operator .openBrace ∉ head :=
    not_mem_of_filter_eq hhead (by decide) (by decide) (by decide)
  have hclose : .operator .closeBrace ∉ head :=
    not_mem_of_filter_eq hhead (by decide) (by decide) (by decide)
  have hbalanced : Balanced inner := by
    rw [← balanced_filter_isMark, hinner, balanced_filter_isMark]
    exact hdeclared.balanced_body
  rw [tokenize, hlex]
  refine ⟨rfl, ?_, (balanced_of_not_mem hopen hclose).append hbalanced.scope, ?_, fun next => ?_⟩
  · rw [List.filter_append, hhead, filter_signatureTokens, List.filter_cons_of_pos rfl,
      List.filter_append, hinner]
    simp [Function.marks, Token.isMark]
  · have hlength :
        (head ++ Token.operator .openBrace :: (inner ++ [.operator .closeBrace])).length - 1
          = head.length + 1 + inner.length := by
      simp only [List.length_append, List.length_cons, List.length_nil]
      omega
    rw [findIdx_openBrace hopen, hlength]
    exact matches_of_balanced hbalanced head []
  · rw [happend]
    simp

/-- A function with two parameters, whose body holds a string with an escaped quote, a hash and
braces in it. -/
def quotedBraces : Function where
  result := .int
  name := "f"
  parameters := [⟨.int, "a", .int 0⟩, ⟨.real, "b", .real .zero⟩]
  body := [.keyword .ret, .operator .quote, .literal (.string "\\"), .literal (.string "\""),
    .literal (.string "#"), .literal (.string "\x7d"), .literal (.string "\x7b"),
    .operator .quote, .operator .semicolon]

/-- Quotes, hashes and braces inside a string stay inside of it. -/
theorem lex_definition_quotedBraces :
    segment (tokenize "int f(int a, real b) \x7b ret \"\\\"#\x7d\x7b\"; \x7d")
      = .ok (({} : Program).add quotedBraces) ∧
    (lex (Cpp.definition quotedBraces)).1 = .normal ∧
    (tokenize (Cpp.definition quotedBraces)).filter Token.isMark = quotedBraces.marks := by
  have h : segment (tokenize "int f(int a, real b) \x7b ret \"\\\"#\x7d\x7b\"; \x7d")
      = .ok (({} : Program).add quotedBraces) := by
    decide +kernel
  obtain ⟨hmode, hmarks, -⟩ := lex_definition h (f := quotedBraces) (by decide)
  exact ⟨h, hmode, hmarks⟩

end IntLang
