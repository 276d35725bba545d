import IntLang.Proofs.Compile.Context
import IntLang.Proofs.Single.ReadBack
import IntLang.Proofs.Text.Quoting

/-!
# Tokens read off a listing

In a listing every token has a line, which says its kind and what it carries. Nothing gets lost on
the way. A line ends where its token does, since no token is written with a line end in it. The
first letter of a line tells the kind of the token. An operator, a type and a keyword have a name of
their own each, an identifier is its own name, and of a literal the type comes first, up to a colon,
and then its text between quotes. From type and text the literal can be told, reals included: what a
text is read as is finite, and a finite number is written so that it reads back.

## Main results

* `Token.eq_of_describe_eq`: tokens that are written alike are equal, if they can be read from a
  text;
* `eq_of_lines_describe_eq`: so are listings.
-/

namespace IntLang

/-! ### What can be read -/

/-- The literals that can be read from a text. -/
inductive Literal.IsReadable : Literal → Prop
  | real {x : Single} : x.isSpecial = false → IsReadable (.real x)
  | int (n : Int32) : IsReadable (.int n)
  | string (s : Text) : IsReadable (.string s)
  | bool (b : Bool) : IsReadable (.bool b)

/-- The tokens that can be read from a text. -/
inductive Token.IsReadable : Token → Prop
  | operator {o : Operator} {c : Char} : o.char? = some c → IsReadable (.operator o)
  | type {t : ValueType} : t ∈ ValueType.all → IsReadable (.type t)
  | ident {name : Text} : name.WithinLine → IsReadable (.ident name)
  | keyword {k : Keyword} : k ∈ Keyword.spellings.map (·.2) → IsReadable (.keyword k)
  | literal {l : Literal} : l.IsReadable → IsReadable (.literal l)

/-- A real that a word is read as is finite. -/
theorem isSpecial_of_realWord? {w : Text} {x : Single} (h : realWord? w = some x) :
    x.isSpecial = false := by
  rw [realWord?, Option.ite_none_right_eq_some] at h
  exact Single.isSpecial_of_ofText? h.2

/-- What a word is classified as can be read. -/
theorem isReadable_classify {w : Text} (hw : w.WithinLine) : (classify w).IsReadable := by
  rcases classify_cases w with ⟨t, ht, h⟩ | ⟨k, hk, h⟩ | ⟨n, -, h⟩ | ⟨x, hx, h⟩ | ⟨b, -, h⟩ | h
  all_goals rw [h]
  · exact .type (List.mem_of_find?_eq_some ht)
  · obtain ⟨p, hp, rfl⟩ := Option.map_eq_some_iff.1 hk
    exact .keyword (List.mem_map_of_mem (List.mem_of_find?_eq_some hp))
  · exact .literal (.int n)
  · exact .literal (.real (isSpecial_of_realWord? hx))
  · exact .literal (.bool b)
  · exact .ident hw

/-- The tokens of a stream can be read. -/
theorem Stream.isReadable {m m' : Mode} {ts : List Token} (h : Stream m ts m') {t : Token}
    (ht : t ∈ ts) : t.IsReadable := by
  rcases h.mem_cases ht with ⟨o, c, hc, -, rfl⟩ | ⟨content, rfl⟩ | ⟨w, hw, hl, rfl⟩
  · exact .operator hc
  · exact .literal (.string content)
  · exact isReadable_classify (not_mem_bytes hw hl (by decide) (by decide))

/-! ### What a line says -/

/-- A type that can be read is told by its name. -/
theorem ValueType.eq_of_name_eq {t u : ValueType} (ht : t ∈ all) (hu : u ∈ all)
    (h : t.name = u.name) : t = u := by
  have hall : ∀ t ∈ all, ∀ u ∈ all, t.name = u.name → t = u := by decide
  exact hall t ht u hu h

/-- A keyword that can be read is told by its name. -/
theorem Keyword.eq_of_name_eq {k l : Keyword} (hk : k ∈ spellings.map (·.2))
    (hl : l ∈ spellings.map (·.2)) (h : k.name = l.name) : k = l := by
  have hall : ∀ k ∈ spellings.map (·.2), ∀ l ∈ spellings.map (·.2), k.name = l.name → k = l := by
    decide
  exact hall k hk l hl h

/-- An operator is told by its character. -/
theorem Operator.eq_of_symbol_eq {o p : Operator} {c d : Char} (hc : o.char? = some c)
    (hd : p.char? = some d) (h : o.symbol = p.symbol) : o = p := by
  simp only [symbol, hc, hd, Text.ofChars_inj, List.cons.injEq, and_true] at h
  subst h
  exact eq_of_char?_eq hc hd

/-- A finite real is told by its text. -/
theorem Single.eq_of_text_eq {x y : Single} (hx : x.isSpecial = false) (hy : y.isSpecial = false)
    (h : x.text = y.text) : x = y := by
  have hread := ofText?_text hx
  rw [h, ofText?_text hy] at hread
  exact (Option.some.inj hread).symm

/-- An integer is told by its text, as a word is. -/
theorem eq_of_ofInt_eq {m n : Int32} (h : Text.ofInt m.toInt = .ofInt n.toInt) : m = n := by
  have hread := classify_ofInt m
  rw [h, classify_ofInt n] at hread
  exact (Literal.int.inj (Token.literal.inj hread)).symm

namespace Literal.IsReadable

variable {k l : Literal}

theorem type_mem (h : l.IsReadable) : l.type ∈ ValueType.all := by
  cases h <;> simp [type, ValueType.all]

/-- A literal is told by its type and its text. -/
theorem eq_of_text_eq (hk : k.IsReadable) (hl : l.IsReadable) (htype : k.type = l.type)
    (htext : k.text = l.text) : k = l := by
  cases hk with
  | real hx =>
      cases hl with
      | real hy => rw [Single.eq_of_text_eq hx hy htext]
      | int _ | string _ | bool _ => cases htype
  | int m =>
      cases hl with
      | int n => rw [eq_of_ofInt_eq htext]
      | real _ | string _ | bool _ => cases htype
  | string s =>
      cases hl with
      | string t => rw [show s = t from htext]
      | real _ | int _ | bool _ => cases htype
  | bool b =>
      cases hl with
      | bool c =>
          have htexts : ∀ b c, (Literal.bool b).text = (Literal.bool c).text → b = c := by decide
          rw [htexts b c htext]
      | real _ | int _ | string _ => cases htype

/-- A literal is told by its type and its text between quotes, which a colon parts: there is no
colon in the name of a type. -/
theorem eq_of_named_eq (hk : k.IsReadable) (hl : l.IsReadable)
    (h : k.type.name ++ (.singleton 0x3A ++ k.text.quote)
      = l.type.name ++ (.singleton 0x3A ++ l.text.quote)) : k = l := by
  have hcolon : ∀ t ∈ ValueType.all, 0x3A ∉ t.name.bytes := by decide
  obtain ⟨hbefore, hafter⟩ := Text.before_after?_append (hcolon _ hk.type_mem) k.text.quote
  obtain ⟨hbefore', hafter'⟩ := Text.before_after?_append (hcolon _ hl.type_mem) l.text.quote
  rw [h] at hbefore hafter
  have hname : k.type.name = l.type.name := hbefore.symm.trans hbefore'
  have hquote : k.text.quote = l.text.quote := Option.some.inj (hafter.symm.trans hafter')
  exact hk.eq_of_text_eq hl (ValueType.eq_of_name_eq hk.type_mem hl.type_mem hname)
    (Text.quote_inj.1 hquote)

end Literal.IsReadable

/-- A literal in a listing, with the brackets apart. -/
theorem Token.describe_literal (l : Literal) :
    (Token.literal l).describe
      = "LIT(" ++ (l.type.name ++ (.singleton 0x3A ++ l.text.quote)) ++ ")" := by
  rw [describe, Text.append_assoc "LIT(", Text.append_assoc "LIT(", Text.append_assoc l.type.name]
  rfl

namespace Token.IsReadable

variable {t u : Token}

/-- **Tokens that are written alike are equal**, if they can be read from a text. -/
theorem eq_of_describe_eq (ht : t.IsReadable) (hu : u.IsReadable)
    (h : t.describe = u.describe) : t = u := by
  -- The first letter of a line tells the kind of the token.
  have hinitial : t.describe.bytes.head? = u.describe.bytes.head? := by rw [h]
  cases ht with
  | operator hc =>
      cases hu with
      | operator hd => rw [Operator.eq_of_symbol_eq hc hd (Text.enclosed_inj.1 h)]
      | type _ | ident _ | keyword _ | literal _ => cases hinitial
  | type ht =>
      cases hu with
      | type hu => rw [ValueType.eq_of_name_eq ht hu (Text.enclosed_inj.1 h)]
      | operator _ | ident _ | keyword _ | literal _ => cases hinitial
  | ident _ =>
      cases hu with
      | ident _ => rw [Text.enclosed_inj.1 h]
      | operator _ | type _ | keyword _ | literal _ => cases hinitial
  | keyword hk =>
      cases hu with
      | keyword hl => rw [Keyword.eq_of_name_eq hk hl (Text.enclosed_inj.1 h)]
      | operator _ | type _ | ident _ | literal _ => cases hinitial
  | literal hk =>
      cases hu with
      | literal hl =>
          rw [describe_literal, describe_literal] at h
          rw [hk.eq_of_named_eq hl (Text.enclosed_inj.1 h)]
      | operator _ | type _ | ident _ | keyword _ => cases hinitial

/-- A token that can be read is written within a line. -/
theorem withinLine_describe (ht : t.IsReadable) : t.describe.WithinLine := by
  refine Token.withinLine_describe fun name hname => ?_
  subst hname
  cases ht with
  | ident h => exact h

end Token.IsReadable

/-! ### Listings -/

/-- **Listings that are equal list the same tokens**, if these can be read from a text. -/
theorem eq_of_lines_describe_eq {ts us : List Token} (hts : ∀ t ∈ ts, t.IsReadable)
    (hus : ∀ u ∈ us, u.IsReadable)
    (h : Text.lines (ts.map Token.describe) = .lines (us.map Token.describe)) : ts = us := by
  have hsplit {vs : List Token} (hvs : ∀ v ∈ vs, v.IsReadable) :
      (Text.lines (vs.map Token.describe)).splitOn 0x0A = vs.map Token.describe ++ [.empty] :=
    Text.splitOn_lines (List.forall_mem_map.2 fun v hv => (hvs v hv).withinLine_describe)
  have hlines : ts.map Token.describe = us.map Token.describe := by
    have happend := hsplit hts
    rw [h, hsplit hus, List.append_cancel_right_eq] at happend
    exact happend.symm
  clear h
  induction ts generalizing us with
  | nil => exact (List.map_eq_nil_iff.1 hlines.symm).symm
  | cons t ts ih =>
      cases us with
      | nil => cases hlines
      | cons u us =>
          obtain ⟨ht, hts⟩ := List.forall_mem_cons.1 hts
          obtain ⟨hu, hus⟩ := List.forall_mem_cons.1 hus
          rw [List.map_cons, List.map_cons, List.cons.injEq] at hlines
          rw [ht.eq_of_describe_eq hu hlines.1, ih hts hus hlines.2]

end IntLang
