import IntLang.CommandLine
import IntLang.Proofs.Answers
import IntLang.Proofs.Text.Pieces

/-!
# The forms of flags

A flag is given by its name behind two dashes, or by its letter, among others, behind one. Its value
stands behind an equals sign or in the next argument, and behind a letter it may also follow at
once. A switch is given without a value. Everything else is a word, and so is all that follows two
dashes alone. These are the forms (`Reads`, with `Letters` for groups of letters), and arguments are
read exactly if they have them (`read_eq_ok_iff`). So every flag that is given is one of the table,
with a value that a text stands for (`isRead_of_read`).
-/

namespace IntLang.CommandLine

/-! ### The forms -/

/-- A group of letters gives some flags; the last one may take the next argument as its value. -/
inductive Letters : List UInt8 → List Assignment → Option Text → Prop
  | nil : Letters [] [] none
  /-- A group that goes on with `test.` is passed over. -/
  | passed {cs : List UInt8} (h : Text.startsWith "test." ⟨cs⟩ = true) : Letters cs [] none
  /-- The value stands behind an equals sign, -/
  | equals {f : Flag} {c : UInt8} {value : List UInt8} {a : Assignment} (hf : f ∈ flags)
      (hc : f.letter = some c) (hne : value ≠ []) (ha : f.assign ⟨value⟩ = .ok a) :
      Letters (c :: 0x3D :: value) [a] none
  /-- or follows the letter at once, -/
  | attached {f : Flag} {c : UInt8} {value : List UInt8} {a : Assignment} (hf : f ∈ flags)
      (hc : f.letter = some c) (hkind : f.kind ≠ .switch) (hne : value ≠ [])
      (hequals : ∀ v vs, value ≠ 0x3D :: v :: vs)
      (htest : Text.startsWith "test." ⟨c :: value⟩ = false) (ha : f.assign ⟨value⟩ = .ok a) :
      Letters (c :: value) [a] none
  /-- or is the next argument. -/
  | next {f : Flag} {c : UInt8} {value : Text} {a : Assignment} (hf : f ∈ flags)
      (hc : f.letter = some c) (hkind : f.kind ≠ .switch) (ha : f.assign value = .ok a) :
      Letters [c] [a] (some value)
  /-- A switch is on, and the group goes on. -/
  | switch {f : Flag} {c : UInt8} {cs : List UInt8} {a : Assignment} {given : List Assignment}
      {taken : Option Text} (hf : f ∈ flags) (hc : f.letter = some c) (hkind : f.kind = .switch)
      (hequals : ∀ v vs, cs ≠ 0x3D :: v :: vs)
      (htest : Text.startsWith "test." ⟨c :: cs⟩ = false) (ha : f.assign "true" = .ok a)
      (hcs : Letters cs given taken) : Letters (c :: cs) (a :: given) taken

/-- An argument gives some flags; the last one may take the next argument as its value. -/
inductive Gives : Text → List Assignment → Option Text → Prop
  /-- Behind the name of a flag, the value stands behind an equals sign, -/
  | named {f : Flag} {value : Text} {a : Assignment} (hf : f ∈ flags)
      (ha : f.assign value = .ok a) : Gives ("--" ++ (f.name ++ ("=" ++ value))) [a] none
  /-- or is the next argument. -/
  | namedNext {f : Flag} {value : Text} {a : Assignment} (hf : f ∈ flags)
      (hkind : f.kind ≠ .switch) (ha : f.assign value = .ok a) :
      Gives ("--" ++ f.name) [a] (some value)
  /-- A switch needs none. -/
  | namedSwitch {f : Flag} {a : Assignment} (hf : f ∈ flags) (hkind : f.kind = .switch)
      (ha : f.assign "true" = .ok a) : Gives ("--" ++ f.name) [a] none
  /-- Letters stand behind one dash. -/
  | letters {cs : List UInt8} {given : List Assignment} {taken : Option Text} (hne : cs ≠ [])
      (hcs : Letters cs given taken) : Gives ⟨0x2D :: cs⟩ given taken

/-- Arguments are read as flags and words. -/
inductive Reads : List Text → Arguments → Prop
  | nil : Reads [] {}
  /-- Behind two dashes there are only words. -/
  | dashes (words : List Text) : Reads ("--" :: words) { words }
  | word {w : Text} {rest : List Text} {arguments : Arguments} (hw : isWord w = true)
      (hrest : Reads rest arguments) :
      Reads (w :: rest) { arguments with words := w :: arguments.words }
  | flags {argument : Text} {given : List Assignment} {rest : List Text} {arguments : Arguments}
      (hargument : Gives argument given none) (hrest : Reads rest arguments) :
      Reads (argument :: rest) { arguments with given := given ++ arguments.given }
  | flagsNext {argument value : Text} {given : List Assignment} {rest : List Text}
      {arguments : Arguments} (hargument : Gives argument given (some value))
      (hrest : Reads rest arguments) :
      Reads (argument :: value :: rest) { arguments with given := given ++ arguments.given }

/-! ### The table of flags -/

/-- A flag that is found by its name and by its letter, neither of them open to another reading. -/
structure IsListed (f : Flag) : Prop where
  named : flagNamed? f.name = some f
  lettered : ∀ c ∈ f.letter, flagLettered? c = some f
  equals_notMem_name : 0x3D ∉ f.name.bytes
  name_head? : f.name.bytes.head? ≠ some 0x2D
  name_ne_nil : f.name.bytes ≠ []
  letter_ne : f.letter ≠ some 0x2D

theorem isListed_of_mem_flags : ∀ f ∈ flags, IsListed f := by
  intro f hf
  simp only [flags, configFlags, List.mem_cons, List.not_mem_nil, or_false] at hf
  rcases hf with rfl | rfl | rfl | rfl | rfl | rfl | rfl | rfl | rfl | rfl | rfl | rfl | rfl
  all_goals
    exact ⟨rfl, by rintro c ⟨⟩ <;> rfl, by decide, by decide, by decide, by decide⟩

theorem flagNamed?_eq_some_iff {name : Text} {f : Flag} :
    flagNamed? name = some f ↔ f ∈ flags ∧ f.name = name := by
  constructor
  · intro h
    exact ⟨List.mem_of_find?_eq_some h, by simpa using List.find?_some h⟩
  · rintro ⟨hf, rfl⟩
    exact (isListed_of_mem_flags f hf).named

theorem flagLettered?_eq_some_iff {letter : UInt8} {f : Flag} :
    flagLettered? letter = some f ↔ f ∈ flags ∧ f.letter = some letter := by
  constructor
  · intro h
    exact ⟨List.mem_of_find?_eq_some h, by simpa using List.find?_some h⟩
  · rintro ⟨hf, hletter⟩
    exact (isListed_of_mem_flags f hf).lettered letter hletter

/-! ### Reading names -/

/-- What is taken of the next argument: nothing, or all of it. -/
inductive Fits (next : Option Text) : Option Text → Bool → Prop
  | nothing : Fits next none false
  | value {value : Text} (h : next = some value) : Fits next (some value) true

/-- One flag is assigned to. -/
theorem return_assign_eq_ok_iff {f : Flag} {value : Text} {took took' : Bool}
    {given : List Assignment} :
    (do return ([← f.assign value], took) : Except ArgumentError (List Assignment × Bool))
        = .ok (given, took') ↔ ∃ a, f.assign value = .ok a ∧ given = [a] ∧ took' = took := by
  constructor
  · intro h
    obtain ⟨a, ha, ⟨⟩⟩ := bind_eq_ok_iff.1 h
    exact ⟨a, ha, rfl, rfl⟩
  · rintro ⟨a, ha, rfl, rfl⟩
    exact bind_eq_ok_iff.2 ⟨a, ha, rfl⟩

theorem gives_of_readNamed {body : Text} {next : Option Text} {given : List Assignment}
    {took : Bool} (h : readNamed ("--" ++ body) next = .ok (given, took)) :
    ∃ taken, Gives ("--" ++ body) given taken ∧ Fits next taken took := by
  rw [readNamed] at h
  dsimp only at h
  split at h
  · cases h
  split at h
  · cases h
  next f hf =>
  obtain ⟨hf, hname⟩ := flagNamed?_eq_some_iff.1 hf
  have hbody : (⟨("--" ++ body : Text).bytes.drop 2⟩ : Text) = body := rfl
  rw [hbody] at h hname
  rcases Text.before_after?_cases 0x3D body with ⟨hbefore, hafter⟩ | ⟨s, u, hcut, hbefore, hafter⟩
  · rw [hafter] at h
    rw [hbefore] at hname
    rw [← hname]
    split at h
    · next heq => cases heq
    · next hkind =>
        obtain ⟨a, ha, rfl, rfl⟩ := return_assign_eq_ok_iff.1 h
        exact ⟨none, .namedSwitch hf hkind ha, .nothing⟩
    · next hkind =>
        obtain ⟨a, ha, rfl, rfl⟩ := return_assign_eq_ok_iff.1 h
        exact ⟨_, .namedNext hf hkind ha, .value rfl⟩
    · cases h
  · rw [hafter] at h
    obtain ⟨a, ha, rfl, rfl⟩ := return_assign_eq_ok_iff.1 h
    rw [hcut, ← hbefore, ← hname]
    exact ⟨none, .named hf ha, .nothing⟩

/-- No name can be taken for more dashes or for an equals sign. -/
theorem IsListed.head?_append {f : Flag} (h : IsListed f) (t : Text) :
    ¬((f.name ++ t).bytes.head? = some 0x2D || (f.name ++ t).bytes.head? = some 0x3D) = true := by
  obtain ⟨b, bs, hbytes⟩ := List.exists_cons_of_ne_nil h.name_ne_nil
  have hdash := h.name_head?
  have hequals := h.equals_notMem_name
  rw [hbytes] at hdash hequals
  rw [Text.bytes_append, hbytes, List.cons_append, List.head?_cons, Bool.or_eq_true,
    decide_eq_true_iff, decide_eq_true_iff]
  rintro (heq | heq)
  · exact hdash heq
  · exact hequals (Option.some.inj heq ▸ List.mem_cons_self)

theorem readNamed_equals {f : Flag} {value : Text} {a : Assignment} (hf : f ∈ flags)
    (ha : f.assign value = .ok a) (next : Option Text) :
    readNamed ("--" ++ (f.name ++ ("=" ++ value))) next = .ok ([a], false) := by
  have hlisted := isListed_of_mem_flags f hf
  obtain ⟨hbefore, hafter⟩ := Text.before_after?_append hlisted.equals_notMem_name value
  have hbody : (⟨("--" ++ (f.name ++ ("=" ++ value)) : Text).bytes.drop 2⟩ : Text)
      = f.name ++ (Text.singleton 0x3D ++ value) := rfl
  rw [readNamed]
  dsimp only
  rw [if_neg ?name, hbody, hbefore, hlisted.named, hafter]
  case name => exact hlisted.head?_append _
  exact return_assign_eq_ok_iff.2 ⟨a, ha, rfl, rfl⟩

/-- A flag whose name stands alone. -/
theorem readNamed_alone {f : Flag} {value : Text} {a : Assignment} {next : Option Text}
    {took : Bool} (hf : f ∈ flags) (ha : f.assign value = .ok a)
    (hvalue : f.kind = .switch ∧ value = "true" ∧ took = false
      ∨ f.kind ≠ .switch ∧ next = some value ∧ took = true) :
    readNamed ("--" ++ f.name) next = .ok ([a], took) := by
  have hlisted := isListed_of_mem_flags f hf
  obtain ⟨hbefore, hafter⟩ := Text.before_after?_of_notMem hlisted.equals_notMem_name
  have hbody : (⟨("--" ++ f.name : Text).bytes.drop 2⟩ : Text) = f.name := rfl
  have hname := hlisted.head?_append .empty
  rw [Text.append_empty] at hname
  rw [readNamed]
  dsimp only
  rw [if_neg ?name, hbody, hbefore, hlisted.named, hafter]
  case name => exact hname
  dsimp only
  rcases hvalue with ⟨hkind, rfl, rfl⟩ | ⟨hkind, rfl, rfl⟩
  · rw [hkind]
    exact return_assign_eq_ok_iff.2 ⟨a, ha, rfl, rfl⟩
  · split
    · next heq => cases heq
    · contradiction
    · next heq _ =>
      cases heq
      exact return_assign_eq_ok_iff.2 ⟨a, ha, rfl, rfl⟩
    · next heq _ => cases heq

/-! ### Reading letters -/

theorem letters_of_readLetters {next : Option Text} {cs : List UInt8} {given : List Assignment}
    {took : Bool} (h : readLetters next cs = .ok (given, took)) :
    ∃ taken, Letters cs given taken ∧ Fits next taken took := by
  induction cs generalizing given took with
  | nil =>
    cases h
    exact ⟨none, .nil, .nothing⟩
  | cons c cs ih =>
    rw [readLetters] at h
    dsimp only at h
    split at h
    · next htest =>
      cases h
      exact ⟨none, .passed htest, .nothing⟩
    next htest =>
    rw [Bool.not_eq_true] at htest
    split at h
    · cases h
    next f hf =>
    obtain ⟨hf, hc⟩ := flagLettered?_eq_some_iff.1 hf
    split at h
    · obtain ⟨a, ha, rfl, rfl⟩ := return_assign_eq_ok_iff.1 h
      exact ⟨none, .equals hf hc (List.cons_ne_nil _ _) ha, .nothing⟩
    · next hequals hkind =>
      obtain ⟨a, ha, h⟩ := bind_eq_ok_iff.1 h
      obtain ⟨⟨others, took⟩, hothers, ⟨⟩⟩ := bind_eq_ok_iff.1 h
      obtain ⟨taken, hletters, hfits⟩ := ih hothers
      exact ⟨taken, .switch hf hc hkind hequals htest ha hletters, hfits⟩
    · next hequals hkind =>
      obtain ⟨a, ha, rfl, rfl⟩ := return_assign_eq_ok_iff.1 h
      refine ⟨none, .attached hf hc hkind (List.cons_ne_nil _ _) ?_ htest ha, .nothing⟩
      rintro v vs ⟨⟩
      exact hequals v vs rfl rfl
    · next hkind =>
      split at h
      · obtain ⟨a, ha, rfl, rfl⟩ := return_assign_eq_ok_iff.1 h
        exact ⟨_, .next hf hc hkind ha, .value rfl⟩
      · cases h

theorem not_startsWith_test {c : UInt8} {cs : List UInt8} (h : cs.head? ≠ some 0x65) :
    ¬Text.startsWith "test." ⟨c :: cs⟩ = true := by
  intro htest
  obtain ⟨rest, hrest⟩ := List.isPrefixOf_iff_prefix.1 htest
  exact h ((List.cons.inj hrest).2 ▸ rfl)

theorem readLetters_of_letters {next : Option Text} {cs : List UInt8} {given : List Assignment}
    {taken : Option Text} {took : Bool} (h : Letters cs given taken)
    (hfits : Fits next taken took) : readLetters next cs = .ok (given, took) := by
  induction h with
  | nil =>
    cases hfits
    rw [readLetters]
  | @passed cs htest =>
    cases hfits
    cases cs with
    | nil => cases htest
    | cons c cs =>
      rw [readLetters]
      dsimp only
      rw [if_pos htest]
      rfl
  | @equals f c value a hf hc hne ha =>
    cases hfits
    obtain ⟨v, vs, rfl⟩ := List.exists_cons_of_ne_nil hne
    rw [readLetters]
    dsimp only
    rw [if_neg (not_startsWith_test (by simp)), flagLettered?_eq_some_iff.2 ⟨hf, hc⟩]
    exact return_assign_eq_ok_iff.2 ⟨a, ha, rfl, rfl⟩
  | @attached f c value a hf hc hkind hne hequals htest ha =>
    cases hfits
    rw [readLetters]
    dsimp only
    rw [htest, if_neg Bool.false_ne_true, flagLettered?_eq_some_iff.2 ⟨hf, hc⟩]
    dsimp only
    split
    · next v vs => exact absurd rfl (hequals v vs)
    · contradiction
    · exact return_assign_eq_ok_iff.2 ⟨a, ha, rfl, rfl⟩
    · contradiction
  | @next f c value a hf hc hkind ha =>
    cases hfits with
    | value hnext =>
    subst hnext
    rw [readLetters]
    dsimp only
    rw [if_neg (not_startsWith_test (by simp)), flagLettered?_eq_some_iff.2 ⟨hf, hc⟩]
    dsimp only
    split
    · contradiction
    · contradiction
    · contradiction
    · exact return_assign_eq_ok_iff.2 ⟨a, ha, rfl, rfl⟩
  | @switch f c cs a given taken hf hc hkind hequals htest ha hcs ih =>
    rw [readLetters]
    dsimp only
    rw [htest, if_neg Bool.false_ne_true, flagLettered?_eq_some_iff.2 ⟨hf, hc⟩]
    dsimp only
    rw [hkind]
    split
    · next v vs => exact absurd rfl (hequals v vs)
    · exact bind_eq_ok_iff.2 ⟨a, ha, bind_eq_ok_iff.2 ⟨_, ih hfits, rfl⟩⟩
    · contradiction
    · contradiction

/-! ### Reading one argument -/

/-- Letters are never taken for a name. -/
theorem Letters.head?_ne {cs : List UInt8} {given : List Assignment} {taken : Option Text}
    (h : Letters cs given taken) : cs.head? ≠ some 0x2D := by
  -- All but two of the forms begin with the letter of a flag.
  have hletter {f : Flag} {c : UInt8} (hf : f ∈ flags) (hc : f.letter = some c) :
      some c ≠ some 0x2D :=
    hc ▸ (isListed_of_mem_flags f hf).letter_ne
  cases h with
  | nil => exact nofun
  | passed htest =>
    obtain ⟨rest, rfl⟩ := List.isPrefixOf_iff_prefix.1 htest
    exact (by decide : some (0x74 : UInt8) ≠ some 0x2D)
  | equals hf hc _ _ => exact hletter hf hc
  | attached hf hc _ _ _ _ _ => exact hletter hf hc
  | next hf hc _ _ => exact hletter hf hc
  | switch hf hc _ _ _ _ _ => exact hletter hf hc

theorem isWord_eq_false_iff {argument : Text} :
    isWord argument = false ↔ ∃ cs, cs ≠ [] ∧ argument = ⟨0x2D :: cs⟩ := by
  obtain ⟨bytes⟩ := argument
  cases bytes with
  | nil => simp [isWord]
  | cons b cs =>
    constructor
    · intro h
      obtain ⟨rfl, hne⟩ : b = 0x2D ∧ cs ≠ [] := by simpa [isWord, Text.size] using h
      exact ⟨cs, hne, rfl⟩
    · rintro ⟨cs, hne, ⟨⟩⟩
      simp [isWord, Text.size, hne]

/-- What gives flags begins with a dash, and is neither one dash nor two. -/
theorem Gives.isWord_eq {argument : Text} {given : List Assignment} {taken : Option Text}
    (h : Gives argument given taken) : isWord argument = false ∧ argument ≠ "--" := by
  have hdashes {t : Text} (ht : t.bytes ≠ []) : "--" ++ t ≠ "--" := fun h =>
    ht (List.append_cancel_left (Text.ext_iff.1 h))
  have hname {f : Flag} (hf : f ∈ flags) : f.name.bytes ≠ [] :=
    (isListed_of_mem_flags f hf).name_ne_nil
  rw [isWord_eq_false_iff]
  cases h with
  | named hf _ =>
    exact ⟨⟨_, List.cons_ne_nil _ _, rfl⟩,
      hdashes (List.append_ne_nil_of_left_ne_nil (hname hf) _)⟩
  | namedNext hf _ _ => exact ⟨⟨_, List.cons_ne_nil _ _, rfl⟩, hdashes (hname hf)⟩
  | namedSwitch hf _ _ => exact ⟨⟨_, List.cons_ne_nil _ _, rfl⟩, hdashes (hname hf)⟩
  | letters hne hcs =>
    refine ⟨⟨_, hne, rfl⟩, ?_⟩
    rintro ⟨⟩
    exact hcs.head?_ne rfl

theorem readFlag_eq_ok_iff {argument : Text} (hword : isWord argument = false)
    {next : Option Text} {given : List Assignment} {took : Bool} :
    readFlag argument next = .ok (given, took)
      ↔ ∃ taken, Gives argument given taken ∧ Fits next taken took := by
  constructor
  · intro h
    obtain ⟨cs, hne, rfl⟩ := isWord_eq_false_iff.1 hword
    unfold readFlag at h
    split at h
    · next rest hbytes =>
      cases hbytes
      exact gives_of_readNamed h
    · next hbytes =>
      cases hbytes
      obtain ⟨taken, hletters, hfits⟩ := letters_of_readLetters h
      exact ⟨taken, .letters hne hletters, hfits⟩
    · next hbytes => cases hbytes
  · rintro ⟨taken, hgives, hfits⟩
    cases hgives with
    | named hf ha =>
      cases hfits
      exact readNamed_equals hf ha next
    | namedNext hf hkind ha =>
      cases hfits with
      | value hnext => exact readNamed_alone hf ha (.inr ⟨hkind, hnext, rfl⟩)
    | namedSwitch hf hkind ha =>
      cases hfits
      exact readNamed_alone hf ha (.inl ⟨hkind, rfl, rfl⟩)
    | letters hne hcs =>
      rw [← readLetters_of_letters hcs hfits]
      unfold readFlag
      dsimp only
      split
      · next hbytes =>
        cases hbytes
        exact absurd rfl hcs.head?_ne
      · next hbytes =>
        cases hbytes
        rfl
      · next hbytes => cases hbytes

/-! ### Reading all arguments -/

theorem read_cons (argument : Text) (rest : List Text) :
    Arguments.read (argument :: rest)
      = if argument = "--" then .ok { words := rest }
        else if isWord argument then do
          let others ← Arguments.read rest
          return { others with words := argument :: others.words }
        else do
          let p ← readFlag argument rest.head?
          let others ← Arguments.read (if p.2 then rest.tail else rest)
          return { others with given := p.1 ++ others.given } := by
  cases rest with
  | nil =>
    rw [Arguments.read, Arguments.read]
    split
    · rfl
    split
    · rfl
    refine bind_congr fun p => ?_
    rw [List.tail_nil, ite_self]
    exact congrArg (fun given => Except.ok (Arguments.mk given [])) (List.append_nil p.1).symm
  | cons next behind =>
    rw [Arguments.read]
    split
    · rfl
    split
    · rfl
    refine bind_congr fun p => ?_
    obtain ⟨given, _ | _⟩ := p <;> rfl

/-- Arguments are read exactly if they have the forms of words and flags. -/
theorem read_eq_ok_iff {args : List Text} {arguments : Arguments} :
    Arguments.read args = .ok arguments ↔ Reads args arguments := by
  constructor
  · intro h
    -- An argument may take the next one along, so the induction is on how many there are.
    induction hn : args.length using Nat.strong_induction_on generalizing args arguments with
    | _ n ih =>
    cases args with
    | nil =>
      cases h
      exact .nil
    | cons argument rest =>
    rw [List.length_cons] at hn
    rw [read_cons] at h
    split at h
    · next heq =>
      cases h
      exact heq ▸ .dashes rest
    split at h
    · next hword =>
      obtain ⟨others, hothers, ⟨⟩⟩ := bind_eq_ok_iff.1 h
      exact .word hword (ih _ (by omega) hothers rfl)
    · next hword =>
      obtain ⟨⟨given, took⟩, hflag, h⟩ := bind_eq_ok_iff.1 h
      obtain ⟨others, hothers, ⟨⟩⟩ := bind_eq_ok_iff.1 h
      rw [Bool.not_eq_true] at hword
      obtain ⟨taken, hgives, hfits⟩ := (readFlag_eq_ok_iff hword).1 hflag
      cases hfits with
      | nothing => exact .flags hgives (ih _ (by omega) hothers rfl)
      | value hnext =>
        obtain ⟨behind, rfl⟩ := List.head?_eq_some_iff.1 hnext
        rw [List.length_cons] at hn
        exact .flagsNext hgives (ih _ (by omega) hothers rfl)
  · intro h
    induction h with
    | nil => rfl
    | dashes words => rw [read_cons, if_pos rfl]
    | word hword _ ih =>
      rw [read_cons, if_neg ?_, if_pos hword, ih]
      · rfl
      · rintro rfl
        cases hword
    | @flags argument given rest arguments hgives _ ih =>
      obtain ⟨hword, hne⟩ := hgives.isWord_eq
      rw [read_cons, if_neg hne, hword, if_neg Bool.false_ne_true]
      exact bind_eq_ok_iff.2 ⟨(given, false), (readFlag_eq_ok_iff hword).2 ⟨none, hgives, .nothing⟩,
        bind_eq_ok_iff.2 ⟨arguments, ih, rfl⟩⟩
    | @flagsNext argument value given rest arguments hgives _ ih =>
      obtain ⟨hword, hne⟩ := hgives.isWord_eq
      rw [read_cons, if_neg hne, hword, if_neg Bool.false_ne_true]
      exact bind_eq_ok_iff.2 ⟨(given, true),
        (readFlag_eq_ok_iff hword).2 ⟨some value, hgives, .value rfl⟩,
        bind_eq_ok_iff.2 ⟨arguments, ih, rfl⟩⟩

/-! ### What flags are given -/

theorem Flag.assign_eq_ok_iff {f : Flag} {t : Text} {a : Assignment} :
    f.assign t = .ok a ↔ f.id = a.flag ∧ f.kind.read t = .ok a.value := by
  obtain ⟨flag, value⟩ := a
  rw [assign]
  constructor
  · intro h
    split at h
    · next v hv =>
      cases h
      exact ⟨rfl, hv⟩
    · cases h
  · rintro ⟨rfl, hread⟩
    rw [hread]

/-- An assignment that comes from a text: the flag is one of the table, and its value is what the
text stands for. -/
def Assignment.IsRead (a : Assignment) : Prop := ∃ f ∈ flags, ∃ t, f.assign t = .ok a

theorem Letters.isRead {cs : List UInt8} {given : List Assignment} {taken : Option Text}
    (h : Letters cs given taken) : ∀ a ∈ given, a.IsRead := by
  induction h with
  | nil => exact List.forall_mem_nil _
  | passed _ => exact List.forall_mem_nil _
  | equals hf _ _ ha => exact List.forall_mem_singleton.2 ⟨_, hf, _, ha⟩
  | attached hf _ _ _ _ _ ha => exact List.forall_mem_singleton.2 ⟨_, hf, _, ha⟩
  | next hf _ _ ha => exact List.forall_mem_singleton.2 ⟨_, hf, _, ha⟩
  | switch hf _ _ _ _ ha _ ih => exact List.forall_mem_cons.2 ⟨⟨_, hf, _, ha⟩, ih⟩

theorem Gives.isRead {argument : Text} {given : List Assignment} {taken : Option Text}
    (h : Gives argument given taken) : ∀ a ∈ given, a.IsRead := by
  cases h with
  | named hf ha => exact List.forall_mem_singleton.2 ⟨_, hf, _, ha⟩
  | namedNext hf _ ha => exact List.forall_mem_singleton.2 ⟨_, hf, _, ha⟩
  | namedSwitch hf _ ha => exact List.forall_mem_singleton.2 ⟨_, hf, _, ha⟩
  | letters _ hcs => exact hcs.isRead

/-- **Every assignment comes from a text.** -/
theorem isRead_of_read {args : List Text} {arguments : Arguments}
    (h : Arguments.read args = .ok arguments) : ∀ a ∈ arguments.given, a.IsRead := by
  rw [read_eq_ok_iff] at h
  induction h with
  | nil => exact List.forall_mem_nil _
  | dashes _ => exact List.forall_mem_nil _
  | word _ _ ih => exact ih
  | flags hgives _ ih => exact List.forall_mem_append.2 ⟨hgives.isRead, ih⟩
  | flagsNext hgives _ ih => exact List.forall_mem_append.2 ⟨hgives.isRead, ih⟩

theorem lastGiven_eq_some_iff {given : List Assignment} {flag : FlagId} {v : FlagValue} :
    lastGiven given flag = some v ↔
      ∃ before behind, given = before ++ ⟨flag, v⟩ :: behind ∧ ∀ a ∈ behind, a.flag ≠ flag := by
  rw [lastGiven, Option.map_eq_some_iff]
  constructor
  · rintro ⟨a, ha, rfl⟩
    obtain ⟨hflag, behind, before, hsplit, hnot⟩ := List.find?_eq_some_iff_append.1 ha
    rw [decide_eq_true_eq] at hflag
    refine ⟨before.reverse, behind.reverse, ?_, ?_⟩
    · rw [← List.reverse_reverse given, hsplit, ← hflag]
      simp
    · intro b hb
      simpa using hnot b (List.mem_reverse.1 hb)
  · rintro ⟨before, behind, rfl, hnot⟩
    refine ⟨⟨flag, v⟩, List.find?_eq_some_iff_append.2 ⟨by simp, behind.reverse, before.reverse,
      by simp, fun b hb => ?_⟩, rfl⟩
    simpa using hnot b (List.mem_reverse.1 hb)

theorem lastGiven_eq_none_iff {given : List Assignment} {flag : FlagId} :
    lastGiven given flag = none ↔ ∀ a ∈ given, a.flag ≠ flag := by
  simp [lastGiven]

theorem isGiven_eq_isSome (given : List Assignment) (flag : FlagId) :
    isGiven given flag = (lastGiven given flag).isSome := by
  rw [lastGiven, Option.isSome_map, List.isSome_find?, List.any_reverse, isGiven]

theorem isGiven_eq_false_iff {given : List Assignment} {flag : FlagId} :
    isGiven given flag = false ↔ ∀ a ∈ given, a.flag ≠ flag := by
  simp [isGiven]

end IntLang.CommandLine
