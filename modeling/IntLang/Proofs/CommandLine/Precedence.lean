import IntLang.Proofs.CommandLine.Checked
import IntLang.Proofs.CommandLine.Forms

/-!
# Where settings come from

A setting is what its flag was given last, else what a variable of the environment says, else its
default (`Takes`). The source file is the one word there is, else what its flag was given last, else
its default (`TakesInput`). Such settings always exist and are unique, since every flag for a text
is given one; those of a configuration are just these (`parse_precedence`).

The words that the check of a configuration allows are written down in lists of its own, and once
more in the tables of the logger and of the toolchain. Since these agree (`choices_agree`), whatever
is allowed is found there (`Settings.IsKnown`).
-/

namespace IntLang.CommandLine

/-! ### The name of the command -/

/-- A command is named among the arguments, and its name is left out; if none is named, it is
building. -/
inductive Selects : List Text → Command → List Text → Prop
  | unnamed (args : List Text) : Selects args .build args
  | named (before : List Text) (command : Command) (behind : List Text) :
      Selects (before ++ command.name :: behind) command (before ++ behind)

/-- The first word is left out where it stands. -/
theorem exists_dropWord {args : List Text} {word : Text} (h : firstWord? args = some word)
    (hname : ¬(word.isEmpty || word.bytes.head? = some 0x2D) = true) :
    ∃ before behind, args = before ++ word :: behind ∧ dropWord word args = before ++ behind := by
  fun_induction firstWord? args with
  | case1 => cases h
  | case2 => cases h
  | case3 argument hdashes htakes value next behind ih =>
    obtain ⟨before, behind, heq, hdrop⟩ := ih h
    refine ⟨argument :: value :: before, behind, ?_, ?_⟩
    · rw [heq]
      rfl
    · rw [dropWord, if_neg hdashes, if_pos htakes, hdrop]
      rfl
  | case4 => cases h
  | case5 argument rest hdashes htakes hflag ih =>
    obtain ⟨before, behind, heq, hdrop⟩ := ih h
    refine ⟨argument :: before, behind, ?_, ?_⟩
    · rw [heq]
      rfl
    · -- What is passed over here looks like a flag, which the word does not.
      have hne : argument ≠ word := fun heq => hname (heq ▸ hflag)
      rw [dropWord.eq_def]
      dsimp only
      rw [if_neg hdashes, if_neg htakes, if_neg hne, hdrop]
      rfl
  | case6 argument rest hdashes htakes _ =>
    obtain rfl := Option.some.inj h
    refine ⟨[], rest, rfl, ?_⟩
    rw [dropWord.eq_def]
    dsimp only
    rw [if_neg hdashes, if_neg htakes, if_pos rfl]
    rfl

/-- The word that stands for a command is its name. -/
theorem Topic.eq_name_of_ofName? {word : Text} {topic : Topic} {command : Command}
    (h : ofName? word = some topic) (hcommand : topic.command? = some command) :
    word = command.name := by
  rw [ofName?] at h
  split at h
  · cases h
    cases hcommand
  · obtain ⟨found, hfound, rfl⟩ := Option.map_eq_some_iff.1 h
    cases hcommand
    simpa [eq_comm] using List.find?_some hfound

/-- **Nothing but the name of the command is left out** before arguments are read. -/
theorem selects_selectTopic {args : List Text} {command : Command}
    (h : (selectTopic args).1.command? = some command) :
    Selects args command (selectTopic args).2 := by
  rw [selectTopic] at h ⊢
  split at h
  · next word topic hselected =>
    obtain ⟨first, hfirst, hnamed⟩ := Option.bind_eq_some_iff.1 hselected
    obtain ⟨found, hfound, heq⟩ := Option.map_eq_some_iff.1 hnamed
    cases heq
    obtain rfl := Topic.eq_name_of_ofName? hfound h
    obtain ⟨before, behind, rfl, hdrop⟩ := exists_dropWord hfirst (by cases command <;> decide)
    rw [hdrop]
    exact .named before command behind
  · cases h
    exact .unnamed args

/-! ### What a setting is -/

/-- The value of a setting that has a flag, a variable and a default. -/
inductive Takes (env : Environment) (given : List Assignment) (flag : FlagId)
    (name default : Text) : Text → Prop
  /-- What the flag was given last, -/
  | flag {before behind : List Assignment} {t : Text}
      (hgiven : given = before ++ ⟨flag, .text t⟩ :: behind)
      (hlast : ∀ a ∈ behind, a.flag ≠ flag) : Takes env given flag name default t
  /-- else the variable in lower case if it is not empty, -/
  | environment (hnone : ∀ a ∈ given, a.flag ≠ flag) (hvalue : env.value name ≠ "") :
      Takes env given flag name default (env.value name).toLower
  /-- else the default. -/
  | default (hnone : ∀ a ∈ given, a.flag ≠ flag) (hvalue : env.value name = "") :
      Takes env given flag name default default

/-- The source file. -/
inductive TakesInput (arguments : Arguments) : Text → Prop
  /-- The word, -/
  | word {w : Text} (hword : arguments.words = [w]) : TakesInput arguments w
  /-- else what the flag was given last, -/
  | flag {before behind : List Assignment} {t : Text} (hwords : arguments.words = [])
      (hgiven : arguments.given = before ++ ⟨.input, .text t⟩ :: behind)
      (hlast : ∀ a ∈ behind, a.flag ≠ .input) : TakesInput arguments t
  /-- else the default. -/
  | default (hwords : arguments.words = []) (hnone : ∀ a ∈ arguments.given, a.flag ≠ .input) :
      TakesInput arguments "main.int"

/-- A flag for a text. -/
def IsTextFlag (flag : FlagId) : Prop :=
  ∀ f ∈ flags, f.id = flag → f.kind ≠ .number ∧ f.kind ≠ .switch

instance (flag : FlagId) : Decidable (IsTextFlag flag) :=
  inferInstanceAs (Decidable (∀ f ∈ flags, f.id = flag → f.kind ≠ .number ∧ f.kind ≠ .switch))

/-- A flag for a text is always given one. -/
theorem Assignment.IsRead.exists_text {a : Assignment} (h : a.IsRead) (hflag : IsTextFlag a.flag) :
    ∃ t, a.value = .text t := by
  obtain ⟨f, hf, t, ht⟩ := h
  obtain ⟨hid, hread⟩ := Flag.assign_eq_ok_iff.1 ht
  obtain ⟨hnumber, hswitch⟩ := hflag f hf hid
  cases hkind : f.kind with
  | text _ =>
    rw [hkind] at hread
    exact ⟨t, (Except.ok.inj hread).symm⟩
  | number => exact absurd hkind hnumber
  | switch => exact absurd hkind hswitch

section

variable {given : List Assignment} {flag : FlagId}

theorem textOf_of_last {before behind : List Assignment} {t : Text} (default : Text)
    (hgiven : given = before ++ ⟨flag, .text t⟩ :: behind) (hlast : ∀ a ∈ behind, a.flag ≠ flag) :
    textOf given flag default = t := by
  rw [textOf, lastGiven_eq_some_iff.2 ⟨before, behind, hgiven, hlast⟩]

theorem textOf_of_none {default : Text} (hnone : ∀ a ∈ given, a.flag ≠ flag) :
    textOf given flag default = default := by
  rw [textOf, lastGiven_eq_none_iff.2 hnone]

/-- Among flags that come from texts, one for a text is given a last text or none. -/
theorem last_or_none (hread : ∀ a ∈ given, a.IsRead) (hflag : IsTextFlag flag) :
    (∃ before behind t, given = before ++ ⟨flag, .text t⟩ :: behind ∧ ∀ a ∈ behind, a.flag ≠ flag)
      ∨ ∀ a ∈ given, a.flag ≠ flag := by
  cases hlast : lastGiven given flag with
  | none => exact .inr (lastGiven_eq_none_iff.1 hlast)
  | some v =>
    obtain ⟨before, behind, hgiven, hnot⟩ := lastGiven_eq_some_iff.1 hlast
    obtain ⟨t, rfl⟩ := (hread ⟨flag, v⟩ (by simp [hgiven])).exists_text hflag
    exact .inl ⟨before, behind, t, hgiven, hnot⟩

end

theorem Takes.eq {env : Environment} {given : List Assignment} {flag : FlagId}
    {name default t : Text} (h : Takes env given flag name default t) :
    t = orVariable env given flag name (textOf given flag default) := by
  cases h with
  | flag hgiven hlast =>
    have hsome : isGiven given flag = true := by
      rw [isGiven_eq_isSome, lastGiven_eq_some_iff.2 ⟨_, _, hgiven, hlast⟩, Option.isSome_some]
    rw [orVariable, hsome, Bool.true_or, if_pos rfl, textOf_of_last default hgiven hlast]
  | environment hnone hvalue =>
    rw [orVariable, isGiven_eq_false_iff.2 hnone, Text.isEmpty_eq_false_iff.2 hvalue]
    rfl
  | default hnone hvalue =>
    rw [orVariable, Text.isEmpty_eq_true_iff.2 hvalue, Bool.or_true, if_pos rfl,
      textOf_of_none hnone]

theorem takes_iff {env : Environment} {given : List Assignment} {flag : FlagId}
    {name default t : Text} (hread : ∀ a ∈ given, a.IsRead) (hflag : IsTextFlag flag) :
    Takes env given flag name default t ↔
      t = orVariable env given flag name (textOf given flag default) := by
  have hexists : ∃ u, Takes env given flag name default u := by
    rcases last_or_none hread hflag with ⟨before, behind, u, hgiven, hlast⟩ | hnone
    · exact ⟨u, .flag hgiven hlast⟩
    · by_cases hvalue : env.value name = ""
      · exact ⟨default, .default hnone hvalue⟩
      · exact ⟨_, .environment hnone hvalue⟩
  constructor
  · exact Takes.eq
  · rintro rfl
    obtain ⟨u, hu⟩ := hexists
    exact hu.eq ▸ hu

theorem TakesInput.eq {arguments : Arguments} {t : Text} (h : TakesInput arguments t) :
    t = arguments.words.head?.getD (textOf arguments.given .input "main.int") := by
  cases h with
  | word hword =>
    rw [hword]
    rfl
  | flag hwords hgiven hlast =>
    rw [hwords, textOf_of_last _ hgiven hlast]
    rfl
  | default hwords hnone =>
    rw [hwords, textOf_of_none hnone]
    rfl

theorem takesInput_iff {arguments : Arguments} {t : Text}
    (hread : ∀ a ∈ arguments.given, a.IsRead) (hwords : arguments.words.length ≤ 1) :
    TakesInput arguments t ↔
      t = arguments.words.head?.getD (textOf arguments.given .input "main.int") := by
  have hexists : ∃ u, TakesInput arguments u := by
    cases hword : arguments.words with
    | cons w rest =>
      rw [hword, List.length_cons] at hwords
      obtain rfl := List.eq_nil_of_length_eq_zero (by omega : rest.length = 0)
      exact ⟨w, .word hword⟩
    | nil =>
      rcases last_or_none hread (by decide : IsTextFlag .input) with
        ⟨before, behind, u, hgiven, hlast⟩ | hnone
      · exact ⟨u, .flag hword hgiven hlast⟩
      · exact ⟨_, .default hword hnone⟩
  constructor
  · exact TakesInput.eq
  · rintro rfl
    obtain ⟨u, hu⟩ := hexists
    exact hu.eq ▸ hu

namespace Settings

/-- Where the settings come from. -/
structure IsFrom (s : Settings) (env : Environment) (arguments : Arguments) : Prop where
  input : ∀ t, TakesInput arguments t ↔ t = s.input
  logLevel : ∀ t, Takes env arguments.given .logLevel "LOG_LEVEL" "info" t ↔ t = s.logLevel
  compiler : ∀ t, Takes env arguments.given .compiler "INTC_CXX" "g++" t ↔ t = s.compiler
  standard : ∀ t, Takes env arguments.given .standard "INTC_STD" "c++17" t ↔ t = s.standard
  optimization : ∀ t,
    Takes env arguments.given .optimization "INTC_OPT" "speed" t ↔ t = s.optimization

theorem isFrom_wanted (env : Environment) {arguments : Arguments}
    (hread : ∀ a ∈ arguments.given, a.IsRead) (hwords : arguments.words.length ≤ 1) :
    (wanted env arguments).IsFrom env arguments where
  input _ := takesInput_iff hread hwords
  logLevel _ := takes_iff hread (by decide)
  compiler _ := takes_iff hread (by decide)
  standard _ := takes_iff hread (by decide)
  optimization _ := takes_iff hread (by decide)

/-- Whatever works with the settings knows their words. -/
structure IsKnown (s : Settings) : Prop where
  logger : ∃ logger, Log.Logger.make s.logLevel s.logFormat = .ok logger
  tools : Toolchain.Config.parse s.compiler s.standard s.optimization
    = (⟨s.compiler, s.standard, s.optimization⟩, none)
  requirement : ∃ r, Toolchain.requirement? s.compiler s.standard = some r
  optimization : Toolchain.optimizationFlag s.optimization ≠ ""

theorem Chosen.isKnown {s : Settings} (h : s.Chosen) : s.IsKnown where
  logger := h.exists_logger
  tools := h.parse_tools
  requirement := h.exists_requirement h.compiler
  optimization := h.optimizationFlag_ne

end Settings

/-- **A flag beats the environment, that beats the default, and what is allowed is known.** The
arguments without the name of the command are read in one way, the settings come from them and from
the environment, and there is a logger and a toolchain for them. -/
theorem parse_precedence {args : List Text} {env : Environment} {config : Config}
    (h : parse args env = .ok (.run config)) :
    ∃ arguments, Selects args config.command (selectTopic args).2 ∧
      (∀ a, Reads (selectTopic args).2 a ↔ a = arguments) ∧
      config.settings.IsFrom env arguments ∧ config.settings.IsKnown := by
  obtain ⟨arguments, command, hread, htopic, hconfigure⟩ := exists_configure_of_parse h
  obtain ⟨hwords, rfl, hcheck⟩ := configure_eq_ok_iff.1 hconfigure
  have hunique (a : Arguments) : Reads (selectTopic args).2 a ↔ a = arguments := by
    rw [← read_eq_ok_iff, hread, Except.ok.injEq, eq_comm]
  exact ⟨arguments, selects_selectTopic htopic, hunique,
    Settings.isFrom_wanted env (isRead_of_read hread) hwords,
    (Settings.Chosen.of_check hcheck).isKnown⟩

/-- Arguments that give one flag twice, around the name of a command, and another one behind a
switch. -/
def layeredArgs : List Text :=
  ["--std=c++98", "translate", "-wlwarn", "--std", "c++20", "--", "a.int"]

/-- Variables: two of them are beaten by flags, and one is empty. -/
def layeredEnv : Environment :=
  [("LOG_LEVEL", "error"), ("INTC_STD", "c++11"), ("INTC_CXX", "CLANG++"), ("INTC_OPT", "")]

/-- What they come to. -/
def layered : Config where
  command := .translate
  settings :=
    { Settings.ofGiven [] with
      input := "a.int"
      logLevel := "warn"
      compiler := "clang++"
      standard := "c++20"
      watch := true }

theorem parse_precedence_layered :
    parse layeredArgs layeredEnv = .ok (.run layered) ∧
      ∃ arguments, Selects layeredArgs .translate (selectTopic layeredArgs).2 ∧
        (∀ a, Reads (selectTopic layeredArgs).2 a ↔ a = arguments) ∧
        layered.settings.IsFrom layeredEnv arguments ∧ layered.settings.IsKnown := by
  have hparse : parse layeredArgs layeredEnv = .ok (.run layered) := rfl
  exact ⟨hparse, parse_precedence hparse⟩

end IntLang.CommandLine
