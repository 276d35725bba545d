import IntLang.App
import IntLang.Proofs.Answers
import IntLang.Proofs.Toolchain.Gate

/-!
# Settings that have been checked

A configuration that comes from the command line has passed its check, and that is all the program
needs to be set up: there is a logger for it (`Settings.Chosen.exists_logger`) and a toolchain
(`Settings.Chosen.exists_tools`).

The check has lists of its own of what is allowed, while the logger and the toolchain look words up
in their tables. That no word is allowed which they do not know, and none known to them which is not
allowed, is a fact about both sides (`choices_agree`).
-/

namespace IntLang

/-- What is a key of a table is found in it. -/
theorem isSome_lookup {α : Type} {rows : List (Text × α)} {key : Text}
    (h : key ∈ rows.map (·.1)) : (rows.lookup key).isSome = true := by
  obtain ⟨row, hrow, rfl⟩ := List.mem_map.1 h
  exact List.lookup_isSome_iff.2 ⟨row, hrow, beq_self_eq_true _⟩

namespace CommandLine

/-- **What is allowed is what is known.** The lists of the check agree with the levels of the
logger, with the compilers and the standards of the toolchain, and with its profiles, each of which
has a flag. -/
theorem choices_agree :
    levelChoices = Log.Level.all.map (·.name) ∧
    compilerChoices = Toolchain.requirements.map (·.1) ∧
    (∀ entry ∈ Toolchain.requirements, entry.2.map (·.1) = standardChoices) ∧
    optimizationChoices = Toolchain.profiles.map (·.1) ∧
    ∀ profile ∈ Toolchain.profiles, profile.2 ≠ "" := by
  decide

/-- The words for the toolchain are in lower case and none is empty, so that one which is known is
taken as it is. -/
theorem known_of_choice {isKnown : Text → Bool} (default : Text) {word : Text}
    (hword : word ∈ compilerChoices ∨ word ∈ standardChoices ∨ word ∈ optimizationChoices)
    (h : isKnown word = true) : Toolchain.known isKnown default word = some word := by
  have hplain : ∀ w ∈ compilerChoices ++ (standardChoices ++ optimizationChoices),
      w.isEmpty = false ∧ w.toLower = w := by
    decide +kernel
  rw [← List.mem_append, ← List.mem_append] at hword
  obtain ⟨hempty, hlower⟩ := hplain word hword
  rw [Toolchain.known, hempty, if_neg Bool.false_ne_true, hlower, if_pos h]

/-- The settings that arguments and environment ask for, checked or not. -/
def wanted (env : Environment) (arguments : Arguments) : Settings :=
  let settings := Settings.ofGiven arguments.given
  { settings with input := arguments.words.head?.getD settings.input }.withEnvironment env
    arguments.given

theorem configure_eq_ok_iff {env : Environment} {command : Command} {arguments : Arguments}
    {config : Config} :
    configure env command arguments = .ok config ↔
      arguments.words.length ≤ 1 ∧ config = ⟨command, wanted env arguments⟩ ∧
        (wanted env arguments).check = .ok () := by
  rw [configure]
  dsimp only
  constructor
  · intro h
    split at h
    · cases h
    · next hwords =>
      obtain ⟨⟨⟩, hcheck, ⟨⟩⟩ := bind_eq_ok_iff.1 h
      exact ⟨by omega, rfl, hcheck⟩
  · rintro ⟨hwords, rfl, hcheck⟩
    rw [if_neg (by omega)]
    exact bind_eq_ok_iff.2 ⟨(), hcheck, rfl⟩

/-- The command that a topic stands for; help is none. -/
def Topic.command? : Topic → Option Command
  | .program => some .build
  | .command c => some c
  | .help => none

/-- A configuration that the command line asks for is that of the command it selects, with the
arguments that were read. -/
theorem exists_configure_of_parse {args : List Text} {env : Environment} {config : Config}
    (h : parse args env = .ok (.run config)) :
    ∃ arguments command, Arguments.read (selectTopic args).2 = .ok arguments ∧
      (selectTopic args).1.command? = some command ∧
      configure env command arguments = .ok config := by
  rw [parse] at h
  generalize selectTopic args = selected at h ⊢
  obtain ⟨topic, rest⟩ := selected
  obtain ⟨arguments, hread, h⟩ := bind_eq_ok_iff.1 h
  have hread' := mapError_eq_ok_iff.1 hread
  dsimp only at h
  split at h
  · cases h
  split at h
  · cases h
  · obtain ⟨config, hconfig, ⟨⟩⟩ := bind_eq_ok_iff.1 h
    exact ⟨arguments, .build, hread', rfl, hconfig⟩
  · next command _ =>
    obtain ⟨config, hconfig, ⟨⟩⟩ := bind_eq_ok_iff.1 h
    exact ⟨arguments, command, hread', rfl, hconfig⟩

/-- The settings of a configuration that the command line asks for have passed their check. -/
theorem check_of_parse {args : List Text} {env : Environment} {config : Config}
    (h : parse args env = .ok (.run config)) : config.settings.check = .ok () := by
  obtain ⟨arguments, command, -, -, hconfigure⟩ := exists_configure_of_parse h
  obtain ⟨-, rfl, hcheck⟩ := configure_eq_ok_iff.1 hconfigure
  exact hcheck

theorem requireOneOf_eq_ok_iff {flag value : Text} {choices : List Text} :
    requireOneOf flag value choices = .ok () ↔ value ∈ choices := by
  simp [requireOneOf]

namespace Settings

/-- Every setting that has to be one of some words is. -/
structure Chosen (s : Settings) : Prop where
  logLevel : s.logLevel ∈ levelChoices
  logFormat : s.logFormat ∈ formatChoices
  compiler : s.compiler ∈ compilerChoices
  standard : s.standard ∈ standardChoices
  optimization : s.optimization ∈ optimizationChoices

namespace Chosen

variable {s : Settings}

theorem of_check (h : s.check = .ok ()) : s.Chosen := by
  rw [check] at h
  dsimp only at h
  split at h
  · cases h
  obtain ⟨-, -, h⟩ := bind_eq_ok_iff.1 h
  obtain ⟨-, -, h⟩ := bind_eq_ok_iff.1 h
  obtain ⟨-, -, h⟩ := bind_eq_ok_iff.1 h
  obtain ⟨⟨⟩, hlevel, h⟩ := bind_eq_ok_iff.1 h
  obtain ⟨⟨⟩, hformat, h⟩ := bind_eq_ok_iff.1 h
  obtain ⟨⟨⟩, hcompiler, h⟩ := bind_eq_ok_iff.1 h
  obtain ⟨⟨⟩, hstandard, hoptimization⟩ := bind_eq_ok_iff.1 h
  rw [requireOneOf_eq_ok_iff] at hlevel hformat hcompiler hstandard hoptimization
  exact ⟨hlevel, hformat, hcompiler, hstandard, hoptimization⟩

theorem exists_logger (h : s.Chosen) :
    ∃ logger, Log.Logger.make s.logLevel s.logFormat = .ok logger := by
  have hlevel : ∃ level, Log.parseLevel s.logLevel = .ok level := by
    obtain ⟨level, -, hname⟩ := List.mem_map.1 (choices_agree.1 ▸ h.logLevel)
    rw [← hname]
    cases level <;> exact ⟨_, rfl⟩
  have hformat : ∃ format, Log.parseFormat s.logFormat = .ok format := by
    have hword := h.logFormat
    simp only [formatChoices, List.mem_cons, List.not_mem_nil, or_false] at hword
    rcases hword with hword | hword <;> rw [hword] <;> exact ⟨_, rfl⟩
  obtain ⟨level, hlevel⟩ := hlevel
  obtain ⟨format, hformat⟩ := hformat
  refine ⟨⟨level, format⟩, ?_⟩
  rw [Log.Logger.make, hlevel, hformat]
  rfl

/-- Each compiler that is known has a requirement for the standard. -/
theorem exists_requirement (h : s.Chosen) {compiler : Text}
    (hcompiler : compiler ∈ compilerChoices) :
    ∃ r, Toolchain.requirement? compiler s.standard = some r := by
  obtain ⟨-, hcompilers, hstandards, -⟩ := choices_agree
  rw [hcompilers] at hcompiler
  refine Toolchain.exists_requirement hcompiler fun entry hentry => ?_
  rw [hstandards entry hentry]
  exact h.standard

/-- The words of the toolchain are taken as they are. -/
theorem parse_tools (h : s.Chosen) :
    Toolchain.Config.parse s.compiler s.standard s.optimization
      = (⟨s.compiler, s.standard, s.optimization⟩, none) := by
  obtain ⟨-, hcompilers, -, hoptimizations, -⟩ := choices_agree
  have hcompiler : Toolchain.known (fun c => (Toolchain.requirements.lookup c).isSome) "g++"
      s.compiler = some s.compiler :=
    known_of_choice _ (.inl h.compiler) (isSome_lookup (hcompilers ▸ h.compiler))
  have hstandard : Toolchain.known (fun s => (Toolchain.requirement? "g++" s).isSome) "c++17"
      s.standard = some s.standard :=
    known_of_choice _ (.inr (.inl h.standard))
      (Option.isSome_iff_exists.2 (h.exists_requirement (by decide)))
  have hoptimization : Toolchain.known (fun o => (Toolchain.profiles.lookup o).isSome) "speed"
      s.optimization = some s.optimization :=
    known_of_choice _ (.inr (.inr h.optimization))
      (isSome_lookup (hoptimizations ▸ h.optimization))
  rw [Toolchain.Config.parse]
  simp only [hcompiler, hstandard, hoptimization]

/-- The profile has a flag. -/
theorem optimizationFlag_ne (h : s.Chosen) : Toolchain.optimizationFlag s.optimization ≠ "" := by
  obtain ⟨-, -, -, hoptimizations, hflags⟩ := choices_agree
  obtain ⟨flag, hflag⟩ := Option.isSome_iff_exists.1
    (isSome_lookup (hoptimizations ▸ h.optimization))
  obtain ⟨_, _, hprofiles, -⟩ := List.lookup_eq_some_iff.1 hflag
  rw [Toolchain.optimizationFlag, hflag]
  exact hflags (s.optimization, flag) (by simp [hprofiles])

theorem exists_tools (h : s.Chosen) :
    ∃ tools, Toolchain.Config.parse s.compiler s.standard s.optimization = (tools, none) :=
  ⟨_, h.parse_tools⟩

end Chosen

end Settings

end CommandLine

end IntLang
