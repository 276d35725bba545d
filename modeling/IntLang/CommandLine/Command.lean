import IntLang.CommandLine.Flag

/-!
# Which command is meant

The command is the first word of the arguments, if that is the name of one. To find it, flags are
passed over, together with the argument behind each flag that looks as if it took one; whether it
really does is found out only when the arguments are read. The hidden commands with which a shell
completes a command line, `__complete` and `__completeNoDesc`, are not commands here: they are words
like any other.

## Main definitions

* `Command`, `Topic`;
* `firstWord?` and `dropWord`, the two walks over the arguments;
* `selectTopic`.
-/

namespace IntLang.CommandLine

/-- What the program is asked to do. -/
inductive Command where
  | build
  | translate
  | tokens
deriving DecidableEq, Inhabited

/-- The name of a command. -/
def Command.name : Command → Text
  | build => "build"
  | translate => "translate"
  | tokens => "tokens"

/-- What help can be about: the whole program, a command, or help itself. -/
inductive Topic where
  | program
  | command (c : Command)
  | help
deriving DecidableEq, Inhabited

/-- The topic a word names. -/
def Topic.ofName? (word : Text) : Option Topic :=
  if word = "help" then some .help
  else ([Command.build, .translate, .tokens].find? (·.name = word)).map .command

/-- Whether an argument looks like a flag that takes the argument behind it. Only the switches of
the configuration are known not to: help has a flag for each command, so that the flag is known
only when the command is, and until then it is taken for one with a value. -/
def takesNext (argument : Text) : Bool :=
  if argument.hasByte 0x3D then false
  else match argument.bytes with
    | 0x2D :: 0x2D :: name => !configFlags.any fun f => f.name = ⟨name⟩ && f.kind = .switch
    | [0x2D, letter] => !configFlags.any fun f => f.letter = some letter && f.kind = .switch
    | _ => false

/-- The first word among the arguments, as the walk sees it. The walk ends at two dashes, and at
a flag that takes the last argument. -/
def firstWord? : List Text → Option Text
  | [] => none
  | argument :: rest =>
    if argument = "--" then none
    else if takesNext argument then
      match rest with
      | _ :: next :: behind => firstWord? (next :: behind)
      | _ => none
    else if argument.isEmpty || argument.bytes.head? = some 0x2D then firstWord? rest
    else some argument

/-- The arguments without the first one that is the given word, as a second walk sees it. -/
def dropWord (word : Text) : List Text → List Text
  | [] => []
  | argument :: rest =>
    if argument = "--" then argument :: rest
    else if takesNext argument then
      match rest with
      | value :: behind => argument :: value :: dropWord word behind
      | [] => [argument]
    else if argument = word then rest
    else argument :: dropWord word rest

/-- The topic the arguments select, and the arguments that are left. -/
def selectTopic (arguments : List Text) : Topic × List Text :=
  match (firstWord? arguments).bind fun word => (Topic.ofName? word).map (word, ·) with
  | some (word, topic) => (topic, dropWord word arguments)
  | none => (.program, arguments)

end IntLang.CommandLine
