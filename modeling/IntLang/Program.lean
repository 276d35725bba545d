import IntLang.Token

/-!
# Programs

A program is a flat thing: the tokens of its global region, and its functions, each with a
signature and the tokens of its body. A function is known by its name. What is declared under each
name and the order of the names are kept apart, and one conditional step keeps them together:
adding a function under a name that is taken replaces the older one and leaves the order as it is.

## Main definitions

* `Parameter`, `Function`, `Program`;
* `Program.add`, `Program.get?`, `Program.ordered`.
-/

namespace IntLang

/-- A parameter of a function. -/
structure Parameter where
  /-- The type of its values. -/
  type : ValueType
  /-- Its name. -/
  name : Text
  /-- The value it has when none is given. -/
  default : Literal
deriving DecidableEq, Inhabited

/-- A function: its signature, and its body as it was written. -/
structure Function where
  /-- The type of the result. -/
  result : ValueType
  /-- The name. -/
  name : Text
  /-- The parameters, first to last. -/
  parameters : List Parameter
  /-- The tokens strictly between the braces. -/
  body : List Token
deriving DecidableEq, Inhabited

/-- A segmented source text. -/
structure Program where
  /-- The function that was declared last under each name. -/
  table : List (Text × Function) := []
  /-- The names of the functions, each once, by first appearance. -/
  order : List Text := []
  /-- The tokens of the global region. -/
  globals : List Token := []
deriving DecidableEq, Inhabited

/-- Puts a function under a name, in place of the one that is there. -/
def enter (name : Text) (f : Function) : List (Text × Function) → List (Text × Function)
  | [] => [(name, f)]
  | item :: items => if item.1 = name then (name, f) :: items else item :: enter name f items

namespace Program

/-- The function of a name. -/
def get? (p : Program) (name : Text) : Option Function := p.table.lookup name

/-- Adds a function; a later one of the same name wins and keeps the place of the first. -/
def add (p : Program) (f : Function) : Program :=
  { p with
    table := enter f.name f p.table
    order := if (p.get? f.name).isSome then p.order else p.order ++ [f.name] }

/-- Adds functions one after another. -/
def addAll (p : Program) (fs : List Function) : Program := fs.foldl add p

/-- What is declared under the names, in their order. -/
def ordered (p : Program) : List (Option Function) := p.order.map p.get?

/-- The functions in the order of their names. -/
def functions (p : Program) : List Function := p.ordered.filterMap id

end Program

end IntLang
