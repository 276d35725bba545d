import IntLang.World
import IntLang.Proofs.Answers
import IntLang.Proofs.Log.Lines
import Mathlib.Data.List.Forall2

/-!
# Looking at a machine

What the program does on a machine is told by its outcome: the answer, the disk, what has been
written to the standard output, and the commands that have been run (`World.Yields`). To the
standard error nothing goes but what is logged.

Most of the program only looks: it reads files and logs. The same code can be run on a disk alone,
with nothing to log to (`Disk.readOnly`), and gives the same answer there (`Looks`). So what a
source file compiles to is a function of the disk, `Disk.compiled`, and compiling it on a machine
answers just that and changes nothing (`Looks.compileFile`).
-/

namespace IntLang

/-! ### Outcomes -/

namespace World

/-- A machine has come from another: its disk is `disk`, and meanwhile `out` has been written to
the standard output and `calls` have been made. -/
structure Leads (w : World) (disk : Disk) (out : Text) (calls : List Call) (w' : World) :
    Prop where
  disk : w'.disk = disk
  stdout : w'.stdout = w.stdout ++ out
  calls : w'.calls = w.calls ++ calls
  /-- Only log lines have been written to the standard error. -/
  stderr : ∃ lines, (∀ t ∈ lines, Log.IsLogged t) ∧ w'.stderr = w.stderr ++ .concat lines
  helpShown : w'.helpShown = w.helpShown
  seconds : w'.seconds = w.seconds
  runner : w'.runner = w.runner

/-- Run on a machine, a computation gives an answer and leads on to another machine. -/
def Yields {α : Type} (w : World) (x : StateM World α) (a : α) (disk : Disk) (out : Text)
    (calls : List Call) : Prop :=
  ∃ w', x.run w = (a, w') ∧ w.Leads disk out calls w'

theorem Leads.refl (w : World) : w.Leads w.disk .empty [] w where
  disk := rfl
  stdout := (Text.append_empty _).symm
  calls := (List.append_nil _).symm
  stderr := ⟨[], by simp, (Text.append_empty _).symm⟩
  helpShown := rfl
  seconds := rfl
  runner := rfl

theorem Leads.trans {u v w : World} {d e : Disk} {out out' : Text} {calls calls' : List Call}
    (h : u.Leads d out calls v) (h' : v.Leads e out' calls' w) :
    u.Leads e (out ++ out') (calls ++ calls') w := by
  obtain ⟨lines, hlines, hstderr⟩ := h.stderr
  obtain ⟨lines', hlines', hstderr'⟩ := h'.stderr
  refine ⟨h'.disk, ?_, ?_, ⟨lines ++ lines', ?_, ?_⟩, h'.helpShown.trans h.helpShown,
    h'.seconds.trans h.seconds, h'.runner.trans h.runner⟩
  · rw [h'.stdout, h.stdout, Text.append_assoc]
  · rw [h'.calls, h.calls, List.append_assoc]
  · intro t ht
    exact (List.mem_append.1 ht).elim (hlines t) (hlines' t)
  · rw [hstderr', hstderr, Text.concat_append, Text.append_assoc]

namespace Yields

variable {α β : Type} {w : World} {x : StateM World α} {f : α → StateM World β} {a : α} {b : β}
  {d e : Disk} {out out' : Text} {calls calls' : List Call}

theorem pure (hw : w.disk = d) (a : α) : w.Yields (Pure.pure a) a d .empty [] :=
  ⟨w, rfl, hw ▸ .refl w⟩

/-- Two computations one after another, the second on the machine that the first has led to. -/
theorem next {v : World} (hrun : x.run w = (a, v)) (hv : w.Leads d out calls v)
    (hf : v.Yields (f a) b e out' calls') :
    w.Yields (x >>= f) b e (out ++ out') (calls ++ calls') := by
  obtain ⟨u, hrun', hu⟩ := hf
  exact ⟨u, (run_bind_of_eq hrun f).trans hrun', hv.trans hu⟩

theorem bind (hx : w.Yields x a d out calls)
    (hf : ∀ w', w.Leads d out calls w' → w'.Yields (f a) b e out' calls') :
    w.Yields (x >>= f) b e (out ++ out') (calls ++ calls') := by
  obtain ⟨v, hrun, hv⟩ := hx
  exact next hrun hv (hf v hv)

/-- What comes behind a computation that changes nothing alone decides the outcome. -/
theorem behind (hx : w.Yields x a d .empty [])
    (hf : ∀ w', w.Leads d .empty [] w' → w'.Yields (f a) b e out calls) :
    w.Yields (x >>= f) b e out calls :=
  hx.bind hf

/-- A computation that tells nothing more leaves what has been told as it is. -/
theorem last {v : World} (hrun : x.run w = (a, v)) (hv : w.Leads d out [] v)
    (hf : v.Yields (f a) b e .empty calls) : w.Yields (x >>= f) b e out calls := by
  have h := next hrun hv hf
  rwa [Text.append_empty] at h

/-- A computation that changes nothing more leaves the outcome as it is. -/
theorem before (hx : w.Yields x a d out calls)
    (hf : ∀ w', w.Leads d out calls w' → w'.Yields (f a) b d .empty []) :
    w.Yields (x >>= f) b d out calls := by
  have h := hx.bind hf
  rwa [Text.append_empty, List.append_nil] at h

end Yields

end World

/-! ### Computations that only look -/

/-- Run on a machine with a disk, a computation answers the same as another does without a machine,
and changes nothing. -/
def Looks {α : Type} (d : Disk) (x : StateM World α) (y : Id α) : Prop :=
  ∀ w : World, w.disk = d → w.Yields x y.run d .empty []

namespace Looks

variable {d : Disk} {α β : Type}

theorem pure (a : α) : Looks d (Pure.pure a) (Pure.pure a) := fun _ hw => .pure hw a

theorem bind {x : StateM World α} {y : Id α} {f : α → StateM World β} {g : α → Id β}
    (hx : Looks d x y) (hf : ∀ a, Looks d (f a) (g a)) : Looks d (x >>= f) (y >>= g) := by
  intro w hw
  exact (hx w hw).behind fun w' h => hf y.run w' h.disk

theorem mapM {γ : Type} {f : α → StateM World β} {g : γ → Id β} {xs : List α} {ys : List γ}
    (h : List.Forall₂ (fun x y => Looks d (f x) (g y)) xs ys) :
    Looks d (xs.mapM f) (ys.mapM g) := by
  induction h with
  | nil => exact .pure []
  | cons hx _ ih =>
    rw [List.mapM_cons, List.mapM_cons]
    exact hx.bind fun b => ih.bind fun bs => .pure (b :: bs)

end Looks

/-- A disk as files that can be looked at and not written to. -/
def Disk.readOnly (d : Disk) : Storage Id where
  stat path := pure (d.stat path)
  read path := pure (d.read path)
  list path := pure (d.list path)
  write _ _ := pure (.error .denied)

namespace Looks

variable (d : Disk)

theorem stat (path : Text) : Looks d (World.storage.stat path) (d.readOnly.stat path) := by
  rintro w rfl
  exact .pure rfl _

theorem read (path : Text) : Looks d (World.storage.read path) (d.readOnly.read path) := by
  rintro w rfl
  exact .pure rfl _

theorem list (path : Text) : Looks d (World.storage.list path) (d.readOnly.list path) := by
  rintro w rfl
  exact .pure rfl _

theorem isDirectory (path : Text) :
    Looks d (World.storage.isDirectory path) (d.readOnly.isDirectory path) := by
  refine (stat d path).bind fun answer => ?_
  cases answer with
  | error reason => exact .pure false
  | ok info => exact .pure info.isDirectory

/-- Logging changes nothing but the standard error. -/
theorem log {s : Session (StateM World)} {v : World} (hs : s.host = World.host v)
    (r : Log.Record) : Looks d (s.log r) (Pure.pure ()) := by
  rintro w rfl
  let line := s.logger.line w.clock (r.tagged [("run_id", .text v.runId)])
  have hrun : (s.log r).run w = ((), { w with stderr := w.stderr ++ line }) := by
    rw [Session.log, hs]
    rfl
  refine ⟨_, hrun, rfl, (Text.append_empty _).symm, (List.append_nil _).symm, ⟨[line], ?_, ?_⟩,
    rfl, rfl, rfl⟩
  · exact fun t ht => ⟨_, _, _, List.mem_singleton.1 ht⟩
  · exact congrArg (w.stderr ++ ·) (Text.append_empty _).symm

end Looks

/-! ### Looking headers up -/

/-- A source of files on a machine with a disk and one without a machine give the same answers. -/
structure Mirrors (d : Disk) (source : FileSource (StateM World)) (view : FileSource Id) :
    Prop where
  isFile : ∀ path, Looks d (source.isFile path) (view.isFile path)
  list : ∀ path, Looks d (source.list path) (view.list path)
  read : ∀ path, Looks d (source.read path) (view.read path)

theorem mirrors_directory (d : Disk) (dir : Text) :
    Mirrors d (World.storage.directory dir) (d.readOnly.directory dir) where
  isFile path := by
    simp only [Storage.directory]
    split
    · exact .pure false
    refine (Looks.stat d _).bind fun answer => ?_
    cases answer with
    | error reason => exact .pure false
    | ok info => exact .pure !info.isDirectory
  list path := by
    simp only [Storage.directory]
    split
    · exact .pure _
    refine (Looks.list d _).bind fun answer => ?_
    cases answer with
    | error reason => exact .pure _
    | ok entries => exact .pure _
  read path := by
    simp only [Storage.directory]
    split
    · exact .pure _
    refine (Looks.read d _).bind fun answer => ?_
    cases answer with
    | error reason => exact .pure _
    | ok content => exact .pure _

theorem mirrors_builtIn (d : Disk) (files : Library) :
    Mirrors d (FileSource.builtIn files) (FileSource.builtIn files) where
  isFile _ := .pure _
  list path := by
    simp only [FileSource.builtIn, Library.sourceWith]
    split
    · exact .pure _
    · split <;> exact .pure _
  read _ := .pure _

namespace Mirrors

variable {d : Disk} {source : FileSource (StateM World)} {view : FileSource Id}

theorem find (h : Mirrors d source view) (dir name : Text) :
    Looks d (source.find dir name) (view.find dir name) := by
  refine (h.isFile _).bind fun found => ?_
  cases found with
  | true => exact .pure _
  | false =>
    refine (h.list dir).bind fun answer => ?_
    cases answer with
    | error cause => exact .pure _
    | ok entries =>
      dsimp only
      split <;> exact .pure _

theorem readAnyCase (h : Mirrors d source view) (path : Text) :
    Looks d (source.readAnyCase path) (view.readAnyCase path) := by
  refine (h.find _ _).bind fun answer => ?_
  cases answer with
  | error cause => exact .pure _
  | ok actual =>
    refine (h.read actual).bind fun answer => ?_
    cases answer with
    | error cause => exact .pure _
    | ok content => exact .pure _

theorem namesIn (h : Mirrors d source view) :
    Looks d (Headers.namesIn source) (Headers.namesIn view) := by
  have hfiles (dir extension : Text) :
      Looks d (source.withExtension dir extension) (view.withExtension dir extension) := by
    refine (h.list dir).bind fun answer => ?_
    cases answer with
    | error cause => exact .pure _
    | ok entries => exact .pure _
  refine (hfiles "." Headers.extension).bind fun answer => ?_
  cases answer with
  | error cause => exact .pure _
  | ok files => exact .pure _

end Mirrors

namespace Looks

variable {d : Disk} {sources : List (FileSource (StateM World))} {views : List (FileSource Id)}

theorem search (h : List.Forall₂ (Mirrors d) sources views) (file : Text) :
    Looks d (Headers.search file sources) (Headers.search file views) := by
  induction h with
  | nil => exact .pure _
  | cons hsource _ ih =>
    refine (hsource.readAnyCase file).bind fun answer => ?_
    cases answer with
    | ok content => exact .pure _
    | error cause =>
      dsimp only
      split
      · exact ih
      · exact .pure _

theorem resolve (h : List.Forall₂ (Mirrors d) sources views) (name : Text) :
    Looks d (Headers.resolve sources name) (Headers.resolve views name) := by
  rw [Headers.resolve, Headers.resolve]
  split
  · exact .pure _
  refine (search h _).bind fun answer => ?_
  match answer with
  | .error cause => exact .pure _
  | .ok (some content) => exact .pure _
  | .ok none =>
    have hnames : Looks d (sources.mapM Headers.namesIn) (views.mapM Headers.namesIn) :=
      .mapM (h.imp fun _ _ hsource => hsource.namesIn)
    exact (hnames.bind fun names => .pure names.flatten.eraseDups).bind fun available => .pure _

/-! ### Compiling -/

variable {ε : Type}

theorem spliced {resolve : Text → StateM World (Except ε Text)}
    {view : Text → Id (Except ε Text)} (h : ∀ name, Looks d (resolve name) (view name))
    (is : List Item) :
    Looks d ((Resolver.ask resolve).spliced is) ((Resolver.ask view).spliced is) := by
  have hitem (i : Item) : Looks d ((Resolver.ask resolve).item i) ((Resolver.ask view).item i) := by
    cases i with
    | token t => exact .pure _
    | header name =>
      refine (h name).bind fun answer => ?_
      cases answer with
      | ok text => exact .pure _
      | error cause => exact .pure _
  induction is with
  | nil => exact .pure _
  | cons i is ih =>
    refine (hitem i).bind fun answer => ?_
    cases answer with
    | error e => exact .pure _
    | ok text =>
      refine ih.bind fun answer => ?_
      cases answer with
      | error e => exact .pure _
      | ok rest => exact .pure _

theorem compile {log : Log.Record → StateM World Unit} (hlog : ∀ r, Looks d (log r) (Pure.pure ()))
    {resolve : Text → StateM World (Except ε Text)} {view : Text → Id (Except ε Text)}
    (h : ∀ name, Looks d (resolve name) (view name)) (source : Text) :
    Looks d (IntLang.compile log (.ask resolve) source)
      (IntLang.compile (fun _ => Pure.pure ()) (.ask view) source) := by
  refine (hlog _).bind fun _ => ?_
  cases segment (tokenize source) with
  | error misfit => exact .pure _
  | ok program =>
    refine (hlog _).bind fun _ => ?_
    have hunit : Looks d (cppUnit (.ask resolve) program) (cppUnit (.ask view) program) := by
      refine (spliced h _).bind fun answer => ?_
      cases answer with
      | error e => exact .pure _
      | ok globals => exact .pure _
    refine hunit.bind fun answer => ?_
    cases answer with
    | error cause => exact .pure _
    | ok output => exact (hlog _).bind fun _ => .pure _

theorem load (d : Disk) (path : Text) :
    Looks d (SourceFile.load World.storage path) (SourceFile.load d.readOnly path) := by
  refine (stat d path).bind fun answer => ?_
  cases answer with
  | error reason => exact .pure _
  | ok info =>
    dsimp only
    split
    · exact .pure _
    refine (read d path).bind fun answer => ?_
    cases answer with
    | error reason => exact .pure _
    | ok data => exact .pure _

theorem compileFile {log : Log.Record → StateM World Unit}
    (hlog : ∀ r, Looks d (log r) (Pure.pure ())) (h : List.Forall₂ (Mirrors d) sources views)
    (path : Text) :
    Looks d (IntLang.compileFile World.storage log (Headers.resolver sources) path)
      (IntLang.compileFile d.readOnly (fun _ => Pure.pure ()) (Headers.resolver views) path) := by
  refine (load d path).bind fun answer => ?_
  cases answer with
  | error cause => exact .pure _
  | ok file => exact (hlog _).bind fun _ => compile hlog (resolve h) file.content

end Looks

/-! ### What a disk compiles to -/

namespace Headers

/-- The directory that headers are looked for in: the one that is asked for, or the default. -/
def chosenDir (dir : Text) : Text := if dir.isEmpty then defaultDir else dir

/-- Where headers come from, once it is known whether their directory is there. -/
def sources {m : Type → Type} [Monad m] (found : Bool) (storage : Storage m) (dir : Text) :
    List (FileSource m) :=
  if found then [storage.directory (chosenDir dir), FileSource.builtIn standard]
  else [FileSource.builtIn standard]

theorem forall₂_mirrors_sources (d : Disk) (found : Bool) (dir : Text) :
    List.Forall₂ (Mirrors d) (sources found World.storage dir) (sources found d.readOnly dir) := by
  have hstandard := mirrors_builtIn d standard
  cases found with
  | true => exact .cons (mirrors_directory d _) (.cons hstandard .nil)
  | false => exact .cons hstandard .nil

end Headers

theorem App.headerSources_eq {m : Type → Type} [Monad m] (storage : Storage m) (dir : Text) :
    App.headerSources storage dir = do
      let found ← storage.isDirectory (Headers.chosenDir dir)
      return Headers.sources found storage dir := by
  refine congrArg (storage.isDirectory (Headers.chosenDir dir) >>= ·) (funext fun found => ?_)
  cases found <;> rfl

namespace Disk

/-- Whether the directory of headers is there. -/
def hasHeaders (d : Disk) (dir : Text) : Bool :=
  (d.readOnly.isDirectory (Headers.chosenDir dir)).run

/-- Where headers come from on a disk. -/
def headerSources (d : Disk) (dir : Text) : List (FileSource Id) :=
  (App.headerSources d.readOnly dir).run

/-- The text of the header with a name. -/
def header (d : Disk) (dir name : Text) : Except Headers.HeaderError Text :=
  (Headers.resolve (d.headerSources dir) name).run

/-- What a source file with some content compiles to, with the headers on a disk. -/
def compiledContent (d : Disk) (settings : CommandLine.Settings) (content : Text) :
    Except (CompileError Headers.HeaderError) Compilation :=
  Id.run <| compile (fun _ => pure ()) (Headers.resolver (d.headerSources settings.headerDir))
    (Encoding.decode content).1

/-- What the source file on a disk compiles to. -/
def compiled (d : Disk) (settings : CommandLine.Settings) :
    Except (CompileError Headers.HeaderError) Compilation :=
  Id.run <| compileFile d.readOnly (fun _ => pure ())
    (Headers.resolver (d.headerSources settings.headerDir)) settings.input

theorem headerSources_eq (d : Disk) (dir : Text) :
    d.headerSources dir = Headers.sources (d.hasHeaders dir) d.readOnly dir := by
  rw [headerSources, App.headerSources_eq]
  rfl

/-- A file that can be read is known not to be a directory. -/
theorem stat_of_read {d : Disk} {path content : Text} (h : d.read path = .ok content) :
    d.stat path = .ok ⟨false, content.size⟩ := by
  obtain ⟨⟨place, node⟩, hfind, hnode⟩ := bind_eq_ok_iff.1 h
  cases node with
  | directory => cases hnode
  | file data =>
    cases hnode
    exact bind_eq_ok_iff.2 ⟨_, hfind, rfl⟩

/-- A source file that can be read is loaded, and its content is decoded. -/
theorem load_of_read {d : Disk} {path content : Text} (h : d.read path = .ok content) :
    SourceFile.load d.readOnly path = pure (.ok
      { name := Path.base path, path, content := (Encoding.decode content).1,
        size := content.size, encoding := (Encoding.decode content).2 }) := by
  simp only [SourceFile.load, readOnly, h, stat_of_read h]
  rfl

/-- The source file compiles to what its content does. -/
theorem compiled_of_read {d : Disk} {settings : CommandLine.Settings} {content : Text}
    (h : d.read settings.input = .ok content) :
    d.compiled settings = d.compiledContent settings content := by
  rw [compiled, compileFile, load_of_read h]
  rfl

/-- If the source file compiles, it can be read. -/
theorem exists_read_of_compiled {d : Disk} {settings : CommandLine.Settings} {c : Compilation}
    (h : d.compiled settings = .ok c) : ∃ content, d.read settings.input = .ok content := by
  cases hread : d.read settings.input with
  | ok content => exact ⟨content, rfl⟩
  | error reason =>
    have hload : ∃ cause, SourceFile.load d.readOnly settings.input = pure (.error cause) := by
      simp only [SourceFile.load, readOnly, hread]
      rcases d.stat settings.input with reason | ⟨_ | _, size⟩ <;> exact ⟨_, rfl⟩
    obtain ⟨cause, hload⟩ := hload
    rw [compiled, compileFile, hload] at h
    cases h

end Disk

end IntLang
