import IntLang.Proofs.App.Translation
import IntLang.Proofs.Cpp.Imports
import IntLang.Proofs.Files.Absolute
import IntLang.Proofs.Watch.Settling

/-!
# Watching a source file

A session that watches its source file goes through its work whenever the file is replaced. Told by
the disk alone, this keeps one invariant, `Disk.Holds`: nothing but the source file, the unit and
the files that commands make has been written, and the unit is that of the last content that
compiles. It rests on the headers, which must not depend on any of these files
(`Disk.HeadersKept`): then what a content compiles to is the same at all times
(`Disk.toOption_compiledContent`).

An edit makes the watcher act once (`Session.Equipped.exists_yields_edit`), a run of edits keeps the
invariant (`World.exists_yields_edits`), and so does the whole watch (`World.runApp_watching`).
-/

namespace IntLang

/-! ### Headers that stay -/

/-- The names that a source file with some content imports. -/
def importsOf (content : Text) : List Text :=
  match segment (tokenize (Encoding.decode content).1) with
  | .ok program => importedNames program.globals
  | .error _ => []

section Resolvers

variable {ε : Type} {r r' : Text → Id (Except ε Text)}

theorem toOption_spliced_cons (i : Item) (is : List Item) :
    ((Resolver.ask r).spliced (i :: is)).run.toOption =
      ((Resolver.ask r).item i).run.toOption.bind fun text =>
        ((Resolver.ask r).spliced is).run.toOption.map (text ++ ·) := by
  rw [Resolver.spliced]
  rcases (Resolver.ask r).item i with e | text
  · rfl
  · rcases (Resolver.ask r).spliced is with e | rest <;> rfl

theorem toOption_item_header (name : Text) :
    ((Resolver.ask r).item (.header name)).run.toOption = (r name).run.toOption := by
  simp only [Resolver.item, Resolver.header]
  rcases r name with cause | text <;> rfl

/-- The text of the global region depends on no headers but those it imports. -/
theorem toOption_spliced {is : List Item}
    (h : ∀ name ∈ Item.headers is, (r name).run.toOption = (r' name).run.toOption) :
    ((Resolver.ask r).spliced is).run.toOption = ((Resolver.ask r').spliced is).run.toOption := by
  induction is with
  | nil => rfl
  | cons i is ih =>
    rw [toOption_spliced_cons, toOption_spliced_cons]
    cases i with
    | token t =>
      rw [ih h]
      rfl
    | header name =>
      rw [toOption_item_header, toOption_item_header, h name List.mem_cons_self,
        ih fun n hn => h n (List.mem_cons_of_mem name hn)]

theorem toOption_compile (source : Text) :
    (Id.run (compile (fun _ => pure ()) (.ask r) source)).toOption =
      (segment (tokenize source)).toOption.bind fun program =>
        ((Resolver.ask r).spliced (items program.globals)).run.toOption.map fun globals =>
          Compilation.mk (tokenize source) program (Cpp.sections globals program.functions) := by
  rw [compile]
  cases segment (tokenize source) with
  | error misfit => rfl
  | ok program =>
    simp only [cppUnit, Except.toOption, Option.bind_some]
    rcases (Resolver.ask r).spliced (items program.globals) with e | globals <;> rfl

end Resolvers

namespace Disk

/-- What a content compiles to depends on no headers but those it imports. -/
theorem toOption_compiledContent {d e : Disk} {settings : CommandLine.Settings} {content : Text}
    (h : ∀ name ∈ importsOf content,
      (e.header settings.headerDir name).toOption = (d.header settings.headerDir name).toOption) :
    (e.compiledContent settings content).toOption =
      (d.compiledContent settings content).toOption := by
  rw [compiledContent, compiledContent, Headers.resolver, Headers.resolver, toOption_compile,
    toOption_compile]
  rw [importsOf] at h
  cases hp : segment (tokenize (Encoding.decode content).1) with
  | error misfit => rfl
  | ok program =>
    simp only [hp, ← headers_items] at h
    exact congrArg (Option.map _) (toOption_spliced h)

/-- No header that a content imports depends on what is written at some places. -/
def HeadersKept (d : Disk) (dir : Text) (places : List Place) (content : Text) : Prop :=
  ∀ e, d.Rewritten places e → ∀ name ∈ importsOf content,
    (e.header dir name).toOption = (d.header dir name).toOption

/-! ### The last unit -/

/-- The unit of the last content that compiles. -/
def lastUnit (d : Disk) (settings : CommandLine.Settings) (contents : List Text) : Option Text :=
  (contents.filterMap fun content =>
    (d.compiledContent settings content).toOption.map (·.output)).getLast?

theorem lastUnit_concat (d : Disk) (settings : CommandLine.Settings) (contents : List Text)
    (content : Text) :
    d.lastUnit settings (contents ++ [content]) =
      match (d.compiledContent settings content).toOption with
      | some c => some c.output
      | none => d.lastUnit settings contents := by
  rw [lastUnit, lastUnit, List.filterMap_append]
  cases hc : (d.compiledContent settings content).toOption <;> simp [hc]

/-- The source file and the unit of some settings are two files that can be written, and the unit is
not among some others. -/
structure Apart (d : Disk) (settings : CommandLine.Settings) (source unit : Place)
    (others : List Place) : Prop where
  target_input : d.target settings.input = .ok source
  target_output : d.target settings.output = .ok unit
  ne : source ≠ unit
  unit_notMem : unit ∉ others
  isFile : ∀ place ∈ others, place ≠ [] ∧ d.node? place ≠ some .directory

/-- A disk that has come from another by writing the source file, the unit and some other files, and
on which the unit is that of the last content that compiles; if none does, it is as it was. -/
structure Holds (d : Disk) (settings : CommandLine.Settings) (source unit : Place)
    (others : List Place) (contents : List Text) (e : Disk) : Prop where
  rewritten : d.Rewritten (source :: unit :: others) e
  output : e.read settings.output = match d.lastUnit settings contents with
    | some text => .ok text
    | none => d.read settings.output

theorem Holds.refl (d : Disk) (settings : CommandLine.Settings) (source unit : Place)
    (others : List Place) : d.Holds settings source unit others [] d :=
  ⟨.same, rfl⟩

section Apart

variable {d e : Disk} {settings : CommandLine.Settings} {source unit : Place}
  {others : List Place} {contents : List Text} {content : Text}

theorem Apart.isFilePlace (h : d.Apart settings source unit others) :
    ∀ place ∈ source :: unit :: others, place ≠ [] ∧ d.node? place ≠ some .directory := by
  intro place hplace
  rcases List.mem_cons.1 hplace with rfl | hplace
  · exact ⟨ne_nil_of_target h.target_input, node?_ne_directory_of_target h.target_input⟩
  rcases List.mem_cons.1 hplace with rfl | hplace
  · exact ⟨ne_nil_of_target h.target_output, node?_ne_directory_of_target h.target_output⟩
  · exact h.isFile place hplace

theorem Apart.sameDirectories (h : d.Apart settings source unit others)
    (he : d.Rewritten (source :: unit :: others) e) : SameDirectories d e :=
  he.sameDirectories h.isFilePlace

/-- As long as nothing is put at its place, the unit reads as before. -/
theorem Apart.read_output (h : d.Apart settings source unit others) {e f : Disk}
    (he : d.Rewritten (source :: unit :: others) e)
    (hf : d.Rewritten (source :: unit :: others) f) (hunit : f.node? unit = e.node? unit) :
    f.read settings.output = e.read settings.output := by
  rw [read_of_target ((h.sameDirectories he).target h.target_output),
    read_of_target ((h.sameDirectories hf).target h.target_output), hunit]

/-- A new source file leaves the unit as it is. -/
theorem Holds.edited (hfiles : d.Apart settings source unit others)
    (h : d.Holds settings source unit others contents e) (content : Text) :
    d.Holds settings source unit others contents (e.put source (.file content)) := by
  have hrewritten : d.Rewritten (source :: unit :: others) (e.put source (.file content)) :=
    h.rewritten.put content List.mem_cons_self
  refine ⟨hrewritten, ?_⟩
  rw [← h.output]
  refine hfiles.read_output h.rewritten hrewritten ?_
  rw [node?_put e (ne_nil_of_target hfiles.target_input), if_neg hfiles.ne.symm]

/-- So do commands that write nothing but the other files. -/
theorem Holds.commands (hfiles : d.Apart settings source unit others)
    (h : d.Holds settings source unit others contents e) {runner : Runner}
    (hrunner : ∀ e before call, Rewritten e others (runner e before call).2)
    (before calls : List Call) :
    d.Holds settings source unit others contents (runner.after before e calls) := by
  refine Runner.after_keeps (fun e before call h => ?_) before h calls
  have hcall := hrunner e before call
  have hrewritten := h.rewritten.trans hcall fun place hplace =>
    List.mem_cons_of_mem _ (List.mem_cons_of_mem _ hplace)
  refine ⟨hrewritten, ?_⟩
  rw [← h.output]
  exact hfiles.read_output h.rewritten hrewritten
    (hcall.node?_eq (fun place hplace => (hfiles.isFile place hplace).1) hfiles.unit_notMem)

/-- A translation replaces the unit if the source file compiles, and only then. -/
theorem Holds.translated (hfiles : d.Apart settings source unit others)
    (h : d.Holds settings source unit others contents e)
    (hkept : d.HeadersKept settings.headerDir (source :: unit :: others) content)
    (hread : e.read settings.input = .ok content) :
    (e.translated settings).1.toOption = (d.compiledContent settings content).toOption ∧
      d.Holds settings source unit others (contents ++ [content]) (e.translated settings).2 := by
  have hsame := toOption_compiledContent (hkept e h.rewritten)
  rw [Disk.translated, compiled_of_read hread]
  cases hc : e.compiledContent settings content with
  | error cause =>
    rw [hc] at hsame
    refine ⟨hsame, h.rewritten, ?_⟩
    rw [lastUnit_concat, ← hsame]
    exact h.output
  | ok c =>
    rw [hc] at hsame
    have htarget := (hfiles.sameDirectories h.rewritten).target hfiles.target_output
    have hwrite : e.write settings.output c.output = .ok (e.put unit (.file c.output)) :=
      write_eq_ok_iff.2 ⟨unit, htarget, rfl⟩
    simp only [hwrite]
    refine ⟨hsame, h.rewritten.put _ (by simp), ?_⟩
    rw [lastUnit_concat, ← hsame]
    exact read_write hwrite

end Apart

/-- The directory of headers stays, or stays away. -/
theorem hasHeaders_eq {d e : Disk} (h : SameDirectories d e) (dir : Text) :
    e.hasHeaders dir = d.hasHeaders dir := by
  have hiff (f : Disk) : f.hasHeaders dir = true ↔
      ∃ place, f.find (Headers.chosenDir dir) = .ok (place, .directory) := by
    simp only [hasHeaders, Storage.isDirectory, readOnly, stat]
    rcases f.find (Headers.chosenDir dir) with reason | ⟨place, content | _⟩
    · exact iff_of_false Bool.false_ne_true (by simp)
    · exact iff_of_false Bool.false_ne_true (by simp)
    · exact iff_of_true rfl ⟨place, rfl⟩
  rw [Bool.eq_iff_iff, hiff, hiff]
  simp only [h.find]

/-- Headers that are part of the program depend on no file. -/
theorem Apart.headersKept {d : Disk} {settings : CommandLine.Settings} {source unit : Place}
    {others : List Place} (h : d.Apart settings source unit others)
    (hnone : d.hasHeaders settings.headerDir = false) (content : Text) :
    d.HeadersKept settings.headerDir (source :: unit :: others) content := by
  intro e he name _
  rw [header, header, headerSources_eq, headerSources_eq, hasHeaders_eq (h.sameDirectories he),
    hnone]
  rfl

end Disk

/-! ### One callback -/

namespace Watch.Watcher

/-- A watcher that waits for nothing and has acted some number of times. -/
def idle (path : Text) (now : Int) (calls : Nat) : Watcher := { path, now, calls }

/-- A watcher whose file has just been replaced. -/
def alerted (path : Text) (now : Int) (calls : Nat) : Watcher :=
  { path, now, timer := some (now + defaultDelay), pending := true, calls }

theorem step_idle {path : Text} (hpath : Path.clean path = path) (now : Int) (calls : Nat) :
    ((idle path now calls).step (.event ⟨path, .created⟩)).1 = alerted path now calls := by
  have hconcerns : (idle path now calls).concerns ⟨path, .created⟩ = true := by
    simp only [concerns, idle, hpath, decide_true, Bool.true_and]
    rfl
  have hwaits : ¬ now + defaultDelay ≤ now := by
    rw [defaultDelay]
    omega
  simp only [step, hconcerns, if_true]
  simp [idle, alerted, running, settle, hwaits]

theorem step_alerted (path : Text) (now : Int) (calls : Nat) :
    ((alerted path now calls).step (.sleep defaultDelay)).1 =
      idle path (now + defaultDelay) (calls + 1) := by
  have hmax : max 0 defaultDelay = defaultDelay := by decide
  simp [alerted, idle, running, step, settle, hmax]

end Watch.Watcher

namespace Session

theorem message_congr {ε ε' α : Type} (seconds : Text) {x : Except ε α} {y : Except ε' α}
    (h : x.toOption = y.toOption) : message seconds x = message seconds y := by
  cases x <;> cases y <;> first | rfl | cases h

namespace Equipped

variable {s : Session (StateM World)} {d e : Disk} {w : World}

theorem of_sameDirectories (h : s.Equipped d) (hsame : Disk.SameDirectories d e) :
    s.Equipped e := by
  refine ⟨h.host, ?_⟩
  rw [h.sources, Disk.hasHeaders_eq hsame]

/-- Whatever fails, the work is done and told once more. -/
theorem exists_yields_again (h : s.Equipped w.disk) :
    ∃ calls, w.Yields s.again ()
      (w.runner.after w.calls (w.disk.translated s.config.settings).2 calls)
      (message w.seconds (w.disk.translated s.config.settings).1) calls := by
  obtain ⟨result, calls, honce, -⟩ := h.exists_yields_once
  refine ⟨calls, honce.before fun w' hw' => ?_⟩
  cases result with
  | error e => exact h.log _ _ w' hw'.disk
  | ok _ => exact .pure hw'.disk ()

theorem logAll (h : s.Equipped d) (records : List Log.Record) :
    Looks e (records.forM s.log) (pure ()) := by
  induction records with
  | nil => exact .pure ()
  | cons r records ih => exact (h.log e r).bind fun _ => ih

/-- What does not make the watcher act changes nothing. -/
theorem feed (h : s.Equipped d) {input : Watch.Input}
    (hcalls : (s.watcher.step input).1.calls = s.watcher.calls) :
    Looks e (s.feed input) (pure { s with watcher := (s.watcher.step input).1 }) := by
  intro w hw
  rw [Session.feed]
  generalize s.watcher.step input = stepped at hcalls ⊢
  obtain ⟨v, records⟩ := stepped
  refine (h.logAll records w hw).behind fun w' hw' => ?_
  dsimp only at hcalls ⊢
  rw [hcalls, if_neg (Nat.lt_irrefl _)]
  exact .pure hw'.disk _

/-- What makes the watcher act makes the session work. -/
theorem exists_yields_feed (h : s.Equipped w.disk) (input : Watch.Input)
    (hcalls : s.watcher.calls < (s.watcher.step input).1.calls) :
    ∃ calls, w.Yields (s.feed input) { s with watcher := (s.watcher.step input).1 }
      (w.runner.after w.calls (w.disk.translated s.config.settings).2 calls)
      (message w.seconds (w.disk.translated s.config.settings).1) calls := by
  rw [Session.feed]
  generalize s.watcher.step input = stepped at hcalls ⊢
  obtain ⟨v, records⟩ := stepped
  obtain ⟨w₁, hrun, hw₁⟩ := h.logAll (e := w.disk) records w rfl
  have h₁ : s.Equipped w₁.disk := hw₁.disk.symm ▸ h
  obtain ⟨calls, hagain⟩ := h₁.exists_yields_again
  rw [hw₁.disk, hw₁.seconds, hw₁.runner, hw₁.calls, List.append_nil] at hagain
  refine ⟨calls, .next hrun hw₁ ?_⟩
  rw [if_pos hcalls]
  exact hagain.before fun w' hw' => .pure hw'.disk _

open Watch.Watcher in
/-- An edit makes a session that waits for one work once, on the disk with the new source file. -/
theorem exists_yields_edit {path content : Text} {now : Int} {calls : Nat}
    (hwatcher : s.watcher = idle (w.disk.absolute path) now calls)
    (hwrite : w.disk.write path content = .ok e) (h : s.Equipped e) (hhome : e.home = w.disk.home) :
    ∃ runs, w.Yields (World.edit path s content)
      { s with watcher := idle (w.disk.absolute path) (now + Watch.defaultDelay) (calls + 1) }
      (w.runner.after w.calls (e.translated s.config.settings).2 runs)
      (message w.seconds (e.translated s.config.settings).1) runs := by
  have habsolute : e.absolute path = w.disk.absolute path := by
    rw [Disk.absolute, Disk.absolute, hhome]
  obtain ⟨w₁, hrun₁, hw₁⟩ := World.yields_write hwrite
  have hevent := step_idle (w.disk.clean_absolute path) now calls
  rw [← hwatcher] at hevent
  have hfeed := h.feed (e := e) (by rw [hevent, hwatcher]; rfl)
  rw [hevent] at hfeed
  obtain ⟨w₂, hrun₂, hw₂⟩ := hfeed w₁ hw₁.disk
  let alert : Session (StateM World) :=
    { s with watcher := alerted (w.disk.absolute path) now calls }
  have halert : alert.Equipped w₂.disk := hw₂.disk.symm ▸ ⟨h.host, h.sources⟩
  have hsleep := step_alerted (w.disk.absolute path) now calls
  obtain ⟨runs, hact⟩ := halert.exists_yields_feed (.sleep Watch.defaultDelay) (by
    rw [hsleep]
    exact Nat.lt_succ_self calls)
  rw [hsleep, hw₂.disk, hw₂.seconds, hw₁.seconds, hw₂.runner, hw₁.runner, hw₂.calls, hw₁.calls,
    List.append_nil, List.append_nil] at hact
  have hget : (get : StateM World World).run w₁ = (w₁, w₁) := rfl
  refine ⟨runs, .next hrun₁ hw₁ (.next hget (.refl w₁) ?_)⟩
  rw [hw₁.disk, habsolute]
  exact .next hrun₂ hw₂ hact

/-- A source file whose directory is there can be watched. -/
theorem watch (h : s.Equipped d) {place : Place}
    (hdir : e.find (Path.dir (e.absolute s.config.settings.input)) = .ok (place, .directory)) :
    Looks e s.watch (pure (.ok { s with
      watcher := Watch.Watcher.idle (e.absolute s.config.settings.input) 0 0 })) := by
  rintro w rfl
  obtain ⟨v, hv⟩ := h.host
  have hstat : w.disk.stat (Path.dir (w.disk.absolute s.config.settings.input)) =
      .ok ⟨true, 0⟩ := bind_eq_ok_iff.2 ⟨_, hdir, rfl⟩
  have habsolute : w.Yields (s.host.absolute s.config.settings.input)
      (w.disk.absolute s.config.settings.input) w.disk .empty [] := by
    rw [hv]
    exact .pure rfl _
  refine habsolute.behind fun w₁ hw₁ => ?_
  have hstart : w₁.Yields
      (Watch.Watcher.start s.host.storage (w.disk.absolute s.config.settings.input))
      (.ok (.idle (w.disk.absolute s.config.settings.input) 0 0)) w.disk .empty [] := by
    rw [hv]
    refine (Looks.stat w.disk _ w₁ hw₁.disk).behind fun w₂ hw₂ => ?_
    simp only [Disk.readOnly, hstat]
    exact .pure hw₂.disk _
  refine hstart.behind fun w₂ hw₂ => ?_
  exact (h.log _ _ w₂ hw₂.disk).behind fun w₃ hw₃ => .pure hw₃.disk _

/-- The end of a watch changes nothing, and whatever ends it, nothing has failed. -/
theorem finish (h : s.Equipped d) (exit : Watch.Exit) :
    Looks e (s.finish exit) (pure (.ok ())) := by
  have hcalls : (s.watcher.step (.exit exit)).1.calls = s.watcher.calls := by
    rw [Watch.Watcher.step]
    split <;> rfl
  intro w hw
  refine (h.feed hcalls w hw).behind fun w₁ hw₁ => ?_
  refine (log ⟨h.host, h.sources⟩ e _ w₁ hw₁.disk).behind fun w₂ hw₂ => ?_
  rw [Watch.Exit.result_eq]
  exact .pure hw₂.disk _

end Equipped

end Session

/-! ### A whole watch -/

/-- What is told of contents that are translated one after another. -/
def Disk.messages (d : Disk) (settings : CommandLine.Settings) (seconds : Text)
    (contents : List Text) : Text :=
  .concat (contents.map fun content =>
    Session.message seconds (d.compiledContent settings content))

namespace World

open CommandLine Watch.Watcher

variable {args : List Text} {env : Environment} {config : CommandLine.Config}

/-- A run of edits, each of which makes the session work once. -/
theorem exists_yields_edits {d : Disk} {source unit : Place} {others : List Place}
    (hfiles : d.Apart config.settings source unit others) {edits : List Text}
    (hkept : ∀ content ∈ edits,
      d.HeadersKept config.settings.headerDir (source :: unit :: others) content)
    {s : Session (StateM World)} (hconfig : s.config = config) (hs : s.Equipped d) {now : Int}
    {calls : Nat} (hwatcher : s.watcher = idle (d.absolute config.settings.input) now calls)
    {w : World} (hrunner : ∀ e before call, Disk.Rewritten e others (w.runner e before call).2)
    {contents : List Text} (hholds : d.Holds config.settings source unit others contents w.disk) :
    ∃ s' e runs, w.Yields (edits.foldlM (edit config.settings.input) s) s' e
        (d.messages config.settings w.seconds edits) runs ∧
      s'.Equipped d ∧ s'.watcher.calls = calls + edits.length ∧
      d.Holds config.settings source unit others (contents ++ edits) e := by
  induction edits generalizing s now calls w contents with
  | nil =>
    refine ⟨s, w.disk, [], .pure rfl s, hs, by rw [hwatcher]; rfl, ?_⟩
    rwa [List.append_nil]
  | cons content edits ih =>
    have hsame := hfiles.sameDirectories hholds.rewritten
    have hedited := hholds.edited hfiles content
    have hwrite : w.disk.write config.settings.input content =
        .ok (w.disk.put source (.file content)) :=
      Disk.write_eq_ok_iff.2 ⟨source, hsame.target hfiles.target_input, rfl⟩
    have habsolute := hsame.absolute config.settings.input
    rw [← habsolute] at hwatcher
    subst hconfig
    have hs' := hs.of_sameDirectories (hfiles.sameDirectories hedited.rewritten)
    obtain ⟨runs, w₁, hrun₁, hw₁⟩ :=
      hs'.exists_yields_edit hwatcher hwrite (Disk.home_put _ _ _)
    obtain ⟨htold, hnext⟩ := hedited.translated hfiles (hkept content List.mem_cons_self)
      (Disk.read_write hwrite)
    have hnext := hnext.commands hfiles hrunner w.calls runs
    rw [← hw₁.disk] at hnext
    rw [← hw₁.runner] at hrunner
    rw [Session.message_congr _ htold] at hw₁
    let s₁ : Session (StateM World) := { s with
      watcher := idle (w.disk.absolute s.config.settings.input) (now + Watch.defaultDelay)
        (calls + 1) }
    obtain ⟨s', e, runs', hrest, hequipped, hcalls, hlast⟩ :=
      ih (fun c hc => hkept c (List.mem_cons_of_mem content hc)) (s := s₁) rfl
        ⟨hs.host, hs.sources⟩ (by rw [← habsolute]) hrunner hnext
    rw [hw₁.seconds] at hrest
    refine ⟨s', e, runs ++ runs', ?_, hequipped, ?_, ?_⟩
    · rw [List.foldlM_cons]
      exact .next hrun₁ hw₁ hrest
    · rw [hcalls, List.length_cons]
      omega
    · rwa [List.append_assoc] at hlast

/-- The program comes to watch the source file, having translated it once. -/
theorem exists_start_watching (hparse : parse args env = .ok (.run config))
    (hcommand : config.command ≠ .tokens) (hwatch : config.settings.watch = true) (w : World)
    {source unit : Place} {others : List Place}
    (hfiles : w.disk.Apart config.settings source unit others)
    (hrunner : ∀ e before call, Disk.Rewritten e others (w.runner e before call).2) {first : Text}
    (hfirst : w.disk.read config.settings.input = .ok first)
    (hshort : (Path.dir (w.disk.absolute config.settings.input)).size ≤ Disk.longestPath)
    (hkept : w.disk.HeadersKept config.settings.headerDir (source :: unit :: others) first) :
    ∃ (session : Session (StateM World)) (e : Disk) (runs : List Call),
      w.Yields (App.start (host w) args env) (.ok (some session)) e
        (Session.message w.seconds (w.disk.compiledContent config.settings first)) runs ∧
      session.config = config ∧ session.Equipped w.disk ∧
      session.watcher = idle (w.disk.absolute config.settings.input) 0 0 ∧
      w.disk.Holds config.settings source unit others [first] e := by
  obtain ⟨s, w₁, rfl, hs, hw₁, hstart⟩ := App.exists_run_start hparse hcommand w
  have hs₁ : s.Equipped w₁.disk := hw₁.disk.symm ▸ hs
  obtain ⟨runs, hagain⟩ := hs₁.exists_yields_again
  rw [hw₁.disk, hw₁.seconds, hw₁.runner, hw₁.calls, List.append_nil] at hagain
  obtain ⟨htold, hholds⟩ := (Disk.Holds.refl w.disk s.config.settings source unit others).translated
    hfiles hkept hfirst
  have hholds := hholds.commands hfiles hrunner w.calls runs
  rw [Session.message_congr _ htold] at hagain
  -- The directory of the source file was there, and files are all that has been written.
  have hsame := hfiles.sameDirectories hholds.rewritten
  have habsolute := hsame.absolute s.config.settings.input
  obtain ⟨place, hdir⟩ := Disk.exists_find_dir hfirst hshort
  have hdir := hsame.find.2 hdir
  rw [← habsolute] at hdir
  have hwork : w₁.Yields (App.work s) (.ok (some { s with
      watcher := idle (w.disk.absolute s.config.settings.input) 0 0 }))
      (w.runner.after w.calls (w.disk.translated s.config.settings).2 runs)
      (Session.message w.seconds (w.disk.compiledContent s.config.settings first)) runs := by
    simp only [App.work, hwatch, if_true]
    refine hagain.before fun w₂ hw₂ => ?_
    rw [← habsolute]
    exact (hs.watch hdir w₂ hw₂.disk).behind fun w₃ hw₃ => .pure hw₃.disk _
  obtain ⟨w₂, hrun, hw₂⟩ := hwork
  exact ⟨_, _, runs, ⟨w₂, hstart.trans hrun, hw₁.trans hw₂⟩, rfl, ⟨hs.host, hs.sources⟩, rfl,
    hholds⟩

/-- **While the source file is watched, the output file is the last good translation.** Let the two
be different files that can be written, and let commands write other files than the output file; no
imported header may depend on any of these. A source file that can be read comes to be watched, if
the path of its directory is not too long. After any number of edits, each of which makes the
program work once, the output file holds what the most recent content that compiles compiles to, or
is as it was if none does; one message has been told of each content, in order. Cancelled there, the
watch ends well, and with it the run, whatever has failed on the way. -/
theorem runApp_watching (hparse : parse args env = .ok (.run config))
    (hcommand : config.command ≠ .tokens) (hwatch : config.settings.watch = true) (w : World)
    {source unit : Place} {others : List Place}
    (hfiles : w.disk.Apart config.settings source unit others)
    (hrunner : ∀ e before call, Disk.Rewritten e others (w.runner e before call).2) {first : Text}
    (hfirst : w.disk.read config.settings.input = .ok first)
    (hshort : (Path.dir (w.disk.absolute config.settings.input)).size ≤ Disk.longestPath)
    (edits : List Text) (hkept : ∀ content ∈ first :: edits,
      w.disk.HeadersKept config.settings.headerDir (source :: unit :: others) content) :
    ∃ session w₀, (App.start (host w) args env).run w = (.ok (some session), w₀) ∧
      ∀ k, ∃ session' w',
        ((edits.take k).foldlM (edit config.settings.input) session).run w₀ = (session', w') ∧
        session'.watcher.calls = (edits.take k).length ∧
        w'.disk.read config.settings.output =
          (match w.disk.lastUnit config.settings (first :: edits.take k) with
            | some text => .ok text
            | none => w.disk.read config.settings.output) ∧
        w'.stdout = w.stdout ++ w.disk.messages config.settings w.seconds (first :: edits.take k) ∧
        ∃ w'', (runApp args env config.settings.input (edits.take k)).run w = (.ok (), w'') ∧
          w''.disk = w'.disk ∧ w''.stdout = w'.stdout := by
  obtain ⟨session, e, runs, ⟨w₀, hrun, hw₀⟩, hconfig, hs, hwatcher, hholds⟩ :=
    exists_start_watching hparse hcommand hwatch w hfiles hrunner hfirst hshort
      (hkept first List.mem_cons_self)
  refine ⟨session, w₀, hrun, fun k => ?_⟩
  have hkept' : ∀ content ∈ edits.take k,
      w.disk.HeadersKept config.settings.headerDir (source :: unit :: others) content :=
    fun content hc => hkept content (List.mem_cons_of_mem first (List.mem_of_mem_take hc))
  rw [← hw₀.disk] at hholds
  rw [← hw₀.runner] at hrunner
  obtain ⟨session', e', runs', ⟨w', hrun', hw'⟩, hs', hcalls, hlast⟩ :=
    exists_yields_edits hfiles hkept' hconfig hs hwatcher hrunner hholds
  obtain ⟨w'', hrun'', hw''⟩ := hs'.finish (e := e') .cancelled w' hw'.disk
  refine ⟨session', w', hrun', by rw [hcalls, Nat.zero_add], ?_, ?_, w'', ?_, ?_, ?_⟩
  · rw [hw'.disk]
    exact hlast.output
  · rw [hw'.stdout, hw₀.stdout, hw₀.seconds, Text.append_assoc]
    rfl
  · rw [run_runApp, run_bind_of_eq hrun, conclude, run_bind_of_eq hrun']
    exact hrun''
  · rw [hw''.disk, hw'.disk]
  · rw [hw''.stdout, Text.append_empty]

/-- Commands that succeed and leave an executable. -/
def building : Runner := fun d _ _ =>
  ({ output := "g++ (GCC) 13.2.0" }, d.put ["main.exe"] (.file "executable"))

/-- A source file that breaks off while it is watched leaves the unit of what it was before, with an
executable written beside it again and again. -/
theorem runApp_watching_broken :
    ∃ session w₀, (App.start (host { disk := staleDisk "", runner := building }) ["--watch"] []).run
        { disk := staleDisk "", runner := building } = (.ok (some session), w₀) ∧
      ∃ session' w',
        (([("global" : Text)]).foldlM (edit "main.int") session).run w₀ = (session', w') ∧
        w'.disk.read "main_intermediate.cpp" = .ok (Cpp.sections .empty []) ∧
        w'.stdout = "The program was translated successfully in 0 seconds!\n" ++
          ("The program failed to translate due to an error\n" : Text) ∧
        ∃ w'', (runApp ["--watch"] [] "main.int" ["global"]).run
          { disk := staleDisk "", runner := building } = (.ok (), w'') := by
  let settings : Settings := { Settings.ofGiven [] with watch := true }
  have hparse : parse ["--watch"] [] = .ok (.run ⟨.build, settings⟩) := rfl
  have hfiles : (staleDisk "").Apart settings ["main.int"] ["main_intermediate.cpp"]
      [["main.exe"]] := ⟨rfl, rfl, by decide, by decide, by decide⟩
  have hrunner (e : Disk) (before : List Call) (call : Call) :
      Disk.Rewritten e [["main.exe"]] (building e before call).2 :=
    Disk.Rewritten.same.put "executable" (List.mem_singleton_self _)
  have hshort : (Path.dir ((staleDisk "").absolute settings.input)).size ≤ Disk.longestPath := by
    decide +kernel
  have hlast : (staleDisk "").lastUnit settings ["", "global"] =
      some (Cpp.sections .empty []) := by decide +kernel
  have htold : (staleDisk "").messages settings "0" ["", "global"] =
      "The program was translated successfully in 0 seconds!\n" ++
        ("The program failed to translate due to an error\n" : Text) := by decide +kernel
  obtain ⟨session, w₀, hstart, hwatch⟩ := runApp_watching hparse (by decide) rfl
    { disk := staleDisk "", runner := building } hfiles hrunner rfl hshort ["global"]
    fun content _ => hfiles.headersKept rfl content
  obtain ⟨session', w', hrun, -, hread, hstdout, w'', hrun'', -⟩ := hwatch 1
  refine ⟨session, w₀, hstart, session', w', hrun, ?_, ?_, w'', hrun''⟩
  · simp only [List.take_succ_cons, List.take_zero, hlast] at hread
    exact hread
  · simp only [List.take_succ_cons, List.take_zero, htold] at hstdout
    exact hstdout

end World

end IntLang
