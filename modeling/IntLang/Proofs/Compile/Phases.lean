import IntLang.Compile
import IntLang.Proofs.Cpp.Imports

/-!
# The phases of compiling

Compiling is reading, segmenting and writing, and the first of the three that fails gives the
answer. Headers are looked for while the program is written, so a source that cannot be segmented
asks for none, and otherwise each import asks for its header once, in order, up to the first that is
not found.
-/

namespace IntLang

variable {ε : Type}

/-- A source that cannot be segmented is not compiled any further. -/
theorem compile_of_error {m : Type → Type} [Monad m] (log : Log.Record → m Unit)
    (headers : Resolver m ε) {source : Text} {misfit : Misfit}
    (h : segment (tokenize source) = .error misfit) :
    ∃ record, compile log headers source = (do
      log record
      return .error (.segment misfit (contextAt (tokenize source) misfit.index))) := by
  simp only [compile, h]
  exact ⟨_, rfl⟩

/-- Compiles a source, without logging, and keeps a record of the headers that were asked for. -/
def compileRecorded (r : Resolver Id ε) (source : Text) :
    Except (CompileError ε) Compilation × List Text :=
  (compile (fun _ => pure ()) r.recorded source).run []

/-- A source that cannot be segmented asks for no header. -/
theorem compileRecorded_of_error (r : Resolver Id ε) {source : Text} {misfit : Misfit}
    (h : segment (tokenize source) = .error misfit) :
    compileRecorded r source
      = (.error (.segment misfit (contextAt (tokenize source) misfit.index)), []) := by
  obtain ⟨record, hrun⟩ := compile_of_error (fun _ => pure ()) r.recorded h
  rw [compileRecorded, hrun]
  rfl

/-- A program is written, and the headers asked for are those of its globals. -/
theorem compileRecorded_of_ok (r : Resolver Id ε) {source : Text} {p : Program}
    (h : segment (tokenize source) = .ok p) :
    compileRecorded r source
      = ((((r.recorded.spliced (items p.globals)).run []).1.mapError CompileError.generate).map
          fun globals => ⟨tokenize source, p, Cpp.sections globals p.functions⟩,
        ((r.recorded.spliced (items p.globals)).run []).2) := by
  simp only [compileRecorded, compile, h, cppUnit, pure_bind, bind_assoc, StateT.run_bind]
  rcases (r.recorded.spliced (items p.globals)).run [] with ⟨_ | globals, record⟩
  · rfl
  · rfl

/-- **Compiling is its three phases, and headers are asked for once each, in order.** A source that
cannot be segmented fails in the second phase and asks for none. Otherwise the names behind the word
`import` in the globals are asked for up to the first that is not found, with which the third phase
fails; or all of them are, and the unit is put together from the globals, place by place, and from
the functions in the order of the program. -/
theorem compile_phases (r : Resolver Id ε) (source : Text) :
    (∀ misfit, segment (tokenize source) = .error misfit →
      ∃ e, compileRecorded r source = (.error e, []) ∧ e.phase = "parser" ∧
        e.index? = some misfit.index) ∧
    ∀ p, segment (tokenize source) = .ok p →
      (∀ before name behind cause, importedNames p.globals = before ++ name :: behind →
        (∀ n ∈ before, ∃ text, r.answer n = .ok text) → r.answer name = .error cause →
        ∃ e, compileRecorded r source = (.error e, r.calls (before ++ [name])) ∧
          e = .generate ⟨name, cause⟩ ∧ e.phase = "codegen" ∧ e.indexNumber = -1) ∧
      ∀ text, (∀ n ∈ importedNames p.globals, r.answer n = .ok (text n)) →
        compileRecorded r source
          = (.ok
              { tokens := tokenize source
                program := p
                output := Cpp.preamble ++ Cpp.globalsBanner
                  ++ .concat (((List.range p.globals.length).filterMap (itemAt? p.globals)).map
                    (Item.text text))
                  ++ Cpp.declarationsBanner
                  ++ .concat ((p.order.filterMap p.get?).map fun f => Cpp.declaration f ++ ";\n")
                  ++ Cpp.definitionsBanner
                  ++ .concat ((p.order.filterMap p.get?).map Cpp.definition) },
            r.calls (importedNames p.globals)) := by
  refine ⟨fun misfit h => ?_, fun p h => ⟨fun before name behind cause hnames hbefore hname => ?_,
    fun text htext => ?_⟩⟩
  · exact ⟨_, compileRecorded_of_error r h, rfl, rfl⟩
  · rw [← headers_items] at hnames
    rw [compileRecorded_of_ok r h, Resolver.spliced_recorded_error hnames hbefore hname]
    exact ⟨_, rfl, rfl, rfl, rfl⟩
  · rw [← headers_items] at htext ⊢
    rw [compileRecorded_of_ok r h, Resolver.spliced_recorded_ok htext, ← items_eq_filterMap,
      ← p.functions_eq_filterMap]
    rfl

/-- A source that imports with and without a semicolon, and has an `import` with no name behind. -/
def importing : Text := "global \x7b import a; import import b \x7d"

/-- Headers for all names but one. -/
def withoutB : Resolver Id Unit := .ask fun name => if name = "b" then .error () else .ok "A"

/-- The second name that stands behind the word `import` is the first that is not found. -/
theorem compile_phases_importing :
    segment (tokenize importing) = .ok
      { globals := [.keyword .importHeader, .ident "a", .operator .semicolon,
          .keyword .importHeader, .keyword .importHeader, .ident "b"] } ∧
    (compileRecorded withoutB importing).1 = .error (.generate ⟨"b", .refused ()⟩) ∧
    (compileRecorded withoutB importing).2 = ["a", "b"] := by
  have h : segment (tokenize importing) = .ok
      { globals := [.keyword .importHeader, .ident "a", .operator .semicolon,
          .keyword .importHeader, .keyword .importHeader, .ident "b"] } := by
    decide +kernel
  obtain ⟨hfailed, -⟩ := (compile_phases withoutB importing).2 _ h
  obtain ⟨e, hrun, rfl, -⟩ := hfailed ["a"] "b" [] (.refused ()) (by decide +kernel)
    (fun n hn => ⟨"A", by rw [List.mem_singleton.1 hn]; rfl⟩) rfl
  rw [hrun]
  exact ⟨h, rfl, rfl⟩

end IntLang
