import IntLang.Proofs.App.Translation
import IntLang.Proofs.Token.Descriptions

/-!
# The listing of tokens

The `tokens` command prints the listing of its source file, one token a line, and does nothing else
(`World.yields_runApp_tokens`). The listing is lossless: the tokens can be told from what has been
printed, whatever bytes the source holds (`World.runApp_tokens_lossless`).
-/

namespace IntLang

/-- The tokens of a source text as they are printed, one a line. -/
def listing (source : Text) : Text := Text.lines ((tokenize source).map Token.describe)

/-- Texts with the same listing have the same tokens. -/
theorem tokenize_eq_of_listing_eq {s t : Text} (h : listing s = listing t) :
    tokenize s = tokenize t :=
  eq_of_lines_describe_eq (fun _ => (stream_lex s).isReadable) (fun _ => (stream_lex t).isReadable)
    h

namespace Session

variable {s : Session (StateM World)}

/-- A source file that can be read is listed, and the number of its tokens is logged. -/
theorem yields_listTokens {v : World} (hs : s.host = World.host v) {w : World} {content : Text}
    (hread : w.disk.read s.config.settings.input = .ok content) :
    w.Yields s.listTokens (.ok ()) w.disk (listing (Encoding.decode content).1) [] := by
  have htokens : w.Yields (tokenizeFile s.host.storage s.config.settings.input)
      (.ok (tokenize (Encoding.decode content).1) :
        Except (CompileError Headers.HeaderError) (List Token)) w.disk .empty [] := by
    have hload := Looks.load w.disk s.config.settings.input w rfl
    rw [Disk.load_of_read hread] at hload
    rw [tokenizeFile, hs]
    exact hload.behind fun w' hw' => .pure hw'.disk _
  refine htokens.behind fun w₁ hw₁ => ?_
  have hout : w₁.Yields (s.host.out (listing (Encoding.decode content).1)) () w.disk
      (listing (Encoding.decode content).1) [] := by
    rw [hs]
    exact World.yields_out v hw₁.disk _
  refine hout.before fun w₂ hw₂ => ?_
  exact (Looks.log w.disk hs _ w₂ hw₂.disk).behind fun w₃ hw₃ => .pure hw₃.disk _

end Session

namespace World

open CommandLine

variable {args : List Text} {env : Environment} {config : CommandLine.Config}

/-- The `tokens` command prints the listing of the decoded source file, and leaves everything as it
is. -/
theorem yields_runApp_tokens (hparse : parse args env = .ok (.run config))
    (hcommand : config.command = .tokens) {w : World} {content : Text}
    (hread : w.disk.read config.settings.input = .ok content) (path : Text) (edits : List Text) :
    w.Yields (runApp args env path edits) (.ok ()) w.disk (listing (Encoding.decode content).1)
      [] := by
  obtain ⟨logger, hbegin⟩ := App.exists_yields_begin hparse w
  have hstart : w.Yields (App.start (host w) args env) (.ok none) w.disk
      (listing (Encoding.decode content).1) [] := by
    simp only [App.start, hparse]
    refine hbegin.behind fun w₁ hw₁ => ?_
    simp only [hcommand, if_true]
    rw [← hw₁.disk] at hread ⊢
    exact (Session.yields_listTokens rfl hread).before fun w₂ hw₂ => .pure hw₂.disk _
  rw [Yields, run_runApp]
  exact hstart.before fun w' hw' => .pure hw'.disk _

/-- **The listing of tokens is lossless.** Two texts whose listings are equal, whatever their bytes
are, have the same tokens, reals included; and the listing of the source file is what the `tokens`
command prints. -/
theorem runApp_tokens_lossless :
    (∀ s t : Text, listing s = listing t → tokenize s = tokenize t) ∧
    ∀ (args : List Text) (env : Environment) (config : CommandLine.Config) (w : World)
      (content path : Text) (edits : List Text),
      parse args env = .ok (.run config) → config.command = .tokens →
      w.disk.read config.settings.input = .ok content →
      ∃ w', (runApp args env path edits).run w = (.ok (), w') ∧
        w'.stdout = w.stdout ++ listing (Encoding.decode content).1 ∧
        w'.disk = w.disk ∧ w'.calls = w.calls := by
  refine ⟨fun s t => tokenize_eq_of_listing_eq, ?_⟩
  intro args env config w content path edits hparse hcommand hread
  obtain ⟨w', hrun, hw'⟩ := yields_runApp_tokens hparse hcommand hread path edits
  exact ⟨w', hrun, hw'.stdout, hw'.disk, by rw [hw'.calls, List.append_nil]⟩

/-- A disk with nothing but a source file, which begins with a mark of its encoding. -/
def markedDisk (source : Text) : Disk :=
  { nodes := [(["main.int"], .file (⟨[0xEF, 0xBB, 0xBF]⟩ ++ source))] }

/-- A stray byte in a string is listed as such, and not like the character that it counts as. -/
theorem runApp_tokens_lossless_stray :
    parse ["tokens"] [] = .ok (.run ⟨.tokens, .ofGiven []⟩) ∧
    (∃ w', (runApp ["tokens"] [] "" []).run { disk := markedDisk ⟨[0x22, 0xFF, 0x22]⟩ } =
        (.ok (), w') ∧
      w'.stdout = "OP(\")\nLIT(string:\"\\xff\")\nOP(\")\n") ∧
    listing ⟨[0x22, 0xFF, 0x22]⟩ ≠ listing (.ofChars ['"', Glyph.replacement, '"']) := by
  have hparse : parse ["tokens"] [] = .ok (.run ⟨.tokens, .ofGiven []⟩) := rfl
  refine ⟨hparse, ?_, ?_⟩
  · obtain ⟨w', hrun, hstdout, -⟩ := runApp_tokens_lossless.2 _ _ _
      { disk := markedDisk ⟨[0x22, 0xFF, 0x22]⟩ } _ "" [] hparse rfl rfl
    refine ⟨w', hrun, hstdout.trans ?_⟩
    decide +kernel
  · intro h
    have htokens := runApp_tokens_lossless.1 _ _ h
    revert htokens
    decide +kernel

end World

end IntLang
