import IntLang.Main
import IntLang.Text.Utf8.Lemmas
import IntLang.World
import IntLang.Proofs.Cpp.Definition
import IntLang.Proofs.Cpp.Renaming
import IntLang.Proofs.Token.Scanner
import IntLang.Proofs.Program.Nesting
import IntLang.Proofs.Token.Separators
import IntLang.Proofs.Compile.Phases
import IntLang.Proofs.Token.Contents
import IntLang.Proofs.Program.Skeleton
import IntLang.Proofs.Program.Replay
import IntLang.Proofs.Watch.Settling
import IntLang.Proofs.App.Translation
import IntLang.Proofs.App.Watching
import IntLang.Proofs.Cpp.Numerals
import IntLang.Proofs.Cpp.Digraphs
import IntLang.Proofs.Program.Misfits
import IntLang.Proofs.Compile.Context
import IntLang.Proofs.Compile.Listing
import IntLang.Proofs.Token.WellFormed
import IntLang.Proofs.Token.Numbers
import IntLang.Proofs.App.Deadline
import IntLang.Proofs.Encoding.Unicode
import IntLang.Proofs.Text.Folding
import IntLang.Proofs.Files.Folder
import IntLang.Proofs.Headers.Lookup
import IntLang.Proofs.Headers.Advertised
import IntLang.Proofs.Toolchain.Gate
import IntLang.Proofs.Toolchain.Exchanges
import IntLang.Proofs.CommandLine.Precedence
import IntLang.Proofs.Token.Fragments
import IntLang.Proofs.App.Tokens
