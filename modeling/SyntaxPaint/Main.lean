import SyntaxPaint.Command.Run
/-!
# The program
-/
namespace SyntaxPaint

def usage : String :=
  "Syntax checker and highlighter\n\n" ++
  "Usage: merx [OPTIONS] <COMMAND>\n\n" ++
  "Commands:\n" ++
  "  tokens [--json] <FILE>\n" ++
  "  check <FILE>\n" ++
  "  highlight [--theme <NAME>] [--line-numbers] <FILE>\n" ++
  "  themes\n\n" ++
  "Options:\n" ++
  "  --config <FILE>\n" ++
  "  --log-level <LEVEL>\n" ++
  "  --log-format <pretty|compact|json>\n" ++
  "  --log-file <FILE>\n"

def decodeText (bytes : ByteArray) : FileState :=
  match String.fromUTF8? bytes with
  | some s => .ok s.toList
  | none => .error .notText

/-- A file that cannot be opened is told apart from a name that leads nowhere. -/
def readFile (path : String) : IO FileState := do
  match ← (IO.FS.readBinFile path).toBaseIO with
  | .ok bytes => return decodeText bytes
  | .error (.noFileOrDirectory _ _ _) => return .error .missing
  | .error e =>
    match ← (IO.FS.realPath path).toBaseIO with
    | .ok _ => return .error (.unreadable (toString e))
    | .error _ => return .error (.lost (toString e))

def readSource? : Option Source → IO FileState
  | some .input => return decodeText (← (← IO.getStdin).readBinToEnd)
  | some (.file path) => readFile path
  | none => return .ok []

def opens (path : String) : IO Bool := do
  match ← (IO.FS.Handle.mk path .append).toBaseIO with
  | .ok _ => return true
  | .error _ => return false

def execute (o : ProgramOptions) (c : Command) : IO UInt32 := do
  let config ← readFile o.configFile
  let logOpens ← match o.logFile, loadSettings o config with
    | some path, .ok _ => opens path
    | _, _ => pure true
  let source ← readSource? c.source?
  let outcome := c.run o ⟨config, logOpens, source⟩
  (← IO.getStdout).putStr (String.ofList outcome.output)
  for line in outcome.errors do
    IO.eprintln line
  return UInt32.ofNat outcome.exit

end SyntaxPaint

open SyntaxPaint in
def main (args : List String) : IO UInt32 := do
  match Request.ofArguments args with
  | .run o c => execute o c
  | .version =>
    IO.println programVersion
    return 0
  | .help =>
    IO.print usage
    return 0
  | .refused =>
    IO.eprint usage
    return 2
