/-!
# Printing

What a command prints goes out at once. So a failure ends the command, but takes nothing back.
-/
namespace SyntaxPaint

/-- A computation that prints and may fail; what was printed before a failure stays printed. -/
abbrev Printing (ε : Type) := ExceptT ε (StateM (List Char))

namespace Printing

variable {ε α : Type}

/-- The result, and all that is printed then, where something was printed before. -/
def onto (p : Printing ε α) (before : List Char) : Except ε α × List Char := p.run.run before

def printLine (line : List Char) : Printing ε Unit := modify (· ++ (line ++ ['\n']))

def printLines (lines : List (List Char)) : Printing ε Unit := lines.forM printLine

end Printing
end SyntaxPaint
