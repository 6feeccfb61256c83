import SyntaxPaint.Proofs.Grammar.Layout
import SyntaxPaint.Proofs.Grammar.Refusal
/-!
# Completions under a limit

The shortest words of the goals of a stack meet them one by one. They open no level but that of each
body, so they need room for the bodies that are still to be read and for nothing else.
-/
namespace SyntaxPaint

variable {limit : Nat}

end SyntaxPaint
