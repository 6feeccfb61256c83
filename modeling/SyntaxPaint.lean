import SyntaxPaint.Main
import SyntaxPaint.Settings.Writer
import SyntaxPaint.Token.Cursor
import SyntaxPaint.Proofs.Grammar.Depth
import SyntaxPaint.Proofs.Grammar.Ebnf
import SyntaxPaint.Proofs.Grammar.Question
import SyntaxPaint.Proofs.Grammar.Nesting
import SyntaxPaint.Proofs.Grammar.Forms
import SyntaxPaint.Proofs.Grammar.Exactness
import SyntaxPaint.Proofs.Grammar.Refusal
import SyntaxPaint.Proofs.Grammar.Resuming
import SyntaxPaint.Proofs.Grammar.Table
import SyntaxPaint.Proofs.Grammar.Enclosing
import SyntaxPaint.Proofs.Grammar.Joining
import SyntaxPaint.Proofs.Grammar.Stacking
import SyntaxPaint.Proofs.Grammar.Progress
import SyntaxPaint.Proofs.Text.Bytes
import SyntaxPaint.Proofs.Token.Lexemes
import SyntaxPaint.Proofs.Token.Scan
import SyntaxPaint.Proofs.Token.Tiling
import SyntaxPaint.Proofs.Text.Classes
import SyntaxPaint.Proofs.Token.Scanners
import SyntaxPaint.Proofs.Token.Image
import SyntaxPaint.Proofs.Token.Lookahead
import SyntaxPaint.Proofs.Token.Restart
import SyntaxPaint.Proofs.Token.Spacing
import SyntaxPaint.Proofs.Token.Widening
import SyntaxPaint.Proofs.Grammar.Layout
import SyntaxPaint.Proofs.Grammar.Completion
import SyntaxPaint.Proofs.Grammar.Advice
import SyntaxPaint.Proofs.Text.Coordinates
import SyntaxPaint.Proofs.Token.Calls
import SyntaxPaint.Proofs.Text.Lines
import SyntaxPaint.Proofs.Text.Splitting
import SyntaxPaint.Proofs.Token.Standing
import SyntaxPaint.Proofs.Token.Quotes
import SyntaxPaint.Proofs.Paint.Search
import SyntaxPaint.Proofs.Paint.Complete
import SyntaxPaint.Proofs.Paint.Scan
import SyntaxPaint.Proofs.Paint.Screen
import SyntaxPaint.Proofs.Paint.Faithful
import SyntaxPaint.Proofs.Theme.Registry
import SyntaxPaint.Proofs.Session.Runs
import SyntaxPaint.Proofs.Command.Exit
import SyntaxPaint.Proofs.Command.Listing
import SyntaxPaint.Proofs.Command.Table
import SyntaxPaint.Proofs.Log.Targets
import SyntaxPaint.Proofs.Settings.RoundTrip
import SyntaxPaint.Proofs.Settings.Presentation
import SyntaxPaint.Proofs.Text.Unescaping
import SyntaxPaint.Proofs.Text.Trimming
import SyntaxPaint.Proofs.Text.ByteOrder
import SyntaxPaint.Proofs.Text.Dictionary
import SyntaxPaint.Proofs.Color.Hex
import SyntaxPaint.Proofs.Color.Spelling
import SyntaxPaint.Proofs.Color.Slicing
import SyntaxPaint.Proofs.Color.Canonical
import SyntaxPaint.Proofs.Theme.FirstFault
import SyntaxPaint.Proofs.Theme.Conversion
import SyntaxPaint.Proofs.Theme.Printing
import SyntaxPaint.Proofs.Session.Themes
import SyntaxPaint.Proofs.Document
import SyntaxPaint.Proofs.Command.Printing
