import AcsOutline.Main
import AcsOutline.Tree.Arena
import AcsOutline.Proofs.Scanner.Spelling
import AcsOutline.Proofs.Scanner.Tiling
import AcsOutline.Proofs.Scanner.Scopes
import AcsOutline.Proofs.Scanner.Reached
import AcsOutline.Proofs.Scanner.Reread
import AcsOutline.Proofs.Value.Run
import AcsOutline.Proofs.Value.Matching
import AcsOutline.Proofs.Value.Brackets
import AcsOutline.Proofs.Value.Line
import AcsOutline.Proofs.Value.RoundTrip
import AcsOutline.Scanner.Command
import AcsOutline.Proofs.Lowering.Exports
import AcsOutline.Proofs.Lowering.Plain
import AcsOutline.Proofs.Scanner.Lines
import AcsOutline.Proofs.Scanner.Mirror
import AcsOutline.Proofs.Scanner.Numbering
import AcsOutline.Proofs.Scanner.Tokens
import AcsOutline.Proofs.Scanner.Depths
import AcsOutline.Proofs.Grammar.Blocks
import AcsOutline.Proofs.Grammar.Agreement
import AcsOutline.Proofs.Grammar.Basic
import AcsOutline.Proofs.Grammar.Declarations
import AcsOutline.Proofs.Grammar.Heads
import AcsOutline.Proofs.Grammar.Forms
import AcsOutline.Proofs.Tree.Moved
import AcsOutline.Proofs.Tree.Update
import AcsOutline.Proofs.Tree.Edits
import AcsOutline.Proofs.Tree.Arena
import AcsOutline.Proofs.Grammar.Recognition
import AcsOutline.Proofs.Session.Moved
import AcsOutline.Proofs.Session.Rounds
import AcsOutline.Proofs.Session.Lockstep
import AcsOutline.Proofs.Session.Parts
import AcsOutline.Proofs.Session.Passages
import AcsOutline.Proofs.Session.Guard
import AcsOutline.Proofs.Session.Ledger
import AcsOutline.Proofs.Grammar.Choice
import AcsOutline.Proofs.Printing.Printer
import AcsOutline.Proofs.Printing.NormalForm
import AcsOutline.Proofs.Printing.Words
import AcsOutline.Proofs.Printing.Places
import AcsOutline.Proofs.Printing.Readings
import AcsOutline.Proofs.Printing.Braces
import AcsOutline.Proofs.Printing.Parts
import AcsOutline.Proofs.Printing.Variables
import AcsOutline.Proofs.Printing.Aggregates
import AcsOutline.Proofs.Printing.Callables
import AcsOutline.Proofs.Printing.Recognition
import AcsOutline.Proofs.Printing.Rounds
import AcsOutline.Proofs.Printing.RoundTrip
import AcsOutline.Proofs.Scanner.Comments
import AcsOutline.Proofs.Session.Documentation
import AcsOutline.Proofs.Session.Harvest
import AcsOutline.Proofs.Grammar.Outcomes
import AcsOutline.Proofs.Scanner.OpenStrings
import AcsOutline.Proofs.Grammar.OpenStrings
import AcsOutline.Proofs.Session.OpenStrings
import AcsOutline.Proofs.Session.Stopping
import AcsOutline.Proofs.Grammar.DottedHeads
import AcsOutline.Proofs.Session.Completed
import AcsOutline.Proofs.Grammar.Likeness
import AcsOutline.Proofs.Grammar.LikeParts
import AcsOutline.Proofs.Grammar.LikeDeclarations
import AcsOutline.Proofs.Grammar.LikeForms
import AcsOutline.Proofs.Scanner.Sites
import AcsOutline.Proofs.Session.Labels
import AcsOutline.Proofs.Tree.Alike
import AcsOutline.Proofs.Scanner.Returns
import AcsOutline.Proofs.Session.Alike
import AcsOutline.Proofs.Session.Layout
import AcsOutline.Proofs.Grammar.Order
import AcsOutline.Proofs.Scanner.Gaps
import AcsOutline.Proofs.Value.Casts
import AcsOutline.Proofs.Grammar.Bodies
import AcsOutline.Proofs.Grammar.Initializers
import AcsOutline.Proofs.Grammar.ScriptWords
import AcsOutline.Proofs.Value.Residues
import AcsOutline.Proofs.Lowering.Again
import AcsOutline.Proofs.Text.Trim
import AcsOutline.Proofs.Doc.Returns
import AcsOutline.Proofs.Doc.Sections
import AcsOutline.Proofs.Doc.Breaks
import AcsOutline.Proofs.Scanner.Signs
import AcsOutline.Proofs.Session.Namespaces
import AcsOutline.Proofs.Value.Inline
import AcsOutline.Proofs.Lowering.Members
import AcsOutline.Proofs.Text.Split
import AcsOutline.Proofs.Path.Canonical
import AcsOutline.Proofs.Tree.Bindings
import AcsOutline.Proofs.CommandLine.Disk
import AcsOutline.Proofs.CommandLine.Run
import AcsOutline.Proofs.Scanner.Progress
import AcsOutline.Proofs.TaskNote
