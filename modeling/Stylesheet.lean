import Stylesheet.Block.Lookup
import Stylesheet.Conversion
import Stylesheet.Untyped.Property
import Stylesheet.Untyped.Sheet
import Stylesheet.Proofs.Block.Entry
import Stylesheet.Proofs.Block.Write
import Stylesheet.Proofs.Block.History
import Stylesheet.Proofs.Property.Value
import Stylesheet.Proofs.Sheet.Write
import Stylesheet.Proofs.Sheet.Contents
import Stylesheet.Proofs.Sheet.Conflict
import Stylesheet.Proofs.Selector.ClosedForm
import Stylesheet.Proofs.Text.Lowercase
import Stylesheet.Proofs.Selector.Fragment
import Stylesheet.Proofs.Property.Name
import Stylesheet.Proofs.Selector.Merge
import Stylesheet.Proofs.Selector.Recompose
import Stylesheet.Proofs.Block.Leaves
import Stylesheet.Proofs.Block.Sorted
import Stylesheet.Proofs.Conversion.Idempotent
import Stylesheet.Proofs.Conversion.Canonical
import Stylesheet.Proofs.Block.Merge
import Stylesheet.Proofs.Conversion.SideBySide
import Stylesheet.Proofs.Block.SameContents
import Stylesheet.Proofs.Sheet.Reordering
import Stylesheet.Proofs.Declaration.Occurrence
import Stylesheet.Proofs.Declaration.Enumeration
import Stylesheet.Proofs.Selector.EmptyFragment
import Stylesheet.Proofs.Declaration.Refusal
import Stylesheet.Proofs.Conversion.Outcome
import Stylesheet.Proofs.Print.Simulation
import Stylesheet.Proofs.Options.Layering
import Stylesheet.Proofs.Print.Appending
import Stylesheet.Proofs.Print.TextLine
import Stylesheet.Proofs.Print.Steps
import Stylesheet.Proofs.Print.Encoding
import Stylesheet.Proofs.Conversion.EntryPoints
import Stylesheet.Proofs.Print.Read
import Stylesheet.Proofs.Print.Tree
import Stylesheet.Proofs.Conversion.Formatting
import Stylesheet.Proofs.Selector.Attachment
import Stylesheet.Proofs.Declaration.Replacement
import Stylesheet.Proofs.Declaration.Faults
import Stylesheet.Proofs.Conversion.SpelledOut
import Stylesheet.Proofs.Declaration.Resolved
import Stylesheet.Proofs.Sheet.CanonicalOrder
import Stylesheet.Proofs.Value.Entries
import Stylesheet.Proofs.Value.SetOrder
import Stylesheet.Proofs.Selector.Joining
import Stylesheet.Proofs.Property.Spelling
import Stylesheet.Proofs.Sheet.Respelling
import Stylesheet.Proofs.Conversion.Log
import Stylesheet.Proofs.Deferred.Calls
import Stylesheet.Proofs.Sheet.Texts
