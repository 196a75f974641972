import Scriptlet.Main
import Scriptlet.Proofs.CommandLine.Conversation
import Scriptlet.Proofs.Lexical.Equivalence
import Scriptlet.Proofs.Scanning.Partition
import Scriptlet.Proofs.Sessions.Acceptance
import Scriptlet.Proofs.Sessions.Annotation
import Scriptlet.Proofs.Sessions.Balance
import Scriptlet.Proofs.Sessions.Collection
import Scriptlet.Proofs.Sessions.Cursor
import Scriptlet.Proofs.Sessions.Declarations
import Scriptlet.Proofs.Sessions.Interning
import Scriptlet.Proofs.Sessions.Locations
import Scriptlet.Proofs.Sessions.Refusal
import Scriptlet.Proofs.Sessions.Scopes
import Scriptlet.Proofs.Sessions.Sharing
import Scriptlet.Proofs.Syntax.Laziness
import Scriptlet.Proofs.Syntax.Sequences
import Scriptlet.Proofs.Scanning.TextLiterals
import Scriptlet.Proofs.Printing.Texts
import Scriptlet.Proofs.Printing.Layout
import Scriptlet.Proofs.Printing.Reading
import Scriptlet.Proofs.Printing.Outlines
import Scriptlet.Proofs.Syntax.Origins
import Scriptlet.Proofs.Printing.Faithful
import Scriptlet.Proofs.Syntax.Yield
import Scriptlet.Proofs.Scanning.Spacing
import Scriptlet.Proofs.Printing.Breaks
import Scriptlet.Proofs.Sessions.Invisibility
import Scriptlet.Proofs.Scanning.Carets
import Scriptlet.Proofs.Syntax.Extents
