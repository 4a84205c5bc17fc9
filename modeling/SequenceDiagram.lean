import SequenceDiagram.Compile
import SequenceDiagram.Proofs.Diagram.Event
import SequenceDiagram.Proofs.Diagram.Taking
import SequenceDiagram.Proofs.Diagram.Nesting
import SequenceDiagram.Proofs.Diagram.Report
import SequenceDiagram.Proofs.Diagram.Recovery
import SequenceDiagram.Proofs.Diagram.Composition
import SequenceDiagram.Proofs.Statement.Written
import SequenceDiagram.Proofs.Statement.Precedence
import SequenceDiagram.Proofs.Diagram.Description
import SequenceDiagram.Proofs.Diagram.Session
import SequenceDiagram.Proofs.Diagram.Mentions
import SequenceDiagram.Proofs.Diagram.Content
import SequenceDiagram.Proofs.Quantity.Exact
import SequenceDiagram.Proofs.Layout.Tiling
import SequenceDiagram.Proofs.Drawing.Extent
import SequenceDiagram.Proofs.Drawing.Slots
import SequenceDiagram.Proofs.Markup.Piece
import SequenceDiagram.Proofs.Quantity.Digits
import SequenceDiagram.Proofs.Markup.Nested
import SequenceDiagram.Proofs.Diagram.Comment
import SequenceDiagram.Proofs.Diagram.Message
import SequenceDiagram.Proofs.Text.Unescape
import SequenceDiagram.Proofs.Drawing.Labels
import SequenceDiagram.Proofs.Markup.Texts
import SequenceDiagram.Proofs.Diagram.Numbering
import SequenceDiagram.Proofs.Diagram.Growth
import SequenceDiagram.Proofs.Drawing.Arrows
import SequenceDiagram.Proofs.Markup.Style
import SequenceDiagram.Proofs.Object.Basic
import SequenceDiagram.Proofs.Object.Session
import SequenceDiagram.Proofs.Statement.Split
import SequenceDiagram.Proofs.Diagram.Padding
import SequenceDiagram.Proofs.Statement.Label
import SequenceDiagram.Proofs.Drawing.Separators
import SequenceDiagram.Proofs.Diagram.Closing
import SequenceDiagram.Proofs.Diagram.Addition
import SequenceDiagram.Proofs.Drawing.Reordering
import SequenceDiagram.Proofs.Markup.Placeholder
import SequenceDiagram.Proofs.Diagram.Renaming
import SequenceDiagram.Proofs.Diagram.ArrowForms
