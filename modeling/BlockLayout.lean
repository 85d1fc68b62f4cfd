import BlockLayout.Cursor.Action
import BlockLayout.Cursor.Recogniser
import BlockLayout.Document.Notice
import BlockLayout.Main
import BlockLayout.Proofs.Token.Branches
import BlockLayout.Proofs.Token.Cuts
import BlockLayout.Proofs.Document.Reading
import BlockLayout.Proofs.Cursor.Lossless
import BlockLayout.Proofs.Document.LaidOut
import BlockLayout.Proofs.Document.View
import BlockLayout.Proofs.Blocks.Grid
import BlockLayout.Proofs.Token.Reserved
import BlockLayout.Proofs.Document.Keywords
import BlockLayout.Proofs.Document.Canonical
import BlockLayout.Proofs.Blocks.Nesting
import BlockLayout.Proofs.Document.NewBlocks
import BlockLayout.Proofs.Cursor.Words
import BlockLayout.Proofs.Token.Bodies
import BlockLayout.Proofs.Document.OpenStrings
import BlockLayout.Proofs.Document.SameContent
import BlockLayout.Proofs.Document.BlockLines
import BlockLayout.Proofs.Document.Electric
import BlockLayout.Proofs.Cursor.OpenModes
import BlockLayout.Proofs.Cursor.Opaque
import BlockLayout.Proofs.Cursor.Locality
import BlockLayout.Proofs.Token.Concatenation
import BlockLayout.Proofs.Settings.Layers
import BlockLayout.Proofs.Cursor.Literals
import BlockLayout.Proofs.Token.Literals
import BlockLayout.Proofs.Cursor.VisibleText
import BlockLayout.Proofs.Cursor.Comments
import BlockLayout.Proofs.Cursor.TokenTexts
import BlockLayout.Proofs.Cursor.Discipline
import BlockLayout.Proofs.Text.TabStops
import BlockLayout.Proofs.Token.WordLexer
