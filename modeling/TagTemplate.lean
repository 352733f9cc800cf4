import TagTemplate.File.Directory
import TagTemplate.Main
import TagTemplate.Proofs.Json.Entry
import TagTemplate.Proofs.Json.Integer
import TagTemplate.Proofs.Json.Object
import TagTemplate.Proofs.ModelFile.Document
import TagTemplate.Proofs.ModelFile.Integer
import TagTemplate.Proofs.Piece.Grammar
import TagTemplate.Proofs.Template.Doubles
import TagTemplate.Proofs.Template.Normal
import TagTemplate.Proofs.Template.Walk
import TagTemplate.Proofs.Template.Tags
import TagTemplate.Proofs.Engine
import TagTemplate.Proofs.Template.Append
import TagTemplate.Proofs.Template.Appearance
import TagTemplate.Proofs.Template.Fixed
import TagTemplate.Proofs.Command.Directory
import TagTemplate.Proofs.Command.Engine
import TagTemplate.Proofs.Command.Arguments
import TagTemplate.Proofs.Command.Check
import TagTemplate.Proofs.Command.Accepted
import TagTemplate.Proofs.Template.Cursor
import TagTemplate.Proofs.Template.Cuts
import TagTemplate.Proofs.Command.Render
import TagTemplate.Proofs.Template.Values
import TagTemplate.Proofs.Last
import TagTemplate.Proofs.Text.Order
import TagTemplate.Proofs.ModelFile.Assignment
import TagTemplate.Proofs.Template.Marker
import TagTemplate.Proofs.Template.Message
import TagTemplate.Proofs.Engine.Step
import TagTemplate.Proofs.Engine.Run
import TagTemplate.Proofs.Gates
import TagTemplate.Proofs.ModelFile.Override
import TagTemplate.Proofs.ModelFile.Run
import TagTemplate.Proofs.ModelFile.Validation
import TagTemplate.Proofs.Command.Layers
import TagTemplate.Proofs.Template.Position
import TagTemplate.Proofs.Command.Listing
import TagTemplate.Proofs.Text.Splice
import TagTemplate.Proofs.Template.Places
import TagTemplate.Proofs.Template.Runs
import TagTemplate.Proofs.Template.Replace
import TagTemplate.Proofs.Template.Spans
import TagTemplate.Proofs.Template.Padding
import TagTemplate.Proofs.Table.Reordering
import TagTemplate.Proofs.Container
