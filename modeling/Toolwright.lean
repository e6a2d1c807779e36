import Toolwright.Arguments
import Toolwright.Binary64.Arithmetic
import Toolwright.Binary64.Basic
import Toolwright.Binary64.Decimal
import Toolwright.Binary64.Hexadecimal
import Toolwright.Binary64.Power
import Toolwright.Binary64.Reader
import Toolwright.Binary64.Style
import Toolwright.Block.Evaluation
import Toolwright.Block.Syntax
import Toolwright.Catalog.DockerCopy
import Toolwright.Catalog.FileProcessor
import Toolwright.CommandLine
import Toolwright.Document.Layout
import Toolwright.Document.Result
import Toolwright.Fault
import Toolwright.FileTree.Basic
import Toolwright.FileTree.Change
import Toolwright.Format.Directive
import Toolwright.Format.Field
import Toolwright.Format.Spec
import Toolwright.Format.Template
import Toolwright.Host.Access
import Toolwright.Host.Adaptation
import Toolwright.Host.Assignment
import Toolwright.Host.Calling
import Toolwright.Host.CharacterTable
import Toolwright.Host.Declaring
import Toolwright.Host.Formatting
import Toolwright.Host.Machine
import Toolwright.Host.Making
import Toolwright.Host.Method
import Toolwright.Host.Number
import Toolwright.Host.Operation
import Toolwright.Host.Place
import Toolwright.Host.Run
import Toolwright.Host.Showing
import Toolwright.Host.Signature
import Toolwright.Host.Sorting
import Toolwright.Host.ViewOperation
import Toolwright.Host.World
import Toolwright.Journal.Basic
import Toolwright.Journal.Rotation
import Toolwright.Literal
import Toolwright.Main
import Toolwright.Naming
import Toolwright.Package
import Toolwright.Proofs.Adaptation.BothHosts
import Toolwright.Proofs.Adaptation.Classes
import Toolwright.Proofs.Adaptation.Contexts
import Toolwright.Proofs.Adaptation.Course
import Toolwright.Proofs.Adaptation.Delivery
import Toolwright.Proofs.Adaptation.Forgetting
import Toolwright.Proofs.Adaptation.FunctionClass
import Toolwright.Proofs.Adaptation.FunctionTool
import Toolwright.Proofs.Adaptation.Helpers
import Toolwright.Proofs.Adaptation.OtherBases
import Toolwright.Proofs.Adaptation.Parameters
import Toolwright.Proofs.Adaptation.Resolution
import Toolwright.Proofs.Adaptation.ServedTool
import Toolwright.Proofs.Adaptation.Steps
import Toolwright.Proofs.Binary64.Rounding
import Toolwright.Proofs.Binary64.Shortest
import Toolwright.Proofs.Declaration.Building
import Toolwright.Proofs.Declaration.Cells
import Toolwright.Proofs.Declaration.Data
import Toolwright.Proofs.Declaration.Declaring
import Toolwright.Proofs.Declaration.Defining
import Toolwright.Proofs.Declaration.Draft
import Toolwright.Proofs.Declaration.Given
import Toolwright.Proofs.Declaration.Later
import Toolwright.Proofs.Declaration.Objects
import Toolwright.Proofs.Declaration.Rows
import Toolwright.Proofs.Document.Numbers
import Toolwright.Proofs.Document.Reader
import Toolwright.Proofs.Document.Result
import Toolwright.Proofs.Document.RoundTrip
import Toolwright.Proofs.Lockstep.Attributes
import Toolwright.Proofs.Lockstep.Calling
import Toolwright.Proofs.Lockstep.Contexts
import Toolwright.Proofs.Lockstep.Evaluation
import Toolwright.Proofs.Lockstep.Shown
import Toolwright.Proofs.Lockstep.Link
import Toolwright.Proofs.Lockstep.Lookup
import Toolwright.Proofs.Lockstep.Memory
import Toolwright.Proofs.Lockstep.Published
import Toolwright.Proofs.Lockstep.Reference
import Toolwright.Proofs.Lockstep.Start
import Toolwright.Proofs.Lockstep.Told
import Toolwright.Proofs.Publication.Agreement
import Toolwright.Proofs.Publication.Exposed
import Toolwright.Proofs.Publication.Getters
import Toolwright.Proofs.Publication.Listings
import Toolwright.Proofs.Publication.Schema
import Toolwright.Proofs.Publication.Told
import Toolwright.Proofs.Publication.Definitions
import Toolwright.Proofs.Binding.Sessions
import Toolwright.Proofs.Publication.ServedSchema
import Toolwright.Proofs.Renaming.Document
import Toolwright.Proofs.Renaming.Extent
import Toolwright.Proofs.Renaming.Literal
import Toolwright.Proofs.Renaming.Value
import Toolwright.Proofs.Serving.Answer
import Toolwright.Proofs.Serving.Call
import Toolwright.Proofs.Serving.Hosts
import Toolwright.Proofs.Serving.Reading
import Toolwright.Session.Answer
import Toolwright.Session.Basic
import Toolwright.Session.Start
import Toolwright.Session.Steps
import Toolwright.Settings.Config
import Toolwright.Settings.Environment
import Toolwright.Table
import Toolwright.Text.Blank
import Toolwright.Text.ByteOrder
import Toolwright.Text.Bytes
import Toolwright.Text.Case
import Toolwright.Text.CaseTable
import Toolwright.Text.CodePage
import Toolwright.Text.Cutting
import Toolwright.Text.Digit
import Toolwright.Text.Encoding
import Toolwright.Text.Escape
import Toolwright.Text.Letter
import Toolwright.Text.LetterTable
import Toolwright.Text.Numeral
import Toolwright.Text.Printable
import Toolwright.Text.Quoted
import Toolwright.Text.Ranges
import Toolwright.Text.Runs
import Toolwright.Text.Transform
import Toolwright.Text.Utf8
import Toolwright.Tool.Definition
import Toolwright.Tool.Publication
import Toolwright.Tool.Routine
import Toolwright.Value.Alphabet
import Toolwright.Value.Basic
import Toolwright.Value.BytesOperation
import Toolwright.Value.Coding
import Toolwright.Value.Conversion
import Toolwright.Value.Description
import Toolwright.Value.Effect
import Toolwright.Value.Equality
import Toolwright.Value.Features
import Toolwright.Value.Hash
import Toolwright.Value.Kind
import Toolwright.Value.Number
import Toolwright.Value.Operation
import Toolwright.Value.Order
import Toolwright.Value.Parameters
import Toolwright.Value.Printed
import Toolwright.Value.Sum
import Toolwright.Value.TextOperation
import Toolwright.Word
import Toolwright.Proofs.Document.Settling
import Toolwright.Proofs.Document.Spacing
import Toolwright.Proofs.Document.Failure
import Toolwright.Proofs.Document.Normal
import Toolwright.Proofs.Isolation.Methods
import Toolwright.Proofs.Isolation.Calls
import Toolwright.Proofs.Isolation.Frames
import Toolwright.Proofs.Isolation.Peers
import Toolwright.Proofs.Isolation.Interleaving
import Toolwright.Proofs.Isolation.Adapted
import Toolwright.Proofs.Isolation.Separate
import Toolwright.Proofs.Publication.Alike
import Toolwright.Proofs.Names.Inverse
import Toolwright.Proofs.Settings.Sources
import Toolwright.Proofs.Publication.Repetitions
import Toolwright.Proofs.Tree.Adaptations
import Toolwright.Proofs.Tree.Schemas
import Toolwright.Proofs.Tree.Tables
import Toolwright.Proofs.Settings.Numerals
import Toolwright.Proofs.Text.Lines
import Toolwright.Proofs.Catalog.Trace
import Toolwright.Proofs.FileTree.WellFormed
import Toolwright.Proofs.Journal.Rotation
import Toolwright.Proofs.Journal.Setup
import Toolwright.Proofs.Journal.Account
import Toolwright.Proofs.Text.Keeping
import Toolwright.Proofs.Isolation.Defaults
import Toolwright.Proofs.Isolation.Undisturbed
import Toolwright.Proofs.Tree.Attempts
