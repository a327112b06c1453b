import Landmark.Address
import Landmark.BuildDate
import Landmark.Calendar
import Landmark.ClientFacts
import Landmark.Fault
import Landmark.Finder.Archive
import Landmark.Finder.ImportTable
import Landmark.Finder.Roster
import Landmark.Finder.Script
import Landmark.Finder.ServerType
import Landmark.Finder.ServiceType
import Landmark.Finder.TypeFlag
import Landmark.Finder.WindowManager
import Landmark.Image.Layout
import Landmark.Image.Metadata
import Landmark.Image.Section
import Landmark.Image.TextSearch
import Landmark.Json.Decode
import Landmark.Json.Parse
import Landmark.Json.Print
import Landmark.Json.Token
import Landmark.Json.Value
import Landmark.Machine.Instruction
import Landmark.Machine.Register
import Landmark.Proofs.BuildDate
import Landmark.Proofs.Bytes
import Landmark.Proofs.Calendar
import Landmark.Proofs.Checked.Basic
import Landmark.Proofs.Checked.ClientFacts
import Landmark.Proofs.Checked.Finder
import Landmark.Proofs.Checked.Resource
import Landmark.Proofs.Checked.Search
import Landmark.Proofs.Checked.Signature
import Landmark.Proofs.Checked.Text
import Landmark.Proofs.ClientFacts
import Landmark.Proofs.Failure
import Landmark.Proofs.Finder.Alike
import Landmark.Proofs.Finder.Archive
import Landmark.Proofs.Finder.Reach
import Landmark.Proofs.Finder.TypeFlag
import Landmark.Proofs.Finder.WindowManager
import Landmark.Proofs.FramePointer
import Landmark.Proofs.Image.Acceptance
import Landmark.Proofs.Image.Alike
import Landmark.Proofs.Image.CallTarget
import Landmark.Proofs.Image.CodeSearch
import Landmark.Proofs.Image.Reading
import Landmark.Proofs.Image.SectionTable
import Landmark.Proofs.Image.TextSearch
import Landmark.Proofs.Image.Translation
import Landmark.Proofs.Json.Literal
import Landmark.Proofs.Json.Record
import Landmark.Proofs.Json.Text
import Landmark.Proofs.Machine.Encoding
import Landmark.Proofs.Machine.Template
import Landmark.Proofs.Resource.Reading
import Landmark.Proofs.Resource.WellFormed
import Landmark.Proofs.Search
import Landmark.Proofs.Signature.Bytes
import Landmark.Proofs.Signature.Capture
import Landmark.Proofs.Signature.Concatenation
import Landmark.Proofs.Signature.Family
import Landmark.Proofs.Signature.Grammar
import Landmark.Proofs.Signature.Language
import Landmark.Proofs.Signature.Matching
import Landmark.Proofs.Signature.Search
import Landmark.Proofs.Signature.Token
import Landmark.Proofs.Stored.File
import Landmark.Proofs.Stored.Report
import Landmark.Proofs.Stored.Thresholds
import Landmark.Proofs.Survey.Cache
import Landmark.Proofs.Survey.Course
import Landmark.Proofs.Survey.Cycle
import Landmark.Proofs.Survey.Dependency
import Landmark.Proofs.Survey.FailureChain
import Landmark.Proofs.Survey.Memory
import Landmark.Proofs.Survey.Order
import Landmark.Proofs.Survey.Solitary
import Landmark.Proofs.Survey.Termination
import Landmark.Proofs.Survey.Tree
import Landmark.Proofs.Survey.Waiting
import Landmark.Proofs.Text.Blank
import Landmark.Proofs.Text.Hex
import Landmark.Proofs.Text.HexWord
import Landmark.Proofs.Text.Utf16
import Landmark.Proofs.Word
import Landmark.Report
import Landmark.Resource.Directory
import Landmark.Resource.Tree
import Landmark.Scan
import Landmark.Search
import Landmark.Signature.Basic
import Landmark.Signature.Search
import Landmark.Signature.Segment
import Landmark.Signature.Token
import Landmark.Stored.Configuration
import Landmark.Stored.File
import Landmark.Stored.Image
import Landmark.Stored.Names
import Landmark.Stored.Report
import Landmark.Stored.Thresholds
import Landmark.Survey.Cache
import Landmark.Survey.Finding
import Landmark.Survey.Load
import Landmark.Survey.Operation
import Landmark.Survey.Plan
import Landmark.Survey.State
import Landmark.Survey.Store
import Landmark.Text.Ascii
import Landmark.Text.Blank
import Landmark.Text.Hex
import Landmark.Text.Korean
import Landmark.Text.Korean.Rows
import Landmark.Text.PathName
import Landmark.Text.Utf16
import Landmark.Thresholds
import Landmark.Word
import Landmark.Proofs.Resource.Lookup
import Landmark.Proofs.Signature.TextSize
import Landmark.Proofs.Finder.ImportTable
import Landmark.Proofs.Checked.Jump
