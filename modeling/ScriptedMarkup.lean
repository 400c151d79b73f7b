import ScriptedMarkup.Body
import ScriptedMarkup.Capture
import ScriptedMarkup.Comment
import ScriptedMarkup.CompiledFunction
import ScriptedMarkup.Cursor
import ScriptedMarkup.Draft.Basic
import ScriptedMarkup.Draft.Rendering
import ScriptedMarkup.Header
import ScriptedMarkup.Helper
import ScriptedMarkup.Location
import ScriptedMarkup.NameSupply
import ScriptedMarkup.NestedTemplate
import ScriptedMarkup.Notice
import ScriptedMarkup.Piece
import ScriptedMarkup.Pragma.Basic
import ScriptedMarkup.Pragma.Extraction
import ScriptedMarkup.Request.Basic
import ScriptedMarkup.Request.Notices
import ScriptedMarkup.Scan.Act
import ScriptedMarkup.Scan.Basic
import ScriptedMarkup.Scan.Lexing
import ScriptedMarkup.Scan.Notices
import ScriptedMarkup.Scan.Shorthand
import ScriptedMarkup.Session
import ScriptedMarkup.Signal
import ScriptedMarkup.TemplateError
import ScriptedMarkup.Text.Blank
import ScriptedMarkup.Text.Bytes
import ScriptedMarkup.Text.Lines
import ScriptedMarkup.Text.Name
import ScriptedMarkup.Text.Quoted
import ScriptedMarkup.Text.Word
import ScriptedMarkup.Proofs.Scan.Phase
import ScriptedMarkup.Proofs.Reading.Basic
import ScriptedMarkup.Proofs.Scan.Capturing
import ScriptedMarkup.Proofs.Draft.Basic
import ScriptedMarkup.Proofs.Reading.Refinement
import ScriptedMarkup.Proofs.Draft.Blocks
import ScriptedMarkup.Proofs.Scan.Effect
import ScriptedMarkup.Proofs.Scan.Names
import ScriptedMarkup.Proofs.Scan.Hoisting
import ScriptedMarkup.Proofs.Draft.Layout
import ScriptedMarkup.Proofs.Body.Hoisting
import ScriptedMarkup.Proofs.Body.Unfinished
import ScriptedMarkup.Proofs.Session.Names
import ScriptedMarkup.Proofs.Draft.Balanced
import ScriptedMarkup.Proofs.Scan.Balanced
import ScriptedMarkup.Proofs.Body.Balanced
import ScriptedMarkup.Proofs.Draft.LineStarts
import ScriptedMarkup.Proofs.Scan.LineStarts
import ScriptedMarkup.Proofs.Body.LineStarts
import ScriptedMarkup.Proofs.Draft.Quoting
import ScriptedMarkup.Proofs.Body.Quoting
import ScriptedMarkup.Proofs.Scan.Issued
import ScriptedMarkup.Proofs.Draft.Spelling
import ScriptedMarkup.Proofs.Scan.Spelling
import ScriptedMarkup.Proofs.Scan.Uncarried
import ScriptedMarkup.Proofs.Draft.Written
import ScriptedMarkup.Proofs.Manuscript.Basic
import ScriptedMarkup.Proofs.Manuscript.Transcription
import ScriptedMarkup.Proofs.Body.Splicing
import ScriptedMarkup.Proofs.Text.Returns
import ScriptedMarkup.Proofs.Pragma.Returns
import ScriptedMarkup.Proofs.Request.Basic
import ScriptedMarkup.Proofs.Request.Header
import ScriptedMarkup.Proofs.Request.Returns
import ScriptedMarkup.Proofs.Scan.Leading
import ScriptedMarkup.Proofs.Body.Headed
import ScriptedMarkup.Proofs.Request.Headed
import ScriptedMarkup.Proofs.Session.Stages
import ScriptedMarkup.Proofs.Session.Failures
import ScriptedMarkup.Proofs.Draft.Congruence
import ScriptedMarkup.Proofs.Scan.Congruence
import ScriptedMarkup.Proofs.Draft.Renumbering
import ScriptedMarkup.Proofs.Session.Renumbering
import ScriptedMarkup.Proofs.Draft.Texts
import ScriptedMarkup.Proofs.Scan.Texts
import ScriptedMarkup.Proofs.Body.Terminators
import ScriptedMarkup.Proofs.Request.Nesting
import ScriptedMarkup.Proofs.Text.Lines
import ScriptedMarkup.Proofs.Scan.Unbound
import ScriptedMarkup.Proofs.Manuscript.Lines
import ScriptedMarkup.Proofs.Manuscript.LineByLine
import ScriptedMarkup.Proofs.Body.Lines
import ScriptedMarkup.Proofs.Scan.Parts
import ScriptedMarkup.Proofs.Comment.Interleaved
import ScriptedMarkup.Proofs.Request.Validation
import ScriptedMarkup.Proofs.Text.Names
import ScriptedMarkup.Proofs.Pragma.Spelling
import ScriptedMarkup.Proofs.Pragma.Interleaved
import ScriptedMarkup.Proofs.Pragma.Erasure
import ScriptedMarkup.Proofs.Scan.Enclosed
import ScriptedMarkup.Proofs.Scan.Shorthands
import ScriptedMarkup.Proofs.Draft.Anchors
import ScriptedMarkup.Proofs.Text.Locations
import ScriptedMarkup.Proofs.Scan.Presented
import ScriptedMarkup.Proofs.Scan.Buffers
import ScriptedMarkup.Proofs.Scan.Withheld
import ScriptedMarkup.Proofs.Draft.Normal
import ScriptedMarkup.Proofs.Body.Normal
