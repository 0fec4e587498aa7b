import Stencil.Cursor
import Stencil.Main
import Stencil.Proofs.Expr.Grammar
import Stencil.Proofs.Expr.Sound
import Stencil.Proofs.Expr.Complete
import Stencil.Proofs.Block.Change
import Stencil.Proofs.Block.Nesting
import Stencil.Proofs.Block.Forest
import Stencil.Proofs.Block.Exact
import Stencil.Proofs.Block.Frame
import Stencil.Proofs.Host.Quiet
import Stencil.Proofs.Host.Code
import Stencil.Proofs.Host.Safety
import Stencil.Proofs.Template.Segments
import Stencil.Proofs.Host.Closed
import Stencil.Proofs.Path.Components
import Stencil.Proofs.Disk.Walk
import Stencil.Proofs.Disk.Follow
import Stencil.Proofs.Disk.Alike
import Stencil.Proofs.Disk.Within
import Stencil.Proofs.Disk.Join
import Stencil.Proofs.Artifact.Confined
import Stencil.Proofs.Artifact.Stem
import Stencil.Proofs.Artifact.Run
import Stencil.Proofs.Artifact.Coherent
import Stencil.Proofs.Artifact.Draft
import Stencil.Proofs.Artifact.Atomic
import Stencil.Proofs.Expr.Stuck
import Stencil.Proofs.Template.Location
import Stencil.Proofs.Template.Walled
import Stencil.Proofs.Template.Concat
import Stencil.Proofs.Json.Spelling
import Stencil.Proofs.Template.Mark
import Stencil.Proofs.Artifact.Header
import Stencil.Proofs.Artifact.SourceMap
import Stencil.Proofs.Artifact.Fresh
import Stencil.Proofs.Expr.Spacing
import Stencil.Proofs.Expr.Extend
import Stencil.Proofs.Template.Extend
import Stencil.Proofs.Artifact.Grow
import Stencil.Proofs.Artifact.Lockstep
import Stencil.Proofs.Artifact.Later
import Stencil.Proofs.Artifact.Clash
import Stencil.Proofs.Artifact.Order
import Stencil.Proofs.Artifact.Again
import Stencil.Proofs.Token.Pattern
import Stencil.Proofs.Token.Longest
import Stencil.Proofs.Template.Escape
import Stencil.Proofs.Expr.Feed
import Stencil.Proofs.Expr.Registered
import Stencil.Proofs.Expr.Emitter
import Stencil.Proofs.Expr.Unbroken
import Stencil.Proofs.Expr.Replay
import Stencil.Proofs.Expr.ReplayValue
import Stencil.Proofs.Expr.OnePass
import Stencil.Proofs.Template.Unbroken
import Stencil.Proofs.Text.Normal
import Stencil.Proofs.Host.Quoted
import Stencil.Proofs.Artifact.Calendar
import Stencil.Proofs.Artifact.Comment
import Stencil.Proofs.Diagnostic.Html
import Stencil.Proofs.Diagnostic.LogLine
import Stencil.Proofs.Config.Registry
import Stencil.Proofs.Disk.Discovery
import Stencil.Proofs.Path.Relative
import Stencil.Proofs.Template.Bounded
import Stencil.Proofs.Expr.Splice
import Stencil.Proofs.Template.Leftmost
import Stencil.Proofs.Token.Walk
