import ContentConsole.AccessPanel
import ContentConsole.Console.Footprint
import ContentConsole.Decimal.Typed
import ContentConsole.Entity.Basic
import ContentConsole.Entity.Search
import ContentConsole.Entity.Wire
import ContentConsole.Graph
import ContentConsole.Inspector.Basic
import ContentConsole.Main
import ContentConsole.Outline.Expand
import ContentConsole.Outline.Rename
import ContentConsole.Proofs.Console.Deletion
import ContentConsole.Proofs.Console.Saving
import ContentConsole.Proofs.Entity.Foreign
import ContentConsole.Proofs.Entity.RoundTrip
import ContentConsole.Proofs.Entity.Search
import ContentConsole.Proofs.Inspector.Address
import ContentConsole.Proofs.Inspector.ChangeMarker
import ContentConsole.Proofs.Inspector.Course
import ContentConsole.Proofs.Inspector.Generation
import ContentConsole.Proofs.Inspector.HtmlLabel
import ContentConsole.Proofs.Inspector.KeyTitle
import ContentConsole.Proofs.Inspector.ReadOnly
import ContentConsole.Proofs.Inspector.WriteBack
import ContentConsole.Proofs.OpenKeys.History
import ContentConsole.Proofs.Outline.Agreement
import ContentConsole.Proofs.Outline.Continues
import ContentConsole.Proofs.Outline.Deletion
import ContentConsole.Proofs.Outline.Delivery
import ContentConsole.Proofs.Outline.Exchange
import ContentConsole.Proofs.Outline.Forgetting
import ContentConsole.Proofs.Outline.Identity
import ContentConsole.Proofs.Outline.Layout
import ContentConsole.Proofs.Outline.Members
import ContentConsole.Proofs.Outline.Preorder
import ContentConsole.Proofs.Outline.Queue
import ContentConsole.Proofs.Outline.Removal
import ContentConsole.Proofs.Outline.Renaming
import ContentConsole.Proofs.Outline.Replacing
import ContentConsole.Proofs.Outline.Request
import ContentConsole.Proofs.Outline.Resource
import ContentConsole.Proofs.Outline.Restoring
import ContentConsole.Proofs.Outline.TreeForm
import ContentConsole.Proofs.Rest.Targets
import ContentConsole.Proofs.Session.AccessSwitches
import ContentConsole.Proofs.Session.Arrival
import ContentConsole.Proofs.Session.Deletion
import ContentConsole.Proofs.Session.FailedFetch
import ContentConsole.Proofs.Session.Failure
import ContentConsole.Proofs.Session.KeyFile
import ContentConsole.Proofs.Session.Reach
import ContentConsole.Proofs.Session.Regrowth
import ContentConsole.Proofs.Session.Resource
import ContentConsole.Proofs.Session.Rounds
import ContentConsole.Proofs.Session.Settling
import ContentConsole.Proofs.Session.TreeForm
import ContentConsole.Proofs.Settings.RoundTrip
import ContentConsole.Proofs.Terminal.Alignment
import ContentConsole.Rest.Server
import ContentConsole.Session.Properties
import ContentConsole.Session.Tree
import ContentConsole.Settings
