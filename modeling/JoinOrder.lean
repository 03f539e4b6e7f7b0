import JoinOrder.Dot.Drawing
import JoinOrder.Json.Writer
import JoinOrder.Logger
import JoinOrder.Optimizer
import JoinOrder.Proofs.Admission
import JoinOrder.Proofs.BestPlan
import JoinOrder.Proofs.Ends
import JoinOrder.Proofs.Estimate
import JoinOrder.Proofs.Formula
import JoinOrder.Proofs.Fresh
import JoinOrder.Proofs.Histories
import JoinOrder.Proofs.IdSet
import JoinOrder.Proofs.Layers
import JoinOrder.Proofs.Memo
import JoinOrder.Proofs.Messages
import JoinOrder.Proofs.Optimality
import JoinOrder.Proofs.Optimizing
import JoinOrder.Proofs.Path
import JoinOrder.Proofs.Pool
import JoinOrder.Proofs.Problem
import JoinOrder.Proofs.RelationOrder
import JoinOrder.Proofs.Schedules
import JoinOrder.Proofs.Solving
import JoinOrder.Proofs.SortKey
import JoinOrder.Proofs.Split
import JoinOrder.Proofs.Turns
import JoinOrder.Proofs.Warnings
import JoinOrder.RelationSplit
import JoinOrder.Timestamp
import JoinOrder.Proofs.Entries
import JoinOrder.Proofs.Events
import JoinOrder.Proofs.Conduct
import JoinOrder.Proofs.Accounts
import JoinOrder.Proofs.Watched
import JoinOrder.Proofs.Calls
import JoinOrder.Proofs.JoinedOnce
import JoinOrder.Proofs.NoWorkLost
import JoinOrder.Proofs.EitherOrder
import JoinOrder.Proofs.InputOrder
import JoinOrder.Proofs.Identities
import JoinOrder.Proofs.PlanMap
import JoinOrder.Proofs.Binding
import JoinOrder.Proofs.Deadlines
import JoinOrder.Proofs.Bipartitions
import JoinOrder.Proofs.ExactEffort
import JoinOrder.Proofs.Orientation
import JoinOrder.Proofs.CrossProducts
import JoinOrder.Proofs.Halvings
import JoinOrder.Proofs.Relabel
import JoinOrder.Proofs.LooserInputs
import JoinOrder.Proofs.Renaming
import JoinOrder.Proofs.LeastTuples
import JoinOrder.Proofs.Linked
import JoinOrder.Proofs.FirstSplit
import JoinOrder.Proofs.CrossFree
import JoinOrder.Proofs.Lookup
import JoinOrder.Proofs.Sharing
import JoinOrder.Proofs.Reachability
import JoinOrder.Proofs.Traversals
import JoinOrder.Proofs.Depth
import JoinOrder.Proofs.SamePlan
import JoinOrder.Proofs.Refusals
import JoinOrder.Proofs.Stores
import JoinOrder.Proofs.Changes
import JoinOrder.Proofs.Listing
import JoinOrder.Proofs.Frames
import JoinOrder.Proofs.CanonicalListing
import JoinOrder.Proofs.SettingsExport
import JoinOrder.Proofs.RelationExport
import JoinOrder.Proofs.StableExport
import JoinOrder.Proofs.GraphDrawing
import JoinOrder.Proofs.IndentedText
import JoinOrder.Proofs.SizedSubsets
import JoinOrder.Proofs.DefaultNames
