import Wayfinding.Main
import Wayfinding.Proofs.Sequence
import Wayfinding.Proofs.Search.Order
import Wayfinding.Proofs.Search.Step
import Wayfinding.Proofs.Search.Invariant
import Wayfinding.Proofs.Search.Run
import Wayfinding.Proofs.Search.Soundness
import Wayfinding.Proofs.Search.Completeness
import Wayfinding.Proofs.Search.Eager
import Wayfinding.Proofs.Formula.Linear
import Wayfinding.Proofs.Formula.Printing
import Wayfinding.Proofs.Formula.Soundness
import Wayfinding.Proofs.Formula.Recovery
import Wayfinding.Proofs.Search.CostBound
import Wayfinding.Proofs.Number.Shortest
import Wayfinding.Proofs.Grid.Estimates
import Wayfinding.Proofs.Plan.Optimality
import Wayfinding.Proofs.Plan.Routes
import Wayfinding.Proofs.Search.Breadth
import Wayfinding.Proofs.Search.Expansion
import Wayfinding.Proofs.Plan.Comparison
import Wayfinding.Proofs.Plan.Padding
import Wayfinding.Proofs.Search.Escape
import Wayfinding.Proofs.Plan.Failure
import Wayfinding.Proofs.Formula.Reprinting
import Wayfinding.Proofs.Plan.Weights
import Wayfinding.Proofs.Search.Alike
import Wayfinding.Proofs.Search.Priorities
import Wayfinding.Proofs.Search.Locality
import Wayfinding.Proofs.Search.Redundancy
import Wayfinding.Proofs.Search.Turns
import Wayfinding.Proofs.Search.Effort
import Wayfinding.Proofs.Formula.Yield
import Wayfinding.Proofs.Formula.Scanner
import Wayfinding.Proofs.Formula.Sight
import Wayfinding.Proofs.Formula.Tracking
import Wayfinding.Proofs.Number.TotalOrder
import Wayfinding.Proofs.Search.Pops
import Wayfinding.Proofs.Text.Lines
import Wayfinding.Proofs.Text.Words
import Wayfinding.Proofs.Grid.Header
import Wayfinding.Proofs.Grid.Rows
import Wayfinding.Proofs.Grid.Maps
import Wayfinding.Proofs.Grid.Drawings
import Wayfinding.Proofs.Plan.Overlay
import Wayfinding.Proofs.Grid.Storage
import Wayfinding.Proofs.Grid.Edits
import Wayfinding.Proofs.Grid.Directions
import Wayfinding.Proofs.Grid.Tables
