import NelderMead.Matrix
import NelderMead.Decimal.Style
import NelderMead.Result
import NelderMead.Solver
import NelderMead.Proofs.Binary64.Rounding
import NelderMead.Proofs.Binary64.Arithmetic
import NelderMead.Proofs.Parameters
import NelderMead.Proofs.Evaluation
import NelderMead.Proofs.Ranking
import NelderMead.Proofs.Standing
import NelderMead.Proofs.Rows
import NelderMead.Proofs.Iteration
import NelderMead.Proofs.Run
import NelderMead.Proofs.EntryPoints
import NelderMead.Proofs.Accounting
import NelderMead.Proofs.Penalty
import NelderMead.Proofs.Leading
import NelderMead.Proofs.Feasible
import NelderMead.Proofs.Descent
import NelderMead.Proofs.History
import NelderMead.Proofs.Shape
import NelderMead.Proofs.Overwriting
import NelderMead.Proofs.Stores
import NelderMead.Proofs.Together
import NelderMead.Proofs.Course
import NelderMead.Proofs.Ending
import NelderMead.Proofs.Requests
import NelderMead.Proofs.FailFast
import NelderMead.Proofs.Provenance
import NelderMead.Proofs.Stuck
import NelderMead.Proofs.Incumbent
import NelderMead.Proofs.Oblivious
import NelderMead.Proofs.Anytime
import NelderMead.Proofs.Sampling
import NelderMead.Proofs.Sessions
import NelderMead.Proofs.Coupling
import NelderMead.Proofs.Congruence
import NelderMead.Proofs.OrderOnly
import NelderMead.Proofs.SatisfiedConstraint
import NelderMead.Proofs.StorageOrder
import NelderMead.Proofs.Standstill
import NelderMead.Proofs.Misfit
import NelderMead.Proofs.Safety
import NelderMead.Proofs.Coordinates
import NelderMead.Proofs.Unknown
import NelderMead.Proofs.Acceptance
import NelderMead.Proofs.Immobile
import NelderMead.Proofs.Binary64.Order
import NelderMead.Proofs.InnerProduct
import NelderMead.Proofs.Box
import NelderMead.Proofs.ExteriorPenalty
import NelderMead.Proofs.Locality
import NelderMead.Proofs.Unweighted
import NelderMead.Proofs.Confined
import NelderMead.Proofs.Binary64.Quotient
import NelderMead.Proofs.Collapsed
import NelderMead.Proofs.Construction
import NelderMead.Proofs.Refusals
import NelderMead.Proofs.ReadOuts
import NelderMead.Proofs.OneSlot
import NelderMead.Proofs.StableOrder
import NelderMead.Proofs.Recording
