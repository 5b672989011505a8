import KCut.Objective
import KCut.Partition
import KCut.Graph.Incoming
import KCut.Graph.Family
import KCut.Graph.Cut
import KCut.Random.Stream
import KCut.Termination
import KCut.Statistics
import KCut.Progress
import KCut.Construction
import KCut.NeighborhoodSearch
import KCut.Solver
import KCut.Console
import KCut.Config.Toml
import KCut.Config.Yaml
import KCut.Config.File
import KCut.Proofs.WeightOrder
import KCut.Proofs.Graph.Incidence
import KCut.Proofs.LocalSearch.BestMove
import KCut.Proofs.LocalSearch.GreedyRound
import KCut.Proofs.LocalSearch.Converge
import KCut.Proofs.LocalSearch.Books
import KCut.Proofs.LocalSearch.FixedPoint
import KCut.Proofs.LocalSearch.Unweighted
import KCut.Proofs.LocalSearch.OnePass
import KCut.Proofs.Construction.AnyOrder
import KCut.Proofs.NeighborhoodSearch.Unstopped
import KCut.Proofs.NeighborhoodSearch.Orders
import KCut.Proofs.NeighborhoodSearch.Adoption
import KCut.Proofs.Config.Accepted
import KCut.Proofs.Solver.Score
import KCut.Proofs.Solver.Answer
import KCut.Proofs.Solver.Optimum
import KCut.Proofs.Twins.Reweighed
import KCut.Proofs.Twins.Workers
import KCut.Proofs.Solver.Records
import KCut.Proofs.Course.Prompt
import KCut.Proofs.Solver.FirstOrder
import KCut.Proofs.Solver.Prefix
import KCut.Proofs.Partition.ByDegree
import KCut.Proofs.Graph.Build
import KCut.Proofs.LocalSearch.Families
import KCut.Proofs.Solver.Rigid
import KCut.Proofs.LocalSearch.Table
import KCut.Proofs.Construction.Shuffle
import KCut.Proofs.Partition.ByCount
import KCut.Proofs.Solver.TimeLimit
