import TokenGame.Codec.Config
import TokenGame.Main
import TokenGame.Net.Diagnosis
import TokenGame.Net.Index
import TokenGame.Service.Http
import TokenGame.Proofs.Net.Compiled
import TokenGame.Proofs.Net.Firing
import TokenGame.Proofs.Net.Unbounded
import TokenGame.Proofs.Search.Step
import TokenGame.Proofs.Search.Invariant
import TokenGame.Proofs.Maximum
import TokenGame.Proofs.Search.BreadthFirst
import TokenGame.Proofs.Search.Limits
import TokenGame.Proofs.Boundedness
import TokenGame.Proofs.Search.Findings
import TokenGame.Proofs.Search.Soundness
import TokenGame.Proofs.Search.Witness
import TokenGame.Proofs.Search.Budget
import TokenGame.Proofs.Search.Graph
import TokenGame.Proofs.Simulation.History
import TokenGame.Proofs.Simulation.Operation
import TokenGame.Proofs.Simulation.Session
import TokenGame.Proofs.Simulation.Exhaustive
import TokenGame.Proofs.Net.Arcs
import TokenGame.Proofs.Net.TokensById
import TokenGame.Proofs.Net.Accepted
import TokenGame.Proofs.Service.Course
import TokenGame.Proofs.Service.Errors
import TokenGame.Proofs.Net.Reordered
import TokenGame.Proofs.Search.Reordered
import TokenGame.Proofs.Service.Reordered
import TokenGame.Proofs.Net.Renumbered
import TokenGame.Proofs.Search.Renumbered
import TokenGame.Proofs.Net.StateEquation
import TokenGame.Proofs.Simulation.Conservation
import TokenGame.Proofs.Simulation.InPlace
import TokenGame.Proofs.Simulation.Zipper
import TokenGame.Proofs.Simulation.Failure
import TokenGame.Proofs.Net.Outcome
import TokenGame.Proofs.Net.Defects
import TokenGame.Proofs.Text.Spelling
import TokenGame.Proofs.Json.Spelling
import TokenGame.Proofs.Json.RoundTrip
import TokenGame.Proofs.Ron.Spelling
import TokenGame.Proofs.Ron.RoundTrip
import TokenGame.Proofs.Document
import TokenGame.Proofs.Codec.Model
import TokenGame.Proofs.Path
import TokenGame.Proofs.FileTree
import TokenGame.Proofs.Codec.Objects
import TokenGame.Proofs.Codec.Report
import TokenGame.Proofs.Codec.Texts
import TokenGame.Proofs.Net.Links
import TokenGame.Proofs.Net.Monotone
import TokenGame.Proofs.Simulation.Run
import TokenGame.Proofs.Simulation.Choice
import TokenGame.Proofs.Net.SparseMarkings
import TokenGame.Proofs.Diagnosis
import TokenGame.Proofs.Net.Removed
import TokenGame.Proofs.Simulation.Removal
import TokenGame.Proofs.Dot
import TokenGame.Proofs.Command.Reports
import TokenGame.Proofs.Search.Worklist
import TokenGame.Proofs.Search.Loop
