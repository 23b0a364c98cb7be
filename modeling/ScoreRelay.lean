import ScoreRelay.Main
import ScoreRelay.Scripted.Binder
import ScoreRelay.Scripted.Cache
import ScoreRelay.Scripted.Recorder
import ScoreRelay.Proofs.Link.Calls
import ScoreRelay.Proofs.Link.Custody
import ScoreRelay.Proofs.Link.Schedule
import ScoreRelay.Proofs.Tcp.Table
import ScoreRelay.Proofs.Wire.RoundTrip
import ScoreRelay.Proofs.Service.Evaluation
import ScoreRelay.Proofs.Service.Shutdown
import ScoreRelay.Proofs.Service.Access
import ScoreRelay.Proofs.Agent.Following
import ScoreRelay.Proofs.Cache.Scores
import ScoreRelay.Proofs.Registry.Register
import ScoreRelay.Proofs.Registry.Catalog
import ScoreRelay.Proofs.Agent.Caches
import ScoreRelay.Proofs.Config.Resolve
import ScoreRelay.Proofs.Roster.Notices
import ScoreRelay.Proofs.Agent.Authority
import ScoreRelay.Proofs.Json.Value
import ScoreRelay.Proofs.Wire.Reply
import ScoreRelay.Proofs.Agent.Replies
import ScoreRelay.Proofs.Agent.Clearing
import ScoreRelay.Proofs.Agent.Journal
import ScoreRelay.Proofs.Config.Allotment
import ScoreRelay.Proofs.Registry.Reached
import ScoreRelay.Proofs.Service.Noted
import ScoreRelay.Proofs.Service.Sequence
import ScoreRelay.Proofs.Service.Routing
import ScoreRelay.Proofs.Service.Account
import ScoreRelay.Proofs.Registry.Tally
import ScoreRelay.Proofs.Cache.Rejection
import ScoreRelay.Proofs.Monitor.Calls
import ScoreRelay.Proofs.Monitor.History
import ScoreRelay.Proofs.Text.Trim
import ScoreRelay.Proofs.Config.Refusal
import ScoreRelay.Proofs.Config.Written
import ScoreRelay.Proofs.Registry.Bounds
import ScoreRelay.Proofs.Registry.Occupancy
