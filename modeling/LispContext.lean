import LispContext.Scope.Frames
import LispContext.Session.Run
import LispContext.Session.StockHost
import LispContext.Session.Survey
import LispContext.Store
import LispContext.Proofs.Scope.Recursion
import LispContext.Proofs.Scope.Tables
import LispContext.Proofs.Scope.Refinement
import LispContext.Proofs.Scope.Growth
import LispContext.Proofs.Scope.Layout
import LispContext.Proofs.Scope.Owners
import LispContext.Proofs.Scope.Reads
import LispContext.Proofs.Scope.Reordering
import LispContext.Proofs.Scope.PushedFrames
import LispContext.Proofs.Session.Calls
import LispContext.Proofs.Session.Balance
import LispContext.Proofs.Scope.Outline
import LispContext.Proofs.Session.Trace
import LispContext.Proofs.Session.Transparency
import LispContext.Proofs.Session.Moments
import LispContext.Proofs.Session.Landings
import LispContext.Proofs.Session.Logs
import LispContext.Proofs.Session.Dispatch
import LispContext.Proofs.Session.Depth
import LispContext.Proofs.Session.Positions
import LispContext.Proofs.Session.Unwinding
import LispContext.Proofs.Session.Closures
import LispContext.Proofs.Session.Parameters
import LispContext.Proofs.Sharing.Memory
import LispContext.Proofs.Sharing.RecordedRuns
import LispContext.Proofs.Sharing.Alike
import LispContext.Proofs.Sharing.Abreast
import LispContext.Proofs.Sharing.AlikeScopes
import LispContext.Proofs.Sharing.AlikeSteps
import LispContext.Proofs.Sharing.AlikeSessions
import LispContext.Proofs.Sharing.Unobservable
import LispContext.Proofs.Sharing.StockHosts
import LispContext.Proofs.Text.Codes
import LispContext.Proofs.Text.Printed
import LispContext.Proofs.Value.Faults
import LispContext.Proofs.Value.Stages
import LispContext.Proofs.Sharing.Identity
import LispContext.Proofs.Value.Iteration
import LispContext.Proofs.Context.ErrorValues
import LispContext.Proofs.Context.SettingUp
import LispContext.Proofs.Store.Destructors
