import AccessRequest.Binary64.Basic
import AccessRequest.Binary64.Shortest
import AccessRequest.Binary64.Text
import AccessRequest.Json.Value
import AccessRequest.Text.Printable
import AccessRequest.Text.Quoted
import AccessRequest.Json.Error
import AccessRequest.Json.Literal.Word
import AccessRequest.Json.Literal.Number
import AccessRequest.Json.Literal.String
import AccessRequest.Json.Read
import AccessRequest.Json.Print
import AccessRequest.Snapshot
import AccessRequest.Snapshot.Read
import AccessRequest.Api.Error
import AccessRequest.Api.Decode
import AccessRequest.Api.Response
import AccessRequest.Api.Endpoint
import AccessRequest.RouteKey
import AccessRequest.Resolution
import AccessRequest.Text.Utf8
import AccessRequest.Url.Percent
import AccessRequest.Route
import AccessRequest.Html
import AccessRequest.Log
import AccessRequest.Store
import AccessRequest.Hook
import AccessRequest.Page
import AccessRequest.PageFlow
import AccessRequest.Proofs.ErrorText
import AccessRequest.Proofs.Endpoint
import AccessRequest.Proofs.ResolveTrace
import AccessRequest.Proofs.Teardown
import AccessRequest.Proofs.OpenGuard
import AccessRequest.Proofs.Utf8Infix
import AccessRequest.Proofs.RouteKey
import AccessRequest.Proofs.RouteKeyIdempotent
import AccessRequest.Proofs.StatusOutcome
import AccessRequest.Proofs.Json.Grammar
import AccessRequest.Proofs.Json.Strings
import AccessRequest.Proofs.Json.Numbers
import AccessRequest.Proofs.Json.Skip
import AccessRequest.Proofs.Json.Fields
import AccessRequest.Proofs.AnswerText
import AccessRequest.Proofs.Json.Values
import AccessRequest.Proofs.Json.LastWins
import AccessRequest.Proofs.SnapshotText
import AccessRequest.Proofs.ErrorValue
import AccessRequest.Proofs.Json.Canonical
import AccessRequest.Proofs.Json.Render
import AccessRequest.Proofs.Json.NumberForm
import AccessRequest.Proofs.Binary64.Rounding
import AccessRequest.Proofs.Json.NumberDigits
import AccessRequest.Proofs.Json.NumberRange
import AccessRequest.Proofs.SnapshotRoundTrip
import AccessRequest.Proofs.Utf8Decode
import AccessRequest.Proofs.Percent
import AccessRequest.Proofs.RouteRecognize
