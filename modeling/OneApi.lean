import OneApi.Backoff
import OneApi.Calendar
import OneApi.Client
import OneApi.Collection
import OneApi.Command.Arguments
import OneApi.Command.Execution
import OneApi.Command.Message
import OneApi.Command.Recording
import OneApi.Command.Switch
import OneApi.Connection
import OneApi.Cursor
import OneApi.Decimal.Binary64
import OneApi.Decimal.Layout
import OneApi.Decimal.Numeral
import OneApi.Decimal.Reading
import OneApi.Decimal.Shortest
import OneApi.Description
import OneApi.Direction
import OneApi.Document
import OneApi.Envelope
import OneApi.Error
import OneApi.Field
import OneApi.Filter
import OneApi.Json.Basic
import OneApi.Json.Parser
import OneApi.Json.Printer
import OneApi.Json.Record
import OneApi.Json.Token
import OneApi.Main
import OneApi.Movie
import OneApi.Options
import OneApi.Page
import OneApi.Proofs.Agreement
import OneApi.Proofs.AppendedSegments
import OneApi.Proofs.BackoffDelays
import OneApi.Proofs.BareParts
import OneApi.Proofs.Building
import OneApi.Proofs.BuiltOptions
import OneApi.Proofs.CountNumerals
import OneApi.Proofs.CountReading
import OneApi.Proofs.CountSpelling
import OneApi.Proofs.CountText
import OneApi.Proofs.DecimalRounding
import OneApi.Proofs.DecodedCounts
import OneApi.Proofs.DocumentGrammar
import OneApi.Proofs.DocumentParts
import OneApi.Proofs.DocumentPlaces
import OneApi.Proofs.DocumentReading
import OneApi.Proofs.EncodedForm
import OneApi.Proofs.EnvironmentOverrides
import OneApi.Proofs.FaithfulIds
import OneApi.Proofs.FormDecode
import OneApi.Proofs.FragmentReading
import OneApi.Proofs.IdCalls
import OneApi.Proofs.ItemAddress
import OneApi.Proofs.KeySecrecy
import OneApi.Proofs.KnownMembers
import OneApi.Proofs.LayerAgreement
import OneApi.Proofs.LazyWalk
import OneApi.Proofs.ListingOutput
import OneApi.Proofs.ListingQuery
import OneApi.Proofs.NotedRequests
import OneApi.Proofs.OverrideOrder
import OneApi.Proofs.PageReach
import OneApi.Proofs.PathSegments
import OneApi.Proofs.PercentDecode
import OneApi.Proofs.PlainDomains
import OneApi.Proofs.QueryReading
import OneApi.Proofs.RawText
import OneApi.Proofs.ReadDoubles
import OneApi.Proofs.ReadScores
import OneApi.Proofs.RecordFields
import OneApi.Proofs.RequestAddress
import OneApi.Proofs.Requests
import OneApi.Proofs.RereadDocument
import OneApi.Proofs.RetriedSession
import OneApi.Proofs.RetriedWalk
import OneApi.Proofs.RetryTrace
import OneApi.Proofs.SettingsPrecedence
import OneApi.Proofs.ShortestDigits
import OneApi.Proofs.SortText
import OneApi.Proofs.StackedLayers
import OneApi.Proofs.ValidSettings
import OneApi.Proofs.Walk
import OneApi.Proofs.WalkIsolation
import OneApi.Proofs.WrittenDocument
import OneApi.Proofs.WrittenNumeral
import OneApi.Proofs.WrittenWord
import OneApi.Quote
import OneApi.RateWindow
import OneApi.Retry
import OneApi.Session
import OneApi.Settings
import OneApi.SettingsFile
import OneApi.Span
import OneApi.Text.Blank
import OneApi.Text.Digits
import OneApi.Text.Form
import OneApi.Text.Percent
import OneApi.Text.Printable
import OneApi.Text.Quoted
import OneApi.Transport
import OneApi.Url.Basic
import OneApi.Url.Encode
import OneApi.Url.Endpoint
import OneApi.Url.Fault
import OneApi.Url.Host
import OneApi.Url.Ipv4
import OneApi.Url.Ipv6
import OneApi.Url.Parser
import OneApi.Url.Path
import OneApi.Url.Scheme
import OneApi.Variable
import OneApi.Yaml.Node
import OneApi.Yaml.Place
import OneApi.Yaml.Record
import OneApi.Yaml.Scalar
import OneApi.Yaml.Tag
import OneApi.Yaml.Token
