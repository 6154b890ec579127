import AgentConfig.Builder.Basic
import AgentConfig.Builder.Server
import AgentConfig.Builder.Session
import AgentConfig.CommandLine.Arguments
import AgentConfig.CommandLine.Dispatch
import AgentConfig.CommandLine.Run
import AgentConfig.CommandLine.Usage
import AgentConfig.Disk
import AgentConfig.Document.Auth
import AgentConfig.Document.Basic
import AgentConfig.Document.Catalog
import AgentConfig.Document.File
import AgentConfig.Document.ReplicaSet
import AgentConfig.Document.Server
import AgentConfig.Document.Text
import AgentConfig.Document.Tls
import AgentConfig.Enabler.Basic
import AgentConfig.Enabler.Scram
import AgentConfig.Json.Error
import AgentConfig.Json.Reader
import AgentConfig.Json.Token
import AgentConfig.Json.Writer
import AgentConfig.Log
import AgentConfig.Main
import AgentConfig.Number.Binary64
import AgentConfig.Number.Decimal
import AgentConfig.Number.Layout
import AgentConfig.Proofs.Builder.Build
import AgentConfig.Proofs.Builder.Catalog
import AgentConfig.Proofs.Builder.Encryption
import AgentConfig.Proofs.Builder.Failure
import AgentConfig.Proofs.Builder.History
import AgentConfig.Proofs.Builder.Independence
import AgentConfig.Proofs.Builder.Options
import AgentConfig.Proofs.Builder.Records
import AgentConfig.Proofs.Builder.Session
import AgentConfig.Proofs.Builder.Topology
import AgentConfig.Proofs.CommandLine.AllOrNothing
import AgentConfig.Proofs.CommandLine.Arguments
import AgentConfig.Proofs.CommandLine.DeploymentFile
import AgentConfig.Proofs.CommandLine.Failures
import AgentConfig.Proofs.CommandLine.Redeploy
import AgentConfig.Proofs.CommandLine.Run
import AgentConfig.Proofs.Disk
import AgentConfig.Proofs.Document.Canonical
import AgentConfig.Proofs.Document.File
import AgentConfig.Proofs.Document.JsonRoundTrip
import AgentConfig.Proofs.Document.Keys
import AgentConfig.Proofs.Document.Load
import AgentConfig.Proofs.Document.Parse
import AgentConfig.Proofs.Document.Readers
import AgentConfig.Proofs.Document.Sound
import AgentConfig.Proofs.Document.Spelling
import AgentConfig.Proofs.Document.Spoiled
import AgentConfig.Proofs.Document.Version
import AgentConfig.Proofs.Document.YamlRoundTrip
import AgentConfig.Proofs.Enabler.Scram
import AgentConfig.Proofs.Except
import AgentConfig.Proofs.Json.Dense
import AgentConfig.Proofs.Json.Lexing
import AgentConfig.Proofs.Json.Reader
import AgentConfig.Proofs.Json.Scalar
import AgentConfig.Proofs.Json.Text
import AgentConfig.Proofs.Json.Written
import AgentConfig.Proofs.Number.Binary64
import AgentConfig.Proofs.Number.Decimal
import AgentConfig.Proofs.Number.Digits
import AgentConfig.Proofs.Number.Dotted
import AgentConfig.Proofs.Number.Layout
import AgentConfig.Proofs.Number.Rounding
import AgentConfig.Proofs.Number.Shortest
import AgentConfig.Proofs.Runtime
import AgentConfig.Proofs.Schema.Field
import AgentConfig.Proofs.Schema.Json
import AgentConfig.Proofs.Schema.Keys
import AgentConfig.Proofs.Schema.Read
import AgentConfig.Proofs.Schema.ReadWrite
import AgentConfig.Proofs.Schema.Respelled
import AgentConfig.Proofs.Schema.Sound
import AgentConfig.Proofs.Schema.Tree
import AgentConfig.Proofs.Settings.Deploy
import AgentConfig.Proofs.Settings.Effective
import AgentConfig.Proofs.Settings.Environment
import AgentConfig.Proofs.Settings.Secrets
import AgentConfig.Proofs.Settings.Shadowed
import AgentConfig.Proofs.Settings.Source
import AgentConfig.Proofs.Settings.Spelled
import AgentConfig.Proofs.Settings.Stored
import AgentConfig.Proofs.Settings.Stray
import AgentConfig.Proofs.Settings.Unquoted
import AgentConfig.Proofs.Text.Decoded
import AgentConfig.Proofs.Text.Quoted
import AgentConfig.Proofs.Text.Utf8
import AgentConfig.Proofs.Yaml.Blame
import AgentConfig.Proofs.Yaml.Composed
import AgentConfig.Proofs.Yaml.Cursor
import AgentConfig.Proofs.Yaml.Datum
import AgentConfig.Proofs.Yaml.Lexing
import AgentConfig.Proofs.Yaml.Line
import AgentConfig.Proofs.Yaml.Node
import AgentConfig.Proofs.Yaml.Number
import AgentConfig.Proofs.Yaml.Plain
import AgentConfig.Proofs.Yaml.Quoted
import AgentConfig.Proofs.Yaml.Readers
import AgentConfig.Proofs.Yaml.Resolved
import AgentConfig.Proofs.Yaml.Scanned
import AgentConfig.Proofs.Yaml.Tokens
import AgentConfig.Proofs.Yaml.Written
import AgentConfig.Runtime
import AgentConfig.Schema.Json
import AgentConfig.Schema.Problem
import AgentConfig.Schema.Read
import AgentConfig.Schema.Scalar
import AgentConfig.Schema.Shape
import AgentConfig.Schema.Write
import AgentConfig.Settings.Basic
import AgentConfig.Settings.Library
import AgentConfig.Settings.Source
import AgentConfig.Text.Base64
import AgentConfig.Text.Blank
import AgentConfig.Text.Capital
import AgentConfig.Text.Digit
import AgentConfig.Text.Pieces
import AgentConfig.Text.Printable
import AgentConfig.Text.Quoted
import AgentConfig.Text.Utf8
import AgentConfig.Tree
import AgentConfig.Value
import AgentConfig.Yaml.Cursor
import AgentConfig.Yaml.Datum
import AgentConfig.Yaml.Error
import AgentConfig.Yaml.Lexer
import AgentConfig.Yaml.Node
import AgentConfig.Yaml.Scalar.Block
import AgentConfig.Yaml.Scalar.Moment
import AgentConfig.Yaml.Scalar.Number
import AgentConfig.Yaml.Scalar.Plain
import AgentConfig.Yaml.Scalar.Quoted
import AgentConfig.Yaml.Scalar.Style
import AgentConfig.Yaml.Tag
import AgentConfig.Yaml.Token
import AgentConfig.Yaml.Writer
