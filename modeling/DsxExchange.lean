import DsxExchange.Go.Text
import DsxExchange.Go.Maps
import DsxExchange.Cells.Program
import DsxExchange.Cells.Pool
import DsxExchange.AuthCallout.Config.LoadSpec
import DsxExchange.AuthCallout.Config.IterationOrder
import DsxExchange.AuthCallout.Auth.Request
import DsxExchange.AuthCallout.Auth.Authenticator
import DsxExchange.AuthCallout.Decision
import DsxExchange.AuthCallout.FailClosed
import DsxExchange.AuthCallout.ScopeInvariant
import DsxExchange.AuthCallout.Reload.Snapshot
import DsxExchange.AuthCallout.Reload.Overlap
import DsxExchange.AuthCallout.Reload.HotReload
import DsxExchange.DummyBms.TopicAddress
import DsxExchange.DummyBms.Schema
import DsxExchange.DummyBms.Acceptance
import DsxExchange.DummyBms.Scenario
import DsxExchange.DummyBms.Replay
import DsxExchange.DummyBms.BmsDocument
import DsxExchange.DummyBms.Publishers
import DsxExchange.AsyncapiDocs.Escaping
import DsxExchange.AsyncapiDocs.Overview
import DsxExchange.EventBus.Validation
import DsxExchange.Nats.Subject
import DsxExchange.Nats.Overlap
import DsxExchange.EventBus.CrossLayer
import DsxExchange.EventBus.Federation
import DsxExchange.EventBus.Environment
import DsxExchange.EventBus.Placeholders
import DsxExchange.GenerateNkeys.Names
import DsxExchange.GenerateNkeys.Script
import DsxExchange.GenerateNkeys.Files
import DsxExchange.GenerateNkeys.TempDirs
import DsxExchange.GenerateNkeys.Growth
import DsxExchange.GenerateNkeys.Steps
import DsxExchange.GenerateNkeys.Clusters
import DsxExchange.GenerateNkeys.Leaves
import DsxExchange.GenerateNkeys.Run
import DsxExchange.GenerateNkeys.Histories
import DsxExchange.EventBus.Secrets
import DsxExchange.DummyBms.PublishLoop
import DsxExchange.AuthCallout.Auth.Identity
import DsxExchange.AuthCallout.Auth.NKeyFormat
import DsxExchange.AuthCallout.Config.OAuth2Match
import DsxExchange.Go.Routines
import DsxExchange.Mqttbs.Scenarios
import DsxExchange.AuthCallout.AppConfig.EmptyVariables
import DsxExchange.Mqttbs.Safety
import DsxExchange.Python.Outcome
import DsxExchange.AsyncapiDocs.PropertyTable
import DsxExchange.AsyncapiDocs.Operation
import DsxExchange.AsyncapiDocs.Termination
import DsxExchange.AsyncapiDocs.YamlLines
import DsxExchange.AsyncapiDocs.YamlParser
import DsxExchange.AsyncapiDocs.YamlLayout
import DsxExchange.AsyncapiDocs.YamlCoverage
import DsxExchange.AsyncapiDocs.OperationSlugs
import DsxExchange.AsyncapiDocs.YamlSteps
import DsxExchange.AsyncapiDocs.YamlLiterals
import DsxExchange.AsyncapiDocs.YamlFlow
import DsxExchange.Mqttbs.Drain
import DsxExchange.AsyncapiDocs.CodeSpans
import DsxExchange.Mqttbs.Peak
import DsxExchange.AsyncapiDocs.Flattening
import DsxExchange.AsyncapiDocs.TableCoverage
import DsxExchange.AsyncapiDocs.YamlShifting
import DsxExchange.AsyncapiDocs.YamlItems
import DsxExchange.AsyncapiDocs.YamlContexts
import DsxExchange.EventBus.MqttStreams
import DsxExchange.AuthCallout.Reload.Live
import DsxExchange.EventBus.LeafLogin
import DsxExchange.Jwt.Methods
import DsxExchange.Jwt.Parser
import DsxExchange.Jwt.KeySet
import DsxExchange.AuthCallout.Auth.SignedTokens
import DsxExchange.Go.Base32
import DsxExchange.Go.Base64
import DsxExchange.AuthCallout.Auth.NKeyText
import DsxExchange.NatsJwt.Claims
import DsxExchange.NatsJwt.Tokens
import DsxExchange.AuthCallout.Callout.Handler
import DsxExchange.NatsServer.AuthCallout
import DsxExchange.AuthCallout.Callout.Exchange
import DsxExchange.AuthCallout.Callout.Runs
import DsxExchange.AsyncapiDocs.YamlMarks
import DsxExchange.NestedMaps.Tree
import DsxExchange.NestedMaps.Unflatten
