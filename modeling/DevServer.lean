import DevServer.App.Basic
import DevServer.App.Route
import DevServer.App.Startup
import DevServer.CommandLine.Arguments
import DevServer.CommandLine.Basic
import DevServer.CommonJs.Export
import DevServer.CommonJs.Extension
import DevServer.CommonJs.Import
import DevServer.CommonJs.Lift
import DevServer.CommonJs.Load
import DevServer.CommonJs.Rewrite
import DevServer.Config.Basic
import DevServer.Config.Settings
import DevServer.Env.Client
import DevServer.Env.File
import DevServer.FileTree.Basic
import DevServer.FileTree.Edit
import DevServer.Http.Basic
import DevServer.Http.Date
import DevServer.Http.Files
import DevServer.Http.Media
import DevServer.Http.Media.Application
import DevServer.Http.Media.Image
import DevServer.Http.Media.Private
import DevServer.Http.Media.Sound
import DevServer.Http.Media.Special
import DevServer.Http.Media.Text
import DevServer.Http.Media.Vendor
import DevServer.Http.Media.Video
import DevServer.Http.Percent
import DevServer.Http.Range
import DevServer.Json.Magnitude
import DevServer.Json.Quote
import DevServer.Json.Reader
import DevServer.Json.Value
import DevServer.Layout
import DevServer.LiveUpdate.Hub
import DevServer.LiveUpdate.Message
import DevServer.LiveUpdate.Script
import DevServer.LiveUpdate.Watch
import DevServer.Main
import DevServer.Package.Cache
import DevServer.Package.Exports
import DevServer.Package.Manifest
import DevServer.Package.Request
import DevServer.Package.Resolve
import DevServer.Page
import DevServer.Path
import DevServer.Plugin.Basic
import DevServer.Plugin.Builtin
import DevServer.Proofs.Assignments
import DevServer.Proofs.Bindings
import DevServer.Proofs.Declarations
import DevServer.Proofs.Delivery
import DevServer.Proofs.Edits
import DevServer.Proofs.Exports
import DevServer.Proofs.History
import DevServer.Proofs.Inert
import DevServer.Proofs.Lines
import DevServer.Proofs.LoadCalls
import DevServer.Proofs.Patterns
import DevServer.Proofs.Queues
import DevServer.Proofs.Responses
import DevServer.Proofs.Returns
import DevServer.Proofs.RoutedLines
import DevServer.Proofs.Routing
import DevServer.Proofs.Scan
import DevServer.Proofs.Settled
import DevServer.Proofs.Specifiers
import DevServer.Proofs.Tracking
import DevServer.Server.Basic
import DevServer.Specifier
import DevServer.Text.Basic
import DevServer.Text.Classes
import DevServer.Text.Lines
import DevServer.Text.Quoted
import DevServer.Text.Scan
import DevServer.Text.Unseen
import DevServer.Proofs.Folding
import DevServer.Proofs.Kept
import DevServer.Proofs.Containment
import DevServer.Proofs.Marks
import DevServer.Proofs.Clauses
import DevServer.Proofs.Guesses
import DevServer.Proofs.Statements
import DevServer.Proofs.Spellings
import DevServer.Proofs.UrlFiles
import DevServer.Proofs.Parents
import DevServer.Proofs.ProjectUrls
import DevServer.Proofs.LongRoots
import DevServer.Proofs.Rebasing
import DevServer.Proofs.DependencyRoutes
import DevServer.Proofs.ClosedExports
import DevServer.Proofs.Untouched
import DevServer.Proofs.Fallbacks
import DevServer.Proofs.Watching
import DevServer.LiveUpdate.Shared
import DevServer.Proofs.Interleavings
import DevServer.Proofs.LiftedLoads
import DevServer.Proofs.BoundLines
import DevServer.Proofs.SeparateStatements
import DevServer.Proofs.Members
import DevServer.Proofs.CarriedMembers
import DevServer.Proofs.DeclaredNames
import DevServer.Proofs.ExportTargets
import DevServer.Proofs.SplicedSpecifiers
import DevServer.Proofs.ReplacedCalls
import DevServer.Proofs.ImportedLoads
import DevServer.Proofs.Pipelines
import DevServer.Proofs.OpenPackages
import DevServer.Proofs.NearestPackages
import DevServer.Proofs.Replacements
import DevServer.Proofs.Trimming
import DevServer.Proofs.DefinitionLines
import DevServer.Proofs.ClientKeys
import DevServer.Proofs.Rewrites
import DevServer.Proofs.DependencyEnv
import DevServer.Proofs.EnvReferences
import DevServer.Proofs.ValueLiterals
import DevServer.Proofs.ConfigObjects
import DevServer.Proofs.EntryPages
import DevServer.Proofs.BootstrapTags
import DevServer.Proofs.PackageNames
import DevServer.Proofs.CallEnds
